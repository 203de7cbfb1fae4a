import Mathlib
import Portability.Proofs.MatrixGrammar

/-! The order of versions, and what is chosen by it: the rule on which a verdict rests, the version
that a text means, and whether a matrix declares the versions of its rules. -/
namespace Portability

namespace Version

variable {u v w : Version}

theorem compare_swap (v w : Version) : w.compare v = (v.compare w).swap := by
  rw [compare_eq_cmp, compare_eq_cmp, cmp_swap]

/-- Versions no later than each other are the same. -/
theorem same_of_isLE (hle : (v.compare w).isLE = true) (hge : (w.compare v).isLE = true) :
    v.same w = true := by
  rw [isLE_compare] at hle hge
  exact same_iff.mpr (le_antisymm hle hge)

theorem isLE_trans (huv : (u.compare v).isLE = true) (hvw : (v.compare w).isLE = true) :
    (u.compare w).isLE = true := by
  rw [isLE_compare] at huv hvw ⊢
  exact huv.trans hvw

theorem isLE_total (v w : Version) :
    (v.compare w).isLE = true ∨ (w.compare v).isLE = true := by
  rw [isLE_compare, isLE_compare]
  exact le_total _ _

theorem compare_eq_iff_stripZeros :
    v.compare w = .eq ↔ stripZeros v.parts = stripZeros w.parts := by
  rw [← same_iff_stripZeros, same, beq_iff_eq]

end Version

namespace Matrix

variable {s : Section} {m : Matrix} {version v : Version} {item : Option String} {r : Rule}
  {text : String} {versions : List Version} {sections : List Section}

/-- The rules in force at a version that speak about an item. -/
def Section.inForce (s : Section) (version : Version) (item : Option String) : List Rule :=
  s.rules.filter fun r => (r.since.compare version).isLE && r.appliesTo item

theorem Section.inForce_eq (s : Section) (version : Version) (item : Option String) :
    s.inForce version item = s.rules.filter (·.isCandidate version item) := by
  refine List.filter_congr fun r _ => ?_
  have hforce : (r.since.compare version).isLE = !r.since.newer version := by
    rw [Bool.eq_iff_iff, Version.isLE_compare, Bool.not_eq_true', ← Bool.not_eq_true,
      Version.newer_iff, not_lt]
  rw [hforce, Rule.isCandidate]

/-- The verdict rests on the rule in force that compares greater than all before it and no less
than all after it. -/
theorem Section.rule?_eq_some_iff_split : s.rule? version item = some r ↔
    ∃ before after, s.inForce version item = before ++ r :: after ∧
      (∀ x ∈ before, x.since.compare r.since = .lt) ∧
      ∀ x ∈ after, (x.since.compare r.since).isLE = true := by
  rw [rule?_eq_argmax, ← inForce_eq, argmax_eq_some_iff, List.find?_eq_some_iff_append]
  simp only [Version.compare_eq_lt, Version.isLE_compare]
  constructor
  · rintro ⟨hmax, -, before, after, hsplit, hbefore⟩
    refine ⟨before, after, hsplit, fun x hx => ?_, fun x hx => hmax x (by simp [hsplit, hx])⟩
    have hne : x.since.rank ≠ r.since.rank := by simpa using hbefore x hx
    exact lt_of_le_of_ne (hmax x (by simp [hsplit, hx])) hne
  · rintro ⟨before, after, hsplit, hbefore, hafter⟩
    refine ⟨fun x hx => ?_, by simp, before, after, hsplit, fun x hx => ?_⟩
    · rw [hsplit, List.mem_append, List.mem_cons] at hx
      rcases hx with hx | rfl | hx
      · exact (hbefore x hx).le
      · exact le_rfl
      · exact hafter x hx
    · simpa using (hbefore x hx).ne

theorem Section.rule?_eq_none_iff_inForce :
    s.rule? version item = none ↔ s.inForce version item = [] := by
  rw [rule?_eq_argmax, ← inForce_eq, List.argmax_eq_none]

/-- A text means the first declared version that compares equal to it. -/
theorem resolveVersion_eq_ok_iff : m.resolveVersion (some text) = .ok v ↔
    ∃ wanted, Version.parse? text = some wanted ∧ v.compare wanted = .eq ∧
      ∃ before after, m.versions = before ++ v :: after ∧
        ∀ u ∈ before, u.compare wanted ≠ .eq := by
  have hfound : m.resolveVersion (some text) = .ok v ↔
      ∃ wanted, Version.parse? text = some wanted ∧
        m.versions.find? (·.same wanted) = some v := by
    dsimp only [resolveVersion]
    cases Version.parse? text with
    | none => simp
    | some wanted =>
      rw [Option.bind_some]
      cases hfind : m.versions.find? (·.same wanted) <;> simp [hfind]
  simp only [hfound, List.find?_eq_some_iff_append, Version.same, beq_iff_eq, Bool.not_eq_true',
    beq_eq_false_iff_ne]

/-- A text means a version if a declared one compares equal to it. -/
theorem exists_resolveVersion_iff : (∃ v, m.resolveVersion (some text) = .ok v) ↔
    ∃ wanted, Version.parse? text = some wanted ∧ ∃ v ∈ m.versions, v.compare wanted = .eq := by
  constructor
  · rintro ⟨v, hv⟩
    obtain ⟨wanted, hwanted, heq, before, after, hsplit, -⟩ := resolveVersion_eq_ok_iff.mp hv
    exact ⟨wanted, hwanted, v, by simp [hsplit], heq⟩
  · rintro ⟨wanted, hwanted, v, hv, heq⟩
    have hsome : (m.versions.find? (·.compare wanted = .eq)).isSome = true :=
      List.find?_isSome.mpr ⟨v, hv, by simpa using heq⟩
    obtain ⟨first, hfirst⟩ := Option.isSome_iff_exists.mp hsome
    obtain ⟨hat, before, after, hsplit, hbefore⟩ := List.find?_eq_some_iff_append.mp hfirst
    refine ⟨first, resolveVersion_eq_ok_iff.mpr ?_⟩
    exact ⟨wanted, hwanted, by simpa using hat, before, after, hsplit, by simpa using hbefore⟩

/-- A matrix is complete if each version of a rule compares equal to a declared one. -/
theorem undeclared?_eq_none_iff_compare : undeclared? versions sections = none ↔
    ∀ s ∈ sections, ∀ r ∈ s.rules, ∃ v ∈ versions, v.compare r.since = .eq := by
  simp only [undeclared?_eq_none_iff, Version.same, beq_iff_eq]

theorem compare_undeclared (h : undeclared? versions sections = some (s, v)) :
    s ∈ sections ∧ ∃ r ∈ s.rules, r.since = v ∧ ∀ u ∈ versions, u.compare v ≠ .eq := by
  unfold undeclared? at h
  obtain ⟨t, ht, hfound⟩ := List.exists_of_findSome?_eq_some h
  obtain ⟨r, hr, heq⟩ := Option.map_eq_some_iff.mp hfound
  obtain ⟨rfl, rfl⟩ := Prod.mk.inj heq
  refine ⟨List.mem_mergeSort.mp ht, r, List.mem_of_find?_eq_some hr, rfl, ?_⟩
  simpa [Version.same] using List.find?_some hr

/-- Versions are totally preordered, and equal where they differ by zeros at their ends only. The
choice of a rule, the version that a text means and the check of a matrix all go by this order. -/
theorem compare_total_preorder :
    (∀ v : Version, (v.compare v).isLE = true) ∧
    (∀ v w : Version, (v.compare w).isLE = true → (w.compare v).isLE = true →
      v.same w = true) ∧
    (∀ u v w : Version, (u.compare v).isLE = true → (v.compare w).isLE = true →
      (u.compare w).isLE = true) ∧
    (∀ v w : Version, (v.compare w).isLE = true ∨ (w.compare v).isLE = true) ∧
    (∀ v w : Version, w.compare v = (v.compare w).swap) ∧
    (∀ v w : Version, v.compare w = .eq ↔
      Version.stripZeros v.parts = Version.stripZeros w.parts) ∧
    (∀ v w : Version, v.same w = true ↔ v.compare w = .eq) ∧
    (∀ v w : Version, v.newer w = true ↔ ¬ (v.compare w).isLE = true) ∧
    (∀ (s : Section) (version : Version) (item : Option String),
      (s.rule? version item = none ↔ s.inForce version item = []) ∧
      ∀ r, s.rule? version item = some r ↔
        ∃ before after, s.inForce version item = before ++ r :: after ∧
          (∀ x ∈ before, x.since.compare r.since = .lt) ∧
          ∀ x ∈ after, (x.since.compare r.since).isLE = true) ∧
    (∀ (m : Matrix) (text : String),
      ((∃ v, m.resolveVersion (some text) = .ok v) ↔
        ∃ wanted, Version.parse? text = some wanted ∧
          ∃ v ∈ m.versions, v.compare wanted = .eq) ∧
      ∀ v, m.resolveVersion (some text) = .ok v ↔
        ∃ wanted, Version.parse? text = some wanted ∧ v.compare wanted = .eq ∧
          ∃ before after, m.versions = before ++ v :: after ∧
            ∀ u ∈ before, u.compare wanted ≠ .eq) ∧
    (∀ (versions : List Version) (sections : List Section),
      (undeclared? versions sections = none ↔
        ∀ s ∈ sections, ∀ r ∈ s.rules, ∃ v ∈ versions, v.compare r.since = .eq) ∧
      ∀ s v, undeclared? versions sections = some (s, v) →
        s ∈ sections ∧ ∃ r ∈ s.rules, r.since = v ∧ ∀ u ∈ versions, u.compare v ≠ .eq) := by
  refine ⟨fun v => ?_, fun v w => Version.same_of_isLE, fun u v w => Version.isLE_trans,
    Version.isLE_total, Version.compare_swap, fun v w => Version.compare_eq_iff_stripZeros,
    fun v w => ?_, fun v w => ?_, fun s version item => ?_, fun m text => ?_,
    fun versions sections => ?_⟩
  · exact Version.isLE_compare.mpr le_rfl
  · rw [Version.same_iff, Version.compare_eq_eq]
  · rw [Version.newer_iff, Version.isLE_compare, not_le]
  · exact ⟨Section.rule?_eq_none_iff_inForce, fun r => Section.rule?_eq_some_iff_split⟩
  · exact ⟨exists_resolveVersion_iff, fun v => resolveVersion_eq_ok_iff⟩
  · exact ⟨undeclared?_eq_none_iff_compare, fun s v => compare_undeclared⟩

/-- Zeros at the end change nothing between 1.0 and 1.1. -/
theorem compare_total_preorder_zeros :
    let short : Version := ⟨"1.0", [1, 0]⟩
    let long : Version := ⟨"1.0.0", [1, 0, 0]⟩
    let later : Version := ⟨"1.1", [1, 1]⟩
    let s : Section := { name := "T", rules := [⟨.supported, later, []⟩] }
    short.same long = true ∧ (short.compare later).isLE = true ∧
      undeclared? [short, long] [s] = some (s, later) ∧
      ∀ u ∈ [short, long], u.compare later ≠ .eq := by
  intro short long later s
  have hle : (short.compare long).isLE = true := by cbv
  have hge : (long.compare short).isLE = true := by cbv
  have hlater : (long.compare later).isLE = true := by cbv
  have hundeclared : undeclared? [short, long] [s] = some (s, later) := by
    rw [undeclared?, List.mergeSort_singleton]
    cbv
  obtain ⟨-, hsame, htrans, -, -, -, -, -, -, -, hchecked⟩ := compare_total_preorder
  obtain ⟨-, r, -, -, hnone⟩ := (hchecked [short, long] [s]).2 s later hundeclared
  exact ⟨hsame short long hle hge, htrans short long later hle hlater, hundeclared, hnone⟩

end Matrix

end Portability
