import Mathlib
import Portability.Version

/-! The order of versions is the lexicographic order of their numbers, with zeros for those that are
missing. Two versions are the same if they are equal up to zeros at their ends. -/
namespace Portability.Version

variable {a b : Version} {as bs : List Nat}

/-- The number in a place, zero where none is written. -/
def component (parts : List Nat) (i : Nat) : Nat := parts.getD i 0

/-- Sequences of numbers, of which the first difference decides. -/
def Rank : Type := Lex (Nat → Nat)

noncomputable instance : LinearOrder Rank := inferInstanceAs (LinearOrder (Lex (Nat → Nat)))

/-- The place of the version in the order of versions. -/
def rank (v : Version) : Rank := toLex (component v.parts)

@[simp] theorem component_zero (parts : List Nat) : component parts 0 = parts.headD 0 := by
  cases parts <;> rfl

@[simp] theorem component_succ (parts : List Nat) (i : Nat) :
    component parts (i + 1) = component parts.tail i := by
  cases parts <;> rfl

/-- One step of a comparison, whether or not numbers are left on either side. -/
theorem compareParts_eq (as bs : List Nat) :
    compareParts as bs =
      (Ord.compare (as.headD 0) (bs.headD 0)).then (compareParts as.tail bs.tail) := by
  cases as <;> cases bs <;> simp [compareParts]

theorem compareParts_eq_eq : compareParts as bs = .eq ↔ component as = component bs := by
  induction as, bs using compareParts.induct with
  | case1 => simp [compareParts]
  | case2 a as ih | case3 b bs ih | case4 a as b bs ih =>
    rw [compareParts_eq, Ordering.then_eq_eq, compare_eq_iff_eq, List.tail, List.tail, ih]
    constructor
    · rintro ⟨hhead, htail⟩
      funext i
      cases i with
      | zero => simpa using hhead
      | succ i => simpa using congrFun htail i
    · intro h
      refine ⟨by simpa using congrFun h 0, funext fun i => ?_⟩
      simpa using congrFun h (i + 1)

/-- The first difference decides. -/
theorem compareParts_eq_gt : compareParts as bs = .gt ↔
    ∃ i, (∀ j < i, component bs j = component as j) ∧ component bs i < component as i := by
  induction as, bs using compareParts.induct with
  | case1 => simp [compareParts, component]
  | case2 a as ih | case3 b bs ih | case4 a as b bs ih =>
    rw [compareParts_eq, Ordering.then_eq_gt, compare_gt_iff_gt, compare_eq_iff_eq, List.tail,
      List.tail, ih]
    constructor
    · rintro (hhead | ⟨hhead, i, hbefore, hat⟩)
      · exact ⟨0, by simp, by simp only [component_zero]; exact hhead⟩
      · refine ⟨i + 1, fun j hj => ?_, by simpa using hat⟩
        cases j with
        | zero => simpa using hhead.symm
        | succ j => simpa using hbefore j (by omega)
    · rintro ⟨i, hbefore, hat⟩
      cases i with
      | zero =>
        simp only [component_zero] at hat
        exact .inl hat
      | succ i =>
        refine .inr ⟨by simpa using (hbefore 0 (by omega)).symm, i, fun j hj => ?_, ?_⟩
        · simpa using hbefore (j + 1) (by omega)
        · simpa using hat

theorem same_iff : a.same b = true ↔ a.rank = b.rank := by
  rw [same, compare, beq_iff_eq, compareParts_eq_eq]
  exact toLex_inj.symm

theorem newer_iff : a.newer b = true ↔ b.rank < a.rank := by
  rw [newer, compare, beq_iff_eq, compareParts_eq_gt]
  rfl

/-- Versions compare as their places in the order do. -/
theorem compare_eq_cmp (a b : Version) : a.compare b = cmp a.rank b.rank := by
  have hsame := @same_iff a b
  have hnewer := @newer_iff a b
  rw [same, beq_iff_eq] at hsame
  rw [newer, beq_iff_eq] at hnewer
  cases hcompare : a.compare b with
  | eq => exact ((cmp_eq_eq_iff _ _).mpr (hsame.mp hcompare)).symm
  | gt => exact ((cmp_eq_gt_iff _ _).mpr (hnewer.mp hcompare)).symm
  | lt =>
    rw [hcompare] at hsame hnewer
    have hne : a.rank ≠ b.rank := fun h => nomatch hsame.mpr h
    have hle : a.rank ≤ b.rank := not_lt.mp fun h => nomatch hnewer.mpr h
    exact ((cmp_eq_lt_iff _ _).mpr (lt_of_le_of_ne hle hne)).symm

theorem compare_eq_lt : a.compare b = .lt ↔ a.rank < b.rank := by
  rw [compare_eq_cmp, cmp_eq_lt_iff]

theorem compare_eq_eq : a.compare b = .eq ↔ a.rank = b.rank := by
  rw [compare_eq_cmp, cmp_eq_eq_iff]

theorem isLE_compare : (a.compare b).isLE = true ↔ a.rank ≤ b.rank := by
  rw [compare_eq_cmp, Ordering.isLE_iff_ne_gt, ← not_lt, ← cmp_eq_gt_iff]

/-! ### Zeros at the end -/

/-- The numbers without the zeros at their end. -/
def stripZeros (parts : List Nat) : List Nat := parts.rdropWhile (· == 0)

theorem component_stripZeros (parts : List Nat) :
    component (stripZeros parts) = component parts := by
  induction parts using List.reverseRecOn with
  | nil => rfl
  | append_singleton rest n ih =>
    by_cases hn : n = 0
    · have hdrop : stripZeros (rest ++ [n]) = stripZeros rest :=
        List.rdropWhile_concat_pos _ _ _ (by simpa using hn)
      rw [hdrop, ih]
      funext i
      simp only [component, List.getD_eq_getElem?_getD, List.getElem?_append]
      split
      · rfl
      · rename_i hi
        rw [List.getElem?_eq_none (by omega), hn]
        cases i - rest.length <;> simp
    · rw [stripZeros, List.rdropWhile_concat_neg _ _ _ (by simpa using hn)]

theorem length_le_of_component_eq (h : component as = component bs)
    (hlast : ∀ hne : bs ≠ [], bs.getLast hne ≠ 0) : bs.length ≤ as.length := by
  by_contra hlt
  have hne : bs ≠ [] := List.ne_nil_of_length_pos (by omega)
  have hend := congrFun h (bs.length - 1)
  rw [component, component, List.getD_eq_default _ _ (by omega),
    List.getD_eq_getElem _ _ (by omega), ← List.getLast_eq_getElem hne] at hend
  exact hlast hne hend.symm

/-- Numbers stand for the same version if they are equal up to zeros at their ends. -/
theorem component_eq_iff : component as = component bs ↔ stripZeros as = stripZeros bs := by
  constructor
  · intro h
    have hlast : ∀ parts : List Nat, ∀ hne : stripZeros parts ≠ [],
        (stripZeros parts).getLast hne ≠ 0 := by
      intro parts hne
      simpa [stripZeros] using List.rdropWhile_last_not (· == 0) parts hne
    have hsame : component (stripZeros as) = component (stripZeros bs) := by
      rw [component_stripZeros, component_stripZeros, h]
    have hle := length_le_of_component_eq hsame (hlast bs)
    have hge := length_le_of_component_eq hsame.symm (hlast as)
    refine List.ext_getElem (by omega) fun i hi hi' => ?_
    have hat := congrFun hsame i
    rwa [component, component, List.getD_eq_getElem _ _ hi, List.getD_eq_getElem _ _ hi'] at hat
  · intro h
    rw [← component_stripZeros as, h, component_stripZeros]

theorem same_iff_stripZeros : a.same b = true ↔ stripZeros a.parts = stripZeros b.parts := by
  rw [same, compare, beq_iff_eq, compareParts_eq_eq, component_eq_iff]

end Portability.Version
