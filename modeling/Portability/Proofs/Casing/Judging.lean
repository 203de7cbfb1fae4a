import Portability.Proofs.Casing.Survey
import Portability.Proofs.Verdicts

/-! Verdicts do not depend on case. The matrix and the overrides are asked in upper case, so
sightings that are the same up to case get the same status and the same group. Where one of them
gets no verdict, the other gets none either, though the complaint may spell the item in another way.
-/
namespace Portability

/-- The computations both fail, or their results are related. -/
inductive Together {α β : Type} (R : α → β → Prop) : Except Error α → Except Error β → Prop
  | error (e e' : Error) : Together R (.error e) (.error e')
  | ok {a : α} {b : β} (h : R a b) : Together R (.ok a) (.ok b)

/-- Failing both, for whatever reasons, or with related results. -/
def Comparison.together : Comparison where
  rel := Together
  refl x := by
    cases x with
    | error e => exact .error e e
    | ok a => exact .ok rfl
  done := .ok
  bind h hgo := by
    cases h with
    | error e e' => exact .error e e'
    | ok h => exact hgo _ _ h

/-- Two results that have the same image as a third one have the same image. -/
theorem Together.meet {α β : Type} {φ : α → β} {x y z : Except Error α}
    (h : Together (φ · = φ ·) z x) (h' : Together (φ · = φ ·) z y) : Together (φ · = φ ·) x y := by
  cases h with
  | error e e' =>
    cases h' with
    | error _ e'' => exact .error e' e''
  | ok h =>
    cases h' with
    | ok h' => exact .ok (h.symm.trans h')

/-- Where the first of two computations ends with a result, so does the second. -/
theorem Together.exists_of_some {α β : Type} {R : α → β → Prop} {a : α}
    {y : Option (Except Error β)} (h : Option.Rel (Together R) (some (.ok a)) y) :
    ∃ b, y = some (.ok b) ∧ R a b := by
  cases h with
  | some h =>
    cases h with
    | ok h => exact ⟨_, rfl, h⟩

/-- The finding with its texts in lower case. -/
def Finding.fold (f : Finding) : Finding :=
  { f with
    item := Text.lower f.item
    detail := Text.lower f.detail
    object := Text.lower f.object
    part := Text.lower f.part }

/-- The ruling with its texts in lower case. -/
def Ruling.fold (r : Ruling) : Ruling :=
  { r with lookup := r.lookup.map Text.lower, detail? := r.detail?.map Text.lower }

/-! ### The matrix -/

namespace Matrix

variable (m : Matrix) (version : Version)

open Comparison (together)

/-- Items are found by their names in capitals, so both lookups give one status or one error. -/
theorem find_together {name name' : String} (h : Text.upper name = Text.upper name')
    (item item' : Option String) : Together Eq (m.find name item) (m.find name' item') := by
  unfold find
  rw [find?, h, ← find?]
  cases m.find? name' with
  | none => exact .error _ _
  | some s => exact .ok rfl

/-- A matrix defines an item under every spelling of it. -/
@[simp] theorem defines_lower (name : String) (item : Option String) :
    m.defines name (item.map Text.lower) = m.defines name item := by
  unfold defines
  cases m.find? name <;> cases item <;> simp [Text.upper_lower]

/-- A missing item is an error of both lookups. -/
theorem require_together (name : String) (item : Option String) :
    Together Eq (m.require name (item.map Text.lower)) (m.require name item) := by
  unfold require
  rw [defines_lower]
  split
  · exact .ok rfl
  · exact .error _ _

/-- An item has one status at a version, however it is spelled. -/
theorem status_together {name name' : String} (h : Text.upper name = Text.upper name')
    (item : Option String) :
    Together Eq (m.status version name (item.map Text.lower)) (m.status version name' item) := by
  refine together.bind (m.find_together h _ _) ?_
  rintro s _ rfl
  cases item with
  | none => exact .ok rfl
  | some item =>
    simp only [Option.map_some, Text.upper_lower]
    split
    · exact .ok rfl
    · exact .error _ _

/-- The rule for an argument is found by the function and the value in capitals. -/
theorem argumentStatus_together (name item : String) (position : Nat) (value? : Option String) :
    Together Eq (m.argumentStatus version name (Text.lower item) position (value?.map Text.lower))
      (m.argumentStatus version name item position value?) := by
  have hsection : Text.upper (argumentSection name (Text.lower item) position) =
      Text.upper (argumentSection name item position) := by
    apply Text.upper_eq_of_lower
    simp [argumentSection]
  cases value? with
  | none =>
    refine together.bind (m.find_together hsection _ _) ?_
    rintro s _ rfl
    exact .ok rfl
  | some value => exact m.status_together version hsection (some value)

theorem group_together (name : String) (item : Option String) :
    Together Eq (m.group name (item.map Text.lower)) (m.group name item) := by
  refine together.bind (m.find_together rfl _ _) ?_
  rintro s _ rfl
  cases item <;> simp [Text.upper_lower] <;> exact .ok rfl

/-- A call is judged by the rule for its argument, or as the function itself. -/
theorem callStatus_together (function : String) (argument? : Option CallArgument) :
    Together Eq (m.callStatus version (Text.lower function) (argument?.map CallArgument.fold))
      (m.callStatus version function argument?) := by
  refine together.bind (m.status_together version rfl (some function)) ?_
  rintro own _ rfl
  cases argument? with
  | none => exact .ok rfl
  | some a => exact m.argumentStatus_together version _ function a.position a.value?

/-- The ruling on a call is the same up to the spelling that its texts show. -/
theorem ruleCall_together (function : String) (argument? : Option CallArgument)
    (inComputedColumn : Bool) :
    Together (Ruling.fold · = Ruling.fold ·)
      (m.ruleCall version (Text.lower function) (argument?.map CallArgument.fold) inComputedColumn)
      (m.ruleCall version function argument? inComputedColumn) := by
  refine together.bind (m.callStatus_together version function argument?) ?_
  rintro status _ rfl
  have hdefines := m.defines_lower Topic.functionsInComputedColumn.name (some function)
  rw [Option.map_some] at hdefines
  dsimp only
  split
  · have hlookup : (if m.defines Topic.functionsInComputedColumn.name (some function)
          then some (Text.lower function) else none) =
        (if m.defines Topic.functionsInComputedColumn.name (some function)
          then some function else none).map Text.lower := by
      split <;> rfl
    rw [hdefines, hlookup]
    refine together.bind (m.status_together version rfl _) ?_
    rintro status _ rfl
    exact .ok (by simp [Ruling.fold])
  · refine together.bind (m.require_together _ (some function)) ?_
    rintro _ _ -
    refine .ok ?_
    cases argument? <;> simp [Ruling.fold, CallArgument.fold]

/-- The matrix rules alike on what is asked in another case. -/
theorem rule_together (q : Question) :
    Together (Ruling.fold · = Ruling.fold ·) (m.rule version q.fold) (m.rule version q) := by
  cases q with
  | item name lookup =>
    refine together.bind (m.status_together version rfl lookup) ?_
    rintro status _ rfl
    exact .ok (by simp [Ruling.fold, Function.comp_def])
  | ruled name lookup status =>
    refine together.bind (m.require_together name lookup) ?_
    rintro _ _ -
    exact .ok (by simp [Ruling.fold, Function.comp_def])
  | argument name option position value? =>
    refine together.bind (m.argumentStatus_together version name option position value?) ?_
    rintro status _ rfl
    refine together.bind (m.require_together name (some option)) ?_
    rintro _ _ -
    exact .ok (by simp [Ruling.fold])
  | call function argument? inComputedColumn =>
    exact m.ruleCall_together version function argument? inComputedColumn

end Matrix

/-! ### Findings -/

/-- An override applies to every spelling of its key. -/
theorem Overrides.replacement?_of_upper (o : Overrides) {key key' : String}
    (h : Text.upper key = Text.upper key') (sectionName : String) (status : Status) :
    o.replacement? sectionName key status = o.replacement? sectionName key' status := by
  unfold replacement? find?
  rw [h]

namespace Judge

variable (j : Judge) (place : BatchPlace)

/-- A sighting in another case gets the same finding up to case. -/
theorem finding_together (x : Sighting) :
    Together (Finding.fold · = Finding.fold ·) (j.finding place x.fold) (j.finding place x) := by
  refine Comparison.together.bind (j.matrix.rule_together j.version x.report.question) ?_
  rintro ⟨name, lookup, status, detail?⟩ ⟨name', lookup', status', detail?'⟩ hruling
  obtain ⟨rfl, hlookup, rfl, hdetail⟩ : name = name' ∧
      lookup.map Text.lower = lookup'.map Text.lower ∧ status = status' ∧
      detail?.map Text.lower = detail?'.map Text.lower := by
    simpa [Ruling.fold] using hruling
  have hgroup : Together Eq (j.matrix.group name lookup) (j.matrix.group name lookup') := by
    have h := j.matrix.group_together name lookup
    rw [hlookup] at h
    exact h.meet (φ := id) (j.matrix.group_together name lookup')
  refine Comparison.together.bind hgroup ?_
  rintro group _ rfl
  have hkey : Text.upper (lookup.getD x.fold.report.display) =
      Text.upper (lookup'.getD x.report.display) := by
    apply Text.upper_eq_of_lower
    cases lookup <;> cases lookup' <;> simp [Sighting.fold, Report.fold] at hlookup ⊢
    exact hlookup
  have hshown : Text.lower (detail?.getD (Text.lower x.report.detail)) =
      Text.lower (detail?'.getD x.report.detail) := by
    cases detail? <;> cases detail?' <;> simp at hdetail ⊢
    exact hdetail
  refine .ok ?_
  dsimp only
  rw [j.overrides.replacement?_of_upper hkey]
  simp [Finding.fold, Sighting.fold, Report.fold, hshown]

/-- Sightings that are the same up to case get the same findings up to case, in the same order. -/
theorem findings_together {sightings sightings' : List Sighting}
    (h : sightings.map Sighting.fold = sightings'.map Sighting.fold) :
    Together (List.Forall₂ fun f f' => f.fold = f'.fold) (j.findings place sightings)
      (j.findings place sightings') := by
  refine findings_related (C := .together) ?_
  have hsame : List.Forall₂ (fun x x' : Sighting => x.fold = x'.fold) sightings sightings' := by
    rw [← List.forall₂_eq_eq_eq, List.forall₂_map_left_iff, List.forall₂_map_right_iff] at h
    exact h
  refine hsame.imp fun x x' hx => ?_
  have hqueued : x.fold.isQueued = x'.fold.isQueued := by rw [hx]
  refine ⟨hqueued, ?_⟩
  have hfinding := j.finding_together place x
  rw [hx] at hfinding
  exact hfinding.meet (j.finding_together place x')

end Judge

end Portability
