import Portability.Category
import Portability.Proofs.Casing.Text

/-! Names in another case have the same parts up to case, the same reach and the same key, and types
in another case are the same types. -/
namespace Portability

open Text

/-! ### Quoting -/

namespace Text

/-- A mark without case is undoubled at the same places. -/
theorem undoubleMark_toLower {mark : Char} (h : IsCaseless mark) (cs : List Char) :
    undoubleMark mark (cs.map Char.toLower) = (undoubleMark mark cs).map Char.toLower := by
  fun_induction undoubleMark mark cs with
  | case1 => rfl
  | case2 c => rfl
  | case3 c d rest hmark ih =>
    obtain ⟨rfl, rfl⟩ := hmark
    simp [undoubleMark, h.1, ih]
  | case4 c d rest hmark ih =>
    have hother : ¬ (c.toLower = mark ∧ d.toLower = mark) := by
      rwa [toLower_eq_iff h, toLower_eq_iff h]
    simp only [List.map_cons] at ih ⊢
    rw [undoubleMark, if_neg hother, ih]

end Text

namespace Identifier

theorem isCaseless_opener (q : Quote) : IsCaseless q.opener := by cases q <;> decide

theorem isCaseless_closer (q : Quote) : IsCaseless q.closer := by cases q <;> decide

/-- What stands between two marks is the same up to case. -/
theorem within?_toLower (q : Quote) (cs : List Char) :
    within? q (cs.map Char.toLower) = (within? q cs).map (List.map Char.toLower) := by
  cases cs with
  | nil => rfl
  | cons c rest =>
    have hlast : (rest.map Char.toLower).getLast? = some q.closer ↔
        rest.getLast? = some q.closer := by
      simp [toLower_eq_iff (isCaseless_closer q)]
    simp only [within?, List.map_cons, toLower_eq_iff (isCaseless_opener q), hlast]
    split <;> simp

theorem bareChars_toLower (cs : List Char) :
    bareChars (cs.map Char.toLower) = (bareChars cs).map Char.toLower := by
  unfold bareChars
  dsimp only
  rw [trimChars_toLower, within?_toLower, within?_toLower]
  cases within? .bracket (trimChars cs) with
  | some inner => exact undoubleMark_toLower (by decide) inner
  | none =>
    cases within? .double (trimChars cs) with
    | some inner => exact undoubleMark_toLower (by decide) inner
    | none => rfl

theorem closerOf?_toLower (c : Char) : closerOf? c.toLower = closerOf? c :=
  apply_toLower (by decide) c

theorem isCaseless_of_closerOf? {c close : Char} (h : closerOf? c = some close) :
    IsCaseless close := by
  unfold closerOf? at h
  split at h
  · cases h
    decide
  · split at h
    · cases h
      decide
    · cases h

/-- A name falls into the same parts: periods, blanks and delimiters have no case. -/
theorem partsFrom_toLower {closer : Option Char} (hcloser : ∀ close ∈ closer, IsCaseless close)
    (part cs : List Char) :
    partsFrom closer (part.map Char.toLower) (cs.map Char.toLower) =
      (partsFrom closer part cs).map (List.map Char.toLower) := by
  fun_induction partsFrom closer part cs with
  | case1 closer part => simp [partsFrom, ← List.map_reverse, bareChars_toLower]
  | case2 part close ih =>
    have hclose := hcloser close rfl
    simpa [partsFrom, hclose.1] using ih (by simp)
  | case3 part close rest ih =>
    have hclose := hcloser close rfl
    simpa [partsFrom, hclose.1] using ih hcloser
  | case4 part close c rest hother ih =>
    have hclose := hcloser close rfl
    simpa [partsFrom, hclose.1, toLower_eq_iff hclose, hother] using ih (by simp)
  | case5 part c rest close hother ih =>
    have hclose := hcloser close rfl
    rw [List.map_cons, partsFrom.eq_def]
    simpa [toLower_eq_iff hclose, hother] using ih hcloser
  | case6 part rest ih =>
    have hdot : Char.toLower '.' = '.' := rfl
    simpa [partsFrom, hdot, ← List.map_reverse, bareChars_toLower] using ih (by simp)
  | case7 part c rest hdot hblank ih =>
    have hdot' : c.toLower ≠ '.' := by rwa [Ne, toLower_eq_iff (by decide)]
    simpa [partsFrom, hdot', hblank] using ih (by simp)
  | case8 part c rest hdot hblank ih =>
    have hdot' : c.toLower ≠ '.' := by rwa [Ne, toLower_eq_iff (by decide)]
    simpa [partsFrom, hdot', hblank, closerOf?_toLower] using
      ih fun close h => isCaseless_of_closerOf? h

/-- The parts of a name in lower case are its parts in lower case. -/
theorem parts_lower (s : String) : parts (lower s) = (parts s).map lower := by
  have h := @partsFrom_toLower none (by simp) [] (trimChars s.toList)
  rw [List.map_nil] at h
  simp [parts, toList_lower, trimChars_toLower, h, lower_ofList]

end Identifier

/-! ### Names -/

namespace Name

/-- The name with its parts in lower case. -/
def fold (n : Name) : Name := { n with parts := n.parts.map lower }

/-- A name resolves to the same parts, up to case. -/
@[simp] theorem resolve_lower (raw : String) : resolve (lower raw) = (resolve raw).fold := by
  have hhead := beq_head?_lower (s := trim raw) (d := '.') (by decide)
  simp [resolve, fold, Identifier.parts_lower, hhead, List.map_drop]

variable (n : Name)

@[simp] theorem partCount_fold : n.fold.partCount = n.partCount := by simp [fold, partCount]

@[simp] theorem leadingDot_fold : n.fold.leadingDot = n.leadingDot := rfl

@[simp] theorem partFromRight?_fold (offset : Nat) :
    n.fold.partFromRight? offset = (n.partFromRight? offset).map lower := by
  simp only [partFromRight?, fold, ← List.map_reverse, List.getElem?_map]
  cases n.parts.reverse[offset]? with
  | none => rfl
  | some p => by_cases hp : p.isEmpty <;> simp [Option.filter, hp]

@[simp] theorem object_fold : n.fold.object = lower n.object := by
  simp only [object, fold, List.getLastD_eq_getLast?, List.getLast?_map]
  cases n.parts.getLast? <;> simp

@[simp] theorem schema?_fold : n.fold.schema? = n.schema?.map lower := n.partFromRight?_fold 1

@[simp] theorem isCrossDatabase_fold : n.fold.isCrossDatabase = n.isCrossDatabase := by
  simp [isCrossDatabase]

@[simp] theorem isRemote_fold : n.fold.isRemote = n.isRemote := by simp [isRemote]

@[simp] theorem isTemporary_fold : n.fold.isTemporary = n.isTemporary := by
  rw [isTemporary, object_fold, beq_head?_lower (by decide), isTemporary]

@[simp] theorem isGlobalTemporary_fold : n.fold.isGlobalTemporary = n.isGlobalTemporary := by
  have hhash : ∀ c : Char, (c.toLower == '#') = (c == '#') := fun c => beq_toLower (by decide)
  simp only [isGlobalTemporary, object_fold, toList_lower]
  rcases n.object.toList with _ | ⟨c, _ | ⟨d, rest⟩⟩ <;>
    simp [List.isPrefixOf, BEq.comm (a := '#'), hhash]

/-- Two spellings of a name mean an object of the same databases. -/
theorem isIn_fold {database database' : String} (h : lower database' = lower database) :
    n.fold.isIn database' = n.isIn database := by
  simp only [isIn, server?, database?, partFromRight?_fold, Option.isNone_map]
  cases n.partFromRight? 2 with
  | none => rfl
  | some db => simp only [Option.map_some, Text.same, lower_lower, h]

/-- The key of a name is in capitals, so it is the same. -/
@[simp] theorem key_fold (schema : String) : n.fold.key schema = n.key schema := by
  simp only [key, isTemporary_fold, object_fold, schema?_fold, upper_lower]
  split
  · rfl
  · apply upper_eq_of_lower
    cases n.schema? <;> simp

end Name

/-! ### Types -/

/-- The base name of a type is in capitals. -/
@[simp] theorem Category.baseTypeName_lower (typeText : String) :
    baseTypeName (lower typeText) = baseTypeName typeText := by
  have hbare : ∀ cs : List Char,
      ((cs.map Char.toLower).takeWhile (· ≠ '(')).filter
          (fun c => c ≠ '[' && c ≠ ']' && c ≠ '"') =
        ((cs.takeWhile (· ≠ '(')).filter
          fun c => c ≠ '[' && c ≠ ']' && c ≠ '"').map Char.toLower := by
    intro cs
    have hmark : ∀ {d : Char}, IsCaseless d → ∀ c : Char, (c.toLower ≠ d) = (c ≠ d) :=
      fun h c => by rw [Ne, toLower_eq_iff h]
    rw [List.takeWhile_map, List.filter_map]
    simp only [Function.comp_def, hmark (d := '(') (by decide), hmark (d := '[') (by decide),
      hmark (d := ']') (by decide), hmark (d := '"') (by decide)]
  simp only [baseTypeName, toList_lower, hbare, ← lower_ofList, ← lower_collapse, upper_lower]

end Portability
