import Mathlib
import Portability.Name
import Portability.Proofs.Casing.Text
import Portability.Symbol

/-! Which names share a key in the symbol table. A key is the schema and the object in upper case
with a dot between them, and a dot inside of either part looks the same. -/
namespace Portability

/-- Two ways of putting the same mark between two parts: the parts are the same, or the mark of
either stands inside a part of the other. -/
theorem append_mark_eq_iff {α : Type} {mark : α} {xs ys xs' ys' : List α} :
    xs ++ mark :: ys = xs' ++ mark :: ys' ↔ (xs = xs' ∧ ys = ys') ∨
      (∃ middle, xs' = xs ++ mark :: middle ∧ ys = middle ++ mark :: ys') ∨
      ∃ middle, xs = xs' ++ mark :: middle ∧ ys' = middle ++ mark :: ys := by
  constructor
  · intro h
    rcases List.append_eq_append_iff.mp h with ⟨more, rfl, hrest⟩ | ⟨more, rfl, hrest⟩
    · rcases more with _ | ⟨c, middle⟩
      · simp_all
      · obtain ⟨rfl, rfl⟩ := List.cons.inj hrest
        exact .inr (.inl ⟨middle, rfl, rfl⟩)
    · rcases more with _ | ⟨c, middle⟩
      · simp_all
      · obtain ⟨rfl, rfl⟩ := List.cons.inj hrest
        exact .inr (.inr ⟨middle, rfl, rfl⟩)
  · rintro (⟨rfl, rfl⟩ | ⟨middle, rfl, rfl⟩ | ⟨middle, rfl, rfl⟩) <;> simp

namespace Text

@[simp] theorem upper_append (a b : String) : upper (a ++ b) = upper a ++ upper b := by
  apply String.toList_inj.mp
  simp [toList_upper]

@[simp] theorem upper_upper (s : String) : upper (upper s) = upper s := by
  apply String.toList_inj.mp
  simp [toList_upper]

theorem same_iff_upper {a b : String} : same a b ↔ upper a = upper b := by
  constructor
  · exact upper_eq_of_same
  · intro h
    rw [same, ← lower_upper a, h, lower_upper]
    simp

theorem mem_of_mem_upper {c : Char} (hc : IsCaseless c) {s : String}
    (h : c ∈ (upper s).toList) : c ∈ s.toList := by
  rw [toList_upper] at h
  obtain ⟨d, hd, hdc⟩ := List.mem_map.mp h
  have hlower : d.toLower = c := by rw [← hc.1, ← hdc, Char.toLower_toUpper_eq_toLower]
  rwa [← (toLower_eq_iff hc).mp hlower]

/-- A dotted text in upper case. -/
theorem toList_upper_dotted (a b : String) :
    (upper (a ++ "." ++ b)).toList = (upper a).toList ++ '.' :: (upper b).toList := by
  have hdot : upper "." = "." := by decide +kernel
  simp [hdot]

end Text

namespace SymbolTable

variable {t : SymbolTable} {symbol : Symbol} {name : String}

/-- A declaration is what is found under its name; under other names nothing changes. -/
theorem find?_declare (other : String) :
    (t.declare name symbol).find? symbol.kind other =
      if Text.upper other = Text.upper name then some symbol else t.find? symbol.kind other := by
  cases symbol <;> simp [declare, find?, Symbol.kind]

end SymbolTable

namespace Name

variable {schema : String} {a b : Name}

/-- The schema part, or the schema that is meant where none is written. -/
def schemaOr (n : Name) (schema : String) : String := n.schema?.getD schema

/-- The names have the same schema and object up to the case of letters. -/
def SameObject (schema : String) (a b : Name) : Prop :=
  Text.same (a.schemaOr schema) (b.schemaOr schema) ∧ Text.same a.object b.object

/-- The schema of the second name is that of the first one and a dotted beginning of its object;
what is left of the object is the object of the second name. -/
def Overlaps (schema : String) (a b : Name) : Prop :=
  ∃ middle, Text.upper (b.schemaOr schema) = Text.upper (a.schemaOr schema) ++ "." ++ middle ∧
    Text.upper a.object = middle ++ "." ++ Text.upper b.object

theorem toList_key (h : a.isTemporary = false) :
    (a.key schema).toList =
      (Text.upper (a.schemaOr schema)).toList ++ '.' :: (Text.upper a.object).toList := by
  rw [key, h, if_neg (by simp), ← schemaOr, Text.toList_upper_dotted]

theorem overlaps_iff : Overlaps schema a b ↔
    ∃ middle, (Text.upper (b.schemaOr schema)).toList =
        (Text.upper (a.schemaOr schema)).toList ++ '.' :: middle ∧
      (Text.upper a.object).toList = middle ++ '.' :: (Text.upper b.object).toList := by
  constructor
  · rintro ⟨middle, hschema, hobject⟩
    exact ⟨middle.toList, by simp [hschema], by simp [hobject]⟩
  · rintro ⟨middle, hschema, hobject⟩
    refine ⟨String.ofList middle, ?_, ?_⟩
    · apply String.toList_inj.mp
      simp [hschema]
    · apply String.toList_inj.mp
      simp [hobject]

theorem key_eq_iff (ha : a.isTemporary = false) (hb : b.isTemporary = false) :
    a.key schema = b.key schema ↔
      SameObject schema a b ∨ Overlaps schema a b ∨ Overlaps schema b a := by
  rw [← String.toList_inj, toList_key ha, toList_key hb, append_mark_eq_iff, SameObject,
    Text.same_iff_upper, Text.same_iff_upper, overlaps_iff, overlaps_iff, String.toList_inj,
    String.toList_inj]

/-- Names overlap only where dots stand inside of their parts. -/
theorem Overlaps.dots (h : Overlaps schema a b) :
    '.' ∈ (b.schemaOr schema).toList ∧ '.' ∈ a.object.toList := by
  obtain ⟨middle, hschema, hobject⟩ := overlaps_iff.mp h
  constructor
  · apply Text.mem_of_mem_upper (by decide)
    simp [hschema]
  · apply Text.mem_of_mem_upper (by decide)
    simp [hobject]

/-- A key is in upper case. -/
theorem upper_key (n : Name) : Text.upper (n.key schema) = n.key schema := by
  unfold key
  split <;> simp

/-- Names of objects that are not temporary share a key just when they have the same schema and
object up to case, or when a dot inside of a part stands where the other name has the dot between
its parts. Where no such dots are, the key is that of one object; and what is declared under the
key of one name is what is found under the key of the other. -/
theorem keys_identify_objects (schema : String) (a b : Name) (ha : a.isTemporary = false)
    (hb : b.isTemporary = false) :
    (a.key schema = b.key schema ↔
      SameObject schema a b ∨ Overlaps schema a b ∨ Overlaps schema b a) ∧
    (('.' ∈ (a.schemaOr schema).toList → '.' ∉ b.object.toList) →
      ('.' ∈ (b.schemaOr schema).toList → '.' ∉ a.object.toList) →
      (a.key schema = b.key schema ↔ SameObject schema a b)) ∧
    ∀ (t : SymbolTable) (symbol : Symbol),
      (a.key schema = b.key schema →
        (t.declare (a.key schema) symbol).find? symbol.kind (b.key schema) = some symbol) ∧
      (a.key schema ≠ b.key schema →
        (t.declare (a.key schema) symbol).find? symbol.kind (b.key schema) =
          t.find? symbol.kind (b.key schema)) := by
  have hkey : a.key schema = b.key schema ↔ _ := key_eq_iff ha hb
  refine ⟨hkey, ?_, ?_⟩
  · intro hab hba
    rw [hkey]
    constructor
    · rintro (hsame | hover | hover)
      · exact hsame
      · exact absurd hover.dots.2 (hba hover.dots.1)
      · exact absurd hover.dots.2 (hab hover.dots.1)
    · exact .inl
  · intro t symbol
    constructor
    · intro h
      rw [h, SymbolTable.find?_declare, if_pos rfl]
    · intro h
      rw [SymbolTable.find?_declare, upper_key, upper_key, if_neg (Ne.symm h)]

/-- Two objects with one key, and two spellings of one object. -/
theorem keys_identify_objects_dots :
    let a := resolve "[a.b].c"
    let b := resolve "a.[b.c]"
    let c := resolve "A . \"b.C\""
    ¬ SameObject "dbo" a b ∧ a.key "dbo" = b.key "dbo" ∧ b.key "dbo" = c.key "dbo" ∧
      ((({} : SymbolTable).declare (a.key "dbo") (.object .view)).find? .object (b.key "dbo") =
        some (.object .view)) := by
  intro a b c
  obtain ⟨hab, -, hfind⟩ := keys_identify_objects "dbo" a b (by decide +kernel) (by decide +kernel)
  obtain ⟨hbc, -, -⟩ := keys_identify_objects "dbo" b c (by decide +kernel) (by decide +kernel)
  have hover : Overlaps "dbo" b a := by
    rw [overlaps_iff]
    simp only [Text.toList_upper]
    exact ⟨['B'], by decide +kernel, by decide +kernel⟩
  have hsame : SameObject "dbo" b c := by
    rw [SameObject, Text.same_iff_upper, Text.same_iff_upper]
    simp only [Text.upper_eq_ofList]
    decide +kernel
  have hkey := hab.mpr (.inr (.inr hover))
  refine ⟨?_, hkey, hbc.mpr (.inl hsame), (hfind _ _).1 hkey⟩
  rintro ⟨hschema, -⟩
  revert hschema
  decide +kernel

end Name

end Portability
