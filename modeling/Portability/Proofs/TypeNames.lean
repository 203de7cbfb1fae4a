import Mathlib
import Portability.Proofs.Casing.Naming
import Portability.Proofs.NameKeys
import Portability.Proofs.NameParts

/-! Types as they are spelled and as they are stored. A stored type lacks arguments, quoting and the
schema `sys`; it means the type that was spelled if nothing of this was a part of the name. -/
namespace Portability

open Identifier (Written)
open Text

theorem Identifier.forall_intercalate {P : Char → Prop} {texts : List String} (hdot : P '.')
    (h : ∀ text ∈ texts, ∀ c ∈ text.toList, P c) :
    ∀ c ∈ (String.intercalate "." texts).toList, P c := by
  induction texts with
  | nil => simp
  | cons text rest ih =>
    rw [List.forall_mem_cons] at h
    cases rest with
    | nil => simpa using h.1
    | cons next rest =>
      rw [toList_intercalate_cons, List.forall_mem_append, List.forall_mem_cons]
      exact ⟨h.1, hdot, ih h.2⟩

theorem Text.wordsFrom_of_forall {run cs : List Char} (h : ∀ c ∈ cs, isBlank c = false) :
    wordsFrom run cs = if run.isEmpty && cs.isEmpty then [] else [run.reverse ++ cs] := by
  induction cs generalizing run with
  | nil => cases run <;> simp [wordsFrom]
  | cons c rest ih =>
    rw [List.forall_mem_cons] at h
    simp [wordsFrom, h.1, ih h.2]

/-- Without blanks there is one word at most, and putting the words together changes nothing. -/
theorem Text.intercalate_wordsFrom {cs : List Char} (h : ∀ c ∈ cs, isBlank c = false) :
    [' '].intercalate (wordsFrom [] cs) = cs := by
  rw [wordsFrom_of_forall h]
  cases cs with
  | nil => rfl
  | cons c rest => simp

theorem Text.doubleMark_eq_self {mark : Char} {cs : List Char} (h : mark ∉ cs) :
    doubleMark mark cs = cs := by
  induction cs with
  | nil => rfl
  | cons c rest ih =>
    rw [List.mem_cons, not_or] at h
    rw [doubleMark, if_neg (Ne.symm h.1), ih h.2]

/-- The key of a name depends on its parts alone. -/
theorem Name.key_congr {a b : Name} (h : a.parts = b.parts) (schema : String) :
    a.key schema = b.key schema := by
  cases a
  cases b
  cases h
  rfl

namespace Category

variable {schema raw : String} {parts texts : List String}

theorem baseTypeName_upper (s : String) : baseTypeName (upper s) = baseTypeName s := by
  rw [← baseTypeName_lower, lower_upper, baseTypeName_lower]

theorem key_resolve_upper (s : String) :
    (Name.resolve (upper s)).key schema = (Name.resolve s).key schema := by
  rw [← Name.key_fold, ← Name.resolve_lower, lower_upper, Name.resolve_lower, Name.key_fold]

/-- Neither a bracket nor a double quote. -/
def isUnmarked (c : Char) : Bool := c ≠ '[' && c ≠ ']' && c ≠ '"'

/-- The characters of a stored type, from those of the type as it is spelled. -/
def baseTypeChars (cs : List Char) : List Char :=
  let bare := (cs.takeWhile (· ≠ '(')).filter isUnmarked
  let name := ([' '].intercalate (wordsFrom [] bare)).map Char.toUpper
  if ['S', 'Y', 'S', '.'].isPrefixOf name then name.drop 4 else name

theorem toList_baseTypeName (s : String) : (baseTypeName s).toList = baseTypeChars s.toList := by
  have hname (cs : List Char) : (upper (collapse (String.ofList cs))).toList =
      ([' '].intercalate (wordsFrom [] cs)).map Char.toUpper := by
    simp [toList_upper, collapse, words, String.toList_intercalate, Function.comp_def]
  have hsystem : "SYS.".toList = ['S', 'Y', 'S', '.'] := rfl
  have hbare : (fun c => c ≠ '[' && c ≠ ']' && c ≠ '"') = isUnmarked := rfl
  simp only [baseTypeName, baseTypeChars, hbare, hname, hsystem]
  split
  · rw [String.toList_ofList]
  · exact hname _

/-! ### Built-in types -/

/-- A built-in type is stored under the name it has in the tables. -/
theorem baseTypeName_builtIn :
    ∀ base ∈ numericTypes ++ stringTypes ++ dateTimeTypes ++ binaryTypes,
      baseTypeName base = base := by
  simp only [← String.toList_inj, toList_baseTypeName]
  decide +kernel

theorem ofTypeName_eq_unknown_of_not_mem
    (h : baseTypeName raw ∉ numericTypes ++ stringTypes ++ dateTimeTypes ++ binaryTypes) :
    ofTypeName raw = .unknown := by
  simp only [List.mem_append, not_or] at h
  obtain ⟨⟨⟨hn, hs⟩, hd⟩, hb⟩ := h
  simp [ofTypeName, hn, hs, hd, hb]

theorem ofTypeName_congr {raw' : String} (h : baseTypeName raw = baseTypeName raw') :
    ofTypeName raw = ofTypeName raw' := by
  simp only [ofTypeName, h]

theorem ofTypeName_baseTypeName (h : ofTypeName raw ≠ .unknown) :
    ofTypeName (baseTypeName raw) = ofTypeName raw := by
  apply ofTypeName_congr
  apply baseTypeName_builtIn
  by_contra hmem
  exact h (ofTypeName_eq_unknown_of_not_mem hmem)

/-! ### What a stored type stands for -/

/-- The stored form of the type means the type that was spelled: a built-in type, or no built-in
type in either form and the same key. -/
def Keeps (schema raw : String) : Prop :=
  ofTypeName raw ≠ .unknown ∨
    ofTypeName (baseTypeName raw) = .unknown ∧
      (Name.resolve (baseTypeName raw)).key schema = (Name.resolve raw).key schema

variable {symbols : SymbolTable}

theorem ofDeclared_builtIn (h : ofTypeName raw ≠ .unknown) :
    ofDeclared symbols schema raw = ofTypeName raw := by
  unfold ofDeclared
  split
  · contradiction
  · rfl

theorem ofDeclared_userType (h : ofTypeName raw = .unknown) :
    ofDeclared symbols schema raw =
      (symbols.typeBase? ((Name.resolve raw).key schema)).elim .unknown ofTypeName := by
  unfold ofDeclared
  rw [h]
  cases symbols.typeBase? ((Name.resolve raw).key schema) <;> rfl

theorem ofDeclared_of_keeps (h : Keeps schema raw) :
    ofDeclared symbols schema (baseTypeName raw) = ofDeclared symbols schema raw := by
  by_cases hraw : ofTypeName raw = .unknown
  · rcases h with hknown | ⟨hbase, hkey⟩
    · contradiction
    · rw [ofDeclared_userType hbase, ofDeclared_userType hraw, hkey]
  · have hbase := ofTypeName_baseTypeName hraw
    have hstored : ofTypeName (baseTypeName raw) ≠ .unknown := by rwa [hbase]
    rw [ofDeclared_builtIn hraw, ofDeclared_builtIn hstored, hbase]

/-- The base of a type in a table that has one type only. -/
theorem typeBase?_declare (key key' base : String) :
    (({} : SymbolTable).declare key (.userType base)).typeBase? key' =
      if upper key' = upper key then some base else none := by
  have hfind : (({} : SymbolTable).declare key (.userType base)).find? .userType key' =
      if upper key' = upper key then some (.userType base) else none :=
    SymbolTable.find?_declare key'
  rw [SymbolTable.typeBase?, hfind]
  by_cases hkey : upper key' = upper key
  · rw [if_pos hkey, if_pos hkey]
  · rw [if_neg hkey, if_neg hkey]

theorem keeps_of_ofDeclared
    (h : ∀ symbols, ofDeclared symbols schema (baseTypeName raw) = ofDeclared symbols schema raw) :
    Keeps schema raw := by
  by_cases hraw : ofTypeName raw = .unknown
  · have hbase : ofTypeName (baseTypeName raw) = .unknown := by
      by_contra hbase
      have hnone := h {}
      rw [ofDeclared_builtIn hbase, ofDeclared_userType hraw] at hnone
      exact hbase hnone
    refine .inr ⟨hbase, ?_⟩
    -- a type declared under the key of the spelled form tells the two apart
    by_contra hkey
    have hone := h (({} : SymbolTable).declare ((Name.resolve raw).key schema) (.userType "INT"))
    rw [ofDeclared_userType hbase, ofDeclared_userType hraw, typeBase?_declare, typeBase?_declare,
      Name.upper_key, Name.upper_key, if_neg hkey, if_pos rfl] at hone
    have hint : ofTypeName "INT" = .numeric := by
      simp [ofTypeName, baseTypeName_builtIn "INT" (by simp [numericTypes]), numericTypes]
    rw [Option.elim_none, Option.elim_some, hint] at hone
    cases hone
  · exact .inl hraw

/-! ### Types that are spelled plainly -/

/-- A character that neither ends the name of a type nor has to be delimited. -/
def IsPlain (c : Char) : Prop := Identifier.isSpecial c = false ∧ c ≠ '('

instance (c : Char) : Decidable (IsPlain c) := inferInstanceAs (Decidable (_ ∧ _))

/-- Parts of plain characters, the first of which is not `sys` before others. -/
structure Plain (parts : List String) : Prop where
  ne_nil : parts ≠ []
  chars : ∀ part ∈ parts, ∀ c ∈ part.toList, IsPlain c
  notSystem : ∀ first next rest, parts = first :: next :: rest → ¬ Text.same first "SYS"

theorem Plain.written (h : Plain parts) : List.Forall₂ Written parts parts := by
  rw [List.forall₂_same]
  intro part hpart
  exact NameWord.written (w := some (part, none)) fun c hc => (h.chars part hpart c hc).1

theorem Plain.no_dot (h : Plain parts) {part : String} (hpart : part ∈ parts) :
    '.' ∉ (upper part).toList := by
  intro hdot
  have hplain := h.chars part hpart '.' (mem_of_mem_upper (by decide) hdot)
  exact (Identifier.isSpecial_eq_false hplain.1).1 rfl

/-- Taking the marks off a plain part leaves the part, and no parenthesis is met on the way. -/
theorem filter_written {part text : String} (h : Written part text)
    (hplain : ∀ c ∈ part.toList, IsPlain c) :
    (∀ c ∈ text.toList, c ≠ '(') ∧
      text.toList.filter isUnmarked = part.toList := by
  have hkept : part.toList.filter isUnmarked = part.toList := by
    rw [List.filter_eq_self]
    intro c hc
    obtain ⟨-, hopen, hclose, hquote, -⟩ := Identifier.isSpecial_eq_false (hplain c hc).1
    simp [isUnmarked, hopen, hclose, hquote]
  rcases h.cases_marks with ⟨rfl, -⟩ | ⟨q, rfl⟩
  · exact ⟨fun c hc => (hplain c hc).2, hkept⟩
  · have hcloser : q.closer ∉ part.toList := by
      intro hc
      obtain ⟨-, -, hclose, hquote, -⟩ := Identifier.isSpecial_eq_false (hplain _ hc).1
      cases q
      · exact hclose rfl
      · exact hquote rfl
    rw [Identifier.toList_wordText, doubleMark_eq_self hcloser, List.forall_mem_cons,
      List.forall_mem_append, List.forall_mem_singleton]
    constructor
    · exact ⟨by cases q <;> decide, fun c hc => (hplain c hc).2, by cases q <;> decide⟩
    · rw [List.filter_cons_of_neg (by cases q <;> decide), List.filter_append, hkept,
        List.filter_cons_of_neg (by cases q <;> decide), List.filter_nil, List.append_nil]

theorem filter_intercalate (h : List.Forall₂ Written parts texts)
    (hplain : ∀ part ∈ parts, ∀ c ∈ part.toList, IsPlain c) :
    (∀ c ∈ (String.intercalate "." texts).toList, c ≠ '(') ∧
      (String.intercalate "." texts).toList.filter isUnmarked =
        (String.intercalate "." parts).toList := by
  induction h with
  | nil => exact ⟨by simp, rfl⟩
  | cons hwritten hrest ih =>
    rw [List.forall_mem_cons] at hplain
    have hfirst := filter_written hwritten hplain.1
    cases hrest with
    | nil => simpa using hfirst
    | cons =>
      obtain ⟨hopen, hfilter⟩ := ih hplain.2
      rw [Identifier.toList_intercalate_cons, Identifier.toList_intercalate_cons,
        List.filter_append, hfirst.2, List.filter_cons_of_pos (by decide), hfilter,
        List.forall_mem_append, List.forall_mem_cons]
      exact ⟨⟨hfirst.1, by decide, hopen⟩, rfl⟩

/-- Plain parts do not begin with the schema `sys` and a dot. -/
theorem Plain.not_system (h : Plain parts) :
    ¬ ['S', 'Y', 'S', '.'] <+: (upper (String.intercalate "." parts)).toList := by
  rintro ⟨tail, htail⟩
  rcases parts with _ | ⟨first, _ | ⟨next, rest⟩⟩
  · exact h.ne_nil rfl
  · apply h.no_dot List.mem_cons_self
    rw [String.intercalate_singleton] at htail
    simp [← htail]
  · have hdot : '.' ∉ (upper first).toList := h.no_dot List.mem_cons_self
    rw [toList_upper, Identifier.toList_intercalate_cons, List.map_append, ← toList_upper] at htail
    have hcut : ['S', 'Y', 'S'] ++ '.' :: tail = (upper first).toList ++ _ := htail
    rcases append_mark_eq_iff.mp hcut with
      ⟨hfirst, -⟩ | ⟨middle, hfirst, -⟩ | ⟨middle, hfirst, -⟩
    · have hupper : upper first = "SYS" := String.toList_inj.mp hfirst.symm
      exact h.notSystem first next rest rfl (same_of_upper hupper)
    · exact hdot (by simp [hfirst])
    · have hmem : '.' ∈ ['S', 'Y', 'S'] := by simp [hfirst]
      revert hmem
      decide

/-- A type of plain parts is stored as its parts in upper case, however they are written. -/
theorem baseTypeName_plain (h : List.Forall₂ Written parts texts) (hplain : Plain parts) :
    baseTypeName (String.intercalate "." texts) = upper (String.intercalate "." parts) := by
  obtain ⟨hopen, hfilter⟩ := filter_intercalate h hplain.chars
  have hwhole : (String.intercalate "." texts).toList.takeWhile (· ≠ '(') =
      (String.intercalate "." texts).toList := by
    rw [List.takeWhile_eq_self_iff]
    simpa using hopen
  have hblank : ∀ c ∈ (String.intercalate "." parts).toList, isBlank c = false := by
    refine Identifier.forall_intercalate (by decide) fun part hpart c hc => ?_
    exact (Identifier.isSpecial_eq_false (hplain.chars part hpart c hc).1).2.2.2.2
  apply String.toList_inj.mp
  rw [toList_baseTypeName, baseTypeChars, hwhole, hfilter, toList_upper,
    intercalate_wordsFrom hblank, if_neg]
  rw [← toList_upper, List.isPrefixOf_iff_prefix]
  exact hplain.not_system

/-- A plain type is kept. -/
theorem keeps_plain (h : List.Forall₂ Written parts texts) (hplain : Plain parts) :
    Keeps schema (String.intercalate "." texts) := by
  by_cases hraw : ofTypeName (String.intercalate "." texts) = .unknown
  · have hbase := baseTypeName_plain h hplain
    have hagain : baseTypeName (upper (String.intercalate "." parts)) =
        baseTypeName (String.intercalate "." texts) := by
      rw [baseTypeName_upper, baseTypeName_plain hplain.written hplain, hbase]
    refine .inr ⟨?_, ?_⟩
    · rw [hbase, ofTypeName_congr hagain, hraw]
    · rw [hbase, key_resolve_upper]
      apply Name.key_congr
      rw [Name.parts_resolve_intercalate hplain.ne_nil hplain.written,
        Name.parts_resolve_intercalate hplain.ne_nil h]
  · exact .inl hraw

end Category

end Portability
