import Mathlib
import Portability.Version

/-! Numbers and versions as they are spelled. The readers accept just the spellings. -/
namespace Portability

namespace Text

/-- The digits stand for the number. There is at least one. -/
structure Digits (digits : List Char) (n : Nat) : Prop where
  ne_nil : digits ≠ []
  isDigit : ∀ c ∈ digits, c.isDigit = true
  value : n = Nat.ofDigits 10 (digits.reverse.map fun c => c.toNat - '0'.toNat)

/-- The text spells the number in digits, perhaps after a plus sign. -/
def SpellsNat (limit : Nat) (text : List Char) (n : Nat) : Prop :=
  n ≤ limit ∧ ∃ digits, Digits digits n ∧ (text = digits ∨ text = '+' :: digits)

/-- The text spells a signed number of 64 bits in digits, perhaps after a sign. -/
def SpellsInt64 (text : List Char) (n : Int) : Prop :=
  (-2 ^ 63 ≤ n ∧ n < 2 ^ 63) ∧ ∃ digits k, Digits digits k ∧
    ((text = digits ∨ text = '+' :: digits) ∧ n = k ∨ text = '-' :: digits ∧ n = -k)

theorem foldl_digits_eq_some_iff {cs : List Char} {n : Nat} :
    cs.foldl
      (fun value c =>
        value.bind fun n => if c.isDigit then some (10 * n + (c.toNat - '0'.toNat)) else none)
      (some 0) = some n ↔
      (∀ c ∈ cs, c.isDigit = true) ∧
        n = Nat.ofDigits 10 (cs.reverse.map fun c => c.toNat - '0'.toNat) := by
  induction cs using List.reverseRecOn generalizing n with
  | nil => exact ⟨fun h => ⟨by simp, (Option.some.inj h).symm⟩, fun h => congrArg some h.2.symm⟩
  | append_singleton cs c ih =>
    rw [List.foldl_concat, Option.bind_eq_some_iff]
    simp only [ih, List.reverse_append, List.reverse_singleton, List.singleton_append,
      List.map_cons, Nat.ofDigits_cons, List.forall_mem_append, List.forall_mem_singleton]
    constructor
    · rintro ⟨k, ⟨hall, rfl⟩, hlast⟩
      obtain ⟨hc, hn⟩ := Option.ite_none_right_eq_some.mp hlast
      refine ⟨⟨hall, hc⟩, ?_⟩
      rw [← Option.some.inj hn]
      push_cast
      omega
    · rintro ⟨⟨hall, hc⟩, rfl⟩
      refine ⟨_, ⟨hall, rfl⟩, ?_⟩
      rw [if_pos hc, Option.some.injEq]
      push_cast
      omega

theorem digitsValue?_eq_some_iff {cs : List Char} {n : Nat} :
    digitsValue? cs = some n ↔ Digits cs n := by
  cases cs with
  | nil => exact iff_of_false (by simp [digitsValue?]) fun h => h.ne_nil rfl
  | cons c rest =>
    rw [digitsValue?, foldl_digits_eq_some_iff]
    · exact ⟨fun h => ⟨by simp, h.1, h.2⟩, fun h => ⟨h.isDigit, h.value⟩⟩
    · simp

/-- A digit is no sign. -/
theorem Digits.head_ne {digits rest : List Char} {n : Nat} {c : Char} (h : Digits digits n)
    (hc : c.isDigit = false) : digits ≠ c :: rest := by
  rintro rfl
  simp [h.isDigit c List.mem_cons_self] at hc

/-- A numeral is made of digits and plus signs. -/
theorem SpellsNat.isDigit_or {limit n : Nat} {text : List Char} (h : SpellsNat limit text n) :
    ∀ c ∈ text, c.isDigit = true ∨ c = '+' := by
  obtain ⟨-, digits, hdigits, rfl | rfl⟩ := h
  · exact fun c hc => .inl (hdigits.isDigit c hc)
  · intro c hc
    rcases List.mem_cons.mp hc with rfl | hc
    · exact .inr rfl
    · exact .inl (hdigits.isDigit c hc)

theorem parseNat?_eq_some_iff {limit n : Nat} {s : String} :
    parseNat? limit s = some n ↔ SpellsNat limit s.toList n := by
  unfold parseNat? SpellsNat
  simp only [Option.filter_eq_some_iff, decide_eq_true_eq, digitsValue?_eq_some_iff]
  rw [and_comm]
  refine and_congr_right fun _ => ?_
  split
  · rename_i rest hplus
    constructor
    · exact fun h => ⟨rest, h, .inr hplus⟩
    · rintro ⟨digits, h, htext | htext⟩
      · exact absurd (htext.symm.trans hplus) (h.head_ne (by decide))
      · obtain ⟨-, rfl⟩ := List.cons.inj (htext.symm.trans hplus)
        exact h
  · rename_i hplain
    constructor
    · exact fun h => ⟨_, h, .inl rfl⟩
    · rintro ⟨digits, h, htext | htext⟩
      · rwa [htext]
      · exact absurd htext (hplain digits)

theorem parseInt64?_eq_some_iff {n : Int} {s : String} :
    parseInt64? s = some n ↔ SpellsInt64 s.toList n := by
  unfold parseInt64? SpellsInt64
  simp only [Option.filter_eq_some_iff, Bool.and_eq_true, decide_eq_true_eq]
  rw [and_comm]
  refine and_congr (by unfold maxInt64; omega) ?_
  split
  · rename_i rest hminus
    simp only [Option.map_eq_some_iff, digitsValue?_eq_some_iff]
    constructor
    · rintro ⟨k, h, rfl⟩
      exact ⟨rest, k, h, .inr ⟨hminus, rfl⟩⟩
    · rintro ⟨digits, k, h, ⟨htext | htext, rfl⟩ | ⟨htext, rfl⟩⟩
      · exact absurd (htext.symm.trans hminus) (h.head_ne (by decide))
      · cases htext.symm.trans hminus
      · obtain ⟨-, rfl⟩ := List.cons.inj (htext.symm.trans hminus)
        exact ⟨k, h, rfl⟩
  · rename_i rest hplus
    simp only [Option.map_eq_some_iff, digitsValue?_eq_some_iff]
    constructor
    · rintro ⟨k, h, rfl⟩
      exact ⟨rest, k, h, .inl ⟨.inr hplus, rfl⟩⟩
    · rintro ⟨digits, k, h, ⟨htext | htext, rfl⟩ | ⟨htext, rfl⟩⟩
      · exact absurd (htext.symm.trans hplus) (h.head_ne (by decide))
      · obtain ⟨-, rfl⟩ := List.cons.inj (htext.symm.trans hplus)
        exact ⟨k, h, rfl⟩
      · cases htext.symm.trans hplus
  · rename_i hminus hplus
    simp only [Option.map_eq_some_iff, digitsValue?_eq_some_iff]
    constructor
    · rintro ⟨k, h, rfl⟩
      exact ⟨_, k, h, .inl ⟨.inl rfl, rfl⟩⟩
    · rintro ⟨digits, k, h, ⟨htext | htext, rfl⟩ | ⟨htext, rfl⟩⟩
      · exact ⟨k, htext ▸ h, rfl⟩
      · exact absurd htext (hplus digits)
      · exact absurd htext (hminus digits)

end Text

namespace Version

/-- The text spells the version: numbers of 32 bits with dots between them. -/
def Spells (text : String) (parts : List Nat) : Prop :=
  ∃ words, words ≠ [] ∧ (Text.trim text).toList = List.intercalate ['.'] words ∧
    List.Forall₂ (Text.SpellsNat (2 ^ 32 - 1)) words parts

theorem mapM_eq_some_iff_forall₂ {α β : Type} {f : α → Option β} {as : List α} {bs : List β} :
    as.mapM f = some bs ↔ List.Forall₂ (fun a b => f a = some b) as bs := by
  induction as generalizing bs with
  | nil => simp [eq_comm]
  | cons a as ih =>
    simp only [List.mapM_cons, bind, Option.bind_eq_some_iff, ih, List.forall₂_cons_left_iff,
      pure, Option.some.injEq, eq_comm (b := bs)]
    constructor
    · rintro ⟨b, hb, rest, hrest, rfl⟩
      exact ⟨b, rest, hb, hrest, rfl⟩
    · rintro ⟨b, rest, hb, hrest, rfl⟩
      exact ⟨b, hb, rest, hrest, rfl⟩

theorem isDigit_or_of_forall₂ {limit : Nat} {words : List (List Char)} {parts : List Nat}
    (h : List.Forall₂ (Text.SpellsNat limit) words parts) :
    ∀ word ∈ words, ∀ c ∈ word, c.isDigit = true ∨ c = '+' :=
  ((List.forall₂_and_left _ _).mp (h.imp fun _ _ hn => ⟨hn.isDigit_or, hn⟩)).1

theorem parse?_eq_some_iff {text : String} {v : Version} :
    parse? text = some v ↔ Spells text v.parts ∧ v.text = Text.trim text := by
  unfold parse? Spells
  simp only [Option.map_eq_some_iff, mapM_eq_some_iff_forall₂, Text.parseNat?_eq_some_iff,
    String.toList_ofList]
  constructor
  · rintro ⟨parts, hparts, rfl⟩
    exact ⟨⟨_, List.splitOn_ne_nil _ _, (List.intercalate_splitOn _).symm, hparts⟩, rfl⟩
  · rintro ⟨⟨words, hne, htext, hwords⟩, hv⟩
    refine ⟨v.parts, ?_, by rw [← hv]⟩
    have hdots : ∀ word ∈ words, '.' ∉ word := fun word hword hdot => by
      simpa using isDigit_or_of_forall₂ hwords word hword '.' hdot
    rwa [htext, List.splitOn_intercalate _ hdots hne]

/-- A version is made of digits, plus signs and dots. -/
theorem Spells.isDigit_or {text : String} {parts : List Nat} (h : Spells text parts) :
    ∀ c ∈ (Text.trim text).toList, c.isDigit = true ∨ c = '+' ∨ c = '.' := by
  obtain ⟨words, -, htext, hwords⟩ := h
  have hall := isDigit_or_of_forall₂ hwords
  rw [htext]
  clear htext hwords
  induction words with
  | nil => simp
  | cons word rest ih =>
    obtain ⟨hword, hrest⟩ := List.forall_mem_cons.mp hall
    have hhere : ∀ c ∈ word, c.isDigit = true ∨ c = '+' ∨ c = '.' :=
      fun c hc => (hword c hc).imp_right .inl
    cases rest with
    | nil => simpa using hhere
    | cons next rest =>
      rw [List.intercalate_cons_cons, List.forall_mem_append, List.forall_mem_append]
      exact ⟨⟨hhere, by simp⟩, ih hrest⟩

end Version

end Portability
