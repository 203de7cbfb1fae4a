import Mathlib
import Portability.Identifier
import Portability.Proofs.Text
import Portability.Text.Blank
import Portability.Text.CaseFold
import Portability.Text.Numeric

/-! What lower case leaves alone. Only `A` to `Z` change, so blanks, digits and punctuation stay
what they are, and everything that is cut, joined or looked for by them stays in place. -/
namespace Portability.Text

/-- The capital at a place of the alphabet. -/
def capital (k : Nat) : Char := Char.ofNat (65 + k)

/-- Lower case changes nothing but the 26 capital letters. -/
theorem capital_or_toLower (c : Char) : (∃ k < 26, c = capital k) ∨ c.toLower = c := by
  by_cases h : 'A'.val ≤ c.val ∧ c.val ≤ 'Z'.val
  · have hlo : 65 ≤ c.toNat := UInt32.le_iff_toNat_le.mp h.1
    have hhi : c.toNat ≤ 90 := UInt32.le_iff_toNat_le.mp h.2
    refine .inl ⟨c.toNat - 65, by omega, ?_⟩
    rw [capital, Nat.add_sub_cancel' hlo, Char.ofNat_toNat]
  · exact .inr (by rw [Char.toLower, dif_neg h])

/-- A function that makes no difference between a capital and its small letter. -/
theorem apply_toLower {β : Type} {f : Char → β}
    (h : ∀ k < 26, f (capital k).toLower = f (capital k)) (c : Char) : f c.toLower = f c := by
  rcases capital_or_toLower c with ⟨k, hk, rfl⟩ | hc
  · exact h k hk
  · rw [hc]

@[simp] theorem isBlank_toLower (c : Char) : isBlank c.toLower = isBlank c :=
  apply_toLower (by decide) c

@[simp] theorem foldCase_toLower (c : Char) : foldCase c.toLower = foldCase c :=
  apply_toLower (by decide) c

/-- A character with one spelling only. -/
def IsCaseless (c : Char) : Prop := c.toLower = c ∧ c.toUpper = c

instance (c : Char) : Decidable (IsCaseless c) := inferInstanceAs (Decidable (_ ∧ _))

/-- A character without case is reached from itself only. -/
theorem toLower_eq_iff {c d : Char} (h : IsCaseless d) : c.toLower = d ↔ c = d := by
  constructor
  · intro hc
    rcases capital_or_toLower c with ⟨k, hk, rfl⟩ | hsame
    · have hupper : ∀ k < 26, (capital k).toLower.toUpper = capital k := by decide
      rw [← hupper k hk, hc, h.2]
    · rw [← hc, hsame]
  · rintro rfl
    exact h.1

theorem isCaseless_at : IsCaseless '@' := by decide

theorem beq_toLower {c d : Char} (h : IsCaseless d) : (c.toLower == d) = (c == d) := by
  rw [Bool.eq_iff_iff, beq_iff_eq, beq_iff_eq, toLower_eq_iff h]

/-! ### Lower case of texts -/

theorem toList_lower (s : String) : (lower s).toList = s.toList.map Char.toLower := by
  simp [lower, String.toLower]

theorem lower_ofList (cs : List Char) :
    lower (String.ofList cs) = String.ofList (cs.map Char.toLower) := by
  apply String.toList_inj.mp
  simp [toList_lower]

theorem lower_eq_self {s : String} (h : s.toList.map Char.toLower = s.toList) : lower s = s := by
  apply String.toList_inj.mp
  rw [toList_lower, h]

@[simp] theorem lower_empty : lower "" = "" := lower_eq_self rfl

@[simp] theorem lower_append (a b : String) : lower (a ++ b) = lower a ++ lower b := by
  apply String.toList_inj.mp
  simp [toList_lower]

@[simp] theorem lower_lower (s : String) : lower (lower s) = lower s := by
  apply String.toList_inj.mp
  simp [toList_lower]

@[simp] theorem length_lower (s : String) : (lower s).length = s.length := by
  rw [← String.length_toList, toList_lower, List.length_map, String.length_toList]

@[simp] theorem isEmpty_lower (s : String) : (lower s).isEmpty = s.isEmpty := by
  rw [Bool.eq_iff_iff, String.isEmpty_iff, String.isEmpty_iff, ← String.toList_inj,
    ← String.toList_inj, toList_lower]
  simp

@[simp] theorem same_lower_left (a b : String) : same (lower a) b = same a b := by simp [same]

@[simp] theorem same_lower_right (a b : String) : same a (lower b) = same a b := by simp [same]

@[simp] theorem oneOf_lower (word : String) (candidates : List String) :
    oneOf (lower word) candidates = oneOf word candidates := by
  simp [oneOf]

@[simp] theorem startsWith_lower (text start : String) :
    startsWith (lower text) start = startsWith text start := by
  simp [startsWith]

/-- What is the same in lower case is the same in capitals. -/
theorem upper_eq_of_lower {a b : String} (h : lower a = lower b) : upper a = upper b := by
  rw [← upper_lower a, h, upper_lower]

/-- A character without case stands first in both texts or in neither. -/
theorem head?_lower_eq_iff {s : String} {d : Char} (h : IsCaseless d) :
    (lower s).toList.head? = some d ↔ s.toList.head? = some d := by
  simp [toList_lower, toLower_eq_iff h]

theorem beq_head?_lower {s : String} {d : Char} (h : IsCaseless d) :
    ((lower s).toList.head? == some d) = (s.toList.head? == some d) := by
  rw [Bool.eq_iff_iff, beq_iff_eq, beq_iff_eq, head?_lower_eq_iff h]

theorem getLast?_lower_eq_iff {s : String} {d : Char} (h : IsCaseless d) :
    (lower s).toList.getLast? = some d ↔ s.toList.getLast? = some d := by
  simp [toList_lower, toLower_eq_iff h]

/-- Two spellings of a text begin with the same characters of one spelling. -/
theorem prefix_of_lower {a a' : String} (lead : List Char) (h : lower a = lower a')
    (hlead : ∀ c ∈ lead, IsCaseless c) (ha : lead <+: a.toList) : lead <+: a'.toList := by
  have hchars : a.toList.map Char.toLower = a'.toList.map Char.toLower := by
    rw [← toList_lower, h, toList_lower]
  generalize a.toList = cs, a'.toList = cs' at hchars ha
  induction lead generalizing cs cs' with
  | nil => exact List.nil_prefix
  | cons d lead ih =>
    obtain ⟨rest, rfl⟩ := ha
    cases cs' with
    | nil => simp at hchars
    | cons c' cs' =>
      simp only [List.cons_append, List.map_cons, List.cons.injEq] at hchars
      have hd := hlead d List.mem_cons_self
      rw [hd.1] at hchars
      rw [(toLower_eq_iff hd).mp hchars.1.symm]
      exact List.cons_prefix_cons.mpr
        ⟨rfl, ih (fun c hc => hlead c (List.mem_cons_of_mem d hc)) _ _ hchars.2
          (List.prefix_append lead rest)⟩

/-- A test that ignores case passes on all characters of both texts or of neither. -/
theorem all_lower (s : String) {f : Char → Bool} (hf : ∀ {c}, f c.toLower = f c) :
    (lower s).toList.all f = s.toList.all f := by
  simp [toList_lower, hf, Function.comp_def]

theorem lower_join (texts : List String) :
    lower (String.join texts) = String.join (texts.map lower) := by
  apply String.toList_inj.mp
  simp [toList_lower, String.toList_join, List.map_flatMap, List.flatMap_map]

theorem lower_intercalate (sep : String) (texts : List String) :
    lower (String.intercalate sep texts) = String.intercalate (lower sep) (texts.map lower) := by
  have hchars : ∀ xs : List (List Char), (sep.toList.intercalate xs).map Char.toLower =
      (sep.toList.map Char.toLower).intercalate (xs.map (List.map Char.toLower)) := by
    intro xs
    induction xs with
    | nil => rfl
    | cons x rest ih =>
      cases rest with
      | nil => simp [List.intercalate]
      | cons y more =>
        simp only [List.intercalate, List.intersperse, List.flatten_cons, List.map_append,
          List.map_cons] at ih ⊢
        rw [ih]
  apply String.toList_inj.mp
  simp [toList_lower, String.toList_intercalate, hchars, Function.comp_def]

/-! ### Blanks -/

/-- Blanks have no case, so a text has the same words. -/
theorem wordsFrom_toLower (run cs : List Char) :
    wordsFrom (run.map Char.toLower) (cs.map Char.toLower) =
      (wordsFrom run cs).map (List.map Char.toLower) := by
  induction cs generalizing run with
  | nil => cases run <;> simp [wordsFrom]
  | cons c rest ih =>
    have hnil := ih []
    have hcons := ih (c :: run)
    simp only [List.map_nil, List.map_cons] at hnil hcons
    simp only [wordsFrom, List.map_cons, isBlank_toLower, List.isEmpty_map, hnil, hcons]
    split
    · split <;> simp
    · rfl

theorem words_lower (s : String) : words (lower s) = (words s).map lower := by
  have h := wordsFrom_toLower [] s.toList
  simp only [List.map_nil] at h
  simp [words, toList_lower, h, lower_ofList]

/-- White space collapses to single blanks before or after the letters change. -/
@[simp] theorem lower_collapse (s : String) : lower (collapse s) = collapse (lower s) := by
  rw [collapse, lower_intercalate, collapse, words_lower, lower_eq_self (by decide)]

theorem trimRightChars_toLower (cs : List Char) :
    trimRightChars (cs.map Char.toLower) = (trimRightChars cs).map Char.toLower := by
  simp [trimRightChars, ← List.map_reverse, List.dropWhile_map, Function.comp_def]

/-- The blanks around a text have no case. -/
theorem trimChars_toLower (cs : List Char) :
    trimChars (cs.map Char.toLower) = (trimChars cs).map Char.toLower := by
  simp [trimChars, List.dropWhile_map, Function.comp_def, trimRightChars_toLower]

@[simp] theorem trim_lower (s : String) : trim (lower s) = lower (trim s) := by
  simp [trim, toList_lower, trimChars_toLower, lower_ofList]

@[simp] theorem lower_truncate (s : String) (limit : Nat) :
    lower (truncate s limit) = truncate (lower s) limit := by
  unfold truncate
  rw [length_lower]
  split
  · rfl
  · rw [lower_append, lower_ofList, toList_lower, List.map_take,
      lower_eq_self (s := "...") (by decide)]

end Portability.Text
