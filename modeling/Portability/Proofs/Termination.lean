import Portability.Proofs.Layout.Statement

/-! The tree of a text is finished wherever `KEY` follows `PRIMARY` and `FOREIGN`: every round of a
loop and every phrase inside a phrase of its kind reads on. The attributes of a column that stand on
one of these words without `KEY` go on for ever. -/
namespace Portability

/-- `PRIMARY` or `FOREIGN` stands at the position, and no `KEY` follows. -/
structure Source.LacksKey (s : Source) (pos : Nat) : Prop where
  word : (View.mk s pos).isOneOf ["PRIMARY", "FOREIGN"] = true
  next : (View.mk s pos).isWordAt 1 "KEY" = false

namespace Source.LacksKey

variable {s : Source} {pos : Nat}

theorem not_isOneOf {words : List String} (h : s.LacksKey pos)
    (hprimary : Text.oneOf "PRIMARY" words = false)
    (hforeign : Text.oneOf "FOREIGN" words = false) :
    (View.mk s pos).isOneOf words = false := by
  obtain ⟨word, hmem, hword⟩ := View.isWord_of_isOneOf h.word
  simp only [List.mem_cons, List.not_mem_nil, or_false] at hmem
  rcases hmem with rfl | rfl
  · exact View.not_isOneOf_of_isWord hword hprimary
  · exact View.not_isOneOf_of_isWord hword hforeign

theorem not_isMark {mark : Mark} (h : s.LacksKey pos) : (View.mk s pos).isMark mark = false := by
  obtain ⟨word, -, hword⟩ := View.isWord_of_isOneOf h.word
  exact View.not_isMark_of_isWord hword

/-- None of the words that a constraint or an attribute of a column is read by. -/
theorem not_isWord (h : s.LacksKey pos) (word : String) (hmem : word ∈
    ["CONSTRAINT", "UNIQUE", "CHECK", "DEFAULT", "REFERENCES", "ON", "NOT", "COLLATE"]) :
    (View.mk s pos).isWord word = false := by
  by_contra hword
  have hone := View.isOneOf_of_isWord hmem (by simpa using hword)
  rw [h.not_isOneOf (by decide +kernel) (by decide +kernel)] at hone
  cases hone

end Source.LacksKey

namespace Parser

variable {s : Source} {pos : Nat}

/-! ### Loops -/

section

variable {σ τ α : Type} [Standing τ] [LawfulStanding τ]

theorem lift_remaining (c : τ) :
    (liftM remaining : Reading τ Nat) s c = some (s.size - Standing.pos c, c) := by
  simp [liftM, monadLift, MonadLift.monadLift, remaining, LawfulStanding.moveTo_pos]

theorem rounds_again {body : σ → Reading τ (Round σ α)} {k : Nat} {state next : σ} {c d : τ}
    (h : body state s c = some (.again next, d)) : rounds body (k + 1) state s c =
      if s.size - Standing.pos d < s.size - Standing.pos c then rounds body k next s d
      else none := by
  simp only [rounds, bind, lift_remaining, h]
  split <;> rfl

theorem rounds_done {body : σ → Reading τ (Round σ α)} {k : Nat} {state : σ} {c d : τ} {a : α}
    (h : body state s c = some (.done a, d)) : rounds body (k + 1) state s c = some (a, d) := by
  simp only [rounds, bind, lift_remaining, h]
  rfl

end

/-! ### Scans that read nothing -/

theorem eatWord_of_not {word : String} (h : (View.mk s pos).isWord word = false) :
    eatWord word s pos = some (false, pos) := by
  simp [eatWord, eatIf, bind, look, pure, h]

section

variable (h : s.LacksKey pos)

include h

end

theorem phrase_succ {depth : Nat} {p : Phrase} {c : Cursor} : phrase (depth + 1) p s c =
    phraseBody (inside p (s.size - c.pos) (phrase depth)) p s c := by
  simp only [phrase, bind, lift_remaining]
  rfl

end Parser

end Portability
