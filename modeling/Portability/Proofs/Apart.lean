import Portability.Tree

/-! Texts whose lexemes stand apart: none is joined with those behind it. The way from such a text
to its tree is by structural recursion, so that facts about the tree of a given text can be
decided. -/
namespace Portability

deriving instance DecidableEq for Kind

/-- The lexeme is not joined with those behind it, as its characters show. -/
def Lexeme.standsApart (x : Lexeme) (rest : List Lexeme) : Bool :=
  match x.token, rest with
  | .word .., _ => true
  | .number .., ⟨.word _ none, _⟩ :: _ => false
  | t, _ => !t.display.toList.all fun c => c == '@' || c == '#'

/-- No lexeme is joined with those behind it. -/
def Lexeme.allApart : List Lexeme → Bool
  | [] => true
  | x :: rest => x.standsApart rest && allApart rest

theorem Token.isSigil_of_not_all {t : Token}
    (h : (t.display.toList.all fun c => c == '@' || c == '#') = false) : t.isSigil = false := by
  unfold isSigil
  split
  · rfl
  · rw [String.all_bool_eq, h, Bool.and_false]

theorem Lexeme.join_of_standsApart {x : Lexeme} {rest : List Lexeme}
    (h : x.standsApart rest = true) : x.join rest = x :: rest := by
  unfold standsApart at h
  split at h
  · next htoken => simp [join, htoken, Token.isSigil]
  · cases h
  · next hnumber =>
    have hsign : x.token.isSigil = false := Token.isSigil_of_not_all (by simpa using h)
    unfold join
    rw [if_neg (by simp [hsign])]
    split
    · next hdigits => exact absurd rfl (hnumber _ _ _ _ _ hdigits)
    · rfl

theorem mergeLexemes_of_allApart {xs : List Lexeme} (h : Lexeme.allApart xs = true) :
    mergeLexemes xs = xs := by
  induction xs with
  | nil => rfl
  | cons x rest ih =>
    obtain ⟨hx, hrest⟩ := Bool.and_eq_true_iff.mp h
    have hmerge : mergeLexemes (x :: rest) = x.join (mergeLexemes rest) := rfl
    rw [hmerge, ih hrest, Lexeme.join_of_standsApart hx]

namespace Source

/-- The stream of lexemes that stand apart. -/
def ofApart (xs : List Lexeme) : Source where
  lexemes := xs.toArray
  significant :=
    (xs.zipIdx.filter fun x => x.1.token.isSignificant).map (·.2) |>.toArray

theorem ofLexemes_of_allApart {xs : List Lexeme} (h : Lexeme.allApart xs = true) :
    ofLexemes xs = ofApart xs := by
  simp only [ofLexemes, mergeLexemes_of_allApart h, ofApart]

/-- The stream of a text; nothing if it has lexemes that do not stand apart. -/
def ofApart? (text : String) : Option Source :=
  match Portability.lexemes text with
  | .ok xs => if Lexeme.allApart xs then some (ofApart xs) else none
  | .error _ => none

theorem ofText_of_apart {text : String} {s : Source} (h : ofApart? text = some s) :
    ofText text = .ok s := by
  unfold ofApart? at h
  split at h
  · next xs hlexemes =>
    split at h
    · next hapart =>
      cases h
      simp [ofText, hlexemes, Except.map, ofLexemes_of_allApart hapart]
    · cases h
  · cases h

theorem map_ofText_of_apart {α : Type} {f : Source → α} {text : String} {a : α}
    (h : (ofApart? text).map f = some a) : (ofText text).toOption.map f = some a := by
  obtain ⟨s, hs, rfl⟩ := Option.map_eq_some_iff.mp h
  rw [ofText_of_apart hs]
  rfl

end Source

namespace Tree

/-- The tree of a text; nothing if it has lexemes that do not stand apart. -/
def ofApart? (text : String) : Option Tree := (Source.ofApart? text).bind ofSource?

theorem ofText?_of_apart {text : String} {t : Tree} (h : ofApart? text = some t) :
    ofText? text = some t := by
  obtain ⟨s, hsource, htree⟩ := Option.bind_eq_some_iff.mp h
  rw [ofText?, Source.ofText_of_apart hsource]
  exact htree

/-- A fact about the tree of a text, decided on the lexemes as they stand. -/
theorem map_ofText?_of_apart {α : Type} {f : Tree → α} {text : String} {a : α}
    (h : (ofApart? text).map f = some a) : (ofText? text).map f = some a := by
  obtain ⟨t, ht, rfl⟩ := Option.map_eq_some_iff.mp h
  rw [ofText?_of_apart ht, Option.map_some]

theorem exists_ofText?_of_apart {text : String} (h : (ofApart? text).isSome = true) :
    ∃ t, ofText? text = some t := by
  obtain ⟨t, ht⟩ := Option.isSome_iff_exists.mp h
  exact ⟨t, ofText?_of_apart ht⟩

/-- A fact about the trees of two texts, decided on the lexemes as they stand. -/
theorem exists_ofText?_pair_of_apart {α : Type} {f : Tree → Tree → α} {text text' : String} {a : α}
    (h : ((ofApart? text).bind fun t => (ofApart? text').map (f t)) = some a) :
    ∃ t t', ofText? text = some t ∧ ofText? text' = some t' ∧ f t t' = a := by
  obtain ⟨t, ht, hrest⟩ := Option.bind_eq_some_iff.mp h
  obtain ⟨t', ht', hfact⟩ := Option.map_eq_some_iff.mp hrest
  exact ⟨t, t', ofText?_of_apart ht, ofText?_of_apart ht', hfact⟩

end Tree

end Portability
