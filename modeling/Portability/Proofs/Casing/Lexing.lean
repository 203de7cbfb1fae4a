import Portability.Proofs.Casing.Statement
import Portability.Proofs.TokenMerge
import Portability.Proofs.TokenShapes

/-! Token streams that differ in the case of bare words make the same tree up to case. -/
namespace Portability

/-- A bare word begins with no brace. -/
theorem BareWord.head?_ne {cs : List Char} (h : BareWord cs) : cs.head? ≠ some '\x7b' := by
  cases h with
  | plain hc =>
    rintro ⟨⟩
    revert hc
    decide
  | localName | systemName | temporaryName => simp
  | signs _ hcs =>
    intro hbrace
    have hsign := hcs '\x7b' (List.mem_of_head? hbrace)
    revert hsign
    decide

/-! ### Joined lexemes -/

/-- The digits after a zero and an `x` are hexadecimal in either case. -/
theorem hexTail?_lower (value : String) :
    hexTail? (Text.lower value) = (hexTail? value).map Text.lower := by
  have hx : ∀ c : Char, (decide (c.toLower = 'x') || decide (c.toLower = 'X')) =
      (decide (c = 'x') || decide (c = 'X')) :=
    Text.apply_toLower (f := fun c : Char => decide (c = 'x') || decide (c = 'X')) (by decide)
  have hdigit : ∀ c : Char, Lexer.isHexDigit c.toLower = Lexer.isHexDigit c :=
    Text.apply_toLower (by decide)
  unfold hexTail?
  rw [Text.toList_lower]
  cases value.toList with
  | nil => rfl
  | cons c digits =>
    simp only [List.map_cons, hx, List.all_map, Function.comp_def, hdigit]
    split <;> simp [Text.lower_ofList]

theorem Token.isSigil_fold (t : Token) : t.fold.isSigil = t.isSigil := by
  unfold fold
  split
  · rfl
  · simp [isSigil, display, String.all_bool_eq]
  · rfl

@[simp] theorem Lexeme.fold_fold (x : Lexeme) : x.fold.fold = x.fold := by
  obtain ⟨t, p⟩ := x
  rcases t.eq_or_fold with ⟨value, rfl⟩ | ⟨digits, rfl⟩ | hsame
  · simp [fold, Token.fold]
  · simp [fold, Token.fold]
  · simp [fold, hsame]

/-- A sigil is no bare word and no hexadecimal literal. -/
theorem Token.fold_eq_of_isSigil {t : Token} (h : t.isSigil = true) : t.fold = t := by
  rcases t.eq_or_fold with ⟨value, rfl⟩ | ⟨digits, rfl⟩ | hsame
  · cases h
  · simp [isSigil, display, String.all_bool_eq] at h
  · exact hsame

theorem Lexeme.isBare_fold {x : Lexeme} (h : ¬ x.IsBare) : ¬ x.fold.IsBare := by
  rintro ⟨value, hvalue⟩
  rcases x.token.eq_or_fold with hbare | ⟨digits, hhex⟩ | hsame
  · exact h hbare
  · simp [fold, hhex, Token.fold] at hvalue
  · exact h ⟨value, hsame ▸ hvalue⟩

theorem Lexeme.fold_bare (value : String) (q : Position) :
    (⟨.word value none, q⟩ : Lexeme).fold = ⟨.word (Text.lower value) none, q⟩ := rfl

theorem Lexeme.fold_hex (digits : String) (q : Position) :
    (⟨.hex digits, q⟩ : Lexeme).fold = ⟨.hex (Text.lower digits), q⟩ := rfl

/-- A run of lexemes that are merged into one word is folded as a whole. -/
theorem Lexeme.fold_join_bare (x : Lexeme) (value : String) (q : Position) (more : List Lexeme) :
    (x.fold.join (⟨.word (Text.lower value) none, q⟩ :: more.map fold)).map fold =
      (x.join (⟨.word value none, q⟩ :: more)).map fold := by
  obtain ⟨t, p⟩ := x
  rw [join_bare, join_bare, hexTail?_lower]
  rcases t.eq_or_fold with ⟨word, rfl⟩ | ⟨digits, rfl⟩ | hsame
  · simp [fold_bare, Token.isSigil, Function.comp_def]
  · simp [fold_bare, fold_hex, Token.isSigil, Token.display, String.all_bool_eq, Function.comp_def]
  · have hx : (⟨t, p⟩ : Lexeme).fold = ⟨t, p⟩ := by rw [fold, hsame]
    rw [hx]
    split
    · simp [fold_bare, Function.comp_def]
    · cases hexTail? value with
      | none => simp [hx, fold_bare, Function.comp_def]
      | some tail =>
        by_cases hzero : ∃ long, t = .number "0" long
        · obtain ⟨long, rfl⟩ := hzero
          simp [fold_hex, Function.comp_def]
        · have hnot : ∀ long, t ≠ .number "0" long := fun long h => hzero ⟨long, h⟩
          simp [hnot, hx, fold_bare, Function.comp_def]

/-- Joining makes the same tokens up to case. -/
theorem Lexeme.fold_join (x : Lexeme) (rest : List Lexeme) :
    (x.fold.join (rest.map fold)).map fold = (x.join rest).map fold := by
  have hsigil : x.fold.token.isSigil = x.token.isSigil := Token.isSigil_fold x.token
  have hsame : x.token.isSigil = true → x.fold = x := fun h => by
    rw [fold, Token.fold_eq_of_isSigil h]
  cases rest with
  | nil =>
    rw [List.map_nil, join_nil, join_nil, hsigil]
    split
    · rename_i h
      rw [hsame h]
    · simp
  | cons y more =>
    rw [List.map_cons]
    by_cases hbare : y.IsBare
    · obtain ⟨token, q⟩ := y
      obtain ⟨value, rfl⟩ := hbare
      exact fold_join_bare x value q more
    · rw [join_of_not_isBare _ (isBare_fold hbare), join_of_not_isBare _ hbare, hsigil]
      split
      · rename_i h
        simp [hsame h]
      · simp

/-- Merging joins the same runs in both sequences. -/
theorem fold_mergeLexemes {xs ys : List Lexeme} (h : xs.map Lexeme.fold = ys.map Lexeme.fold) :
    (mergeLexemes xs).map Lexeme.fold = (mergeLexemes ys).map Lexeme.fold := by
  induction xs generalizing ys with
  | nil =>
    rw [List.map_nil, eq_comm, List.map_eq_nil_iff] at h
    rw [h]
  | cons x xs ih =>
    cases ys with
    | nil => cases h
    | cons y ys =>
      simp only [List.map_cons, List.cons.injEq] at h
      show (x.join (mergeLexemes xs)).map Lexeme.fold = (y.join (mergeLexemes ys)).map Lexeme.fold
      rw [← Lexeme.fold_join, h.1, ih h.2, Lexeme.fold_join]

namespace Source

/-- The sources over two sequences that are the same up to case are so too. -/
theorem fold_ofLexemes {xs ys : List Lexeme} (h : xs.map Lexeme.fold = ys.map Lexeme.fold) :
    (ofLexemes xs).fold = (ofLexemes ys).fold := by
  have hmerged := fold_mergeLexemes h
  have hsignificant : ∀ zs : List Lexeme,
      ((zs.map Lexeme.fold).zipIdx.filter (·.1.token.isSignificant)).map (·.2) =
        (zs.zipIdx.filter (·.1.token.isSignificant)).map (·.2) := by
    intro zs
    simp [List.zipIdx_map, List.filter_map, Function.comp_def, Lexeme.fold,
      Token.isSignificant_fold]
  have hlexemes : (mergeLexemes xs).toArray.map Lexeme.fold =
      (mergeLexemes ys).toArray.map Lexeme.fold := by
    rw [List.map_toArray, hmerged, List.map_toArray]
  unfold ofLexemes fold
  dsimp only
  rw [hlexemes, ← hsignificant (mergeLexemes xs), hmerged, hsignificant]

/-- The bare words of a text begin no escape. -/
theorem plain_of_ofText {text : String} {s : Source} (h : ofText text = .ok s) : s.Plain :=
  fun _ _ hword => BareWord.head?_ne (shaped_of_ofText h hword)

end Source

end Portability
