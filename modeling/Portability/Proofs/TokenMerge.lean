import Mathlib
import Portability.Proofs.SourceOrder

/-! Joining tokens loses nothing. Every joined token stands for a run of the tokens it is made of,
one run after another; it is written as they are and stands where the first of them stood. -/
namespace Portability

namespace Token

variable {s t : Token} {run : List Token}

/-- Whatever shows nothing but signs is written the way it is shown. -/
theorem sourceText_of_isSigil (h : t.isSigil = true) : t.sourceText = t.display := by
  cases t with
  | word => cases h
  | string | national | hex => simp [isSigil, display, String.all_bool_eq] at h
  | _ => rfl

theorem exists_cons_of_isSigil (h : t.isSigil = true) :
    ∃ c more, t.display.toList = c :: more ∧ (c = '@' ∨ c = '#') := by
  unfold isSigil at h
  split at h
  · cases h
  · simp only [Bool.and_eq_true, String.all_bool_eq, List.all_eq_true] at h
    obtain ⟨hne, hall⟩ := h
    cases hchars : t.display.toList with
    | nil => simp [String.toList_eq_nil_iff.mp hchars] at hne
    | cons c more =>
      refine ⟨c, more, rfl, ?_⟩
      simpa using hall c (by simp [hchars])

/-- What a token can be joined from: from itself if it is no sign, from signs, from signs and the
bare word right after them, or from a zero and the word that makes it hexadecimal. -/
inductive MadeOf : Token → List Token → Prop
  | kept {t : Token} (h : t.isSigil = false) : MadeOf t [t]
  | signs {run : List Token} (hne : run ≠ []) (hrun : ∀ s ∈ run, s.isSigil = true) :
      MadeOf (.word (String.join (run.map display)) none) run
  | name {run : List Token} (hne : run ≠ []) (hrun : ∀ s ∈ run, s.isSigil = true)
      (value : String) :
      MadeOf (.word (String.join (run.map display) ++ value) none) (run ++ [.word value none])
  | hex {mark : Char} {digits : List Char} (hmark : mark = 'x' ∨ mark = 'X')
      (hdigits : ∀ c ∈ digits, Lexer.isHexDigit c = true) :
      MadeOf (.hex (String.ofList digits))
        [.number "0" false, .word (String.ofList (mark :: digits)) none]

/-- A sign goes before the signs of a word. -/
theorem MadeOf.sign_cons {value : String} (hs : s.isSigil = true)
    (h : MadeOf (.word value none) run) :
    MadeOf (.word (s.display ++ value) none) (s :: run) := by
  have hcons : ∀ {signs : List Token}, (∀ u ∈ signs, u.isSigil = true) →
      ∀ u ∈ s :: signs, u.isSigil = true := fun hsigns => List.forall_mem_cons.mpr ⟨hs, hsigns⟩
  cases h with
  | kept =>
    have hname := MadeOf.name (List.cons_ne_nil s []) (hcons (by simp)) value
    simpa using hname
  | signs hne hrun =>
    have hsigns := MadeOf.signs (List.cons_ne_nil s run) (hcons hrun)
    simpa using hsigns
  | @name signs hne hrun value =>
    have hname := MadeOf.name (List.cons_ne_nil s signs) (hcons hrun) value
    simpa [String.append_assoc] using hname

/-- A token is written as what it is made of, up to the mark of a hexadecimal literal. -/
theorem MadeOf.sourceText (h : MadeOf t run) :
    t.sourceText = String.join (run.map Token.sourceText) ∨
      ∃ digits, t = .hex digits ∧ String.join (run.map Token.sourceText) = "0X" ++ digits := by
  have hsigns : ∀ {signs : List Token}, (∀ s ∈ signs, s.isSigil = true) →
      signs.map display = signs.map Token.sourceText := fun hall =>
    List.map_congr_left fun s hs => (sourceText_of_isSigil (hall s hs)).symm
  cases h with
  | kept => simp
  | signs _ hrun =>
    left
    rw [← hsigns hrun]
    rfl
  | @name signs _ hrun value =>
    left
    rw [List.map_append, ← hsigns hrun, String.join_append]
    simp [Token.sourceText, wordText]
  | @hex mark digits hmark _ =>
    have hwritten : String.join ([.number "0" false,
        .word (String.ofList (mark :: digits)) none].map Token.sourceText) =
          "0" ++ String.ofList (mark :: digits) := by
      simp [Token.sourceText, display, wordText]
    rw [hwritten]
    rcases hmark with rfl | rfl
    · left
      simp [Token.sourceText, String.ext_iff]
    · right
      exact ⟨_, rfl, by simp [String.ext_iff]⟩

end Token

/-- A word that begins with a sign makes no zero hexadecimal. -/
theorem hexTail?_of_isSigil {t : Token} (h : t.isSigil = true) (value : String) :
    hexTail? (t.display ++ value) = none := by
  obtain ⟨c, more, hchars, hc⟩ := t.exists_cons_of_isSigil h
  rcases hc with rfl | rfl <;> simp [hexTail?, hchars]

theorem hexTail?_eq_some {value tail : String} (h : hexTail? value = some tail) :
    ∃ mark digits, (mark = 'x' ∨ mark = 'X') ∧ (∀ c ∈ digits, Lexer.isHexDigit c = true) ∧
      value = String.ofList (mark :: digits) ∧ tail = String.ofList digits := by
  unfold hexTail? at h
  split at h
  · next mark digits hchars =>
    split at h
    · next hhex =>
      simp only [Bool.and_eq_true, Bool.or_eq_true, decide_eq_true_eq, List.all_eq_true] at hhex
      refine ⟨mark, digits, hhex.1, hhex.2, ?_, (Option.some.inj h).symm⟩
      rw [← hchars, String.ofList_toList]
    · cases h
  · cases h

/-- Such a word has not been joined itself. -/
theorem Token.MadeOf.eq_of_hexTail? {value tail : String} {run : List Token}
    (hvalue : hexTail? value = some tail) (h : MadeOf (.word value none) run) :
    run = [.word value none] := by
  have hsigns : ∀ {signs : List Token} (more : String), signs ≠ [] →
      (∀ s ∈ signs, s.isSigil = true) →
      hexTail? (String.join (signs.map display) ++ more) = none := by
    intro signs more hne hall
    cases signs with
    | nil => exact absurd rfl hne
    | cons s signs =>
      rw [List.map_cons, String.join_cons, String.append_assoc]
      exact hexTail?_of_isSigil (hall s List.mem_cons_self) _
  cases h with
  | kept => rfl
  | signs hne hrun =>
    have hnone := hsigns "" hne hrun
    rw [String.append_empty, hvalue] at hnone
    cases hnone
  | @name signs hne hrun more =>
    rw [hsigns more hne hrun] at hvalue
    cases hvalue

namespace Lexeme

variable {x y : Lexeme} {xs before rest more run : List Lexeme}

/-! ### One lexeme -/

/-- The lexeme is a bare word. -/
def IsBare (x : Lexeme) : Prop := ∃ value, x.token = .word value none

theorem join_nil (x : Lexeme) :
    x.join [] = [if x.token.isSigil then ⟨.word x.token.display none, x.position⟩ else x] := by
  unfold join
  grind

/-- Where no bare word follows, nothing is joined. -/
theorem join_of_not_isBare {x y : Lexeme} (more : List Lexeme) (h : ¬ y.IsBare) :
    x.join (y :: more) =
      (if x.token.isSigil then ⟨.word x.token.display none, x.position⟩ else x) :: y :: more := by
  obtain ⟨u, q⟩ := y
  have hbare : ∀ value, u ≠ .word value none := fun value hu => h ⟨value, hu⟩
  unfold join
  grind

theorem join_bare (x : Lexeme) (value : String) (q : Position) (more : List Lexeme) :
    x.join (⟨.word value none, q⟩ :: more) =
      if x.token.isSigil then ⟨.word (x.token.display ++ value) none, x.position⟩ :: more
      else match x.token, hexTail? value with
        | .number "0" _, some tail => ⟨.hex tail, x.position⟩ :: more
        | _, _ => x :: ⟨.word value none, q⟩ :: more := by
  unfold join
  grind

/-- What comes of a lexeme before joined lexemes. -/
inductive Joins (x : Lexeme) : List Lexeme → List Lexeme → Prop
  | name (hsign : x.token.isSigil = true) (value : String) (p : Position) (more : List Lexeme) :
      Joins x (⟨.word value none, p⟩ :: more)
        (⟨.word (x.token.display ++ value) none, x.position⟩ :: more)
  | sign (hsign : x.token.isSigil = true) (rest : List Lexeme) :
      Joins x rest (⟨.word x.token.display none, x.position⟩ :: rest)
  | hex {long : Bool} {value tail : String} (hx : x.token = .number "0" long)
      (hvalue : hexTail? value = some tail) (p : Position) (more : List Lexeme) :
      Joins x (⟨.word value none, p⟩ :: more) (⟨.hex tail, x.position⟩ :: more)
  | kept (hsign : x.token.isSigil = false) (rest : List Lexeme) : Joins x rest (x :: rest)

theorem joins_join (x : Lexeme) (rest : List Lexeme) : Joins x rest (x.join rest) := by
  have halone : Joins x rest
      ((if x.token.isSigil then ⟨.word x.token.display none, x.position⟩ else x) :: rest) := by
    split
    · next hsign => exact .sign hsign rest
    · next hsign => exact .kept (Bool.eq_false_iff.mpr hsign) rest
  cases rest with
  | nil =>
    rw [join_nil]
    exact halone
  | cons y more =>
    by_cases hbare : y.IsBare
    · obtain ⟨token, p⟩ := y
      obtain ⟨value, rfl⟩ := hbare
      rw [join_bare]
      split
      · next hsign => exact .name hsign value p more
      · next hsign =>
        split
        · next hx hvalue => exact .hex hx hvalue p more
        · exact .kept (Bool.eq_false_iff.mpr hsign) _
    · rw [join_of_not_isBare _ hbare]
      exact halone

theorem join_ne_nil (x : Lexeme) (rest : List Lexeme) : x.join rest ≠ [] := by
  have hjoin := joins_join x rest
  generalize x.join rest = joined at hjoin
  cases hjoin <;> exact List.cons_ne_nil _ _

/-- Nothing is joined to a word. -/
theorem join_word (value : String) (quote : Option Quote) (p : Position) (rest : List Lexeme) :
    join ⟨.word value quote, p⟩ rest = ⟨.word value quote, p⟩ :: rest := by
  simp [join, Token.isSigil]

theorem join_hex (digits : String) (p : Position) (rest : List Lexeme) :
    join ⟨.hex digits, p⟩ rest = ⟨.hex digits, p⟩ :: rest := by
  simp [join, Token.isSigil, Token.display, String.all_bool_eq]

/-- Only the lexeme right after is looked at. -/
theorem join_append (h : rest ≠ []) : x.join (rest ++ more) = x.join rest ++ more := by
  cases rest with
  | nil => exact absurd rfl h
  | cons y rest =>
    rw [List.cons_append]
    by_cases hbare : y.IsBare
    · obtain ⟨token, p⟩ := y
      obtain ⟨value, rfl⟩ := hbare
      rw [join_bare, join_bare]
      split
      · rfl
      · split <;> rfl
    · rw [join_of_not_isBare _ hbare, join_of_not_isBare _ hbare]
      rfl

/-! ### Runs -/

/-- The text of lexemes as they are written. -/
def written (xs : List Lexeme) : String := String.join (xs.map (·.token.sourceText))

@[simp] theorem written_cons : written (x :: xs) = x.token.sourceText ++ written xs := by
  simp [written]

@[simp] theorem written_append : written (xs ++ more) = written xs ++ written more := by
  simp [written]

/-- A lexeme stands for a run of lexemes. -/
structure Replaces (y : Lexeme) (run : List Lexeme) : Prop where
  token : y.token.MadeOf (run.map (·.token))
  position : run.head?.map (·.position) = some y.position
  /-- Only the mark of a hexadecimal literal can be written in another way. -/
  text : y.token.sourceText = written run ∨
    ∃ digits, y.token = .hex digits ∧ written run = "0X" ++ digits

theorem Replaces.of_madeOf (htoken : y.token.MadeOf (run.map (·.token)))
    (hposition : run.head?.map (·.position) = some y.position) : y.Replaces run where
  token := htoken
  position := hposition
  text := by
    have htext := htoken.sourceText
    rwa [List.map_map] at htext

/-- Joined lexemes stand for runs, one after another. -/
theorem exists_runs_join {merged : List Lexeme} {runs : List (List Lexeme)}
    (hx : ∀ digits, x.token ≠ .number digits true) (h : List.Forall₂ Replaces merged runs) :
    ∃ runs', runs'.flatten = x :: runs.flatten ∧ List.Forall₂ Replaces (x.join merged) runs' := by
  have hjoin := joins_join x merged
  generalize x.join merged = joined at hjoin
  cases hjoin with
  | name hsign value p more =>
    obtain ⟨run, later, hrun, hlater, rfl⟩ := List.forall₂_cons_left_iff.mp h
    refine ⟨(x :: run) :: later, by simp, .cons ?_ hlater⟩
    exact .of_madeOf (hrun.token.sign_cons hsign) rfl
  | sign hsign =>
    refine ⟨[x] :: runs, by simp, .cons ?_ h⟩
    have htoken := Token.MadeOf.signs (List.cons_ne_nil x.token []) (by simpa using hsign)
    exact .of_madeOf (by simpa using htoken) rfl
  | @hex long value tail hnumber hvalue p more =>
    obtain ⟨run, later, hrun, hlater, rfl⟩ := List.forall₂_cons_left_iff.mp h
    have hlong : long = false := by
      rcases Bool.eq_false_or_eq_true long with rfl | rfl
      · exact absurd hnumber (hx _)
      · rfl
    refine ⟨(x :: run) :: later, by simp, .cons ?_ hlater⟩
    have hword := hrun.token.eq_of_hexTail? hvalue
    obtain ⟨mark, digits, hmark, hdigits, rfl, rfl⟩ := hexTail?_eq_some hvalue
    refine .of_madeOf ?_ rfl
    rw [List.map_cons, hword, hnumber, hlong]
    exact .hex hmark hdigits
  | kept hsign =>
    exact ⟨[x] :: runs, by simp, .cons (.of_madeOf (.kept hsign) rfl) h⟩

/-- No sign is left alone. -/
theorem isSigil_join (h : ∀ y ∈ rest, y.token.isSigil = false) :
    ∀ y ∈ x.join rest, y.token.isSigil = false := by
  have hjoin := joins_join x rest
  generalize x.join rest = joined at hjoin ⊢
  cases hjoin with
  | name => exact List.forall_mem_cons.mpr ⟨rfl, (List.forall_mem_cons.mp h).2⟩
  | sign => exact List.forall_mem_cons.mpr ⟨rfl, h⟩
  | hex =>
    refine List.forall_mem_cons.mpr ⟨?_, (List.forall_mem_cons.mp h).2⟩
    simp [Token.isSigil, Token.display, String.all_bool_eq]
  | kept hsign => exact List.forall_mem_cons.mpr ⟨hsign, h⟩

end Lexeme

/-! ### All lexemes -/

section

variable {x first : Lexeme} {xs before after signs rest merged : List Lexeme}

theorem mergeLexemes_cons (x : Lexeme) (xs : List Lexeme) :
    mergeLexemes (x :: xs) = x.join (mergeLexemes xs) := rfl

theorem exists_runs (h : ∀ x ∈ xs, ∀ digits, x.token ≠ .number digits true) :
    ∃ runs, runs.flatten = xs ∧ List.Forall₂ Lexeme.Replaces (mergeLexemes xs) runs := by
  induction xs with
  | nil => exact ⟨[], rfl, .nil⟩
  | cons x xs ih =>
    obtain ⟨hx, hxs⟩ := List.forall_mem_cons.mp h
    obtain ⟨runs, rfl, hruns⟩ := ih hxs
    exact Lexeme.exists_runs_join hx hruns

theorem isSigil_mergeLexemes (xs : List Lexeme) :
    ∀ y ∈ mergeLexemes xs, y.token.isSigil = false := by
  induction xs with
  | nil => simp [mergeLexemes]
  | cons x xs ih => exact Lexeme.isSigil_join ih

/-- Lexemes that are joined already stay so with one more joined to them. -/
theorem mergeLexemes_join (h : mergeLexemes merged = merged) :
    mergeLexemes (x.join merged) = x.join merged := by
  have hjoin := Lexeme.joins_join x merged
  generalize hjoined : x.join merged = joined at hjoin ⊢
  -- A word swallows nothing, so what stands after it is joined already.
  have hafter : ∀ value p more, merged = ⟨.word value none, p⟩ :: more →
      mergeLexemes more = more := by
    rintro value p more rfl
    rw [mergeLexemes_cons, Lexeme.join_word] at h
    exact (List.cons.inj h).2
  cases hjoin with
  | name _ value p more => rw [mergeLexemes_cons, Lexeme.join_word, hafter value p more rfl]
  | sign => rw [mergeLexemes_cons, Lexeme.join_word, h]
  | hex _ _ p more => rw [mergeLexemes_cons, Lexeme.join_hex, hafter _ p more rfl]
  | kept => rw [mergeLexemes_cons, h, hjoined]

theorem mergeLexemes_idem (xs : List Lexeme) :
    mergeLexemes (mergeLexemes xs) = mergeLexemes xs := by
  induction xs with
  | nil => rfl
  | cons x xs ih => exact mergeLexemes_join ih

/-- Signs join the bare word right after them. -/
theorem mergeLexemes_signs (hfirst : first.token.isSigil = true)
    (hrest : ∀ x ∈ rest, x.token.isSigil = true) (value : String) (p : Position) :
    mergeLexemes (first :: rest ++ ⟨.word value none, p⟩ :: after) =
      ⟨.word (Lexeme.written (first :: rest) ++ value) none, first.position⟩ ::
        mergeLexemes after := by
  have hjoin : ∀ (x : Lexeme) (word : String) (q : Position) (more : List Lexeme),
      x.token.isSigil = true → x.join (⟨.word word none, q⟩ :: more) =
        ⟨.word (x.token.sourceText ++ word) none, x.position⟩ :: more := by
    intro x word q more hx
    rw [Lexeme.join_bare, if_pos hx, Token.sourceText_of_isSigil hx]
  induction rest generalizing first with
  | nil =>
    rw [List.cons_append, List.nil_append, mergeLexemes_cons, mergeLexemes_cons,
      Lexeme.join_word, hjoin _ _ _ _ hfirst]
    simp [Lexeme.written]
  | cons second rest ih =>
    obtain ⟨hsecond, hrest⟩ := List.forall_mem_cons.mp hrest
    rw [List.cons_append, mergeLexemes_cons, ih hsecond hrest, hjoin _ _ _ _ hfirst]
    simp [String.append_assoc]

theorem mergeLexemes_ne_nil (h : xs ≠ []) : mergeLexemes xs ≠ [] := by
  cases xs with
  | nil => exact absurd rfl h
  | cons x xs => exact Lexeme.join_ne_nil x (mergeLexemes xs)

/-- What stands before a word that begins with a sign is joined without it, unless its last lexeme
is a sign. -/
theorem mergeLexemes_append_name {name : String} {p : Position} {more : List Lexeme}
    (hname : hexTail? name = none)
    (hafter : mergeLexemes after = ⟨.word name none, p⟩ :: more)
    (hbefore : ∀ x ∈ before.getLast?, x.token.isSigil = false) :
    mergeLexemes (before ++ after) = mergeLexemes before ++ mergeLexemes after := by
  induction before with
  | nil => rfl
  | cons x before ih =>
    rw [List.cons_append, mergeLexemes_cons, mergeLexemes_cons]
    -- Only the lexeme right before the word could join it; any other one sees its own successor.
    cases before with
    | nil =>
      have hx : x.token.isSigil = false := hbefore x rfl
      have hempty : mergeLexemes [] = [] := rfl
      rw [List.nil_append, hempty, hafter, Lexeme.join_bare, Lexeme.join_nil, hname]
      simp [hx]
    | cons second before =>
      rw [ih (by simpa using hbefore)]
      exact Lexeme.join_append (mergeLexemes_ne_nil (List.cons_ne_nil _ _))

end

/-! ### The text of the stream -/

namespace Source

variable {xs : List Lexeme} {y : Lexeme} {i j k pos pos' : Nat}

/-- Every significant lexeme has its position. -/
theorem exists_significant (h : (mergeLexemes xs)[k]? = some y)
    (hy : y.token.isSignificant = true) :
    ∃ pos, pos < (ofLexemes xs).size ∧ (ofLexemes xs).significant[pos]? = some k := by
  have hmem : (y, k) ∈ marked xs :=
    List.mem_filter.mpr ⟨List.mk_mem_zipIdx_iff_getElem?.mpr h, hy⟩
  obtain ⟨pos, hpos, hat⟩ := List.getElem_of_mem hmem
  refine ⟨pos, by rwa [size_ofLexemes], ?_⟩
  rw [significant_ofLexemes, List.getElem?_eq_getElem hpos, hat]
  rfl

theorem significant_lt (hi : (ofLexemes xs).significant[pos]? = some i)
    (hj : (ofLexemes xs).significant[pos']? = some j) (hlt : pos < pos') : i < j := by
  rw [significant_ofLexemes] at hi hj
  obtain ⟨x, hx, rfl⟩ := Option.map_eq_some_iff.mp hi
  obtain ⟨y, hy, rfl⟩ := Option.map_eq_some_iff.mp hj
  obtain ⟨hpos, rfl⟩ := List.getElem?_eq_some_iff.mp hx
  obtain ⟨hpos', rfl⟩ := List.getElem?_eq_some_iff.mp hy
  exact List.pairwise_iff_getElem.mp indices_increase _ _ hpos hpos' hlt

/-- Only white space and comments stand before the first position. -/
theorem blank_before (hfirst : (ofLexemes xs).significant[0]? = some i) :
    ∀ y ∈ (mergeLexemes xs).take i, y.token.isSignificant = false := by
  intro y hy
  by_contra hsig
  obtain ⟨k, hk, hat⟩ := List.getElem_of_mem hy
  rw [List.getElem_take] at hat
  rw [List.length_take] at hk
  obtain ⟨pos, -, hpos⟩ := exists_significant (List.getElem?_eq_some_iff.mpr ⟨by omega, hat⟩)
    (Bool.not_eq_false _ ▸ hsig)
  rcases Nat.eq_zero_or_pos pos with rfl | hlt
  · have heq : i = k := Option.some.inj (hfirst.symm.trans hpos)
    omega
  · have hlt := significant_lt hfirst hpos hlt
    omega

/-- Only white space and comments stand after the last position. -/
theorem blank_after (hlast : (ofLexemes xs).significant[(ofLexemes xs).size - 1]? = some j) :
    ∀ y ∈ (mergeLexemes xs).drop (j + 1), y.token.isSignificant = false := by
  intro y hy
  by_contra hsig
  obtain ⟨k, hk, hat⟩ := List.getElem_of_mem hy
  rw [List.getElem_drop] at hat
  rw [List.length_drop] at hk
  obtain ⟨pos, hsize, hpos⟩ := exists_significant
    (List.getElem?_eq_some_iff.mpr ⟨by omega, hat⟩) (Bool.not_eq_false _ ▸ hsig)
  rcases Nat.lt_or_ge pos ((ofLexemes xs).size - 1) with hlt | hge
  · have hlt := significant_lt hpos hlast hlt
    omega
  · obtain rfl : pos = (ofLexemes xs).size - 1 := by omega
    have heq : j = j + 1 + k := Option.some.inj (hlast.symm.trans hpos)
    omega

/-- The text from the first to the last position leaves out nothing but white space and comments
at the ends. -/
theorem exists_blank_ends (xs : List Lexeme) : ∃ lead trail : List Lexeme,
    (∀ x ∈ lead ++ trail, x.token.isSignificant = false) ∧
    Lexeme.written (mergeLexemes xs) = Lexeme.written lead ++
      (ofLexemes xs).textBetween 0 (ofLexemes xs).size ++ Lexeme.written trail := by
  rcases Nat.eq_zero_or_pos (ofLexemes xs).size with hempty | hsize
  · refine ⟨mergeLexemes xs, [], ?_, by simp [textBetween, hempty, Lexeme.written]⟩
    intro y hy
    by_contra hsig
    rw [List.append_nil] at hy
    obtain ⟨k, hk⟩ := List.getElem?_of_mem hy
    obtain ⟨pos, hpos, -⟩ := exists_significant hk (Bool.not_eq_false _ ▸ hsig)
    omega
  · obtain ⟨i, hi⟩ : ∃ i, (ofLexemes xs).significant[0]? = some i :=
      ⟨_, Array.getElem?_eq_getElem hsize⟩
    obtain ⟨j, hj⟩ : ∃ j, (ofLexemes xs).significant[(ofLexemes xs).size - 1]? = some j :=
      ⟨_, Array.getElem?_eq_getElem (Nat.sub_lt hsize Nat.one_pos)⟩
    have hle : i ≤ j := by
      rcases Nat.eq_zero_or_pos ((ofLexemes xs).size - 1) with hzero | hlt
      · rw [hzero, hi] at hj
        exact (Option.some.inj hj).le
      · exact (significant_lt hi hj hlt).le
    refine ⟨(mergeLexemes xs).take i, (mergeLexemes xs).drop (j + 1), ?_, ?_⟩
    · intro y hy
      rcases List.mem_append.mp hy with hy | hy
      · exact blank_before hi y hy
      · exact blank_after hj y hy
    · have htext : (ofLexemes xs).textBetween 0 (ofLexemes xs).size =
          Lexeme.written ((mergeLexemes xs).extract i (j + 1)) := by
        unfold textBetween
        rw [if_neg (by omega), Nat.min_self, hi, hj]
        simp [ofLexemes, Lexeme.written]
      have hcut : (mergeLexemes xs).take i ++ (mergeLexemes xs).extract i (j + 1) =
          (mergeLexemes xs).take (j + 1) := by
        rw [List.extract, ← List.take_add]
        congr 1
        omega
      rw [htext, ← Lexeme.written_append, ← Lexeme.written_append, hcut, List.take_append_drop]

end Source

/-- Joining loses nothing. The joined tokens stand for runs that make up the whole list, and are
written as these; none is a sign that is no word; signs with a bare word right after them are one
word; joining once more changes nothing; and the text of the stream is all that is written but for
white space and comments at the ends. -/
theorem mergeLexemes_lossless {xs : List Lexeme}
    (hshort : ∀ x ∈ xs, ∀ digits, x.token ≠ .number digits true) :
    (∃ runs, runs.flatten = xs ∧ List.Forall₂ Lexeme.Replaces (mergeLexemes xs) runs) ∧
    (∀ y ∈ mergeLexemes xs, y.token.isSigil = false) ∧
    (∀ before first rest value p after,
      xs = before ++ (first :: rest ++ ⟨.word value none, p⟩ :: after) →
      (∀ x ∈ before.getLast?, x.token.isSigil = false) →
      (∀ x ∈ first :: rest, x.token.isSigil = true) →
      mergeLexemes xs = mergeLexemes before ++
        ⟨.word (Lexeme.written (first :: rest) ++ value) none, first.position⟩ ::
          mergeLexemes after) ∧
    mergeLexemes (mergeLexemes xs) = mergeLexemes xs ∧
    ∃ lead trail : List Lexeme, (∀ x ∈ lead ++ trail, x.token.isSignificant = false) ∧
      Lexeme.written (mergeLexemes xs) = Lexeme.written lead ++
        (Source.ofLexemes xs).textBetween 0 (Source.ofLexemes xs).size ++
          Lexeme.written trail := by
  refine ⟨exists_runs hshort, isSigil_mergeLexemes xs, ?_, mergeLexemes_idem xs,
    Source.exists_blank_ends xs⟩
  rintro before first rest value p after rfl hbefore hsigns
  obtain ⟨hfirst, hrest⟩ := List.forall_mem_cons.mp hsigns
  have hname : mergeLexemes (first :: rest ++ ⟨.word value none, p⟩ :: after) =
      ⟨.word (Lexeme.written (first :: rest) ++ value) none, first.position⟩ ::
        mergeLexemes after := mergeLexemes_signs hfirst hrest value p
  have hnot : hexTail? (Lexeme.written (first :: rest) ++ value) = none := by
    rw [Lexeme.written_cons, Token.sourceText_of_isSigil hfirst, String.append_assoc]
    exact hexTail?_of_isSigil hfirst _
  rw [mergeLexemes_append_name hnot hname hbefore, hname]

theorem mergeLexemes_lossless_systemName :
    let xs : List Lexeme := [⟨.mark .atSign, ⟨1, 1⟩⟩, ⟨.mark .atSign, ⟨1, 2⟩⟩,
      ⟨.word "ERROR" none, ⟨1, 3⟩⟩, ⟨.space " ", ⟨1, 8⟩⟩, ⟨.number "0" false, ⟨1, 9⟩⟩,
      ⟨.word "X1F" none, ⟨1, 10⟩⟩]
    (∀ x ∈ xs, ∀ digits, x.token ≠ .number digits true) ∧
      mergeLexemes xs =
        [⟨.word "@@ERROR" none, ⟨1, 1⟩⟩, ⟨.space " ", ⟨1, 8⟩⟩, ⟨.hex "1F", ⟨1, 9⟩⟩] := by
  intro xs
  have hshort : ∀ x ∈ xs, ∀ digits, x.token ≠ .number digits true := by simp [xs]
  have hsigns : ∀ x ∈ [Lexeme.mk (.mark .atSign) ⟨1, 1⟩, ⟨.mark .atSign, ⟨1, 2⟩⟩],
      x.token.isSigil = true := by
    simp only [List.mem_cons, List.not_mem_nil, or_false, forall_eq_or_imp, forall_eq]
    cbv
  have hafter : mergeLexemes [⟨.space " ", ⟨1, 8⟩⟩, ⟨.number "0" false, ⟨1, 9⟩⟩,
      ⟨.word "X1F" none, ⟨1, 10⟩⟩] = [⟨.space " ", ⟨1, 8⟩⟩, ⟨.hex "1F", ⟨1, 9⟩⟩] := by
    cbv
  obtain ⟨-, -, hname, -⟩ := mergeLexemes_lossless hshort
  have hmerged := hname [] _ _ "ERROR" ⟨1, 3⟩ _ rfl (by simp) hsigns
  exact ⟨hshort, hmerged.trans (by rw [hafter]; rfl)⟩

end Portability
