import Mathlib
import Portability.Name
import Portability.Proofs.ScriptGrammar

/-! Names and the parts they are made of. A part is written bare, delimited or, where it is empty,
not at all; whichever way each part of a dotted name is written, splitting the name gives the parts
back. -/
namespace Portability

namespace Text

theorem dropWhile_eq_self {p : Char → Bool} {cs : List Char} (h : ∀ c ∈ cs.head?, p c = false) :
    cs.dropWhile p = cs := by
  cases cs with
  | nil => rfl
  | cons c rest => simp [h c rfl]

/-- No blank stands at either end. -/
def Tight (cs : List Char) : Prop :=
  (∀ c ∈ cs.head?, isBlank c = false) ∧ ∀ c ∈ cs.getLast?, isBlank c = false

theorem Tight.trimChars_eq {cs : List Char} (h : Tight cs) : trimChars cs = cs := by
  have hlast : ∀ c ∈ cs.reverse.head?, isBlank c = false := by
    rw [List.head?_reverse]
    exact h.2
  rw [trimChars, dropWhile_eq_self h.1, trimRightChars, dropWhile_eq_self hlast,
    List.reverse_reverse]

theorem tight_of_forall {cs : List Char} (h : ∀ c ∈ cs, isBlank c = false) : Tight cs :=
  ⟨fun c hc => h c (List.mem_of_mem_head? hc), fun c hc => h c (List.mem_of_getLast? hc)⟩

theorem Tight.dotted {cs ds : List Char} (hc : Tight cs) (hd : Tight ds) :
    Tight (cs ++ '.' :: ds) := by
  constructor
  · intro c h
    cases cs with
    | nil =>
      obtain rfl : '.' = c := by simpa using h
      decide
    | cons first rest => exact hc.1 c (by simpa using h)
  · intro c h
    rw [List.getLast?_append, List.getLast?_cons] at h
    cases hlast : ds.getLast? with
    | none =>
      obtain rfl : '.' = c := by simpa [hlast] using h
      decide
    | some last => exact hd.2 c (by simpa [hlast] using h)

end Text

namespace Identifier

open Text

/-! ### The scan -/

theorem isSpecial_eq_false {c : Char} (h : isSpecial c = false) :
    c ≠ '.' ∧ c ≠ '[' ∧ c ≠ ']' ∧ c ≠ '"' ∧ isBlank c = false := by
  simpa [isSpecial, and_assoc] using h

theorem isBlank_opener (q : Quote) : isBlank q.opener = false := by cases q <;> decide

theorem isBlank_closer (q : Quote) : isBlank q.closer = false := by cases q <;> decide

theorem partsFrom_plain {cs : List Char} (h : ∀ c ∈ cs, isSpecial c = false)
    (part rest : List Char) :
    partsFrom none part (cs ++ rest) = partsFrom none (cs.reverse ++ part) rest := by
  induction cs generalizing part with
  | nil => rfl
  | cons c cs ih =>
    obtain ⟨hdot, hopen, -, hquote, hblank⟩ := isSpecial_eq_false (h c List.mem_cons_self)
    have hcloser : closerOf? c = none := by rw [closerOf?, if_neg hopen, if_neg hquote]
    rw [List.cons_append, partsFrom, if_neg hdot, hblank, if_neg (by simp), hcloser,
      ih fun d hd => h d (List.mem_cons_of_mem c hd)]
    simp

/-- The scan passes over doubled marks and stops behind the single one. -/
theorem partsFrom_quoted (close : Char) (value part rest : List Char)
    (hrest : rest.head? ≠ some close) :
    partsFrom (some close) part (doubleMark close value ++ close :: rest) =
      partsFrom none ((doubleMark close value ++ [close]).reverse ++ part) rest := by
  induction value generalizing part with
  | nil =>
    cases rest with
    | nil => simp [doubleMark, partsFrom]
    | cons d more =>
      have hd : d ≠ close := by simpa using hrest
      simp [doubleMark, partsFrom, hd]
  | cons c value ih =>
    by_cases hc : c = close
    · simp [doubleMark, hc, partsFrom, ih]
    · rw [doubleMark, if_neg hc, List.cons_append, partsFrom.eq_def]
      simp [hc, ih]

theorem partsFrom_opener (q : Quote) (cs : List Char) :
    partsFrom none [] (q.opener :: cs) = partsFrom (some q.closer) [q.opener] cs := by
  have hdot : q.opener ≠ '.' := by cases q <;> decide
  have hcloser : closerOf? q.opener = some q.closer := by cases q <;> decide
  rw [partsFrom, if_neg hdot, isBlank_opener, if_neg (by simp), hcloser]

/-! ### The ways of writing a part -/

/-- The ways in which a part of a name is written. -/
inductive Written (part : String) : String → Prop where
  | bare (h : needsBrackets part = false) : Written part part
  | bracketed : Written part (Identifier.bracketed part)
  | quoted : Written part (Token.wordText part (some .double))
  | missing (h : part = "") : Written part ""

/-- The characters between an opening and a closing mark, and the two marks. -/
theorem toList_wordText (value : String) (q : Quote) :
    (Token.wordText value (some q)).toList =
      q.opener :: (doubleMark q.closer value.toList ++ [q.closer]) := by
  cases q <;> simp [Token.wordText, double, Quote.opener, Quote.closer]

theorem bracketed_eq (part : String) :
    Identifier.bracketed part = Token.wordText part (some .bracket) := rfl

/-- A part is written without marks and special characters, or between marks. -/
theorem Written.cases_marks {part text : String} (h : Written part text) :
    text = part ∧ (∀ c ∈ text.toList, isSpecial c = false) ∨
      ∃ q, text = Token.wordText part (some q) := by
  cases h with
  | bare h =>
    refine .inl ⟨rfl, fun c hc => ?_⟩
    have hnone := (Bool.or_eq_false_iff.mp h).2
    exact Bool.eq_false_iff.mpr fun hspecial => by
      rw [List.any_eq_true.mpr ⟨c, hc, hspecial⟩] at hnone
      cases hnone
  | bracketed => exact .inr ⟨.bracket, bracketed_eq part⟩
  | quoted => exact .inr ⟨.double, rfl⟩
  | missing h => exact .inl ⟨h.symm, by simp⟩

theorem Written.tight {part text : String} (h : Written part text) : Tight text.toList := by
  rcases h.cases_marks with ⟨-, hplain⟩ | ⟨q, rfl⟩
  · exact tight_of_forall fun c hc => (isSpecial_eq_false (hplain c hc)).2.2.2.2
  · rw [toList_wordText]
    constructor
    · intro c hc
      obtain rfl : q.opener = c := by simpa using hc
      exact isBlank_opener q
    · intro c hc
      rw [← List.cons_append, List.getLast?_concat] at hc
      obtain rfl : q.closer = c := by simpa using hc
      exact isBlank_closer q

/-- What is written of a part does not begin with a dot. -/
theorem Written.exists_head {part text : String} (h : Written part text) (hne : text ≠ "") :
    ∃ c rest, text.toList = c :: rest ∧ c ≠ '.' := by
  obtain ⟨c, rest, hcs⟩ := List.exists_cons_of_ne_nil (l := text.toList) (by simpa using hne)
  refine ⟨c, rest, hcs, ?_⟩
  rcases h.cases_marks with ⟨-, hplain⟩ | ⟨q, rfl⟩
  · exact (isSpecial_eq_false (hplain c (hcs ▸ List.mem_cons_self))).1
  · rw [toList_wordText] at hcs
    obtain ⟨rfl, -⟩ := List.cons.inj hcs
    cases q <;> decide

/-! ### Reading one part -/

theorem bareChars_written {part text : String} (h : Written part text) :
    bareChars text.toList = part.toList := by
  have htrim := h.tight.trimChars_eq
  unfold bareChars
  dsimp only
  rw [htrim]
  rcases h.cases_marks with ⟨rfl, hplain⟩ | ⟨q, rfl⟩
  · -- nothing to take off
    have hwithin : ∀ q, within? q text.toList = none := by
      intro q
      cases hcs : text.toList with
      | nil => rfl
      | cons c rest =>
        have hc := isSpecial_eq_false (hplain c (hcs ▸ List.mem_cons_self))
        rw [within?, if_neg]
        rintro ⟨hopener, -⟩
        cases q
        · exact hc.2.1 hopener
        · exact hc.2.2.2.1 hopener
    rw [hwithin, hwithin]
  · have hinside : ∀ q, within? q (Token.wordText part (some q)).toList =
        some (doubleMark q.closer part.toList) := by
      intro q
      rw [toList_wordText, within?, if_pos ⟨rfl, List.getLast?_concat⟩, List.dropLast_concat]
    cases q with
    | bracket =>
      rw [hinside]
      exact undoubleMark_doubleMark ']' part.toList
    | double =>
      have hother : within? .bracket (Token.wordText part (some .double)).toList = none := by
        rw [toList_wordText, within?, if_neg]
        rintro ⟨hopener, -⟩
        cases hopener
      rw [hother, hinside]
      exact undoubleMark_doubleMark '"' part.toList

/-- The scan collects a part as it is written, up to the end or the next dot. -/
theorem partsFrom_written {part text : String} (h : Written part text) (rest : List Char)
    (hrest : ∀ c ∈ rest.head?, c = '.') :
    partsFrom none [] (text.toList ++ rest) = partsFrom none text.toList.reverse rest := by
  rcases h.cases_marks with ⟨-, hplain⟩ | ⟨q, rfl⟩
  · simpa using partsFrom_plain hplain [] rest
  · have hcloser : rest.head? ≠ some q.closer := by
      intro hhead
      have hdot := hrest q.closer hhead
      cases q <;> cases hdot
    rw [toList_wordText, List.cons_append, partsFrom_opener, List.append_assoc,
      List.singleton_append, partsFrom_quoted _ _ _ _ hcloser]
    simp

/-! ### Reading a dotted name -/

variable {parts texts : List String}

/-- The characters of a dotted name. -/
theorem toList_intercalate_cons (text next : String) (rest : List String) :
    (String.intercalate "." (text :: next :: rest)).toList =
      text.toList ++ '.' :: (String.intercalate "." (next :: rest)).toList := by
  simp [String.toList_intercalate, List.intercalate]

theorem tight_intercalate (h : List.Forall₂ Written parts texts) :
    Tight (String.intercalate "." texts).toList := by
  induction h with
  | nil => exact tight_of_forall (by simp)
  | cons hwritten hrest ih =>
    cases hrest with
    | nil => simpa using hwritten.tight
    | cons =>
      rw [toList_intercalate_cons]
      exact hwritten.tight.dotted ih

theorem partsFrom_intercalate (hne : parts ≠ []) (h : List.Forall₂ Written parts texts) :
    partsFrom none [] (String.intercalate "." texts).toList = parts.map String.toList := by
  induction h with
  | nil => exact absurd rfl hne
  | cons hwritten hrest ih =>
    have hbare := bareChars_written hwritten
    cases hrest with
    | nil =>
      have hscan := partsFrom_written hwritten [] (by simp)
      rw [List.append_nil] at hscan
      simp [hscan, partsFrom, hbare]
    | cons =>
      rw [toList_intercalate_cons, partsFrom_written hwritten _ (by simp), partsFrom, if_pos rfl,
        List.reverse_reverse, hbare, ih (by simp)]
      rfl

theorem mem_intercalate {text : String} {c : Char} (ht : text ∈ texts) (hc : c ∈ text.toList) :
    c ∈ (String.intercalate "." texts).toList := by
  induction texts with
  | nil => cases ht
  | cons first rest ih =>
    cases rest with
    | nil =>
      obtain rfl := List.mem_singleton.mp ht
      simpa using hc
    | cons next rest =>
      rw [toList_intercalate_cons, List.mem_append, List.mem_cons]
      rcases List.mem_cons.mp ht with rfl | ht
      · exact .inl hc
      · exact .inr (.inr (ih ht))

/-- Splitting a dotted name gives the parts that were written. -/
theorem parts_intercalate (hne : parts ≠ []) (h : List.Forall₂ Written parts texts) :
    Identifier.parts (String.intercalate "." texts) = parts := by
  rw [Identifier.parts, (tight_intercalate h).trimChars_eq, partsFrom_intercalate hne h]
  simp

end Identifier

namespace Name

variable {parts texts : List String}

theorem trim_intercalate (h : List.Forall₂ Identifier.Written parts texts) :
    Text.trim (String.intercalate "." texts) = String.intercalate "." texts := by
  rw [Text.trim, (Identifier.tight_intercalate h).trimChars_eq, String.ofList_toList]

/-- A dotted name has the last four of the parts that were written. -/
theorem parts_resolve_intercalate (hne : parts ≠ [])
    (h : List.Forall₂ Identifier.Written parts texts) :
    (resolve (String.intercalate "." texts)).parts = parts.drop (parts.length - 4) := by
  rw [resolve]
  dsimp only
  rw [trim_intercalate h, Identifier.parts_intercalate hne h]

end Name

/-! ### Names in a token stream -/

/-- A word of a dotted name, or nothing where a part is missing. -/
abbrev NameWord := Option (String × Option Quote)

namespace NameWord

/-- The part of the name that the word stands for. -/
def value (w : NameWord) : String := (w.map (·.1)).getD ""

/-- The word as it is written. -/
def text : NameWord → String
  | some (value, quote) => Token.wordText value quote
  | none => ""

/-- The tokens of the word. -/
def tokens : NameWord → List Token
  | some (value, quote) => [.word value quote]
  | none => []

/-- A bare word holds none of the characters that would have to be delimited. -/
def IsPlain : NameWord → Prop
  | some (value, none) => ∀ c ∈ value.toList, Identifier.isSpecial c = false
  | _ => True

theorem written {w : NameWord} (h : w.IsPlain) : Identifier.Written w.value w.text := by
  rcases w with _ | ⟨part, _ | q⟩
  · exact .missing rfl
  · by_cases hempty : part = ""
    · subst hempty
      exact .missing rfl
    · have hnone : part.toList.any Identifier.isSpecial = false :=
        List.any_eq_false.mpr fun c hc => by simp [h c hc]
      have hneeds : Identifier.needsBrackets part = false := by
        rw [Identifier.needsBrackets, hnone]
        simpa using hempty
      exact .bare hneeds
  · cases q with
    | bracket => exact .bracketed
    | double => exact .quoted

end NameWord

/-- The tokens of a dotted name. -/
def nameTokens : List NameWord → List Token
  | [] => []
  | [w] => w.tokens
  | w :: next :: rest => w.tokens ++ .mark .period :: nameTokens (next :: rest)

/-- The name does not go on behind the position. -/
def Source.EndsName (s : Source) (stop : Nat) (words : List NameWord) : Prop :=
  s.tokenAt? stop ≠ some (.mark .period) ∧
    (words.getLast? = some none → ∀ value quote, s.tokenAt? stop ≠ some (.word value quote))

namespace Parser

open Source (lt_of_tokenAt?)

variable {s : Source} {pos stop k : Nat} {words : List NameWord}

/-- A round of reading a name: one more word or period, or the end. -/
def nameRound : String × Bool → Scan (Round (String × Bool) String) := fun (text, wantsPart) => do
  match (← look).token? 0 with
  | some (.word value quote) =>
    if wantsPart then
      advance
      return .again (text ++ Token.wordText value quote, false)
    else return .done text
  | some (.mark .period) =>
    advance
    return .again (text ++ ".", true)
  | _ => return .done text

theorem nameRound_word {value : String} {quote : Option Quote}
    (h : s.tokenAt? pos = some (.word value quote)) (text : String) :
    nameRound (text, true) s pos =
      some (.again (text ++ Token.wordText value quote, false), pos + 1) := by
  simp [nameRound, bind, look, View.token?, h, advance, lt_of_tokenAt? h, pure]

theorem nameRound_period (h : s.tokenAt? pos = some (.mark .period)) (text : String)
    (wantsPart : Bool) :
    nameRound (text, wantsPart) s pos = some (.again (text ++ ".", true), pos + 1) := by
  simp [nameRound, bind, look, View.token?, h, advance, lt_of_tokenAt? h, pure]

theorem nameRound_done {wantsPart : Bool} (hperiod : s.tokenAt? pos ≠ some (.mark .period))
    (hword : wantsPart = true → ∀ value quote, s.tokenAt? pos ≠ some (.word value quote))
    (text : String) : nameRound (text, wantsPart) s pos = some (.done text, pos) := by
  simp only [nameRound, bind, look, View.token?, Nat.add_zero]
  cases htoken : s.tokenAt? pos with
  | none => rfl
  | some t =>
    cases t with
    | word value quote =>
      have hwants : wantsPart = false := by
        by_contra hcontra
        exact hword (by simpa using hcontra) value quote htoken
      subst hwants
      rfl
    | mark m =>
      cases m with
      | period => exact absurd htoken hperiod
      | _ => rfl
    | _ => rfl

/-- A round that reads one token is followed by the rounds behind it. -/
theorem rounds_step {state next : String × Bool} {t : Token} (ht : s.tokenAt? pos = some t)
    (hround : nameRound state s pos = some (.again next, pos + 1)) :
    rounds nameRound (k + 1) state s pos = rounds nameRound k next s (pos + 1) := by
  have hlt := lt_of_tokenAt? ht
  rw [rounds_again hround, if_pos]
  show s.size - (pos + 1) < s.size - pos
  omega

/-- The word of a part is read, if there is one. -/
theorem exists_rounds_word {w : NameWord} {mid : Nat} (hs : s.Stands pos w.tokens mid)
    (hk : s.size - pos < k) (text : String) :
    ∃ k' wantsPart, s.size - mid < k' ∧ (wantsPart = true → w = none) ∧
      rounds nameRound k (text, true) s pos =
        rounds nameRound k' (text ++ w.text, wantsPart) s mid := by
  rcases w with _ | ⟨value, quote⟩
  · obtain rfl : pos = mid := hs
    exact ⟨k, true, hk, fun _ => rfl, by simp [NameWord.text]⟩
  · obtain ⟨htoken, rfl⟩ := hs
    have hlt := lt_of_tokenAt? htoken
    obtain ⟨k, rfl⟩ : ∃ j, k = j + 1 := ⟨k - 1, by omega⟩
    exact ⟨k, false, by omega, by simp, rounds_step htoken (nameRound_word htoken text)⟩

/-- The rounds of a name read its words and periods and nothing behind them. -/
theorem rounds_name (hne : words ≠ []) (hs : s.Stands pos (nameTokens words) stop)
    (hend : s.EndsName stop words) (hk : s.size - pos < k) (text : String) :
    rounds nameRound k (text, true) s pos =
      some (text ++ String.intercalate "." (words.map NameWord.text), stop) := by
  induction words generalizing pos k text with
  | nil => exact absurd rfl hne
  | cons w rest ih =>
    cases rest with
    | nil =>
      obtain ⟨k', wantsPart, hk', hwants, hrun⟩ := exists_rounds_word hs hk text
      obtain ⟨k', rfl⟩ : ∃ j, k' = j + 1 := ⟨k' - 1, by omega⟩
      have hword : wantsPart = true →
          ∀ value quote, s.tokenAt? stop ≠ some (.word value quote) := by
        intro h
        exact hend.2 (by simp [hwants h])
      rw [hrun, rounds_done (nameRound_done hend.1 hword (text ++ w.text))]
      simp
    | cons next rest =>
      obtain ⟨mid, hword, hperiod, hrest⟩ := Source.stands_append.mp hs
      obtain ⟨k', wantsPart, hk', -, hrun⟩ := exists_rounds_word hword hk text
      have hlt := lt_of_tokenAt? hperiod
      obtain ⟨k', rfl⟩ : ∃ j, k' = j + 1 := ⟨k' - 1, by omega⟩
      have hrest' := ih (by simp) hrest ⟨hend.1, fun h => hend.2 (by simpa using h)⟩
        (k := k') (by omega) (text ++ w.text ++ ".")
      rw [hrun, rounds_step hperiod (nameRound_period hperiod _ _), hrest']
      simp [String.intercalate_cons_cons, String.append_assoc]

theorem run_bind {α β : Type} {p : Scan α} {f : α → Scan β} {a : α} {mid : Nat}
    (h : p s pos = some (a, mid)) : (p >>= f) s pos = f a s mid := by
  simp only [bind, h]

/-- A name in a token stream is read as it is written. -/
theorem name?_of_stands (hne : words ≠ []) (hs : s.Stands pos (nameTokens words) stop)
    (hend : s.EndsName stop words) (hplain : ∀ w ∈ words, w.IsPlain)
    (hsome : ∃ w ∈ words, w.text ≠ "") :
    name? s pos = some (some (String.intercalate "." (words.map NameWord.text)), stop) := by
  have hloop : loop ("", true) nameRound s pos = _ :=
    rounds_name hne hs hend (k := s.size + 2) (by omega) ""
  obtain ⟨w, hw, htext⟩ := hsome
  obtain ⟨c, rest, hcs, hdot⟩ := (NameWord.written (hplain w hw)).exists_head htext
  have hmem := Identifier.mem_intercalate (List.mem_map_of_mem hw) (hcs ▸ List.mem_cons_self)
  have hall : ¬ (String.intercalate "." (words.map NameWord.text)).toList.all (· == '.') := by
    intro hall
    exact hdot (by simpa using List.all_eq_true.mp hall c hmem)
  rw [String.empty_append] at hloop
  refine (run_bind (p := position) rfl).trans ((run_bind hloop).trans ?_)
  rw [if_neg hall]
  rfl

end Parser

/-- The parts of a name survive being written. Splitting what is written for a list of parts gives
the list back, whichever way each part is written; and splitting the name that is read from words
and periods gives what the words stand for, with an empty part where a word is missing. -/
theorem Name.written_parts_survive :
    (∀ parts texts : List String, parts ≠ [] → List.Forall₂ Identifier.Written parts texts →
      Identifier.parts (String.intercalate "." texts) = parts) ∧
    ∀ (s : Source) (start stop : Nat) (words : List NameWord),
      s.Stands start (nameTokens words) stop → s.EndsName stop words → (∀ w ∈ words, w.IsPlain) →
      (∃ w ∈ words, w.text ≠ "") →
        ∃ text, Parser.name? s start = some (some text, stop) ∧
          Identifier.parts text = words.map NameWord.value := by
  refine ⟨fun parts texts => Identifier.parts_intercalate, ?_⟩
  intro s start stop words hs hend hplain hsome
  have hne : words ≠ [] := List.ne_nil_of_mem hsome.choose_spec.1
  refine ⟨_, Parser.name?_of_stands hne hs hend hplain hsome, ?_⟩
  refine Identifier.parts_intercalate (by simpa using hne) ?_
  rw [List.forall₂_map_left_iff, List.forall₂_map_right_iff, List.forall₂_same]
  exact fun w hw => NameWord.written (hplain w hw)

/-- A name of mixed spellings, as a text and as tokens. -/
theorem Name.written_parts_survive_mixed :
    Identifier.parts "srv.[a]].b]..\"c\"\"d\"" = ["srv", "a].b", "", "c\"d"] ∧
    ∃ s text, Source.ofText "srv.[my db]..t" = .ok s ∧
      Parser.name? s 0 = some (some text, s.size) ∧
      Identifier.parts text = ["srv", "my db", "", "t"] := by
  obtain ⟨hsplit, hread⟩ := Name.written_parts_survive
  constructor
  · have htext : "srv.[a]].b]..\"c\"\"d\"" = String.intercalate "."
        ["srv", Identifier.bracketed "a].b", "", Token.wordText "c\"d" (some .double)] := by
      decide +kernel
    rw [htext]
    exact hsplit _ _ (by simp) (.cons (.bare (by decide +kernel)) (.cons .bracketed
      (.cons (.missing rfl) (.cons .quoted .nil))))
  · have htokens : (Source.ofText "srv.[my db]..t").toOption.map Source.tokens =
        some ((nameTokens [some ("srv", none), some ("my db", some .bracket), none,
          some ("t", none)]).map some) :=
      Source.map_ofText_of_apart (by decide +kernel)
    obtain ⟨s, htext, hs⟩ := Source.exists_spells htokens
    have hend : s.tokenAt? s.size = none := Source.tokenAt?_of_size_le le_rfl
    obtain ⟨text, hname, hparts⟩ := hread s 0 s.size _ hs ⟨by simp [hend], by simp [hend]⟩
      (by simp [NameWord.IsPlain, Identifier.isSpecial]; decide) ⟨_, List.mem_cons_self, by decide⟩
    exact ⟨s, text, htext, hname, hparts⟩

end Portability
