import Portability.Proofs.Termination

/-! Readings of a known stretch of tokens: where they stop and what they give. -/
namespace Portability

/-- A construct and its parts, wherever they stand. -/
inductive Shape where
  | of (kind : Kind) (parts : List Shape)

mutual

/-- The kinds of a node and of everything below it. -/
def Node.shape : Node → Shape
  | ⟨_, kind, _, _, _, children⟩ => .of kind (shapesOf children)

/-- The shapes of several neighbours. -/
def shapesOf : List Node → List Shape
  | [] => []
  | n :: rest => n.shape :: shapesOf rest

end

theorem shapesOf_eq_map (ns : List Node) : shapesOf ns = ns.map Node.shape := by
  induction ns with
  | nil => rfl
  | cons n ns ih => simp [shapesOf, ih]

theorem Node.shape_eq (n : Node) : n.shape = .of n.kind (n.children.map Node.shape) := by
  cases n
  simp [Node.shape, shapesOf_eq_map]

/-! ### Tokens in a source -/

namespace Source

/-- The tokens stand in the source from one position up to another. -/
def Stands (s : Source) : Nat → List Token → Nat → Prop
  | start, [], stop => start = stop
  | start, t :: rest, stop => s.tokenAt? start = some t ∧ s.Stands (start + 1) rest stop

/-- The significant tokens of the source are these and no others. -/
def Spells (s : Source) (tokens : List Token) : Prop := s.Stands 0 tokens s.size

variable {s : Source} {pos start stop : Nat} {t : Token} {ts us : List Token}

@[simp] theorem stands_nil : s.Stands start [] stop ↔ start = stop := Iff.rfl

@[simp] theorem stands_cons : s.Stands start (t :: ts) stop ↔
    s.tokenAt? start = some t ∧ s.Stands (start + 1) ts stop := Iff.rfl

@[simp] theorem stands_append : s.Stands start (ts ++ us) stop ↔
    ∃ mid, s.Stands start ts mid ∧ s.Stands mid us stop := by
  induction ts generalizing start with
  | nil => simp
  | cons t ts ih => simp [ih, and_assoc]

theorem lt_of_tokenAt? (h : s.tokenAt? pos = some t) : pos < s.size :=
  View.lt_of_token?_eq h

theorem tokenAt?_of_size_le (h : s.size ≤ pos) : s.tokenAt? pos = none := by
  cases htoken : s.tokenAt? pos with
  | none => rfl
  | some t =>
    have := lt_of_tokenAt? htoken
    omega

theorem Stands.le (h : s.Stands start ts stop) : start ≤ stop := by
  induction ts generalizing start with
  | nil => exact Nat.le_of_eq h
  | cons t ts ih => exact Nat.le_of_succ_le (ih h.2)

/-! ### Words -/

theorem isWord_eq {w : String} (h : s.tokenAt? pos = some (.word w none)) (word : String) :
    (View.mk s pos).isWord word = Text.same w word := by
  simp [View.isWord, View.isWordAt, View.word?, View.token?, h]

theorem isWord_of_token {word : String} (h : s.tokenAt? pos = some (.word word none)) :
    (View.mk s pos).isWord word = true := by
  simp [isWord_eq h, Text.same]

theorem isMark_of_token {mark : Mark} (h : s.tokenAt? pos = some (.mark mark)) :
    (View.mk s pos).isMark mark = true := by
  simp [View.isMark, View.isMarkAt, View.token?, h]

theorem eatWord_of_token {word : String} (h : s.tokenAt? pos = some (.word word none)) :
    Parser.eatWord word s pos = some (true, pos + 1) := by
  simp [Parser.eatWord, Parser.eatIf, bind, Parser.look, Parser.advance, pure, isWord_of_token h,
    lt_of_tokenAt? h]

theorem exists_word_of_isWordAt {offset : Nat} {word : String}
    (h : (View.mk s pos).isWordAt offset word = true) :
    ∃ w, s.tokenAt? (pos + offset) = some (.word w none) ∧ Text.same w word = true := by
  unfold View.isWordAt View.word? View.token? at h
  split at h
  · rename_i w hw
    split at hw
    · rename_i value htoken
      cases hw
      exact ⟨w, htoken, h⟩
    · cases hw
  · cases h

theorem tokenAt?_of_isMarkAt {offset : Nat} {mark : Mark}
    (h : (View.mk s pos).isMarkAt offset mark = true) :
    s.tokenAt? (pos + offset) = some (.mark mark) := by
  unfold View.isMarkAt View.token? at h
  split at h
  · rename_i m htoken
    rw [htoken, beq_iff_eq.mp h]
  · cases h

end Source

/-- The words that expressions and control flow are written with, and those that are looked for
where they stand. -/
def keywords : List String :=
  ["OR", "AND", "NOT", "IN", "BETWEEN", "LIKE", "ESCAPE", "IS", "NULL", "COLLATE", "SELECT", "WITH",
   "ANY", "SOME", "ALL", "PRINT", "SET", "CURSOR", "BREAK", "CONTINUE", "IF", "ELSE", "WHILE",
   "BEGIN", "END", "TRY", "CATCH", "ATOMIC", "TRAN", "TRANSACTION", "DISTRIBUTED", "DIALOG",
   "CONVERSATION"]

/-- Two different keywords. -/
def apart (a b : String) : Bool := a ∈ keywords && b ∈ keywords && a != b

section

variable {w word : String}

/-- Keywords are written in upper case, and none is the name of a variable. -/
theorem upper_keyword : ∀ w ∈ keywords, Text.upper w = w ∧
    (Text.lower w).toList.head? ≠ some '@' := by
  decide +kernel

theorem not_same_of_apart (h : apart w word = true) : Text.same w word = false := by
  simp only [apart, Bool.and_eq_true, decide_eq_true_eq, bne_iff_ne] at h
  obtain ⟨⟨hw, hword⟩, hne⟩ := h
  by_contra hcontra
  have hupper := Text.upper_eq_of_same (by simpa using hcontra)
  rw [(upper_keyword w hw).1, (upper_keyword word hword).1] at hupper
  exact hne hupper

theorem Source.not_isWord_of_apart {s : Source} {pos : Nat}
    (ht : s.tokenAt? pos = some (.word w none)) (h : apart w word = true) :
    (View.mk s pos).isWord word = false := by
  rw [isWord_eq ht, not_same_of_apart h]

end

/-! ### Readings -/

/-- From one position on, whatever was built before, the reading has a result with the property and
stops at another position. -/
def Gives {α : Type} (s : Source) (p : Parser α) (start stop : Nat) (P : α → Prop) : Prop :=
  ∀ c : Cursor, c.pos = start → ∃ a c', p s c = some (a, c') ∧ c'.pos = stop ∧ P a

namespace Gives

variable {α β σ : Type} {s : Source} {start mid stop : Nat} {P : α → Prop} {Q : β → Prop}

theorem imp {p : Parser α} {P' : α → Prop} (h : Gives s p start stop P) (hP : ∀ a, P a → P' a) :
    Gives s p start stop P' := by
  intro c hc
  obtain ⟨a, c', hrun, hpos, ha⟩ := h c hc
  exact ⟨a, c', hrun, hpos, hP a ha⟩

theorem ret {a : α} (h : P a) : Gives s (pure a) start start P := fun c hc => ⟨a, c, rfl, hc, h⟩

theorem seq {p : Parser α} {f : α → Parser β} (hp : Gives s p start mid P)
    (hf : ∀ a, P a → Gives s (f a) mid stop Q) : Gives s (p >>= f) start stop Q := by
  intro c hc
  obtain ⟨a, c', hrun, hpos, ha⟩ := hp c hc
  obtain ⟨b, c'', hrun', hpos', hb⟩ := hf a ha c' hpos
  exact ⟨b, c'', by simp only [bind, hrun, hrun'], hpos', hb⟩

/-- A scan with a known result. -/
theorem scan {p : Scan α} {f : α → Parser β} {a : α} (hp : p s start = some (a, mid))
    (hf : Gives s (f a) mid stop Q) : Gives s (liftM p >>= f) start stop Q := by
  have hlift : Gives s (liftM p) start mid (· = a) := by
    rintro c rfl
    refine ⟨a, { c with pos := mid }, ?_, rfl, rfl⟩
    simp [liftM, monadLift, MonadLift.monadLift, Standing.pos, Standing.moveTo, hp]
  exact seq hlift fun _ h => h ▸ hf

theorem look {f : View → Parser β} (hf : Gives s (f ⟨s, start⟩) start stop Q) :
    Gives s (liftM Parser.look >>= f) start stop Q := scan rfl hf

theorem position {f : Nat → Parser β} (hf : Gives s (f start) start stop Q) :
    Gives s (liftM Parser.position >>= f) start stop Q := scan rfl hf

theorem advance {f : Unit → Parser β} (hlt : start < s.size)
    (hf : Gives s (f ()) (start + 1) stop Q) :
    Gives s (liftM Parser.advance >>= f) start stop Q :=
  scan (by simp [Parser.advance, hlt]) hf

theorem eat {test : View → Bool} {f : Bool → Parser β} (htest : test ⟨s, start⟩ = true)
    (hlt : start < s.size) (hf : Gives s (f true) (start + 1) stop Q) :
    Gives s (liftM (Parser.eatIf test) >>= f) start stop Q :=
  scan (by simp [Parser.eatIf, bind, Parser.look, Parser.advance, pure, htest, hlt]) hf

theorem skip {test : View → Bool} {f : Bool → Parser β} (htest : test ⟨s, start⟩ = false)
    (hf : Gives s (f false) start stop Q) :
    Gives s (liftM (Parser.eatIf test) >>= f) start stop Q :=
  scan (by simp [Parser.eatIf, bind, Parser.look, pure, htest]) hf

theorem yes {c : Prop} [Decidable c] {p q : Parser α} (hc : c) (h : Gives s p start stop P) :
    Gives s (if c then p else q) start stop P := by rwa [if_pos hc]

theorem no {c : Prop} [Decidable c] {p q : Parser α} (hc : ¬c) (h : Gives s q start stop P) :
    Gives s (if c then p else q) start stop P := by rwa [if_neg hc]

theorem node {kind : Kind} {first : Nat} {parts : List Node} {shapes : List Shape}
    (h : parts.map Node.shape = shapes) :
    Gives s (Parser.node kind first parts) start start (·.shape = .of kind shapes) :=
  fun _ hc => ⟨_, _, rfl, hc, by simp [Node.shape_eq, h]⟩

theorem leaf {kind : Kind} {first : Nat} :
    Gives s (Parser.leaf kind first) start start (·.shape = .of kind []) := node rfl

/-! ### Parts that may be missing -/

section

variable {lead : Scan Bool} {item : Parser Node} {items : Parser (List Node)} {shape : Shape}
  {shapes : List Shape}

theorem listAfter_none (hlead : lead s start = some (false, stop)) :
    Gives s (Parser.listAfter lead items) start stop (·.map Node.shape = []) :=
  scan hlead (ret rfl)

theorem listAfter (hlead : lead s start = some (true, mid))
    (h : Gives s items mid stop (·.map Node.shape = shapes)) :
    Gives s (Parser.listAfter lead items) start stop (·.map Node.shape = shapes) :=
  scan hlead h

theorem itemAfter_none (hlead : lead s start = some (false, stop)) :
    Gives s (Parser.itemAfter lead item) start stop (·.map Node.shape = []) :=
  scan hlead (ret rfl)

theorem itemAfter (hlead : lead s start = some (true, mid))
    (h : Gives s item mid stop (·.shape = shape)) :
    Gives s (Parser.itemAfter lead item) start stop (·.map Node.shape = [shape]) :=
  scan hlead (seq h fun n hn => ret (by simp [hn]))

end

/-! ### Loops -/

section

variable {body : σ → Parser (Round σ α)} {state : σ} {k : Nat} {I : σ → Prop}

theorem again (hbody : Gives s (body state) start mid fun r => ∃ next, r = .again next ∧ I next)
    (hlt : start < s.size) (hmid : start < mid)
    (hrest : ∀ next, I next → Gives s (Parser.rounds body k next) mid stop P) :
    Gives s (Parser.rounds body (k + 1) state) start stop P := by
  rintro c rfl
  obtain ⟨r, c', hrun, rfl, next, rfl, hnext⟩ := hbody c rfl
  obtain ⟨a, c'', hrun', hpos, ha⟩ := hrest next hnext c' rfl
  refine ⟨a, c'', ?_, hpos, ha⟩
  rw [Parser.rounds_again hrun, if_pos, hrun']
  show s.size - c'.pos < s.size - c.pos
  omega

theorem done (hbody : Gives s (body state) start stop fun r => ∃ a, r = .done a ∧ P a) :
    Gives s (Parser.rounds body (k + 1) state) start stop P := by
  intro c hc
  obtain ⟨r, c', hrun, hpos, a, rfl, ha⟩ := hbody c hc
  exact ⟨a, c', Parser.rounds_done hrun, hpos, ha⟩

theorem loop (h : Gives s (Parser.rounds body (s.size + 2) state) start stop P) :
    Gives s (Parser.loop state body) start stop P := h

end

theorem manyWhile_none {test : View → Bool} {item : Parser α} (htest : test ⟨s, start⟩ = false) :
    Gives s (Parser.manyWhile test item) start start (· = []) := by
  refine loop (done (look (no ?_ (ret ⟨[], rfl, rfl⟩))))
  simp [htest]

/-- A round of a chain: one more operator and operand, or the end. -/
def chainRound (operand : Parser Node) (operator? : View → Option Kind) (left : Node) :
    Parser (Round Node Node) := do
  match operator? (← Parser.look) with
  | some kind =>
    Parser.advance
    let right ← operand
    return .again (← Parser.node kind left.start [left, right])
  | none => return .done left

section

variable {operand : Parser Node} {operator? : View → Option Kind} {left : Node} {k : Nat}

theorem chainLeft {first : Shape} {P : Node → Prop}
    (hfirst : Gives s operand start mid (·.shape = first))
    (hrest : ∀ left, left.shape = first →
      Gives s (Parser.rounds (chainRound operand operator?) (s.size + 2) left) mid stop P) :
    Gives s (Parser.chainLeft operand operator?) start stop P :=
  seq hfirst fun left hleft => loop (hrest left hleft)

theorem chainRound_again {kind : Kind} {shape : Shape} (hlt : start < s.size)
    (hop : operator? ⟨s, start⟩ = some kind)
    (hright : Gives s operand (start + 1) stop (·.shape = shape)) :
    Gives s (chainRound operand operator? left) start stop
      fun r => ∃ n, r = .again n ∧ n.shape = .of kind [left.shape, shape] := by
  refine look ?_
  simp only [hop]
  refine advance hlt (seq hright fun right h => ?_)
  refine seq (node (by simp [h])) fun n hn => ret ⟨n, rfl, hn⟩

theorem chainRound_done (hop : operator? ⟨s, start⟩ = none) :
    Gives s (chainRound operand operator? left) start start
      fun r => ∃ n, r = .done n ∧ n = left := by
  refine look ?_
  simp only [hop]
  exact ret ⟨left, rfl, rfl⟩

end

end Gives

/-! ### Phrases -/

/-- Nested deep enough, the descent parses every phrase behind the position, and of those at the
position the ones below the rank. -/
def Descent.Serves (parse : Descent) (s : Source) (pos rank : Nat) : Prop :=
  ∀ (p : Phrase) (c : Cursor), pos < c.pos ∧ c.pos ≤ s.size ∨ c.pos = pos ∧ p.rank < rank →
    ∃ depth, 3 * (s.size - c.pos) + p.rank < depth ∧ parse p s c = Parser.phrase depth p s c

/-- The phrase stands between the positions, and its tree has the shape. -/
def Phrase.Reads (p : Phrase) (s : Source) (start stop : Nat) (shape : Shape) : Prop :=
  ∀ (parse : Descent) (rank : Nat), p.rank < rank → parse.Serves s start rank →
    Gives s (parse p) start stop (·.shape = shape)

section

variable {s : Source} {parse : Descent} {start pos stop rank rank' : Nat} {p : Phrase}
  {shape : Shape}

theorem Descent.Serves.behind (h : parse.Serves s start rank) (hlt : start < pos)
    (hle : pos ≤ s.size) : parse.Serves s pos rank' := by
  intro p c hc
  exact h p c (Or.inl (by omega))

theorem Descent.Serves.below (h : parse.Serves s start rank) (hle : rank' ≤ rank) :
    parse.Serves s start rank' := by
  intro p c hc
  exact h p c (by omega)

theorem serves_phrase {depth : Nat} (h : 3 * (s.size - pos) + rank ≤ depth) (hrank : rank ≤ 3) :
    Descent.Serves (Parser.phrase depth) s pos rank := by
  intro p c hc
  refine ⟨depth, ?_, rfl⟩
  have hp : p.rank < 3 := by cases p <;> decide
  omega

theorem serves_inside {depth : Nat} (h : 3 * (s.size - pos) + p.rank < depth + 1) :
    Descent.Serves (Parser.inside p (s.size - pos) (Parser.phrase depth)) s pos p.rank := by
  intro inner c hc
  have hp : p.rank < 3 := by cases p <;> decide
  have hinner : inner.rank < 3 := by cases inner <;> decide
  refine ⟨depth, by omega, ?_⟩
  simp only [Parser.inside, bind, Parser.lift_remaining]
  rw [if_pos]
  simp only [Bool.or_eq_true, Bool.and_eq_true, decide_eq_true_eq, beq_iff_eq]
  show s.size - c.pos < _ ∨ s.size - c.pos = _ ∧ _
  omega

/-- A phrase is its body, read with the phrases inside it. -/
theorem Phrase.reads_of_body (h : ∀ parse : Descent, parse.Serves s start p.rank →
    Gives s (Parser.phraseBody parse p) start stop (·.shape = shape)) :
    p.Reads s start stop shape := by
  rintro parse rank hrank hserves c rfl
  obtain ⟨depth, hdepth, hrun⟩ := hserves p c (Or.inr ⟨rfl, hrank⟩)
  cases depth with
  | zero => omega
  | succ depth =>
    rw [hrun, Parser.phrase_succ]
    exact h _ (serves_inside hdepth) c rfl

theorem Phrase.Reads.behind (h : p.Reads s pos stop shape) (hserves : parse.Serves s start rank)
    (hlt : start < pos) (hle : pos ≤ s.size) : Gives s (parse p) pos stop (·.shape = shape) :=
  h parse (p.rank + 1) (Nat.lt_succ_self _) (hserves.behind hlt hle)

end

end Portability
