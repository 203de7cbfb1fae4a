import Portability.Proofs.Layout.Spans
import Portability.Proofs.Parsing.Builds

/-! Rules for readings: what they read lies behind what was read before, the nodes that they give
stand where their tokens do, and they have a result where `KEY` follows the words that need it. -/
namespace Portability

/-- Each word `PRIMARY` or `FOREIGN` is followed by `KEY`. -/
def Source.Keyed (s : Source) : Prop :=
  ∀ i, (View.mk s i).isOneOf ["PRIMARY", "FOREIGN"] = true → (View.mk s i).isWordAt 1 "KEY" = true

/-- A moved state stands where it was moved to, and is the same if it stood there before. -/
class LawfulStanding (τ : Type) [Standing τ] : Prop where
  pos_moveTo : ∀ (c : τ) (p : Nat), Standing.pos (Standing.moveTo c p) = p
  moveTo_pos : ∀ c : τ, Standing.moveTo c (Standing.pos c) = c

instance : LawfulStanding Nat := ⟨fun _ _ => rfl, fun _ => rfl⟩

instance : LawfulStanding Cursor := ⟨fun _ _ => rfl, fun _ => rfl⟩

variable {σ τ α β : Type} [Standing τ]

/-- Read from `pos`, where the nodes `xs` stand between `o` and `pos`, the reading gives a result
and nodes that stand between `o` and the position it ends at. Only a source that lacks a `KEY` may
keep it from having a result. -/
def Lays (s : Source) (o pos : Nat) (xs : List Node) (p : Reading τ α) (ys : α → List Node)
    (Q : α → Nat → Prop) : Prop :=
  Layout s o xs pos → ∀ c : τ, Standing.pos c = pos →
    match p s c with
    | some (a, c') => Layout s o (ys a) (Standing.pos c') ∧ Q a (Standing.pos c')
    | none => ¬s.Keyed

/-- The reading gives no nodes; it ends at or behind `pos`. -/
abbrev Moves (s : Source) (pos : Nat) (p : Reading τ α) (Q : α → Nat → Prop) : Prop :=
  Lays s pos pos [] p (fun _ => []) Q

/-- The reading has a result from every position and never goes back. -/
class Onward (p : Reading τ α) : Prop where
  moves : ∀ s pos, Moves s pos p fun _ _ => True

/-- A result with the property is given only after a token has been read. -/
class Takes (p : Reading τ α) (P : outParam (α → Prop)) : Prop where
  moves : ∀ s pos, Moves s pos p fun a q => P a → pos < q

namespace Lays

variable {s : Source} {o pos : Nat} {xs : List Node} {ys : α → List Node} {ws : β → List Node}
  {p r : Reading τ α} {f : α → Reading τ β} {Q Q' : α → Nat → Prop} {R : β → Nat → Prop}

/-- What is laid out before the reading may be used to prove what it does. -/
theorem given (h : Layout s o xs pos → Lays s o pos xs p ys Q) : Lays s o pos xs p ys Q := by
  intro hl
  exact h hl hl

theorem imp (h : Lays s o pos xs p ys Q) (hQ : ∀ a q, Q a q → Q' a q) :
    Lays s o pos xs p ys Q' := by
  intro hl c hc
  have hrun := h hl c hc
  split at hrun
  · exact ⟨hrun.1, hQ _ _ hrun.2⟩
  · exact hrun

/-- Nothing is read, and the nodes held are given back or dropped. -/
theorem ret {a : α} (h : (ys a).Sublist xs) (hQ : Q a pos) :
    Lays s o pos xs (pure a : Reading τ α) ys Q := by
  intro hl c hc
  show Layout s o (ys a) (Standing.pos c) ∧ Q a (Standing.pos c)
  rw [hc]
  exact ⟨hl.of_sublist h, hQ⟩

/-- What is read next begins where the first reading stops. -/
theorem seq (hp : Lays s o pos xs p ys Q) (hf : ∀ a q, Q a q → Lays s o q (ys a) (f a) ws R) :
    Lays s o pos xs (p >>= f) ws R := by
  intro hl c hc
  have hrun := hp hl c hc
  simp only [bind]
  cases hres : p s c with
  | none =>
    rw [hres] at hrun
    exact hrun
  | some r =>
    obtain ⟨a, c'⟩ := r
    rw [hres] at hrun
    exact hf a _ hrun.2 hrun.1 c' rfl

/-- A step that uses none of the nodes held so far. -/
theorem step (hp : Lays s pos pos [] p ys Q)
    (hf : ∀ a q, pos ≤ q → Q a q → Lays s o q (xs ++ ys a) (f a) ws R) :
    Lays s o pos xs (p >>= f) ws R := by
  intro hl c hc
  have hrun := hp (.nil (Nat.le_refl pos) hl.bound) c hc
  simp only [bind]
  cases hres : p s c with
  | none =>
    rw [hres] at hrun
    exact hrun
  | some r =>
    obtain ⟨a, c'⟩ := r
    rw [hres] at hrun
    obtain ⟨hlaid, hQ⟩ := hrun
    exact hf a _ hlaid.le hQ (hl.append hlaid) c' rfl

/-- A step that gives no nodes. -/
theorem run (hp : Moves s pos p Q) (hf : ∀ a q, pos ≤ q → Q a q → Lays s o q xs (f a) ws R) :
    Lays s o pos xs (p >>= f) ws R := by
  refine step hp fun a q hq ha => ?_
  rw [List.append_nil]
  exact hf a q hq ha

theorem scan [Onward p] (hf : ∀ a q, pos ≤ q → Lays s o q xs (f a) ws R) :
    Lays s o pos xs (p >>= f) ws R :=
  run (Onward.moves s pos) fun a q hq _ => hf a q hq

theorem take {P : α → Prop} [Takes p P]
    (hf : ∀ a q, pos ≤ q → (P a → pos < q) → Lays s o q xs (f a) ws R) :
    Lays s o pos xs (p >>= f) ws R :=
  run (Takes.moves s pos) hf

/-- A branch may use the condition that it was taken on. -/
theorem ite {c : Prop} [Decidable c] (hp : c → Lays s o pos xs p ys Q)
    (hr : ¬c → Lays s o pos xs r ys Q) : Lays s o pos xs (if c then p else r) ys Q := by
  by_cases hc : c
  · rw [if_pos hc]
    exact hp hc
  · rw [if_neg hc]
    exact hr hc

/-- A token is read if the lead is there, and the lead decides how to go on. -/
theorem fork {lead : Reading τ Bool} {yes no : Reading τ β} [Takes lead (· = true)]
    (hyes : ∀ q, pos < q → Lays s o q xs yes ws R) (hno : ∀ q, pos ≤ q → Lays s o q xs no ws R) :
    Lays s o pos xs (lead >>= fun b => if b = true then yes else no) ws R := by
  refine take fun b q hq hlt => ite ?_ ?_
  · exact fun hb => hyes q (hlt hb)
  · exact fun _ => hno q hq

/-- A last step: it goes on from `pos`, and nodes held so far are dropped. -/
theorem last (h : Lays s pos pos [] p ys Q) (ho : o ≤ pos)
    (hQ : ∀ a q, pos ≤ q → Q a q → Q' a q) : Lays s o pos xs p ys Q' := by
  intro hl c hc
  have hrun := h (.nil (Nat.le_refl pos) hl.bound) c hc
  split at hrun
  · obtain ⟨hlaid, ha⟩ := hrun
    exact ⟨hlaid.from_left ho, hQ _ _ hlaid.le ha⟩
  · exact hrun

theorem drop (h : Lays s pos pos [] p ys Q) (ho : o ≤ pos) : Lays s o pos xs p ys Q :=
  h.last ho fun _ _ _ ha => ha

theorem endless (h : ¬s.Keyed) : Lays s o pos xs (Parser.endless : Reading τ α) ys Q :=
  fun _ _ _ => h

end Lays

/-! ### Looking and moving -/

/-- The reading does what the scan does. -/
class Lifted (p : Scan α) (r : Reading τ α) : Prop where
  moves : ∀ {s pos Q}, Moves s pos p Q → Moves s pos r Q

instance {p : Scan α} : Lifted p p := ⟨id⟩

instance [LawfulStanding τ] {p : Scan α} : Lifted p (liftM p : Reading τ α) := by
  refine ⟨fun {s pos Q} h hl c hc => ?_⟩
  have hrun := h hl pos rfl
  simp only [liftM, monadLift, MonadLift.monadLift, hc]
  cases hres : p s pos with
  | none =>
    rw [hres] at hrun
    exact hrun
  | some r =>
    obtain ⟨a, q⟩ := r
    rw [hres] at hrun
    simp only [LawfulStanding.pos_moveTo]
    exact hrun

instance [LawfulStanding τ] {p : Scan α} [Onward p] : Onward (liftM p : Reading τ α) :=
  ⟨fun s pos => Lifted.moves (Onward.moves (p := p) s pos)⟩

instance [LawfulStanding τ] {p : Scan α} {P : α → Prop} [Takes p P] :
    Takes (liftM p : Reading τ α) P :=
  ⟨fun s pos => Lifted.moves (Takes.moves (p := p) s pos)⟩

instance {p : Reading τ α} {P : α → Prop} [Takes p P] : Onward p :=
  ⟨fun s pos => (Takes.moves s pos).imp fun _ _ _ => trivial⟩

/-- The test accepts nothing past the last token. -/
class Sees (test : View → Bool) : Prop where
  lt : ∀ {s pos}, test ⟨s, pos⟩ = true → pos < s.size

/-- The reading takes one token if the test accepts it, and says whether it did. -/
class Eats (p : Reading τ Bool) (test : outParam (View → Bool)) : Prop where
  moves : ∀ s pos, Moves s pos p fun b q =>
    b = test ⟨s, pos⟩ ∧ q = if b then pos + 1 else pos
  lt : ∀ {s pos}, test ⟨s, pos⟩ = true → pos < s.size

instance {p : Reading τ Bool} {test : View → Bool} [Eats p test] : Takes p (· = true) := by
  refine ⟨fun s pos => (Eats.moves s pos).imp fun b q h hb => ?_⟩
  obtain ⟨-, rfl⟩ := h
  simp [hb]

instance [LawfulStanding τ] {p : Scan Bool} {test : View → Bool} [Eats p test] :
    Eats (liftM p : Reading τ Bool) test :=
  ⟨fun s pos => Lifted.moves (Eats.moves (p := p) s pos), Eats.lt p⟩

section

variable {s : Source} {o pos : Nat} {xs : List Node}

theorem moves_look : Moves s pos Parser.look fun v q => v = ⟨s, pos⟩ ∧ q = pos := by
  intro hl c hc
  cases hc
  exact ⟨hl, rfl, rfl⟩

theorem moves_position : Moves s pos Parser.position fun p q => p = pos ∧ q = pos := by
  intro hl c hc
  cases hc
  exact ⟨hl, rfl, rfl⟩

theorem moves_remaining :
    Moves s pos Parser.remaining fun n q => n = s.size - pos ∧ q = pos := by
  intro hl c hc
  cases hc
  exact ⟨hl, rfl, rfl⟩

theorem moves_advance :
    Moves s pos Parser.advance fun _ q => q = if pos < s.size then pos + 1 else pos := by
  intro hl c hc
  cases hc
  refine ⟨.nil ?_ ?_, rfl⟩
  · show Standing.pos c ≤ if Standing.pos c < s.size then Standing.pos c + 1 else Standing.pos c
    split <;> omega
  · have hb := hl.bound
    show (if Standing.pos c < s.size then Standing.pos c + 1 else Standing.pos c) ≤ s.size
    split <;> omega

end

namespace Lays

variable {s : Source} {o pos : Nat} {xs : List Node} {ys : α → List Node} {ws : β → List Node}
  {Q : α → Nat → Prop} {R : β → Nat → Prop}

/-- A scan that gives no nodes. -/
theorem lifted [LawfulStanding τ] {p : Scan α} {f : α → Reading τ β} (hp : Moves s pos p Q)
    (hf : ∀ a q, pos ≤ q → Q a q → Lays s o q xs (f a) ws R) :
    Lays s o pos xs (liftM p >>= f) ws R :=
  run (Lifted.moves hp) hf

/-- A look gives the view of the place where the cursor stands. -/
theorem look {p : Reading τ View} {f : View → Reading τ β} [Lifted Parser.look p]
    (h : Lays s o pos xs (f ⟨s, pos⟩) ws R) : Lays s o pos xs (p >>= f) ws R := by
  refine run (Lifted.moves moves_look) fun v q _ hv => ?_
  obtain ⟨rfl, rfl⟩ := hv
  exact h

theorem position {p : Reading τ Nat} {f : Nat → Reading τ β} [Lifted Parser.position p]
    (h : Lays s o pos xs (f pos) ws R) : Lays s o pos xs (p >>= f) ws R := by
  refine run (Lifted.moves moves_position) fun v q _ hv => ?_
  obtain ⟨rfl, rfl⟩ := hv
  exact h

theorem remaining {p : Reading τ Nat} {f : Nat → Reading τ β} [Lifted Parser.remaining p]
    (h : Lays s o pos xs (f (s.size - pos)) ws R) : Lays s o pos xs (p >>= f) ws R := by
  refine run (Lifted.moves moves_remaining) fun v q _ hv => ?_
  obtain ⟨rfl, rfl⟩ := hv
  exact h

/-- One token is read, as long as there is one. -/
theorem advance {p : Reading τ Unit} {f : Unit → Reading τ β} [Lifted Parser.advance p]
    (hpos : pos < s.size) (h : Lays s o (pos + 1) xs (f ()) ws R) :
    Lays s o pos xs (p >>= f) ws R := by
  refine run (Lifted.moves moves_advance) fun _ q _ hq => ?_
  rw [if_pos hpos] at hq
  rw [hq]
  exact h

/-- One token is read, or none because the test rejects it. -/
theorem eat {p : Reading τ Bool} {test : View → Bool} {yes no : Reading τ β} [Eats p test]
    (hyes : test ⟨s, pos⟩ = true → pos < s.size → Lays s o (pos + 1) xs yes ws R)
    (hno : test ⟨s, pos⟩ = false → Lays s o pos xs no ws R) :
    Lays s o pos xs (p >>= fun b => if b = true then yes else no) ws R := by
  refine run (Eats.moves s pos) fun b q _ hb => ?_
  obtain ⟨htest, rfl⟩ := hb
  cases b with
  | true => exact hyes htest.symm (Eats.lt p htest.symm)
  | false => exact hno htest.symm

/-- The position is put back, and what was read since is dropped. -/
theorem rewind {p : Reading τ Unit} {f : Unit → Reading τ β} {start : Nat} [LawfulStanding τ]
    (hp : p = liftM (Parser.rewind start)) (hle : start ≤ pos) (ho : o ≤ start)
    (h : Lays s o start [] (f ()) ws R) : Lays s o pos xs (p >>= f) ws R := by
  intro hl c hc
  have hb := hl.bound
  have hmin : min start s.size = start := by omega
  subst hp
  simp only [bind, liftM, monadLift, MonadLift.monadLift, Parser.rewind, hmin]
  exact h (.nil ho (by omega)) _ (LawfulStanding.pos_moveTo c start)

end Lays

/-! ### Tests that need a token -/

/-- There is no token past the last one. -/
theorem View.lt_of_token? {v : View} {offset : Nat} (h : v.token? offset ≠ none) :
    v.pos + offset < v.source.size := by
  by_contra hle
  have hnone : v.source.significant[v.pos + offset]? = none :=
    Array.getElem?_eq_none (Nat.le_of_not_lt hle)
  simp [View.token?, Source.tokenAt?, Source.lexemeAt?, hnone] at h

theorem View.lt_of_token?_eq {s : Source} {pos : Nat} {t : Token}
    (h : (View.mk s pos).token? 0 = some t) : pos < s.size :=
  View.lt_of_token? (v := ⟨s, pos⟩) (by rw [h]; simp)

theorem View.lt_of_word? {v : View} {offset : Nat} {w : String} (h : v.word? offset = some w) :
    v.pos + offset < v.source.size := by
  apply View.lt_of_token?
  intro hnone
  simp [View.word?, hnone] at h

theorem View.lt_of_isOneOfAt {v : View} {offset : Nat} {words : List String}
    (h : v.isOneOfAt offset words = true) : v.pos + offset < v.source.size := by
  unfold View.isOneOfAt at h
  split at h
  · rename_i w hw
    exact View.lt_of_word? hw
  · cases h

theorem View.lt_of_isWordAt {v : View} {offset : Nat} {word : String}
    (h : v.isWordAt offset word = true) : v.pos + offset < v.source.size := by
  unfold View.isWordAt at h
  split at h
  · rename_i w hw
    exact View.lt_of_word? hw
  · cases h

theorem View.lt_of_isMarkAt {v : View} {offset : Nat} {mark : Mark}
    (h : v.isMarkAt offset mark = true) : v.pos + offset < v.source.size := by
  apply View.lt_of_token?
  intro hnone
  simp [View.isMarkAt, hnone] at h

/-- A word that is one of several is one of them. -/
theorem View.isWord_of_isOneOf {v : View} {words : List String} (h : v.isOneOf words = true) :
    ∃ word ∈ words, v.isWord word = true := by
  unfold View.isOneOf View.isOneOfAt at h
  split at h
  · rename_i w hw
    obtain ⟨word, hmem, hsame⟩ := List.any_eq_true.mp h
    refine ⟨word, hmem, ?_⟩
    unfold Text.same at hsame
    simpa [View.isWord, View.isWordAt, hw, Text.same] using (beq_iff_eq.mp hsame).symm
  · cases h

theorem View.isOneOf_of_isWord {v : View} {word : String} {words : List String}
    (hmem : word ∈ words) (h : v.isWord word = true) : v.isOneOf words = true := by
  unfold View.isWord View.isWordAt at h
  split at h
  · rename_i w hw
    unfold Text.same at h
    have hany : words.any (Text.same · w) = true :=
      List.any_eq_true.mpr ⟨word, hmem, by simp [Text.same, beq_iff_eq.mp h]⟩
    simpa [View.isOneOf, View.isOneOfAt, hw, Text.oneOf] using hany
  · cases h

theorem View.not_isOneOf_of_isWord {v : View} {word : String} {words : List String}
    (h : v.isWord word = true) (hne : Text.oneOf word words = false) : v.isOneOf words = false := by
  unfold View.isWord View.isWordAt at h
  split at h
  · rename_i w hw
    unfold Text.same at h
    simpa [View.isOneOf, View.isOneOfAt, hw, Text.oneOf, Text.same, beq_iff_eq.mp h] using hne
  · cases h

theorem View.not_isMark_of_isWord {v : View} {word : String} {mark : Mark}
    (h : v.isWord word = true) : v.isMark mark = false := by
  unfold View.isWord View.isWordAt View.word? at h
  unfold View.isMark View.isMarkAt
  split <;> simp_all

/-- Where a word stands there is a keyword. -/
theorem View.keyword?_of_isWord {v : View} {word : String} (h : v.isWord word = true) :
    v.keyword? ≠ none := by
  unfold View.isWord View.isWordAt at h
  split at h
  · rename_i w hw
    simp [View.keyword?, hw]
  · cases h

theorem View.keyword?_of_isOneOf {v : View} {words : List String} (h : v.isOneOf words = true) :
    v.keyword? ≠ none := by
  unfold View.isOneOf View.isOneOfAt at h
  split at h
  · rename_i w hw
    simp [View.keyword?, hw]
  · cases h

section

variable {s : Source} {pos : Nat}

theorem View.lt_of_isMark {mark : Mark} (h : (View.mk s pos).isMark mark = true) : pos < s.size :=
  View.lt_of_isMarkAt h

theorem View.lt_of_isWord {word : String} (h : (View.mk s pos).isWord word = true) : pos < s.size :=
  View.lt_of_isWordAt h

theorem View.lt_of_isOneOf {words : List String} (h : (View.mk s pos).isOneOf words = true) :
    pos < s.size :=
  View.lt_of_isOneOfAt h

theorem View.lt_of_isWords {word : String} {rest : List String}
    (h : (View.mk s pos).isWords (word :: rest) = true) : pos < s.size := by
  simp only [View.isWords, Bool.and_eq_true] at h
  exact View.lt_of_isWord h.1

theorem View.lt_of_isCall {word : String} (h : (View.mk s pos).isCall word = true) :
    pos < s.size := by
  simp only [View.isCall, Bool.and_eq_true] at h
  exact View.lt_of_isWord h.1

theorem View.lt_of_not_atEnd (h : (View.mk s pos).atEnd = false) : pos < s.size := by
  simpa [View.atEnd] using h

end

/-- Only the tokens of the source have to be looked at. -/
theorem Source.keyed_iff {s : Source} : s.Keyed ↔ (List.range s.size).all (fun i =>
    !(View.mk s i).isOneOf ["PRIMARY", "FOREIGN"] || (View.mk s i).isWordAt 1 "KEY") = true := by
  simp only [List.all_eq_true, List.mem_range, Bool.or_eq_true, Bool.not_eq_true']
  constructor
  · intro h i _
    cases hword : (View.mk s i).isOneOf ["PRIMARY", "FOREIGN"] with
    | false => exact Or.inl rfl
    | true => exact Or.inr (h i hword)
  · intro h i hword
    exact (h i (View.lt_of_isOneOf hword)).resolve_left (by simp [hword])

instance {mark : Mark} : Sees (·.isMark mark) := ⟨View.lt_of_isMark⟩

instance {word : String} : Sees (·.isWord word) := ⟨View.lt_of_isWord⟩

instance {words : List String} : Sees (·.isOneOf words) := ⟨View.lt_of_isOneOf⟩

instance {test other : View → Bool} [Sees test] : Sees fun v => test v && other v :=
  ⟨fun h => Sees.lt (Bool.and_eq_true_iff.mp h).1⟩

instance {test other : View → Bool} [Sees test] : Sees fun v => other v && test v :=
  ⟨fun h => Sees.lt (Bool.and_eq_true_iff.mp h).2⟩

instance {test : View → Bool} [Sees test] : Eats (Parser.eatIf test) test where
  moves s pos := by
    refine .look (.ite (fun htest => ?_) fun htest => ?_)
    · exact .advance (Sees.lt htest) (.ret (by simp) ⟨htest.symm, by simp⟩)
    · exact .ret (by simp) ⟨by simpa using htest, by simp⟩
  lt := Sees.lt

instance {mark : Mark} : Eats (Parser.eatMark mark) (·.isMark mark) :=
  inferInstanceAs (Eats (Parser.eatIf _) _)

instance {word : String} : Eats (Parser.eatWord word) (·.isWord word) :=
  inferInstanceAs (Eats (Parser.eatIf _) _)

/-! ### Rounds -/

/-- What a round has to do: before another round it reads a token and keeps the invariant, and at
the end it gives a result with the property. -/
def Round.Goes (s : Source) (I : σ → Nat → Prop) (Q : α → Nat → Prop) (pos : Nat) :
    Round σ α → Nat → Prop
  | .again st, q => (s.Keyed → pos < q) ∧ I st q
  | .done a, q => Q a q

namespace Lays

variable {s : Source} {o pos : Nat} {xs : List Node} {ys : α → List Node} {Q : α → Nat → Prop}
  {init : σ} {body : σ → Reading τ (Round σ α)}

/-- A round that goes on has read a token, if the invariant says so; by induction on the rounds. -/
theorem rounds [LawfulStanding τ] {inv : σ → List Node} {I : σ → Nat → Prop} {lo : Nat}
    (hbody : ∀ st q, lo ≤ q → I st q →
      Lays s o q (inv st) (body st) (Round.nodes inv ys) (Round.Goes s I Q q))
    (k : Nat) (hlo : lo ≤ pos) (hk : s.size < k + pos) (hI : I init pos) :
    Lays s o pos (inv init) (Parser.rounds body k init) ys Q := by
  induction k generalizing init pos with
  | zero =>
    refine .given fun hl => ?_
    have hb := hl.bound
    omega
  | succ k ih =>
    refine .remaining (.seq (hbody init pos hlo hI) fun round q hround => ?_)
    cases round with
    | again st =>
      refine .given fun hl => .remaining (.ite (fun hlt => ?_) fun hle => .endless fun hkeyed => ?_)
      · exact ih (by omega) (by omega) hround.2
      · have hlt := hround.1 hkeyed
        have hb := hl.bound
        omega
    | done a => exact .ret (List.Sublist.refl _) hround

/-- Every round keeps the nodes of its state and the invariant. -/
theorem loopWith [LawfulStanding τ] (inv : σ → List Node) (I : σ → Nat → Prop)
    (hinit : (inv init).Sublist xs) (hI : I init pos)
    (hbody : ∀ st q, pos ≤ q → I st q →
      Lays s o q (inv st) (body st) (Round.nodes inv ys) (Round.Goes s I Q q)) :
    Lays s o pos xs (Parser.loop init body) ys Q := by
  intro hl
  have hstart := hl.of_sublist hinit
  exact rounds hbody (s.size + 2) (Nat.le_refl pos) (by omega) hI hstart

/-- Every round keeps the nodes of its state. -/
theorem loop [LawfulStanding τ] (inv : σ → List Node) (hinit : (inv init).Sublist xs)
    (hbody : ∀ st q, pos ≤ q →
      Lays s o q (inv st) (body st) (Round.nodes inv ys) (Round.Goes s (fun _ _ => True) Q q)) :
    Lays s o pos xs (Parser.loop init body) ys Q := by
  refine loopWith inv (fun _ _ => True) hinit trivial ?_
  intro st q hq _
  exact hbody st q hq

end Lays

/-! ### Nodes -/

/-- The node stands exactly between the two positions. -/
def Node.Exact (o : Nat) (n : Node) (q : Nat) : Prop := n.start = o ∧ n.stop = q

/-- A new node over parts that are laid out is placed; the cursor stays where it is. -/
theorem Parser.node_eq {s : Source} {start pos : Nat} {parts : List Node} {kind : Kind} {c : Cursor}
    (hl : Layout s start parts pos) (hcovers : kind.Covers s start parts pos)
    (hc : Standing.pos c = pos) :
    ∃ n c', Parser.node kind start parts s c = some (n, c') ∧ Standing.pos c' = pos ∧
      n.Exact start pos ∧ n.kind = kind ∧ Layout s start [n] pos := by
  have hstop : max c.pos start = pos := by
    have hpos : c.pos = pos := hc
    have hle := hl.le
    omega
  refine ⟨_, _, rfl, hc, ⟨rfl, hstop⟩, rfl, ?_⟩
  simp only [hstop]
  have hplaced : Node.Placed s ⟨c.nodes.size, kind, s.lineAt start, start, pos, parts⟩ :=
    .intro rfl hl.toLaid hcovers hl.placed
  exact .one hplaced (Nat.le_refl start) hl.le (Nat.le_refl pos) hl.bound

namespace Lays

variable {s : Source} {o start pos : Nat} {xs ys parts : List Node} {kind : Kind} {first : Node}
  {f : Node → Parser β} {ws : β → List Node} {R : β → Nat → Prop}

/-- A node behind nodes that are held already. -/
theorem buildAfter (hl : Layout s o ys start) (hparts : Layout s start parts pos)
    (hcovers : kind.Covers s start parts pos)
    (hf : ∀ n, n.Exact start pos → Lays s o pos (ys ++ [n]) (f n) ws R) :
    Lays s o pos xs (Parser.node kind start parts >>= f) ws R := by
  intro _ c hc
  obtain ⟨n, c', hrun, hc', hn, -, hone⟩ := Parser.node_eq hparts hcovers hc
  simp only [bind, hrun]
  exact hf n hn (hl.append hone) c' hc'

/-- A new node over parts that are laid out, and what follows it. -/
theorem build (h : parts.Sublist xs) (hcovers : kind.Covers s o parts pos)
    (hf : ∀ n, n.Exact o pos → Lays s o pos [n] (f n) ws R) :
    Lays s o pos xs (Parser.node kind o parts >>= f) ws R := by
  refine .given fun hl => ?_
  have hnone : Layout s o [] o := .nil (Nat.le_refl o) (Nat.le_trans hl.le hl.bound)
  exact buildAfter hnone (hl.of_sublist h) hcovers hf

/-- A node that begins where its first part does. -/
theorem buildFrom (h : (first :: parts).Sublist xs)
    (hcovers : kind.Covers s first.start (first :: parts) pos)
    (hf : ∀ n, n.Exact first.start pos → Lays s o pos [n] (f n) ws R) :
    Lays s o pos xs (Parser.node kind first.start (first :: parts) >>= f) ws R := by
  refine .given fun hl => ?_
  have hparts := hl.of_sublist h
  have hfrom := hparts.from_first
  have hnone : Layout s o [] first.start :=
    .nil (hparts.inside first List.mem_cons_self).1 (Nat.le_trans hfrom.le hl.bound)
  exact buildAfter hnone hfrom hcovers hf

/-- A last step that makes a node of what is held. -/
theorem place {Q : Node → Nat → Prop} (h : parts.Sublist xs) (hcovers : kind.Covers s o parts pos)
    (hQ : ∀ n, n.Exact o pos → n.kind = kind → Q n pos) :
    Lays s o pos xs (Parser.node kind o parts) (fun n => [n]) Q := by
  intro hl c hc
  obtain ⟨n, c', hrun, hc', hn, hkind, hone⟩ := Parser.node_eq (hl.of_sublist h) hcovers hc
  simp only [hrun, hc']
  exact ⟨hone, hQ n hn hkind⟩

theorem node (h : parts.Sublist xs) (hcovers : kind.Covers s o parts pos) :
    Lays s o pos xs (Parser.node kind o parts) (fun n => [n]) (Node.Exact o) :=
  place h hcovers fun _ hn _ => hn

theorem free (h : parts.Sublist xs) (hfree : kind.Free) :
    Lays s o pos xs (Parser.node kind o parts) (fun n => [n])
      fun n q => n.Exact o q ∧ n.kind.Free := by
  refine place h (hfree s o parts pos) fun n hn hkind => ?_
  rw [hkind]
  exact ⟨hn, hfree⟩

theorem leaf (hcovers : kind.Covers s o [] pos) :
    Lays s o pos xs (Parser.leaf kind o) (fun n => [n]) (Node.Exact o) :=
  node (List.nil_sublist xs) hcovers

/-- A new node that begins with its first part. -/
theorem nodeFrom (h : (first :: parts).Sublist xs)
    (hcovers : kind.Covers s first.start (first :: parts) pos) :
    Lays s o pos xs (Parser.node kind first.start (first :: parts)) (fun n => [n])
      (Node.Exact first.start) := by
  intro hl c hc
  have hparts := hl.of_sublist h
  have hfrom := hparts.from_first
  obtain ⟨n, c', hrun, hc', hn, -, hone⟩ := Parser.node_eq hfrom hcovers hc
  have hle := (hparts.inside first List.mem_cons_self).1
  simp only [hrun, hc']
  exact ⟨hone.from_left hle, hn⟩

/-- A placed node in place of its earlier form. -/
theorem amend {n : Node} {Q : Node → Nat → Prop} (h : Layout s o [n] pos) (hQ : Q n pos) :
    Lays s o pos xs (Parser.amend n) (fun n => [n]) Q := by
  intro _ c hc
  show Layout s o [n] (Standing.pos c) ∧ Q n (Standing.pos c)
  rw [hc]
  exact ⟨h, hQ⟩

end Lays

/-- The parser gives one placed node, and stands at or behind the end of it. -/
abbrev LaysOne (s : Source) (pos : Nat) (p : Parser Node) : Prop :=
  Lays s pos pos [] p (fun n => [n]) fun _ _ => True

/-- The parser gives placed nodes in their order. -/
abbrev LaysAll (s : Source) (pos : Nat) (p : Parser (List Node)) : Prop :=
  Lays s pos pos [] p (fun ns => ns) fun _ _ => True

/-- The parser gives a placed node over all the tokens that it reads. -/
abbrev Spans (s : Source) (pos : Nat) (p : Parser Node) : Prop :=
  Lays s pos pos [] p (fun n => [n]) (Node.Exact pos)

/-- What is more, nothing is asked of the tokens between the parts of the node. -/
abbrev SpansFree (s : Source) (pos : Nat) (p : Parser Node) : Prop :=
  Lays s pos pos [] p (fun n => [n]) fun n q => n.Exact pos q ∧ n.kind.Free

theorem Lays.one {s : Source} {o pos : Nat} {xs : List Node} {p : Parser Node}
    {Q : Node → Nat → Prop} (h : Lays s o pos xs p (fun n => [n]) Q) :
    Lays s o pos xs p (fun n => [n]) fun _ _ => True :=
  h.imp fun _ _ _ => trivial

/-! ### Repetition -/

namespace Lays

variable {s : Source} {o pos : Nat} {xs : List Node} {ys : α → List Node}

/-- A round that goes on if a token is taken, and stops if not. -/
theorem again {p : Reading τ Bool} [Takes p (· = true)] {inv : σ → List Node} {I : σ → Nat → Prop}
    {Q : α → Nat → Prop} {x : σ} {y : α} {lo : Nat} (hx : (inv x).Sublist xs)
    (hy : (ys y).Sublist xs) (hlo : lo ≤ pos) (hI : ∀ q, I x q) (hQ : ∀ q, Q y q) :
    Lays s o pos xs (p >>= fun more => if more = true then pure (.again x) else pure (.done y))
      (Round.nodes inv ys) (Round.Goes s I Q lo) := by
  refine .fork (fun q hq => .ret hx ⟨fun _ => ?_, hI q⟩) fun q _ => .ret hy (hQ q)
  omega

section

variable {item : Reading τ α} {test : View → Bool} [LawfulStanding τ]

theorem manyWhile
    (h : ∀ q, pos ≤ q → test ⟨s, q⟩ = true → Lays s q q [] item ys fun _ q' => q < q') :
    Lays s pos pos [] (Parser.manyWhile test item) (fun items => items.flatMap ys)
      fun _ _ => True := by
  refine .loop (fun items => items.reverse.flatMap ys) (by simp) fun items q hq => ?_
  refine .look (.ite (fun htest => ?_) fun _ => ?_)
  · refine .step (h q hq htest) fun a q' _ hlt => .ret (by simp) ?_
    exact ⟨fun _ => hlt, trivial⟩
  · exact .ret (by simp) trivial

/-- The items of a list follow one another, with commas between. -/
theorem commaSeparated {Q : Nat → α → Nat → Prop}
    (h : ∀ q, pos ≤ q → Lays s q q [] item ys (Q q)) :
    Lays s pos pos [] (Parser.commaSeparated item) (fun items => items.flatMap ys)
      fun _ _ => True := by
  refine .loop (fun items => items.reverse.flatMap ys) (by simp) fun items q hq => ?_
  refine .step (h q hq) fun a q' hq' _ => ?_
  exact .again (by simp) (by simp) hq' (fun _ => trivial) fun _ => trivial

/-- A member that reads nothing stands before a comma. -/
theorem parenMembers
    (h : ∀ q, pos < q → q < s.size → (View.mk s q).isMark .rparen = false →
      Lays s q q [] item ys fun _ q' => q' = q → (View.mk s q).isMark .comma = true) :
    Lays s pos pos [] (Parser.parenMembers item) (fun items => items.flatMap ys)
      fun _ _ => True := by
  refine .eat (fun _ _ => ?_) fun _ => .ret (by simp) trivial
  have hmember : ∀ q, pos + 1 ≤ q →
      (!(View.mk s q).atEnd && !(View.mk s q).isMark .rparen) = true →
      Lays s q q [] (do let m ← item; let _ ← Parser.eatMark .comma; return m) ys
        fun _ q' => q < q' := by
    intro q hq htest
    simp only [Bool.and_eq_true, Bool.not_eq_true'] at htest
    have hitem := h q hq (View.lt_of_not_atEnd htest.1) htest.2
    refine .step hitem fun m q' hq' hcomma => .run (Eats.moves s q') fun b r hr hb => ?_
    obtain ⟨hb, rfl⟩ := hb
    refine .ret (by simp) ?_
    by_cases heq : q' = q
    · rw [heq, hcomma heq] at hb
      simp [hb, heq]
    · omega
  refine .drop (.step (manyWhile hmember) fun members q _ _ => .scan fun _ q' _ => ?_) (by omega)
  exact .ret (by simp) trivial

end

section

variable {p : Parser Node} {test : View → Bool} {Q : Nat → Node → Nat → Prop}

theorem nodesWhile
    (h : ∀ q, pos ≤ q → test ⟨s, q⟩ = true → Lays s q q [] p (fun n => [n]) fun _ q' => q < q') :
    LaysAll s pos (Parser.manyWhile test p) := by
  simpa using manyWhile h

theorem commaNodes (h : ∀ q, pos ≤ q → Lays s q q [] p (fun n => [n]) (Q q)) :
    LaysAll s pos (Parser.commaSeparated p) := by
  simpa using commaSeparated h

theorem parenNodes
    (h : ∀ q, pos < q → q < s.size → (View.mk s q).isMark .rparen = false →
      Lays s q q [] p (fun n => [n]) fun _ q' => q' = q → (View.mk s q).isMark .comma = true) :
    LaysAll s pos (Parser.parenMembers p) := by
  simpa using parenMembers h

end

section

variable {lead : Scan Bool} {p : Parser Node} {ps : Parser (List Node)} {test : View → Bool}

theorem single {Q : Node → Nat → Prop} (h : Lays s pos pos [] p (fun n => [n]) Q) :
    LaysAll s pos (do return [← p]) := by
  refine .step h fun n q hq _ => ?_
  exact .ret (by simp) trivial

theorem listAfter [Onward lead] (h : ∀ q, pos ≤ q → LaysAll s q ps) :
    LaysAll s pos (Parser.listAfter lead ps) := by
  refine .scan fun b q hq => .ite (fun _ => (h q hq).drop hq) fun _ => ?_
  exact .ret (by simp) trivial

theorem itemAfter [Onward lead] {Q : Nat → Node → Nat → Prop}
    (h : ∀ q, pos ≤ q → Lays s q q [] p (fun n => [n]) (Q q)) :
    LaysAll s pos (Parser.itemAfter lead p) := by
  refine .scan fun b q hq => .ite (fun _ => ?_) fun _ => .ret (by simp) trivial
  exact (single (h q hq)).drop hq

theorem whenSees {Q : Node → Nat → Prop}
    (h : test ⟨s, pos⟩ = true → Lays s pos pos [] p (fun n => [n]) Q) :
    LaysAll s pos (Parser.whenSees test p) := by
  have hsees : Moves s pos (Parser.sees test) fun b q => b = test ⟨s, pos⟩ ∧ q = pos :=
    .look (.ret (by simp) ⟨rfl, rfl⟩)
  refine .run (Lifted.moves hsees) fun b q _ hb => ?_
  obtain ⟨rfl, rfl⟩ := hb
  exact .ite (fun htest => single (h htest)) fun _ => .ret (by simp) trivial

/-- An operator is a token of its own. -/
theorem chainLeft {operand : Parser Node} {operator? : View → Option Kind}
    (hop : ∀ v kind, operator? v = some kind → v.pos < v.source.size ∧ kind.Free)
    (h : ∀ q, pos ≤ q → LaysOne s q operand) :
    LaysOne s pos (Parser.chainLeft operand operator?) := by
  refine .step (h pos (Nat.le_refl pos)) fun first q hq _ => ?_
  refine .loop (fun left => [left]) (by simp) fun left q' hq' => .look ?_
  split
  · rename_i kind hkind
    obtain ⟨hlt, hcovers⟩ := hop _ kind hkind
    refine .advance hlt (.step (h (q' + 1) (by omega)) fun right r hr _ => ?_)
    refine .buildFrom (by simp) (hcovers _ _ _ _) fun n _ => ?_
    exact .ret (by simp) ⟨fun _ => by omega, trivial⟩
  · exact .ret (by simp) trivial

end

end Lays

end Portability
