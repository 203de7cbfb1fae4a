import Portability.Proofs.Layout.Rules

/-! Scans have a result wherever they start, and never go back. -/
namespace Portability

variable {τ α β : Type} [Standing τ]

/-- A round without nodes that reads a token before it goes on. -/
abbrev Rounds {σ : Type} (s : Source) (pos : Nat) (p : Reading τ (Round σ α)) : Prop :=
  Lays s pos pos [] p (Round.nodes (fun _ => []) fun _ => [])
    (Round.Goes s (fun _ _ => True) (fun _ _ => True) pos)

namespace Onward

instance ret {a : α} : Onward (pure a : Reading τ α) := ⟨fun _ _ => .ret (by simp) trivial⟩

/-- Two readings that go on do so one after the other. -/
theorem seq {p : Reading τ α} {f : α → Reading τ β} (hp : Onward p) (hf : ∀ a, Onward (f a)) :
    Onward (p >>= f) := by
  refine ⟨fun s pos => .scan fun a q hq => ?_⟩
  have hrest := (hf a).moves s q
  exact hrest.drop hq

/-- A first step that goes on, and what follows it. -/
theorem step {p : Reading τ α} {f : α → Reading τ β} [hp : Onward p] (hf : ∀ a, Onward (f a)) :
    Onward (p >>= f) :=
  hp.seq hf

instance bind {p : Reading τ α} {f : α → Reading τ β} [hp : Onward p] [hf : ∀ a, Onward (f a)] :
    Onward (p >>= f) :=
  hp.seq hf

theorem either {c : Prop} [Decidable c] {p r : Reading τ α} (hp : Onward p) (hr : Onward r) :
    Onward (if c then p else r) := by
  refine ⟨fun s pos => .ite ?_ ?_⟩
  · exact fun _ => hp.moves s pos
  · exact fun _ => hr.moves s pos

instance ite {c : Prop} [Decidable c] {p r : Reading τ α} [hp : Onward p] [hr : Onward r] :
    Onward (if c then p else r) :=
  hp.either hr

theorem loop {σ : Type} [LawfulStanding τ] {init : σ} {body : σ → Reading τ (Round σ α)}
    (h : ∀ s pos st, Rounds s pos (body st)) : Onward (Parser.loop init body) := by
  refine ⟨fun s pos => .loop (fun _ => []) (by simp) fun st q hq => ?_⟩
  exact (h s q st).drop hq

instance commaSeparated [LawfulStanding τ] {item : Reading τ α} [Onward item] :
    Onward (Parser.commaSeparated item) := by
  refine .loop fun s pos items => .scan fun a q hq => ?_
  exact .again (by simp) (by simp) hq (fun _ => trivial) fun _ => trivial

theorem manyWhile [LawfulStanding τ] {item : Reading τ α} {test : View → Bool}
    (h : ∀ s pos, test ⟨s, pos⟩ = true → Moves s pos item fun _ q => pos < q) :
    Onward (Parser.manyWhile test item) := by
  refine .loop fun s pos items => .look (.ite (fun htest => ?_) fun _ => .ret (by simp) trivial)
  exact .run (h s pos htest) fun a q _ hlt => .ret (by simp) ⟨fun _ => hlt, trivial⟩

end Onward

namespace Parser

/-! ### Words and names -/

instance : Onward look := ⟨fun _ _ => moves_look.imp fun _ _ _ => trivial⟩

instance : Onward position := ⟨fun _ _ => moves_position.imp fun _ _ _ => trivial⟩

instance : Onward advance := ⟨fun _ _ => moves_advance.imp fun _ _ _ => trivial⟩

instance {test : View → Bool} : Onward (sees test) := by
  unfold sees
  refine .step fun v => ?_
  infer_instance

instance {n : Nat} : Onward (advanceBy n) := by
  induction n with
  | zero => exact Onward.ret
  | succ n ih =>
    unfold advanceBy
    infer_instance

/-- Of several tokens the first is there, so one is read at least. -/
theorem moves_advanceBy {s : Source} {pos n : Nat} (h : pos < s.size) :
    Moves s pos (advanceBy (n + 1)) fun _ q => pos < q := by
  refine .advance h ?_
  exact (Onward.moves s (pos + 1)).last (by omega) fun _ q hq _ => by omega

/-- Words are eaten as a whole, or the cursor does not move. -/
theorem moves_eatWords {s : Source} {pos : Nat} {word : String} {rest : List String} :
    Moves s pos (eatWords (word :: rest)) fun b q => b = (View.mk s pos).isWords (word :: rest) ∧
      if b then pos < q else q = pos := by
  refine .look (.ite (fun hwords => ?_) fun hwords => ?_)
  · refine .run (moves_advanceBy (View.lt_of_isWords hwords)) fun _ q _ hlt => ?_
    exact .ret (by simp) ⟨hwords.symm, hlt⟩
  · exact .ret (by simp) ⟨by simpa using hwords, rfl⟩

instance {word : String} {rest : List String} : Takes (eatWords (word :: rest)) (· = true) := by
  refine ⟨fun s pos => moves_eatWords.imp fun b q h hb => ?_⟩
  simpa [hb] using h.2

end Parser

/-- All the words are read, or none because one of them is missing. -/
theorem Lays.words {s : Source} {o pos : Nat} {xs : List Node} {ws : β → List Node}
    {R : β → Nat → Prop} {word : String} {rest : List String} {yes no : Scan β}
    (hyes : ∀ q, pos < q → Lays s o q xs yes ws R)
    (hno : (View.mk s pos).isWords (word :: rest) = false → Lays s o pos xs no ws R) :
    Lays s o pos xs (Parser.eatWords (word :: rest) >>= fun b => if b = true then yes else no)
      ws R := by
  refine .run Parser.moves_eatWords fun b q _ hb => ?_
  obtain ⟨hwords, hq⟩ := hb
  cases b with
  | true => exact hyes q hq
  | false =>
    have heq : q = pos := hq
    rw [heq]
    exact hno hwords.symm

namespace Parser

theorem moves_takeWord? {s : Source} {pos : Nat} : Moves s pos takeWord? fun w? q =>
    w? = (View.mk s pos).keyword? ∧ (w?.isSome = true → pos < q) := by
  refine .look ?_
  split
  · rename_i w hw
    have hlt : pos < s.size := by
      obtain ⟨w', hw', -⟩ := Option.map_eq_some_iff.mp hw
      exact View.lt_of_word? hw'
    exact .advance hlt (.ret (by simp) ⟨hw.symm, fun _ => by omega⟩)
  · rename_i hnone
    exact .ret (by simp) ⟨hnone.symm, by simp⟩

instance : Takes takeWord? (·.isSome = true) :=
  ⟨fun _ _ => moves_takeWord?.imp fun _ _ h => h.2⟩

/-- A word that the test accepts is read. -/
theorem moves_takeWord {s : Source} {pos : Nat} {words : List String}
    (h : (View.mk s pos).isOneOf words = true) :
    Moves s pos takeWord fun _ q => pos < q := by
  refine .run moves_takeWord? fun w? q _ hw => .ret (by simp) ?_
  refine hw.2 ?_
  rw [hw.1]
  exact Option.isSome_iff_ne_none.mpr (View.keyword?_of_isOneOf h)

instance : Onward takeWord := by
  unfold takeWord
  refine .step fun word => ?_
  infer_instance

instance : Takes identifier? (·.isSome = true) := by
  refine ⟨fun s pos => .look ?_⟩
  split
  · rename_i value quote hword
    exact .advance (View.lt_of_token?_eq hword) (.ret (by simp) fun _ => by omega)
  · exact .ret (by simp) (by simp)

instance : Onward identifier := by
  unfold identifier
  refine .step fun part => ?_
  infer_instance

/-- A name of dots only is no name, so one that is found has been read. -/
instance : Takes name? (·.isSome = true) := by
  refine ⟨fun s pos => .position ?_⟩
  refine .run (Q := fun text q => q = pos → text = "") ?_ fun text q hq htext => ?_
  · refine .loopWith (fun _ => []) (fun st q => q = pos → st.1 = "") (by simp) (by simp) ?_
    rintro ⟨text, wantsPart⟩ q hq hI
    refine .look ?_
    split
    · rename_i value quote hword
      refine .ite (fun _ => ?_) fun _ => .ret (by simp) hI
      refine .advance (View.lt_of_token?_eq hword) ?_
      exact .ret (by simp) ⟨fun _ => by omega, fun heq => by omega⟩
    · rename_i hmark
      refine .advance (View.lt_of_token?_eq hmark) ?_
      exact .ret (by simp) ⟨fun _ => by omega, fun heq => by omega⟩
    · exact .ret (by simp) hI
  · refine .ite (fun _ => ?_) fun hall => ?_
    · exact .rewind rfl hq (Nat.le_refl pos) (.ret (by simp) (by simp))
    · refine .ret (by simp) fun _ => ?_
      by_contra hle
      have heq : q = pos := by omega
      rw [htext heq] at hall
      exact hall (by decide)

instance : Onward name := by
  unfold name
  refine .step fun name => ?_
  infer_instance

/-! ### Skipping -/

theorem markCount_self (s : Source) (mark : Mark) (lo : Nat) : markCount s mark lo lo = 0 := by
  simp [markCount]

theorem markCount_succ (s : Source) (mark : Mark) {lo q : Nat} (h : lo ≤ q) :
    markCount s mark lo (q + 1) =
      markCount s mark lo q + if (View.mk s q).isMark mark then 1 else 0 := by
  have hlen : q + 1 - lo = (q - lo) + 1 := by omega
  have hat : lo + (q - lo) = q := by omega
  unfold markCount
  rw [hlen, List.range'_1_concat, List.countP_append, hat]
  simp [List.countP_singleton]

theorem isMark_unique {v : View} {m m' : Mark} (h : v.isMark m = true) (hne : m ≠ m') :
    v.isMark m' = false := by
  unfold View.isMark View.isMarkAt at h ⊢
  split at h
  · rw [beq_iff_eq.mp h]
    simpa using hne
  · cases h

/-- Inside the group the parentheses are open by the depth; the group is left when they are closed
again or no token is left. -/
theorem moves_skipParens {s : Source} {pos : Nat} : Moves s pos skipParens fun _ q =>
    ((View.mk s pos).isMark .lparen = true → ParenGroup s pos q) ∧
      ((View.mk s pos).isMark .lparen = false → q = pos) := by
  refine .look (.ite (fun hopen => ?_) fun hopen => ?_)
  · refine .loopWith (fun _ => []) (fun depth q =>
      markCount s .lparen pos q = depth + markCount s .rparen pos q ∧ (pos < q → 0 < depth) ∧
        ∀ i, pos < i → i < q → markCount s .rparen pos i < markCount s .lparen pos i)
      (by simp) ⟨by simp [markCount_self], by omega, by omega⟩ ?_
    rintro depth q hq ⟨hdepth, hpos, hwithin⟩
    have hinside : ∀ i, pos < i → i < q + 1 →
        markCount s .rparen pos i < markCount s .lparen pos i := by
      intro i hi hiq
      by_cases heq : i = q
      · have hd := hpos (by omega)
        rw [heq]
        omega
      · exact hwithin i hi (by omega)
    have hl := markCount_succ s .lparen hq
    have hr := markCount_succ s .rparen hq
    refine .given fun hlay => .look (.ite (fun hend => ?_) fun hend => ?_)
    · have hb := hlay.bound
      have hlt : pos < s.size := View.lt_of_isMark hopen
      simp only [View.atEnd, decide_eq_true_eq] at hend
      have hgroup : ParenGroup s pos q := ⟨by omega, hopen, hwithin, Or.inr (by omega)⟩
      exact .ret (by simp) ⟨fun _ => hgroup, by simp [hopen]⟩
    have hlt := View.lt_of_not_atEnd (by simpa using hend)
    refine .advance hlt (.ite (fun hmark => ?_) fun hmark => ?_)
    · rw [isMark_unique hmark (by decide)] at hr
      simp only [hmark, if_true] at hl
      exact .ret (by simp) ⟨fun _ => by omega, by simp_all; omega, fun _ => by omega, hinside⟩
    have hne : q ≠ pos := fun heq => hmark (heq ▸ hopen)
    have hd := hpos (by omega)
    simp only [hmark] at hl
    refine .ite (fun hclose => .ite (fun hle => ?_) fun hle => ?_) fun hclose => ?_
    · simp only [hclose, if_true] at hr
      have hgroup : ParenGroup s pos (q + 1) :=
        ⟨by omega, hopen, hinside, Or.inl (by simp_all; omega)⟩
      exact .ret (by simp) ⟨fun _ => hgroup, by simp [hopen]⟩
    · simp only [hclose, if_true] at hr
      exact .ret (by simp) ⟨fun _ => by omega, by simp_all; omega, fun _ => by omega, hinside⟩
    · simp only [hclose] at hr
      exact .ret (by simp) ⟨fun _ => by omega, by simp_all, fun _ => hd, hinside⟩
  · exact .ret (by simp) ⟨fun h => absurd h hopen, fun _ => rfl⟩

instance : Onward skipParens := ⟨fun _ _ => moves_skipParens.imp fun _ _ _ => trivial⟩

/-- Skipping ends with the last token or where the test accepts what follows. -/
theorem moves_skipPlainUntil {s : Source} {pos : Nat} {stop : View → Bool} :
    Moves s pos (skipPlainUntil stop) fun _ q => q < s.size → stop ⟨s, q⟩ = true := by
  refine .loop (fun _ => []) (by simp) fun _ q _ => .look (.ite (fun hstop => ?_) fun hgo => ?_)
  · refine .ret (by simp) fun hlt => ?_
    simpa [View.atEnd, Nat.not_le.mpr hlt] using hstop
  · have hlt : q < s.size := View.lt_of_not_atEnd (by simp_all)
    exact .advance hlt (.ret (by simp) ⟨fun _ => by omega, trivial⟩)

instance {stop : View → Bool} : Onward (skipPlainUntil stop) :=
  ⟨fun _ _ => moves_skipPlainUntil.imp fun _ _ _ => trivial⟩

/-- The cursor stops where the test holds, or at the end. -/
theorem moves_skipUntil {s : Source} {pos : Nat} {stop : View → Bool} :
    Moves s pos (skipUntil stop) fun _ q => q < s.size → stop ⟨s, q⟩ = true := by
  refine .loop (fun _ => []) (by simp) fun _ q _ => .look (.ite (fun hstop => ?_) fun hgo => ?_)
  · refine .ret (by simp) fun hlt => ?_
    simpa [View.atEnd, Nat.not_le.mpr hlt] using hstop
  refine .ite (fun hopen => ?_) fun _ => ?_
  · refine .run moves_skipParens fun _ q' _ hgroup => ?_
    have hlt := (hgroup.1 hopen).lt
    exact .ret (by simp) ⟨fun _ => hlt, trivial⟩
  · have hlt : q < s.size := View.lt_of_not_atEnd (by simp_all)
    exact .advance hlt (.ret (by simp) ⟨fun _ => by omega, trivial⟩)

instance {stop : View → Bool} : Onward (skipUntil stop) :=
  ⟨fun _ _ => moves_skipUntil.imp fun _ _ _ => trivial⟩

instance : Onward skipMember := by
  unfold skipMember
  infer_instance

instance {start : Nat} : Onward (textFrom start) := by
  refine ⟨fun s pos hl c hc => ?_⟩
  cases hc
  exact ⟨hl, trivial⟩

instance : Onward parensText? := by
  unfold parensText?
  refine .step fun v => .either ?_ inferInstance
  refine .step fun start => .step fun _ => .step fun stop => .step fun v => ?_
  infer_instance

/-- A token is read, here or since the position. -/
theorem moves_stepPast {s : Source} {before pos : Nat} (h : before < s.size) (hle : before ≤ pos) :
    Moves s pos (stepPast before) fun _ q => before < q := by
  refine .position (.ite (fun heq => ?_) fun hne => ?_)
  · rw [beq_iff_eq] at heq
    refine (moves_advance (s := s)).last (Nat.le_refl pos) fun _ q _ hq => ?_
    rw [if_pos (by omega)] at hq
    omega
  · rw [beq_iff_eq] at hne
    exact .ret (by simp) (by omega)

instance {before : Nat} : Onward (stepPast before) := by
  unfold stepPast
  exact .step fun pos => .either inferInstance inferInstance

/-- Between two members at least one token is read. -/
theorem moves_separate {s : Source} {before pos : Nat} (h : before < s.size) (hle : before ≤ pos) :
    Moves s pos (separate before) fun _ q => before < q := by
  refine .take fun eaten q hq hlt => .ite (fun hno => ?_) fun hyes => ?_
  · exact (moves_stepPast h (by omega)).drop hq
  · have hlt' := hlt (by simpa using hyes)
    exact .ret (by simp) (by omega)

instance {start : Nat} : Onward (skipStatement start) := by
  unfold skipStatement
  refine .seq (.loop fun s pos d => .look (.ite (fun _ => .ret (by simp) trivial) fun hgo => ?_))
    fun _ => inferInstance
  have hlt : pos < s.size := View.lt_of_not_atEnd (by simpa using hgo)
  have hagain : ∀ d' : Depth, Rounds (α := Unit) s pos (do advance; return .again d') :=
    fun d' => .advance hlt (.ret (by simp) ⟨fun _ => by omega, trivial⟩)
  refine .ite (fun _ => hagain _) fun _ => .ite (fun _ => ?_) fun _ => ?_
  · exact .ite (fun _ => .ret (by simp) trivial) fun _ => hagain _
  · exact .ite (fun _ => .ret (by simp) trivial) fun _ => hagain _

theorem spans_otherStatement {s : Source} {pos : Nat} : Spans s pos otherStatement := by
  refine .position (.look (.scan fun _ q hq => .scan fun _ q' hq' => ?_))
  exact .leaf trivial

instance : Onward routineOptions := by
  unfold routineOptions
  refine .seq inferInstance fun _ => .either (.loop fun s pos options => ?_) inferInstance
  refine .look (.ite (fun _ => ?_) fun _ => ?_)
  · exact .scan fun _ q hq => .again (by simp) (by simp) hq (fun _ => trivial) fun _ => trivial
  · refine .position (.scan fun _ q hq => .scan fun text q' hq' => ?_)
    refine .ite (fun _ => .ret (by simp) trivial) fun _ => ?_
    exact .again (by simp) (by simp) (by omega) (fun _ => trivial) fun _ => trivial

instance : Onward skipWithParens := by
  unfold skipWithParens
  refine .step fun v => ?_
  infer_instance

end Parser

end Portability
