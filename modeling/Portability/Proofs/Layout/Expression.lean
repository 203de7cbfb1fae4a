import Portability.Proofs.Layout.Scans

/-! Expressions read what they are made of in order, and read on where they contain themselves. -/
namespace Portability

/-- What more is known of a phrase than that its node is placed. -/
def Phrase.Ends (s : Source) (pos : Nat) (n : Node) (q : Nat) : Phrase → Prop
  | .query => n.Exact pos q ∧ n.kind.Free
  | .statement => n.Exact pos q ∧ (pos < s.size → pos < q)
  | _ => True

/-- The phrase can be read from every position that is not before the given one. -/
def ParsesFrom (s : Source) (parse : Descent) (p : Phrase) (lo : Nat) : Prop :=
  ∀ pos, lo ≤ pos → Lays s pos pos [] (parse p) (fun n => [n]) fun n q => p.Ends s pos n q

/-- Every phrase can be read from every position that is not before the given one. -/
def AllFrom (s : Source) (parse : Descent) (lo : Nat) : Prop := ∀ p, ParsesFrom s parse p lo

variable {s : Source} {parse : Descent} {lo pos : Nat}

theorem AllFrom.mono (h : AllFrom s parse lo) (hle : lo ≤ pos) : AllFrom s parse pos := by
  intro p q hq
  exact h p q (Nat.le_trans hle hq)

/-- Every phrase can be read from a later place on. -/
theorem AllFrom.one (h : AllFrom s parse lo) (p : Phrase) (hle : lo ≤ pos) :
    LaysOne s pos (parse p) :=
  (h p pos hle).one

theorem AllFrom.query (h : AllFrom s parse lo) (hle : lo ≤ pos) : SpansFree s pos (parse .query) :=
  h .query pos hle

namespace Parser

/-! ### Scans -/

instance : Onward typeWords := by
  refine .seq inferInstance fun first => ?_
  split
  · infer_instance
  · exact .seq inferInstance fun word? => by split <;> infer_instance
  · infer_instance
  · infer_instance
  · infer_instance
  · infer_instance

instance : Onward skipDirection := by
  unfold skipDirection
  refine .step fun ascending => .either ?_ inferInstance
  refine .step fun _ => ?_
  infer_instance

instance : Onward windowFrame? := by
  unfold windowFrame?
  refine .step fun v => .either ?_ inferInstance
  refine .step fun start => .step fun _ => .step fun text => ?_
  infer_instance

instance : Onward skipQuantifier := by
  unfold skipQuantifier
  exact .step fun quantified => .either inferInstance inferInstance

instance : Onward skipWithinGroup := by
  unfold skipWithinGroup
  exact .step fun ordered => .either inferInstance inferInstance

instance : Onward skipBraces := by
  refine .loop fun s pos depth => .look (.ite (fun _ => .ret (by simp) trivial) fun hgo => ?_)
  have hlt : pos < s.size := View.lt_of_not_atEnd (by simpa using hgo)
  refine .advance hlt (.ite (fun _ => ?_) fun _ => .ite (fun _ => .ite ?_ ?_) fun _ => ?_)
  · exact .ret (by simp) ⟨fun _ => by omega, trivial⟩
  · exact fun _ => .ret (by simp) trivial
  · exact fun _ => .ret (by simp) ⟨fun _ => by omega, trivial⟩
  · exact .ret (by simp) ⟨fun _ => by omega, trivial⟩

instance : Eats eatTestNegation fun v =>
    v.isWord "NOT" && v.isOneOfAt 1 ["IN", "BETWEEN", "LIKE"] :=
  inferInstanceAs (Eats (eatIf _) _)

/-- Before the next member of a list at least one token is read. -/
theorem moves_memberFollows {before : Nat} (h : before < s.size) (hle : before ≤ pos) :
    Moves s pos (memberFollows before) fun _ q => before < q := by
  refine .eat (fun _ _ => .ret (by simp) (by omega)) fun _ => ?_
  refine .run (moves_stepPast h hle) fun _ q hq hlt => ?_
  exact (Onward.moves s q).last hq fun _ q' _ _ => by omega

/-- At least one token is read, whether it is a name or not. -/
theorem moves_primaryName {word : String} (h : pos < s.size) :
    Moves s pos (primaryName word) fun _ q => pos < q := by
  refine .position (.scan fun name? q hq => .run (moves_stepPast h hq) fun _ q' _ hlt => ?_)
  exact .ret (by simp) hlt

/-! ### Lists -/

theorem spans_dataType : Spans s pos dataType := by
  refine .position (.scan fun full q hq => .scan fun args q' hq' => .scan fun _ r hr => ?_)
  exact .leaf trivial

theorem lays_orderItems (h : AllFrom s parse lo) (hle : lo ≤ pos) :
    LaysAll s pos (orderItems parse) := by
  have hitem : ∀ q, pos ≤ q → LaysOne s q (do
      let item ← parse .expression
      skipDirection
      return item) := by
    intro q hq
    refine .step (h.one .expression (by omega)) fun item q' _ _ => .scan fun _ r _ => ?_
    exact .ret (by simp) trivial
  exact .commaNodes hitem

/-- The members that are known before come first. -/
theorem lays_argumentMembers {o : Nat} {known : List Node} {member : Parser (List Node)}
    (h : ∀ q, pos ≤ q → LaysAll s q member) :
    Lays s o pos known (argumentMembers known member) (fun ns => ns) fun _ q => pos ≤ q := by
  refine .seq (Q := fun _ q => pos ≤ q) ?_ fun members q hq =>
    .scan fun _ q' hq' => .ret (List.Sublist.refl members) (by omega)
  refine .loop (fun ns => ns) (List.Sublist.refl known) fun members q hq => .look ?_
  refine .ite (fun _ => .ret (by simp) hq) fun hgo => .position ?_
  have hlt : q < s.size := View.lt_of_not_atEnd (by simp_all)
  refine .step (h q hq) fun found q' hq' _ => ?_
  refine .lifted (moves_memberFollows hlt hq') fun more r hr hlt' => .ite ?_ ?_
  · exact fun _ => .ret (by simp) ⟨fun _ => hlt', trivial⟩
  · exact fun _ => .ret (by simp) (show pos ≤ r by omega)

theorem lays_parenList (h : AllFrom s parse (pos + 1)) : LaysAll s pos (parenList parse) := by
  refine .eat (fun _ _ => ?_) fun _ => .ret (by simp) trivial
  refine (lays_argumentMembers fun q hq => ?_).imp fun _ _ _ => trivial
  exact .look (.step (h.one _ hq) fun n q' _ _ => .ret (by simp) trivial)

/-- The parts of a window stand between its parentheses, in their order. -/
theorem spans_overClause (h : AllFrom s parse (pos + 1)) (hpos : pos < s.size) :
    Spans s pos (overClause parse) := by
  refine .position (.advance hpos (.scan fun opened q hq => .ite (fun _ => ?_) fun _ => ?_))
  · have hitem : ∀ r, q ≤ r → LaysAll s r (commaSeparated (parse .expression)) := by
      intro r hr
      exact .commaNodes fun q' hq' => h.one .expression (by omega)
    refine .step (.listAfter hitem) fun partition q₁ h₁ _ => .scan fun ordered q₂ h₂ => ?_
    have horder : ∀ r, q₂ ≤ r → LaysAll s r (orderItems parse) :=
      fun r hr => lays_orderItems h (by omega)
    refine .step (.listAfter horder) fun order q₃ h₃ _ => .scan fun frame q₄ h₄ => ?_
    exact .scan fun _ q₅ h₅ => .node (by simp) trivial
  · exact .scan fun _ q' hq' => .leaf trivial

theorem lays_overClause? (h : AllFrom s parse (pos + 1)) : LaysAll s pos (overClause? parse) := by
  have hspans (hover : (View.mk s pos).isWord "OVER" = true) : Spans s pos (overClause parse) :=
    spans_overClause h (View.lt_of_isWord hover)
  exact .whenSees hspans

/-! ### Calls -/

/-- An argument that is empty reads nothing. -/
theorem lays_callArgument (h : AllFrom s parse pos) : LaysAll s pos (callArgument parse) := by
  refine .step (h.one .expression (Nat.le_refl pos)) fun value q hq _ => ?_
  refine .step (.itemAfter fun _ _ => spans_dataType) fun type q' hq' _ => ?_
  refine .step (.itemAfter fun r hr => h.one .expression (by omega)) fun style r hr _ => ?_
  exact .ret (by simp) trivial

/-- The name of the call has been read from `start` on. -/
theorem lays_functionCall {start : Nat} (h : AllFrom s parse (pos + 1)) (hpos : pos < s.size)
    (name : String) : Lays s start pos [] (functionCall parse name start) (fun n => [n])
      (Node.Exact start) := by
  have hstar : Spans s (pos + 1) (do let pos ← position; advance; leaf .star pos) :=
    .position (.scan fun _ q hq => .leaf trivial)
  refine .advance hpos (.step (.whenSees fun _ => hstar) fun star q hq _ => .scan fun _ q₁ h₁ => ?_)
  refine .seq (lays_argumentMembers fun r hr => lays_callArgument (h.mono (by omega))) ?_
  refine fun args q₂ h₂ => .scan fun _ q₃ h₃ => ?_
  refine .step (lays_overClause? (h.mono (by omega))) fun window q₄ h₄ _ => ?_
  exact .node (by simp) trivial

theorem spans_castCall (h : AllFrom s parse (pos + 1)) (hpos : pos < s.size) (name : String) :
    Spans s pos (castCall parse name) := by
  refine .position (.lifted (moves_advanceBy hpos) fun _ q _ hq => ?_)
  refine .step (h.one .expression (by omega)) fun value q₁ h₁ _ => .scan fun _ q₂ h₂ => ?_
  refine .step spans_dataType fun target q₃ h₃ _ => .scan fun _ q₄ h₄ => ?_
  exact .node (by simp) trivial

/-- A comma is read, so every member is read further on. -/
theorem lays_commaMember (h : AllFrom s parse (pos + 1))
    (hcomma : (View.mk s pos).isMark .comma = true) :
    Lays s pos pos [] (do advance; parse .expression : Parser Node) (fun n => [n])
      fun _ q => pos < q := by
  refine .advance (View.lt_of_isMark hcomma) ?_
  exact (h.one .expression (Nat.le_refl _)).last (by omega) fun _ q hq _ => by omega

theorem spans_convertCall (h : AllFrom s parse (pos + 1)) (hpos : pos < s.size) (name : String) :
    Spans s pos (convertCall parse name) := by
  refine .position (.lifted (moves_advanceBy hpos) fun _ q _ hq => ?_)
  refine .step spans_dataType fun target q₁ h₁ _ => ?_
  refine .step (.nodesWhile fun r hr => lays_commaMember (h.mono (by omega))) fun rest q₂ h₂ _ => ?_
  exact .scan fun _ q₃ h₃ => .node (by simp) trivial

/-- Every branch of `CASE` begins with a token of its own, so the branches come to an end. -/
theorem spans_caseExpression (h : AllFrom s parse (pos + 1)) (hpos : pos < s.size) :
    Spans s pos (caseExpression parse) := by
  have hbranch : ∀ q, pos + 1 ≤ q → (View.mk s q).isWord "WHEN" = true →
      Lays s q q [] (do
        advance
        let condition ← parse .expression
        let _ ← eatWord "THEN"
        return [condition, ← parse .expression] : Parser (List Node)) (fun ns => ns)
        fun _ q' => q < q' := by
    intro q hq hwhen
    refine .advance (View.lt_of_isWord hwhen) ?_
    refine .step (h.one .expression (by omega)) fun condition q₁ h₁ _ => .scan fun _ q₂ h₂ => ?_
    refine .step (h.one .expression (by omega)) fun value q₃ h₃ _ => ?_
    exact .ret (by simp) (by omega)
  refine .position (.advance hpos ?_)
  refine .step (.whenSees fun _ => h.one .expression (Nat.le_refl _)) fun subject q hq _ => ?_
  refine .step (.manyWhile fun r hr => hbranch r (by omega)) fun branches q₁ h₁ _ => ?_
  refine .step (.itemAfter fun r hr => h.one .expression (by omega)) fun otherwise q₂ h₂ _ => ?_
  exact .scan fun _ q₃ h₃ => .node (by simp [List.flatMap_id']) trivial

theorem spans_existsQuery (h : AllFrom s parse (pos + 1)) (hpos : pos < s.size) :
    Spans s pos (existsQuery parse) := by
  refine .position (.lifted (moves_advanceBy hpos) fun _ q _ hq => ?_)
  refine .step (h.query (by omega)) fun query q₁ h₁ _ => .scan fun _ q₂ h₂ => ?_
  exact .node (by simp) trivial

theorem spans_nextValue (h : AllFrom s parse (pos + 1)) : Spans s pos (nextValue parse) := by
  refine .position (.scan fun _ q hq => .scan fun sequence q₁ h₁ => ?_)
  refine .step (lays_overClause? (h.mono (by omega))) fun window q₂ h₂ _ => ?_
  exact .node (by simp) trivial

/-! ### Primaries -/

theorem spans_namedPrimary (h : AllFrom s parse (pos + 1)) (hpos : pos < s.size) (word : String) :
    Spans s pos (namedPrimary parse word) := by
  refine .position (.lifted (moves_primaryName hpos) fun name q _ hq => .look ?_)
  refine .ite (fun _ => .scan fun _ q' hq' => .leaf trivial) fun _ => ?_
  refine .ite (fun hopen => ?_) fun _ => ?_
  · exact lays_functionCall (h.mono (by omega)) (View.lt_of_isMark hopen) name
  · exact .leaf trivial

/-- An operand that begins with a word spans at least this word. -/
theorem spans_wordPrimary {value : String} {quote : Option Quote} (h : AllFrom s parse (pos + 1))
    (htoken : (View.mk s pos).token? 0 = some (.word value quote)) :
    Spans s pos (wordPrimary parse value quote) := by
  have hpos : pos < s.size := View.lt_of_token?_eq htoken
  have hnamed := spans_namedPrimary h hpos value
  refine .position (.look ?_)
  split
  · next rest hvalue => exact .advance hpos (.leaf ⟨rfl, _, htoken, .systemVariable hvalue⟩)
  · next rest hlocal hvalue =>
    have hhead : rest.head? ≠ some '@' := by
      intro hhead
      obtain ⟨more, rfl⟩ := List.head?_eq_some_iff.mp hhead
      exact hlocal more rfl
    exact .advance hpos (.leaf ⟨rfl, _, htoken, .localVariable hvalue hhead⟩)
  · split
    · next hnull => exact .advance hpos (.leaf ⟨rfl, _, htoken, .null hnull⟩)
    · exact spans_caseExpression h hpos
    · exact .ite (fun _ => spans_existsQuery h hpos) fun _ => hnamed
    · exact .ite (fun _ => spans_castCall h hpos _) fun _ => hnamed
    · exact .ite (fun _ => spans_castCall h hpos _) fun _ => hnamed
    · exact .ite (fun _ => spans_convertCall h hpos _) fun _ => hnamed
    · exact .ite (fun _ => spans_convertCall h hpos _) fun _ => hnamed
    · exact .ite (fun _ => spans_nextValue h) fun _ => hnamed
    · exact hnamed
  · exact hnamed

/-- The node of the query begins behind the parenthesis. -/
theorem lays_parenQuery (h : AllFrom s parse (pos + 1)) (hpos : pos < s.size) :
    LaysOne s pos (parenQuery parse) := by
  refine .advance hpos (.step (h.query (Nat.le_refl _)) fun query q hq hquery => ?_)
  obtain ⟨hexact, hfree⟩ := hquery
  refine .scan fun _ q' hq' => .position (.given fun hl => ?_)
  have hin := hl.inside query (by simp)
  have hle : query.stop ≤ max query.stop q' := Nat.le_max_left _ _
  have hwide := (hl.placed query (by simp)).stretch hfree hle
  have hbegin : pos ≤ query.start := by
    have := hexact.1
    omega
  have hend := Nat.max_le.mpr ⟨hin.2.2, Nat.le_refl _⟩
  exact .amend (.one hwide hbegin hwide.le hend hl.bound) trivial

theorem lays_parenExpression (h : AllFrom s parse (pos + 1)) (hpos : pos < s.size) :
    LaysOne s pos (parenExpression parse) := by
  refine .advance hpos (.step (h.one .expression (Nat.le_refl _)) fun inner q hq _ => ?_)
  refine .step (.nodesWhile fun r hr => lays_commaMember (h.mono (by omega))) ?_
  exact fun rest q' hq' _ => .scan fun _ r hr => .ret (by simp) trivial

/-- An operand is read even where none stands: it spans no token then. -/
theorem lays_primary (h : AllFrom s parse (pos + 1)) : LaysOne s pos (primary parse) := by
  refine .position (.look ?_)
  split
  · exact Lays.one (.leaf trivial)
  · rename_i token htoken
    have hpos : pos < s.size := View.lt_of_token?_eq htoken
    have hleaf : ∀ kind : Kind, kind.Covers s pos [] (pos + 1) →
        LaysOne s pos (do advance; leaf kind pos) :=
      fun kind hcovers => .advance hpos (Lays.leaf hcovers).one
    split
    · exact .ite (fun _ => lays_parenQuery h hpos) fun _ => lays_parenExpression h hpos
    · exact hleaf _ ⟨rfl, _, htoken, .number _ _⟩
    · exact hleaf _ ⟨rfl, _, htoken, .string _⟩
    · exact hleaf _ ⟨rfl, _, htoken, .national _⟩
    · exact hleaf _ ⟨rfl, _, htoken, .hex _⟩
    · exact hleaf _ trivial
    · exact hleaf _ trivial
    · exact .scan fun _ q hq => Lays.one (.leaf trivial)
    · exact (spans_wordPrimary h htoken).one
    · exact Lays.one (.leaf trivial)
    · exact Lays.one (.leaf trivial)
    · exact Lays.one (.leaf trivial)
    · exact hleaf _ trivial

/-- Every node that is put around the first one begins where it does. -/
theorem lays_suffixes {o : Nat} {first : Node} (h : AllFrom s parse (pos + 1)) :
    Lays s o pos [first] (suffixes parse first) (fun n => [n]) fun _ _ => True := by
  refine .loopWith (fun left => [left]) (fun left _ => left.start = first.start)
    (List.Sublist.refl _) rfl fun left q hq hstart => .look ?_
  rw [← hstart]
  refine .ite (fun hcollate => ?_) fun _ => .ite (fun hcall => ?_) fun _ => .ret (by simp) trivial
  · refine .advance (View.lt_of_isWord hcollate) (.scan fun collation q' hq' => ?_)
    refine .buildFrom (by simp) trivial fun n hn => .ret (by simp) ?_
    exact ⟨fun _ => by omega, hn.1⟩
  · simp only [Bool.and_eq_true] at hcall
    refine .advance (View.lt_of_isMark hcall.1.1) (.scan fun method q' hq' => ?_)
    refine .step (lays_parenList (h.mono (by omega))) fun args r hr _ => ?_
    refine .buildFrom (by simp) trivial fun n hn => .ret (by simp) ?_
    exact ⟨fun _ => by omega, hn.1⟩

theorem lays_signedBody (h : AllFrom s parse (pos + 1)) : LaysOne s pos (signedBody parse) := by
  have hsign : ∀ mark, (View.mk s pos).token? 0 = some (.mark mark) → LaysOne s pos (do
      let op := (← look).display
      advance
      let operand ← parse .signed
      node (.unaryOp op) pos [operand]) := by
    intro mark hmark
    refine .look (.advance (View.lt_of_token?_eq hmark) ?_)
    refine .step (h.one .signed (Nat.le_refl _)) fun operand q hq _ => ?_
    exact Lays.one (.node (by simp) trivial)
  refine .position (.look ?_)
  split
  · exact hsign _ ‹_›
  · exact hsign _ ‹_›
  · exact hsign _ ‹_›
  · exact .step (lays_primary h) fun first q hq _ => lays_suffixes (h.mono (by omega))

/-! ### Operators -/

/-- An operator is a token, and its node asks nothing of the tokens between its parts. -/
theorem binaryOp?_token {marks : List Mark} {v : View} {kind : Kind}
    (h : binaryOp? marks v = some kind) : v.pos < v.source.size ∧ kind.Free := by
  unfold binaryOp? at h
  split at h
  · rename_i mark hmark
    split at h
    · cases h
      exact ⟨View.lt_of_token?_eq hmark, fun _ _ _ _ => trivial⟩
    · cases h
  · cases h

theorem logical?_token {op : String} {v : View} {kind : Kind} (h : logical? op v = some kind) :
    v.pos < v.source.size ∧ kind.Free := by
  unfold logical? at h
  split at h
  · rename_i hword
    cases h
    exact ⟨View.lt_of_isWord hword, fun _ _ _ _ => trivial⟩
  · cases h

/-- A comparison is at least one token. -/
theorem comparison?_token {v : View} {op : String} {width : Nat}
    (h : comparison? v = some (op, width)) : v.pos < v.source.size ∧ 0 < width := by
  have hlt : v.pos + 0 < v.source.size := by
    apply View.lt_of_token?
    intro hnone
    simp [comparison?, hnone] at h
  refine ⟨hlt, ?_⟩
  unfold comparison? at h
  split at h
  all_goals (try split at h)
  all_goals cases h
  all_goals decide

section

variable (hsigned : ParsesFrom s parse .signed pos)

include hsigned

theorem lays_multiplicative : LaysOne s pos (multiplicative parse) :=
  .chainLeft (fun _ _ => binaryOp?_token) fun q hq => (hsigned q hq).one

theorem lays_additive : LaysOne s pos (additive parse) := by
  refine .chainLeft (fun _ _ => binaryOp?_token) fun q hq => ?_
  exact lays_multiplicative fun r hr => hsigned r (by omega)

end

/-- Operands of comparisons are read from a later place on. -/
theorem lays_operand (h : AllFrom s parse lo) (hle : lo ≤ pos) : LaysOne s pos (additive parse) :=
  lays_additive fun q hq => h .signed q (by omega)

/-! ### Predicates -/

theorem lays_comparand (h : AllFrom s parse pos) : LaysOne s pos (comparand parse) := by
  refine .look (.ite (fun _ => ?_) fun _ => lays_operand h (Nat.le_refl pos))
  refine .position (.scan fun quantifier q hq => ?_)
  refine .step (lays_parenList (h.mono (by omega))) fun args q' hq' _ => ?_
  exact Lays.one (.node (by simp) trivial)

/-- A test is a node that begins where the tested operand does. -/
theorem lays_membership {o : Nat} {left : Node} (h : AllFrom s parse pos) (negated : Bool) :
    Lays s o pos [left] (membership parse left negated) (fun n => [n]) fun _ _ => True := by
  refine .look (.ite (fun hopen => ?_) fun _ => ?_)
  · simp only [Bool.and_eq_true] at hopen
    refine .advance (View.lt_of_isMark hopen.1) ?_
    refine .step (h.query (by omega)) fun query q hq _ => .scan fun _ q' hq' => ?_
    exact Lays.one (.nodeFrom (by simp) trivial)
  · refine .step (lays_parenList (h.mono (by omega))) fun members q hq _ => ?_
    exact Lays.one (.nodeFrom (by simp) trivial)

/-- The operand in front of a test is its first part, so the node begins with it. -/
theorem lays_testOf {o : Nat} {left : Node} (h : AllFrom s parse (pos + 1)) :
    Lays s o pos [left] (testOf parse left) (fun n => [n]) fun _ _ => True := by
  refine .scan fun negated q hq => .eat (fun _ _ => ?_) fun _ => .eat (fun _ _ => ?_) fun _ =>
    .eat (fun _ _ => ?_) fun _ => .eat (fun _ _ => ?_) fun _ => .ret (by simp) trivial
  · exact lays_membership (h.mono (by omega)) negated
  · refine .step (lays_operand h (by omega)) fun low q₁ h₁ _ => .scan fun _ q₂ h₂ => ?_
    refine .step (lays_operand h (by omega)) fun high q₃ h₃ _ => ?_
    exact Lays.one (.nodeFrom (by simp) trivial)
  · refine .step (lays_operand h (by omega)) fun pattern q₁ h₁ _ => ?_
    refine .step (.itemAfter fun r hr => lays_operand h (by omega)) fun escape q₂ h₂ _ => ?_
    exact Lays.one (.nodeFrom (by simp) trivial)
  · refine .scan fun negated' q₁ h₁ => .scan fun _ q₂ h₂ => ?_
    exact Lays.one (.nodeFrom (by simp) trivial)

/-- A predicate begins with its first operand, or with its own word. -/
theorem lays_predicate (hsigned : ParsesFrom s parse .signed pos) (h : AllFrom s parse (pos + 1)) :
    LaysOne s pos (predicate parse) := by
  refine .step (lays_additive hsigned) fun left q hq _ => .look ?_
  split
  · rename_i op width hop
    obtain ⟨hlt, hwidth⟩ := comparison?_token hop
    obtain ⟨n, rfl⟩ := Nat.exists_eq_add_of_lt hwidth
    refine .lifted (moves_advanceBy hlt) fun _ q' _ hq' => ?_
    refine .step (lays_comparand (h.mono (by omega))) fun right r hr _ => ?_
    exact Lays.one (.nodeFrom (by simp) trivial)
  · exact lays_testOf (h.mono (by omega))

theorem lays_negationBody (hsigned : ParsesFrom s parse .signed pos)
    (h : AllFrom s parse (pos + 1)) : LaysOne s pos (negationBody parse) := by
  refine .look (.ite (fun hnot => ?_) fun _ => lays_predicate hsigned h)
  refine .position (.advance (View.lt_of_isWord hnot) ?_)
  refine .step (h.one .negation (Nat.le_refl _)) fun inner q hq _ => ?_
  exact Lays.one (.node (by simp) trivial)

/-- The operands of a chain follow one another, with an operator between. -/
theorem lays_expressionBody (hnegation : ParsesFrom s parse .negation pos) :
    LaysOne s pos (expressionBody parse) := by
  refine .chainLeft (fun _ _ => logical?_token) fun q hq => ?_
  refine .chainLeft (fun _ _ => logical?_token) fun r hr => ?_
  exact (hnegation r (by omega)).one

end Parser

end Portability
