import Portability.Proofs.Casing.Rules

/-! The scans, nodes and repetitions that every production is made of, on two sources that differ in
case. A scan that reads words by what they say gives the same on both; one that gives back what is
written gives two spellings of it. -/
namespace Portability

namespace Parser

/-! ### Looking and moving -/

instance : Echo look look View.fold := ⟨Parallel.look.imp fun _ _ h => h.1⟩

instance : Echo remaining remaining id := ⟨Parallel.remaining⟩

instance : Echo position position id := ⟨fun _ _ _ _ _ _ hc => .some ⟨hc, hc⟩⟩

instance : Echo advance advance id := by
  refine ⟨fun s s' c c' hs hplain hc => .some ⟨rfl, ?_⟩⟩
  cases (hc : c = c')
  rw [agree_size hs]

instance {n : Nat} : Echo (advanceBy n) (advanceBy n) id := by
  induction n with
  | zero => exact .of (inferInstanceAs (Tracks id (pure ()) (pure ())))
  | succ n ih => exact .of (by unfold advanceBy; infer_instance)

instance {pos : Nat} : Echo (rewind pos) (rewind pos) id := by
  refine ⟨fun s s' c c' hs hplain hc => .some ⟨rfl, ?_⟩⟩
  rw [agree_size hs]

instance {start : Nat} : Echo (textFrom start) (textFrom start) Text.lower := by
  refine ⟨fun s s' c c' hs hplain hc => .some ⟨?_, hc⟩⟩
  cases (hc : c = c')
  exact eq_of_fold (f := fun s => Text.lower (s.textBetween start c))
    (fun s => s.lower_textBetween_fold start c) hs

section

variable {test test' : View → Bool}
  [∀ x : Twins View.fold, Agree id (test x.left) (test' x.right)]

instance : Echo (sees test) (sees test') id := .of <| by
  unfold sees
  refine .seq fun v => ?_
  infer_instance

instance eatIf_echo : Echo (eatIf test) (eatIf test') id := .of <| by
  unfold eatIf
  refine .seq fun v => .fork ?_ inferInstance
  refine .step fun _ => ?_
  infer_instance

instance : Echo (skipPlainUntil test) (skipPlainUntil test') id := .of <| by
  unfold skipPlainUntil
  refine .round fun _ => .seq fun v => .fork inferInstance ?_
  refine .step fun _ => ?_
  infer_instance

instance : Echo skipParens skipParens id := .of <| by
  unfold skipParens
  refine .seq fun v => ?_
  infer_instance

instance : Echo (skipUntil test) (skipUntil test') id := .of <| by
  unfold skipUntil
  refine .round fun _ => .seq fun v => .fork inferInstance ?_
  refine .fork ?_ ?_
  · refine .step fun _ => ?_
    infer_instance
  · refine .step fun _ => ?_
    infer_instance

end

instance : Echo skipMember skipMember id := .of (by unfold skipMember; infer_instance)

instance {mark : Mark} : Echo (eatMark mark) (eatMark mark) id := by
  unfold eatMark
  exact eatIf_echo

instance {word : String} : Echo (eatWord word) (eatWord word) id := by
  unfold eatWord
  exact eatIf_echo

instance {words : List String} : Echo (eatWords words) (eatWords words) id := .of <| by
  unfold eatWords
  refine .seq fun v => .fork ?_ inferInstance
  refine .step fun _ => ?_
  infer_instance

instance : Echo takeWord? takeWord? id := .of <| by
  unfold takeWord?
  refine .seq fun x => ?_
  refine Agree.elim x.left.keyword? x.right.keyword? fun o => ?_
  cases o <;> infer_instance

instance : Echo takeWord takeWord id := .of (by unfold takeWord; infer_instance)

/-! ### Names -/

instance : Echo identifier? identifier? (Option.map Text.lower) := .of <| by
  unfold identifier?
  refine .seq fun x => ?_
  refine Agree.token (x.left.token? 0) (x.right.token? 0) (fun w => ?_) (fun w => ?_) fun o => ?_
  · infer_instance
  · infer_instance
  · rcases o with _ | t
    · infer_instance
    · cases t <;> infer_instance

instance : Echo identifier identifier Text.lower := .of (by unfold identifier; infer_instance)

/-- Two spellings of the beginning of a name, which no brace opens. -/
structure NamePart (a a' : String) : Prop where
  lower : Text.lower a = Text.lower a'
  head : a.toList.head? ≠ some '\x7b'

theorem NamePart.append {a a' b b' : String} (h : NamePart a a') (h' : NamePart b b') :
    NamePart (a ++ b) (a' ++ b') := by
  refine ⟨by simp [h.lower, h'.lower], ?_⟩
  rw [String.toList_append]
  cases ha : a.toList with
  | nil => exact h'.head
  | cons c rest => simpa [ha] using h.head

theorem NamePart.foldCall {a a' : String} (h : NamePart a a') : foldCall a = foldCall a' := by
  have hbrace : Text.IsCaseless '\x7b' := by decide
  have hhead' : a'.toList.head? ≠ some '\x7b' := by
    rw [Ne, ← Text.head?_lower_eq_iff hbrace, ← h.lower, Text.head?_lower_eq_iff hbrace]
    exact h.head
  have hne : ∀ s : String, s.toList.head? ≠ some '\x7b' → s ≠ escapeCallName := by
    rintro s hs rfl
    exact hs (by decide)
  rw [Portability.foldCall, if_neg (hne a h.head), Portability.foldCall, if_neg (hne a' hhead'),
    h.lower]

/-- What a token adds to a name agrees, and braces open no part of it. -/
theorem namePart_wordText {value : String} {quote : Option Quote}
    (h : quote = none → value.toList.head? ≠ some '\x7b') :
    NamePart (Token.wordText value quote) (Token.wordText value quote) := by
  refine ⟨rfl, ?_⟩
  cases quote with
  | none => exact h rfl
  | some q => cases q <;> simp [Token.wordText, Quote.opener]

instance : Echo name? name? (Option.map foldCall) := by
  refine ⟨?_⟩
  unfold name?
  refine .bind (Echo.self position) fun start _ hstart => ?_
  cases (hstart : start = _)
  refine .bind (R := NamePart)
    (.loop (I := fun st st' => NamePart st.1 st'.1 ∧ st.2 = st'.2) ⟨⟨rfl, by simp⟩, rfl⟩ ?_) ?_
  · rintro ⟨text, wantsPart⟩ ⟨text', _⟩ ⟨hpart, rfl⟩
    refine .bind .look fun v v' hv => ?_
    have hview : Agree View.fold v v' := ⟨hv.1⟩
    have hbare : ∀ w, v.token? 0 = some (.word w none) → w.toList.head? ≠ some '\x7b' :=
      fun w => hv.2 _ w
    have hword : ∀ part part', NamePart part part' → Parallel
        (Round.Related (fun st st' => NamePart st.1 st'.1 ∧ st.2 = st'.2) NamePart)
        (if wantsPart then do
          advance
          return .again (text ++ part, false)
        else return .done text)
        (if wantsPart then do
          advance
          return .again (text' ++ part', false)
        else return .done text') := by
      intro part part' h
      cases wantsPart with
      | true =>
        exact .bind (Echo.self advance) fun _ _ _ =>
          .ret ⟨hpart.append h, rfl⟩
      | false => exact .ret hpart
    revert hbare
    refine Agree.token (v.token? 0) (v'.token? 0) (fun w hbare => ?_) (fun w hbare => ?_)
      fun o hbare => ?_
    · exact hword _ _ ⟨w.eq, hbare _ rfl⟩
    · exact .ret hpart
    · split
      · exact hword _ _ (namePart_wordText fun hq => hbare _ (by rw [hq]))
      · exact .bind (Echo.self advance) fun _ _ _ =>
          .ret ⟨hpart.append ⟨rfl, by decide⟩, rfl⟩
      · exact .ret hpart
  · intro text text' hpart
    have hdots : text.toList.all (· == '.') = text'.toList.all (· == '.') :=
      eq_of_fold (f := fun s : String => s.toList.all (· == '.'))
        (fun s => Text.all_lower s (Text.beq_toLower (by decide))) hpart.lower
    rw [hdots]
    split
    · exact .bind (Echo.self (rewind start)) fun _ _ _ => .ret rfl
    · exact .ret (congrArg some hpart.foldCall)

instance : Echo name name Text.lower := .of (by unfold name; infer_instance)

instance : Echo parensText? parensText? (Option.map Text.lower) := .of <| by
  unfold parensText?
  refine .seq fun v => .fork ?_ inferInstance
  refine .step fun start => .step fun _ => .step fun stop => .seq fun v => ?_
  infer_instance

/-! ### Nodes -/

section

variable {kind kind' : Kind} {start start' : Nat} {parts parts' : List Node} {n n' : Node}

theorem fold_cursor_eq {c c' : Cursor} (h : Folding.fold c = Folding.fold c') :
    c.pos = c'.pos ∧ c.nodes.map Node.fold = c'.nodes.map Node.fold :=
  Cursor.mk.inj h

instance [hk : Agree Kind.fold kind kind'] [hstart : Agree id start start']
    [hparts : Agree (List.map Node.fold) parts parts'] :
    Echo (node kind start parts) (node kind' start' parts') Node.fold := by
  refine ⟨fun s s' c c' hs hplain hc => ?_⟩
  obtain ⟨hpos, hnodes⟩ := fold_cursor_eq hc
  have hsize : c.nodes.size = c'.nodes.size := by
    rw [← Array.size_map, hnodes, Array.size_map]
  have hline : s.lineAt start = s'.lineAt start :=
    eq_of_fold (f := (·.lineAt start)) (·.lineAt_fold start) hs
  cases (hstart.eq : start = start')
  have hnode : Node.fold ⟨c.nodes.size, kind, s.lineAt start, start, max c.pos start, parts⟩ =
      Node.fold ⟨c'.nodes.size, kind', s'.lineAt start, start, max c'.pos start, parts'⟩ := by
    rw [Node.fold_eq, Node.fold_eq, hsize, hk.eq, hline, hpos, hparts.eq]
  refine .some ⟨hnode, ?_⟩
  show Cursor.mk _ _ = Cursor.mk _ _
  rw [Array.map_push, Array.map_push, hnodes, hnode, hpos]

instance [Agree Kind.fold kind kind'] [Agree id start start'] :
    Echo (leaf kind start) (leaf kind' start') Node.fold := .of (by unfold leaf; infer_instance)

instance [h : Agree Node.fold n n'] : Echo (amend n) (amend n') Node.fold := by
  refine ⟨fun s s' c c' hs hplain hc => .some ⟨h.eq, ?_⟩⟩
  obtain ⟨hpos, hnodes⟩ := fold_cursor_eq hc
  have hid : n.id = n'.id := eq_of_fold (f := Node.id) Node.id_fold h.eq
  show Cursor.mk _ _ = Cursor.mk _ _
  rw [Array.map_setIfInBounds, Array.map_setIfInBounds, hnodes, h.eq, hid, hpos]

end

/-! ### Repetition -/

section

variable {τ : Type} [Standing τ] [Folding τ] {α : Type} {φ : α → α} {test test' : View → Bool}
  {item item' : Reading τ α}
  {lead lead' : Scan Bool} {items items' : Reading τ (List α)} {ψ : List α → List α}

instance [Echo item item' φ] : Echo (commaSeparated item) (commaSeparated item') (List.map φ) :=
  .of <| by
    unfold commaSeparated
    exact .loop (List.map φ) inferInstance

instance (priority := high) [Echo item item' id] :
    Echo (commaSeparated item) (commaSeparated item') id := .of <| by
  unfold commaSeparated
  refine .round fun items => ?_
  exact .step fun item => .step fun hasComma => .fork inferInstance inferInstance

instance [Echo lead lead' id] [Echo items items' ψ] :
    Echo (listAfter lead items) (listAfter lead' items') ψ := .of <| by
  unfold listAfter
  exact .step fun found => .fork inferInstance inferInstance

instance [Echo lead lead' id] [Echo item item' φ] :
    Echo (itemAfter lead item) (itemAfter lead' item') (List.map φ) := .of <| by
  unfold itemAfter
  refine .step fun found => .fork ?_ inferInstance
  refine .seq fun item => ?_
  infer_instance

variable [∀ x : Twins View.fold, Agree id (test x.left) (test' x.right)]

instance manyWhile_echo [Echo item item' φ] :
    Echo (manyWhile test item) (manyWhile test' item') (List.map φ) :=
  .of <| by
    unfold manyWhile
    exact .loop (List.map φ) inferInstance

instance (priority := high) sameWhile_echo [Echo item item' id] :
    Echo (manyWhile test item) (manyWhile test' item') id := .of <| by
  unfold manyWhile
  refine .round fun items => .seq fun v => .fork ?_ inferInstance
  refine .step fun item => ?_
  infer_instance

instance whenSees_echo [Echo item item' φ] :
    Echo (whenSees test item) (whenSees test' item') (List.map φ) := .of <| by
  unfold whenSees
  refine .seq fun v => .fork ?_ inferInstance
  refine .seq fun x => ?_
  infer_instance

end

instance parenMembers_echo {τ : Type} [Standing τ] [Folding τ] {α : Type} {φ : α → α}
    {member member' : Reading τ α} [Echo member member' φ] :
    Echo (parenMembers member) (parenMembers member') (List.map φ) := .of <| by
  have : Echo (do let m ← member; let _ ← eatMark .comma; return m)
      (do let m ← member'; let _ ← eatMark .comma; return m) φ := .of inferInstance
  unfold parenMembers
  infer_instance

instance chainLeft_echo {operand operand' : Parser Node}
    {operator? operator?' : View → Option Kind}
    [Echo operand operand' Node.fold]
    [∀ x : Twins View.fold, Agree id (operator? x.left) (operator?' x.right)] :
    Echo (chainLeft operand operator?) (chainLeft operand' operator?') Node.fold :=
  .of <| by
    unfold chainLeft
    refine .seq fun first => .loop Node.fold fun left => .seq fun x => ?_
    refine Agree.elim (operator? x.left) (operator?' x.right) fun o => ?_
    cases o <;> infer_instance

end Parser

end Portability
