import Portability.Proofs.Layout.Query

/-! Definitions of tables lay out their elements in order. A constraint reads a token where `KEY`
follows the words that need it, so the attributes of a column come to an end. -/
namespace Portability.Parser

variable {s : Source} {parse : Descent} {lo pos : Nat}

/-! ### Options -/

instance : Onward indexOptions := by
  refine .loop fun s pos options => .look (.ite (fun hwith => ?_) fun _ => ?_)
  · refine .advance (View.lt_of_isCall hwith) (.scan fun inner q hq => .ret (by simp) ?_)
    exact ⟨fun _ => by omega, trivial⟩
  refine .words (fun q hq => ?_) fun _ => .ite (fun hon => ?_) fun _ => .ret (by simp) trivial
  · refine .scan fun _ q₁ h₁ => .scan fun _ q₂ h₂ => .ret (by simp) ?_
    exact ⟨fun _ => by omega, trivial⟩
  · simp only [Bool.and_eq_true] at hon
    refine .advance (View.lt_of_isWord hon.1) (.scan fun _ q₁ h₁ => .scan fun _ q₂ h₂ => ?_)
    exact .ret (by simp) ⟨fun _ => by omega, trivial⟩

theorem lays_tableOptions : LaysAll s pos tableOptions := by
  refine .loop (fun options => options) (by simp) fun options q hq => .given fun hl => ?_
  refine .position (.look (.ite (fun hon => ?_) fun _ => .ite (fun hwith => ?_) fun _ => ?_))
  · refine .lifted (moves_takeWord hon) fun option q₁ _ hlt => ?_
    refine .scan fun _ q₂ h₂ => .scan fun _ q₃ h₃ => .given fun hl' => ?_
    have hnone : Layout s q [] q₃ := .nil (by omega) hl'.bound
    exact .buildAfter hl hnone trivial fun n _ => .ret (by simp) ⟨fun _ => by omega, trivial⟩
  · refine .advance (View.lt_of_isCall hwith) ?_
    refine .step (lays_wordMembers fun _ _ _ _ _ => trivial) fun found q₁ h₁ _ => .ret (by simp) ?_
    exact ⟨fun _ => by omega, trivial⟩
  · exact .ret (by simp) trivial

/-! ### Constraints -/

instance : Onward rowAction := by
  unfold rowAction
  refine .step fun hasNoAction => .either inferInstance ?_
  refine .step fun hasSetNull => .either inferInstance ?_
  exact .step fun hasSetDefault => .either inferInstance inferInstance

instance : Onward referentialAction := by
  unfold referentialAction
  refine .step fun _ => .step fun event => .step fun action => ?_
  infer_instance

instance {word : String} {rest : List String} : Onward (wordsOption? (word :: rest)) := by
  unfold wordsOption?
  exact .step fun found => .either inferInstance inferInstance

instance : Onward notForReplication? := inferInstanceAs (Onward (wordsOption? _))

instance : Onward clustered? := by
  unfold clustered?
  refine .step fun hasClustered => .either inferInstance ?_
  exact .step fun hasNonclustered => .either inferInstance inferInstance

instance : Onward skipForColumn := by
  unfold skipForColumn
  refine .step fun hasFor => .either ?_ inferInstance
  refine .step fun _ => ?_
  infer_instance

/-- A constraint without a name has none of its words read. -/
theorem moves_constraintName? : Moves s pos constraintName? fun _ q =>
    q = pos → (View.mk s pos).isWord "CONSTRAINT" = false := by
  refine .eat (fun _ _ => ?_) fun hno => .ret (by simp) fun _ => hno
  exact (Onward.moves s (pos + 1)).last (by omega) fun _ q hq _ heq => by omega

/-- Nothing is read only of a foreign key that is not called one. -/
theorem moves_constraintKind : Moves s pos constraintKind fun kind q =>
    (kind ≠ .foreignKey → pos < q) ∧ (q = pos →
      (View.mk s pos).isWords ["PRIMARY", "KEY"] = false ∧
      (View.mk s pos).isWord "UNIQUE" = false ∧ (View.mk s pos).isWord "CHECK" = false ∧
      (View.mk s pos).isWord "DEFAULT" = false ∧
      (View.mk s pos).isWords ["FOREIGN", "KEY"] = false) := by
  refine .words (fun q hq => .ret (by simp) ⟨fun _ => hq, by omega⟩) fun hprimary => ?_
  refine .eat (fun _ _ => .ret (by simp) ⟨fun _ => by omega, by omega⟩) fun hunique => ?_
  refine .eat (fun _ _ => .ret (by simp) ⟨fun _ => by omega, by omega⟩) fun hcheck => ?_
  refine .eat (fun _ _ => .ret (by simp) ⟨fun _ => by omega, by omega⟩) fun hdefault => ?_
  refine .run moves_eatWords fun b q _ hb => .ret (by simp) ⟨by simp, fun heq => ?_⟩
  refine ⟨hprimary, hunique, hcheck, hdefault, ?_⟩
  rw [← hb.1]
  cases b with
  | false => rfl
  | true =>
    have hlt : pos < q := hb.2
    omega

/-- If `REFERENCES` stands here at least this word is read. -/
theorem moves_skipReferences : Moves s pos skipReferences fun _ q =>
    q = pos → (View.mk s pos).isWord "REFERENCES" = false := by
  refine .eat (fun _ _ => .scan fun _ q hq => ?_) fun hno => .ret (by simp) fun _ => hno
  exact (Onward.moves s q).last (by omega) fun _ q' hq' _ heq => by omega

instance : Onward (manyWhile (fun v => v.isWord "ON" && v.isOneOfAt 1 ["DELETE", "UPDATE"])
    referentialAction) := by
  refine .manyWhile fun s pos hon => ?_
  simp only [Bool.and_eq_true] at hon
  refine .advance (View.lt_of_isWord hon.1) (.scan fun event q hq => .scan fun action q' hq' => ?_)
  exact .ret (by simp) (by omega)

theorem moves_foreignKeyOptions {tableLevel : Bool} :
    Moves s pos (foreignKeyOptions tableLevel) fun _ q =>
      q = pos → (View.mk s pos).isWord "REFERENCES" = false := by
  refine .ite (fun _ => .scan fun _ q hq => ?_) fun _ => ?_
  · refine .run moves_skipReferences fun _ q₁ h₁ hrefs => .scan fun actions q₂ h₂ => ?_
    refine .scan fun replication q₃ h₃ => .ret (by simp) fun heq => ?_
    have hstay : q = pos := by omega
    rw [hstay] at hrefs
    exact hrefs (by omega)
  · refine .run moves_skipReferences fun _ q₁ h₁ hrefs => .scan fun actions q₂ h₂ => ?_
    exact .scan fun replication q₃ h₃ => .ret (by simp) fun heq => hrefs (by omega)

theorem lays_checkCondition (h : AllFrom s parse pos) : LaysOne s pos (checkCondition parse) := by
  refine .step (h.one .expression (Nat.le_refl pos)) fun e q hq _ => .scan fun _ q' hq' => ?_
  exact .ret (by simp) trivial

/-- The words that begin a constraint are read, unless `KEY` is missing behind one of them. -/
theorem not_columnConstraint (hkeyed : s.Keyed)
    (hconstraint : (View.mk s pos).isWord "CONSTRAINT" = false)
    (hprimary : (View.mk s pos).isWords ["PRIMARY", "KEY"] = false)
    (hunique : (View.mk s pos).isWord "UNIQUE" = false)
    (hcheck : (View.mk s pos).isWord "CHECK" = false)
    (hdefault : (View.mk s pos).isWord "DEFAULT" = false)
    (hforeign : (View.mk s pos).isWords ["FOREIGN", "KEY"] = false)
    (hreferences : (View.mk s pos).isWord "REFERENCES" = false) :
    (View.mk s pos).isOneOf columnConstraintWords = false := by
  have hkey : ∀ word, word ∈ ["PRIMARY", "FOREIGN"] →
      (View.mk s pos).isWords [word, "KEY"] = false → (View.mk s pos).isWord word = false := by
    intro word hmem hwords
    by_contra hword
    have hword : (View.mk s pos).isWord word = true := by simpa using hword
    have hnext : (View.mk s (pos + 1)).isWord "KEY" = true :=
      hkeyed pos (View.isOneOf_of_isWord hmem hword)
    simp [View.isWords, hword, hnext] at hwords
  by_contra hone
  obtain ⟨word, hmem, hword⟩ := View.isWord_of_isOneOf (by simpa using hone)
  have hprimary' := hkey "PRIMARY" (by simp) hprimary
  have hforeign' := hkey "FOREIGN" (by simp) hforeign
  simp only [columnConstraintWords, List.mem_cons, List.not_mem_nil, or_false] at hmem
  rcases hmem with rfl | rfl | rfl | rfl | rfl | rfl | rfl <;> simp_all

/-- A constraint that begins with a word of its own reads a token, if the source is keyed. -/
theorem spans_constraint (h : AllFrom s parse (pos + 1)) (tableLevel : Bool) :
    Lays s pos pos [] (constraint parse tableLevel) (fun n => [n]) fun n q => n.Exact pos q ∧
      ((View.mk s pos).isOneOf columnConstraintWords = true → s.Keyed → pos < q) := by
  refine .position (.lifted moves_constraintName? fun name q hq hname => ?_)
  refine .lifted moves_constraintKind fun kind q₁ h₁ hkind => ?_
  obtain ⟨hread, hnone⟩ := hkind
  cases kind with
  | primaryKey =>
    have hlt := hread (by simp)
    refine .scan fun clustered q₂ h₂ => .scan fun hash q₃ h₃ => .scan fun _ q₄ h₄ => ?_
    exact .scan fun options q₅ h₅ => .place (by simp) trivial fun n hn _ => ⟨hn, by omega⟩
  | unique =>
    have hlt := hread (by simp)
    refine .scan fun clustered q₂ h₂ => .scan fun hash q₃ h₃ => .scan fun _ q₄ h₄ => ?_
    exact .scan fun options q₅ h₅ => .place (by simp) trivial fun n hn _ => ⟨hn, by omega⟩
  | check =>
    have hlt := hread (by simp)
    refine .scan fun options q₂ h₂ => ?_
    refine .step (.itemAfter fun r hr => lays_checkCondition (h.mono (by omega))) ?_
    exact fun condition q₃ h₃ _ => .place (by simp) trivial fun n hn _ => ⟨hn, by omega⟩
  | default =>
    have hlt := hread (by simp)
    refine .step (h.one .expression (by omega)) fun value q₂ h₂ _ => .scan fun _ q₃ h₃ => ?_
    exact .scan fun options q₄ h₄ => .place (by simp) trivial fun n hn _ => ⟨hn, by omega⟩
  | foreignKey =>
    refine .lifted moves_foreignKeyOptions fun options q₂ h₂ hrefs => ?_
    refine .place (by simp) trivial fun n hn _ => ⟨hn, fun hword hkeyed => ?_⟩
    by_contra hle
    have hstay : q = pos := by omega
    have hstay₁ : q₁ = pos := by omega
    have hstay₂ : q₂ = pos := by omega
    subst hstay hstay₁ hstay₂
    obtain ⟨hprimary, hunique, hcheck, hdefault, hforeign⟩ := hnone rfl
    rw [not_columnConstraint hkeyed (hname rfl) hprimary hunique hcheck hdefault hforeign
      (hrefs rfl)] at hword
    cases hword

/-! ### Columns -/

/-- A token is read, whatever it is. -/
theorem moves_columnAttribute? (hpos : pos < s.size) :
    Moves s pos columnAttribute? fun _ q => pos < q := by
  refine .look (.words (fun q hq => .ret (by simp) hq) fun _ => ?_)
  refine .words (fun q hq => .ret (by simp) hq) fun _ => ?_
  refine .eat (fun _ _ => .ret (by simp) (by omega)) fun _ => ?_
  refine .eat (fun _ _ => .scan fun _ q hq => .ret (by simp) (by omega)) fun _ => ?_
  refine .ite (fun hgenerated => ?_) fun _ => .ite (fun hmasked => ?_) fun _ => ?_
  · refine .run moves_skipPlainUntil fun _ q hq hstop => .ret (by simp) ?_
    by_contra hle
    have hstay : q = pos := by omega
    rw [hstay] at hstop
    have hword : (View.mk s pos).isWord "GENERATED" = true := by
      simp only [View.isWords, Bool.and_eq_true] at hgenerated
      exact hgenerated.1
    have hfree : Text.oneOf "GENERATED" ["HIDDEN", "NOT", "NULL", "CONSTRAINT"] = false := by
      decide +kernel
    have hother := View.not_isOneOf_of_isWord hword hfree
    simpa [View.not_isMark_of_isWord hword, hother] using hstop hpos
  · refine .run (moves_takeWord hmasked) fun word q _ hlt => ?_
    refine .fork (fun q₁ h₁ => .scan fun _ q₂ h₂ => ?_) fun q₁ h₁ => ?_
    · exact .ret (by simp) (by omega)
    · exact .ret (by simp) (by omega)
  · refine .eat (fun _ _ => .scan fun _ q hq => .scan fun _ q₁ h₁ => .scan fun _ q₂ h₂ => ?_) ?_
    · exact .ret (by simp) (by omega)
    refine fun _ => .take fun word? q hq hlt => ?_
    split
    · exact .ret (by simp) (hlt rfl)
    · refine .run moves_advance fun _ q₁ _ h₁ => .ret (by simp) ?_
      split at h₁ <;> omega

/-- A round reads a token, unless `KEY` is missing where it stands. -/
theorem lays_columnPart {o : Nat} {parts : List Node} (h : AllFrom s parse (pos + 1)) :
    Lays s o pos parts (columnPart parse parts) (Round.nodes (fun ns => ns) fun ns => ns)
      (Round.Goes s (fun _ _ => True) (fun _ _ => True) pos) := by
  refine .given fun hl => .position (.look (.ite (fun _ => .ret (by simp) trivial) fun hgo => ?_))
  have hpos : pos < s.size := View.lt_of_not_atEnd (by simp_all [View.atStatementEnd])
  have hafter : ∀ {q : Nat} {kind : Kind}, pos < q → kind.Free →
      Lays s o q parts (do return .again (parts ++ [← leaf kind pos]) : Parser _)
        (Round.nodes (fun ns => ns) fun ns => ns)
        (Round.Goes s (fun _ _ => True) (fun _ _ => True) pos) := by
    intro q kind hlt hfree
    refine .given fun hl' => ?_
    have hnone : Layout s pos [] q := .nil (by omega) hl'.bound
    refine .buildAfter hl hnone (hfree _ _ _ _) fun n _ => .ret (by simp) ?_
    exact ⟨fun _ => hlt, trivial⟩
  refine .eat (fun _ _ => .scan fun collation q hq => ?collated) fun _ => ?plain
  case collated => exact hafter (by omega) fun _ _ _ _ => trivial
  refine .ite (fun hword => ?_) fun _ => ?_
  · refine .step (spans_constraint h false) fun n q hq hn => .ret (by simp) ?_
    exact ⟨hn.2 hword, trivial⟩
  · refine .lifted (moves_columnAttribute? hpos) fun text? q _ hlt => ?_
    split
    · exact hafter hlt fun _ _ _ _ => trivial
    · exact .ret (by simp) ⟨fun _ => hlt, trivial⟩

theorem lays_columnAttributes (h : AllFrom s parse (pos + 1)) :
    LaysAll s pos (columnAttributes parse) := by
  refine .loop (fun parts => parts) (by simp) fun parts q hq => ?_
  exact lays_columnPart (h.mono (by omega))

theorem spans_computedColumn (h : AllFrom s parse pos) : Spans s pos (computedColumn parse) := by
  refine .position (.step (h.one .expression (Nat.le_refl pos)) fun e q hq _ => ?_)
  exact .scan fun persisted q' hq' => .node (by simp) trivial

theorem lays_columnType (h : AllFrom s parse (pos + 1)) : LaysAll s pos (columnType parse) := by
  refine .fork (fun q hq => ?_) fun q hq => ?_
  · exact (Lays.single (spans_computedColumn (h.mono hq))).drop (by omega)
  · exact (Lays.whenSees fun _ => spans_dataType).drop hq

/-- A column spans its name, its type and its attributes. -/
theorem spans_columnDef (h : AllFrom s parse (pos + 1)) : Spans s pos (columnDef parse) := by
  refine .position (.scan fun name q hq => ?_)
  refine .step (lays_columnType (h.mono (by omega))) fun typed q₁ h₁ _ => ?_
  refine .step (lays_columnAttributes (h.mono (by omega))) fun attributes q₂ h₂ _ => ?_
  exact .node (by simp) trivial

theorem spans_period : Spans s pos period := by
  refine .position (.scan fun _ q hq => ?_)
  exact .leaf trivial

/-- An element of a table spans what stands between two commas. -/
theorem spans_tableElement (h : AllFrom s parse (pos + 1)) : Spans s pos (tableElement parse) := by
  refine .position (.look (.ite (fun _ => ?_) fun _ => .eat (fun _ _ => ?_) fun _ => ?_))
  · exact (spans_constraint h true).imp fun _ _ hn => hn.1
  · exact .scan fun _ q hq => .scan fun _ q' hq' => .leaf trivial
  · exact .ite (fun _ => spans_period) fun _ => spans_columnDef h

theorem lays_tableElements (h : AllFrom s parse (pos + 1)) :
    LaysAll s pos (tableElements parse) := by
  refine .fork (fun q hq => ?_) fun q hq => .ret (by simp) trivial
  refine .seq (show Lays s pos q [] _ (fun ns => ns) fun _ _ => True from ?_) fun elements q' _ =>
    .scan fun _ r hr => .ret (List.Sublist.refl _) trivial
  refine .loop (fun elements => elements.reverse) (by simp) fun elements q₁ h₁ => .look ?_
  refine .ite (fun _ => .ret (by simp) trivial) fun hgo => .position ?_
  have hlt : q₁ < s.size := View.lt_of_not_atEnd (by simp_all)
  refine .step (spans_tableElement (h.mono (by omega))) fun element q₂ h₂ _ => ?_
  refine .lifted (moves_separate hlt h₂) fun _ q₃ _ hread => .ret (by simp) ?_
  exact ⟨fun _ => hread, trivial⟩

end Portability.Parser
