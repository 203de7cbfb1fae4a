import Portability.Grammar.Expression
import Portability.Proofs.Casing.Scans

/-! Expressions of two sources that differ in case. -/
namespace Portability

instance {d : Parser.Depth} {v v' : View} [h : Agree View.fold v v'] :
    Agree id (d.word v) (d.word v') := by
  unfold Parser.Depth.word
  infer_instance

namespace Parser

/-! ### Words that divide statements -/

instance {before : Nat} : Echo (stepPast before) (stepPast before) id := .of <| by
  unfold stepPast
  exact .step fun pos => .fork inferInstance inferInstance

instance {before : Nat} : Echo (separate before) (separate before) id := .of <| by
  unfold separate
  exact .step fun hasComma => .fork inferInstance inferInstance

instance {start : Nat} : Echo (skipStatement start) (skipStatement start) id := .of <| by
  unfold skipStatement
  dsimp only
  refine .thread id (.round fun depth => .seq fun v => ?_) fun _ => inferInstance
  refine .fork inferInstance (.fork ?_ (.fork ?_ (.fork inferInstance ?_)))
  · refine .step fun _ => ?_
    infer_instance
  · refine .fork inferInstance (.step fun _ => ?_)
    infer_instance
  · refine .step fun _ => ?_
    infer_instance

instance : Echo otherStatement otherStatement Node.fold := .of <| by
  unfold otherStatement
  refine .step fun start => .seq fun x => ?_
  refine Agree.elim x.left.leadingWords x.right.leadingWords fun words => ?_
  infer_instance

instance : Echo routineOptions routineOptions id := .of <| by
  unfold routineOptions
  dsimp only
  refine .step fun hasWith => .fork (.round fun options => .seq fun v => ?_) inferInstance
  refine .fork ?_ ?_
  · refine .step fun _ => .step fun hasComma => ?_
    infer_instance
  · refine .step fun start => .step fun _ => .seq fun option => ?_
    infer_instance

instance : Echo skipWithParens skipWithParens id := .of <| by
  unfold skipWithParens
  refine .seq fun v => ?_
  infer_instance

instance {v v' : View} {offset : Nat} [h : Agree View.fold v v'] :
    Agree id (assignment? v offset) (assignment? v' offset) := by
  unfold assignment?
  refine Agree.token (v.token? offset) (v'.token? offset) (fun w => .refl) (fun w => .refl)
    fun o => ?_
  split <;> infer_instance

/-! ### Names and types -/

instance {name name' : String} [h : Agree Text.lower name name'] :
    Agree id (lastQuote? name) (lastQuote? name') := by
  refine ⟨eq_of_fold (f := lastQuote?) (fun s => ?_) h.eq⟩
  have hdouble := Text.getLast?_lower_eq_iff (s := s) (d := '"') (by decide)
  have hbracket := Text.getLast?_lower_eq_iff (s := s) (d := ']') (by decide)
  unfold lastQuote?
  grind

instance {name name' : String} [h : Agree Text.lower name name'] :
    Agree id (name.toList.getLast? == some '.') (name'.toList.getLast? == some '.') := by
  refine ⟨eq_of_fold (f := fun s : String => s.toList.getLast? == some '.') (fun s => ?_) h.eq⟩
  rw [Bool.eq_iff_iff, beq_iff_eq, beq_iff_eq]
  exact Text.getLast?_lower_eq_iff (by decide)

instance {word word' : String} [Agree foldCall word word'] :
    Echo (primaryName word) (primaryName word') foldCall := .of <| by
  unfold primaryName
  dsimp only
  refine .step fun start => .seq fun name => .step fun _ => ?_
  infer_instance

instance : Echo typeWords typeWords Text.lower := .of <| by
  unfold typeWords
  refine .seq fun first => ?_
  refine Agree.elim (Text.upper first.left) (Text.upper first.right) fun word => ?_
  split
  · infer_instance
  · refine .step fun next => ?_
    cases next <;> infer_instance
  all_goals infer_instance

instance : Echo dataType dataType Node.fold := .of <| by
  unfold dataType
  dsimp only
  refine .step fun start => .seq fun full => .seq fun inside => .step fun _ => ?_
  infer_instance

instance : Echo skipDirection skipDirection id := .of <| by
  unfold skipDirection
  refine .step fun ascending => .fork ?_ inferInstance
  refine .step fun _ => ?_
  infer_instance

instance {before : Nat} : Echo (memberFollows before) (memberFollows before) id := .of <| by
  unfold memberFollows
  refine .step fun hasComma => .fork inferInstance ?_
  refine .step fun _ => ?_
  infer_instance

instance : Echo windowFrame? windowFrame? id := .of <| by
  unfold windowFrame?
  refine .seq fun v => .fork ?_ inferInstance
  refine .step fun start => .step fun _ => .seq fun text => ?_
  infer_instance

instance : Echo skipQuantifier skipQuantifier id := .of <| by
  unfold skipQuantifier
  exact .step fun quantified => .fork inferInstance inferInstance

instance : Echo skipWithinGroup skipWithinGroup id := .of <| by
  unfold skipWithinGroup
  exact .step fun ordered => .fork inferInstance inferInstance

section

variable {parse : Descent} [∀ ph, Echo (parse ph) (parse ph) Node.fold]

instance : Echo (orderItems parse) (orderItems parse) (List.map Node.fold) := .of <| by
  unfold orderItems
  infer_instance

instance {members members' : List Node} {member member' : Parser (List Node)}
    [Agree (List.map Node.fold) members members'] [Echo member member' (List.map Node.fold)] :
    Echo (argumentMembers members member) (argumentMembers members' member')
      (List.map Node.fold) := .of <| by
  unfold argumentMembers
  dsimp only
  refine .thread (List.map Node.fold) (.loop (List.map Node.fold) fun known => ?_) fun all => ?_
  · refine .seq fun v => .fork inferInstance ?_
    refine .step fun before => .seq fun more => .step fun follows => ?_
    infer_instance
  · refine .step fun _ => ?_
    infer_instance

instance : Echo (parenList parse) (parenList parse) (List.map Node.fold) := .of <| by
  have : ∀ x : Twins View.fold,
      Echo (parse (if x.left.startsQueryAt 0 then .query else .expression))
        (parse (if x.right.startsQueryAt 0 then .query else .expression)) Node.fold := by
    intro x
    refine Agree.elim (x.left.startsQueryAt 0) (x.right.startsQueryAt 0) fun b => ?_
    infer_instance
  unfold parenList
  infer_instance

instance : Echo (overClause parse) (overClause parse) Node.fold := .of <| by
  unfold overClause
  refine .step fun start => .step fun _ => .step fun hasLparen => .fork ?_ ?_
  · refine .seq fun partition => .step fun ordered => .seq fun order => .step fun frame => ?_
    refine .step fun _ => ?_
    infer_instance
  · refine .seq fun _ => ?_
    infer_instance

instance : Echo (overClause? parse) (overClause? parse) (List.map Node.fold) := by
  unfold overClause?
  exact whenSees_echo

instance : Echo (callArgument parse) (callArgument parse) (List.map Node.fold) := .of <| by
  unfold callArgument
  refine .seq fun value => .seq fun x => .seq fun style => ?_
  infer_instance

instance {name name' : String} {start : Nat} [Agree foldCall name name'] :
    Echo (functionCall parse name start) (functionCall parse name' start) Node.fold := .of <| by
  unfold functionCall
  refine .step fun _ => .seq fun star => .step fun _ => .seq fun args => .step fun _ => ?_
  refine .seq fun window => ?_
  infer_instance

instance {name : String} : Echo (castCall parse name) (castCall parse name) Node.fold := .of <| by
  unfold castCall
  refine .step fun start => .step fun _ => .seq fun value => .step fun _ => .seq fun target => ?_
  refine .step fun _ => ?_
  infer_instance

instance {name : String} : Echo (convertCall parse name) (convertCall parse name) Node.fold :=
  .of <| by
    unfold convertCall
    refine .step fun start => .step fun _ => .seq fun target => .seq fun rest => ?_
    refine .step fun _ => ?_
    infer_instance

instance : Echo (caseExpression parse) (caseExpression parse) Node.fold := .of <| by
  unfold caseExpression
  refine .step fun start => .step fun _ => .seq fun subject => .seq fun branches => ?_
  refine .seq fun otherwise => .step fun _ => ?_
  infer_instance

instance : Echo (existsQuery parse) (existsQuery parse) Node.fold := .of <| by
  unfold existsQuery
  refine .step fun start => .step fun _ => .seq fun query => .step fun _ => ?_
  infer_instance

instance : Echo (nextValue parse) (nextValue parse) Node.fold := .of <| by
  unfold nextValue
  refine .step fun start => .step fun _ => .seq fun sequence => .seq fun window => ?_
  infer_instance

instance {word word' : String} [Agree foldCall word word'] :
    Echo (namedPrimary parse word) (namedPrimary parse word') Node.fold := .of <| by
  unfold namedPrimary
  refine .step fun start => .seq fun name => .seq fun v => .fork ?_ ?_
  · refine .step fun _ => ?_
    infer_instance
  · exact .fork inferInstance inferInstance

/-- The signs in front of a name do not depend on its case. -/
theorem exists_sigils_of_lower {a a' : String} {rest : List Char} (signs : List Char)
    (hsigns : ∀ c ∈ signs, c = '@') (h : Text.lower a = Text.lower a')
    (ha : a.toList = signs ++ rest) : ∃ rest', a'.toList = signs ++ rest' := by
  have hcaseless : ∀ c ∈ signs, Text.IsCaseless c := fun c hc => hsigns c hc ▸ Text.isCaseless_at
  obtain ⟨rest', hrest⟩ := Text.prefix_of_lower signs h hcaseless ⟨rest, ha.symm⟩
  exact ⟨rest', hrest.symm⟩

omit [∀ ph, Echo (parse ph) (parse ph) Node.fold] in
/-- One `@` or two at the beginning of a bare word make it a variable, in any case. -/
theorem tracks_sigils {system system' single single' other other' quoted quoted' : Parser Node}
    {a a' : String} (h : Text.lower a = Text.lower a') (hsystem : Tracks Node.fold system system')
    (hsingle : Tracks Node.fold single single') (hother : Tracks Node.fold other other') :
    Tracks Node.fold
      (match (none : Option Quote), a.toList with
        | none, '@' :: '@' :: _ => system
        | none, '@' :: _ => single
        | none, _ => other
        | some _, _ => quoted)
      (match (none : Option Quote), a'.toList with
        | none, '@' :: '@' :: _ => system'
        | none, '@' :: _ => single'
        | none, _ => other'
        | some _, _ => quoted') := by
  have hat {a a' : String} {rest : List Char} (h : Text.lower a = Text.lower a')
      (ha : a.toList = '@' :: rest) : ∃ rest', a'.toList = '@' :: rest' :=
    exists_sigils_of_lower ['@'] (by simp) h ha
  have hatat {a a' : String} {rest : List Char} (h : Text.lower a = Text.lower a')
      (ha : a.toList = '@' :: '@' :: rest) : ∃ rest', a'.toList = '@' :: '@' :: rest' :=
    exists_sigils_of_lower ['@', '@'] (by simp) h ha
  split
  · rename_i hleft
    obtain ⟨rest', hright⟩ := hatat h hleft
    simpa only [hright] using hsystem
  · rename_i hleft
    obtain ⟨rest', hright⟩ := hat h hleft
    split
    · rename_i hboth
      obtain ⟨rest, hboth⟩ := hatat h.symm hboth
      grind
    · exact hsingle
    · grind
    · contradiction
  · split
    · rename_i hright
      obtain ⟨rest, hboth⟩ := hat h.symm hright
      grind
    · rename_i hright
      obtain ⟨rest, hboth⟩ := hat h.symm hright
      grind
    · exact hother
    · contradiction
  · contradiction

instance {value value' : String} [h : Agree foldCall value value'] :
    Echo (wordPrimary parse value none) (wordPrimary parse value' none) Node.fold := .of <| by
  unfold wordPrimary
  refine .step fun start => .seq fun x => ?_
  refine tracks_sigils (lower_eq_of_foldCall h.eq) inferInstance inferInstance ?_
  dsimp only
  refine Agree.elim (Text.upper value) (Text.upper value') fun word => ?_
  split <;> infer_instance

instance {value : String} {quote : Option Quote} :
    Echo (wordPrimary parse value quote) (wordPrimary parse value quote) Node.fold := by
  cases quote with
  | none => infer_instance
  | some q => exact .of (by unfold wordPrimary; dsimp only; infer_instance)

omit [∀ ph, Echo (parse ph) (parse ph) Node.fold] in
instance : Echo skipBraces skipBraces id := .of <| by
  unfold skipBraces
  refine .round fun depth => .seq fun v => .fork inferInstance ?_
  refine .step fun _ => .fork inferInstance ?_
  refine .fork ?_ ?_
  · exact .fork inferInstance inferInstance
  · infer_instance

instance : Echo (parenQuery parse) (parenQuery parse) Node.fold := .of <| by
  unfold parenQuery
  refine .step fun _ => .seq fun query => .step fun _ => .step fun pos => ?_
  infer_instance

instance : Echo (parenExpression parse) (parenExpression parse) Node.fold := .of <| by
  unfold parenExpression
  refine .step fun _ => .seq fun inner => .seq fun _ => .step fun _ => ?_
  infer_instance

instance : Echo (primary parse) (primary parse) Node.fold := .of <| by
  unfold primary
  refine .step fun start => .look fun x hplain => ?_
  have hbare : ∀ w, x.left.token? 0 = some (.word w none) → w.toList.head? ≠ some '\x7b' :=
    fun w => hplain _ w
  revert hbare
  refine Agree.token (x.left.token? 0) (x.right.token? 0) (fun w hbare => ?_) (fun w hbare => ?_)
    fun o hbare => ?_
  · have : Agree foldCall w.left w.right := ⟨NamePart.foldCall ⟨w.eq, hbare _ rfl⟩⟩
    dsimp only
    infer_instance
  · dsimp only
    infer_instance
  · rcases o with _ | t
    · infer_instance
    · dsimp only
      split <;> infer_instance

omit [∀ ph, Echo (parse ph) (parse ph) Node.fold] in
instance {a a' : String} [h : Agree Text.lower a a'] : Agree foldCall ("." ++ a) ("." ++ a') :=
  ⟨NamePart.foldCall ⟨by simp [h.eq], by simp⟩⟩

instance {first first' : Node} [Agree Node.fold first first'] :
    Echo (suffixes parse first) (suffixes parse first') Node.fold := .of <| by
  unfold suffixes
  refine .loop Node.fold fun left => .seq fun v => .fork ?_ (.fork ?_ inferInstance)
  · refine .step fun _ => .seq fun collation => .seq fun node => ?_
    infer_instance
  · refine .step fun _ => .seq fun method => .seq fun args => .seq fun node => ?_
    infer_instance

omit [∀ ph, Echo (parse ph) (parse ph) Node.fold] in
/-- The sign is looked at twice and is the same. -/
theorem signedBody_eq : signedBody parse = (do
    let start ← position
    let v ← look
    match v.token? 0 with
    | some (.mark .minus) | some (.mark .plus) | some (.mark .tilde) =>
      advance
      let operand ← parse .signed
      node (.unaryOp v.display) start [operand]
    | _ =>
      let first ← primary parse
      suffixes parse first) := by
  funext s c
  simp only [signedBody, bind, liftM, monadLift, MonadLift.monadLift, position, look]
  generalize View.token? _ 0 = o
  rcases o with _ | t
  · rfl
  · cases t with
    | mark m => cases m <;> rfl
    | _ => rfl

instance : Echo (signedBody parse) (signedBody parse) Node.fold := .of <| by
  rw [signedBody_eq]
  refine .step fun start => .seq fun x => ?_
  unfold View.display
  refine Agree.token (x.left.token? 0) (x.right.token? 0) (fun w => ?_) (fun w => ?_) fun o => ?_
  · infer_instance
  · infer_instance
  · split <;> infer_instance

omit [∀ ph, Echo (parse ph) (parse ph) Node.fold] in
instance {marks : List Mark} {v v' : View} [h : Agree View.fold v v'] :
    Agree id (binaryOp? marks v) (binaryOp? marks v') := by
  unfold binaryOp?
  refine Agree.token (v.token? 0) (v'.token? 0) (fun w => .refl) (fun w => .refl) fun o => ?_
  split <;> infer_instance

instance : Echo (multiplicative parse) (multiplicative parse) Node.fold := by
  unfold multiplicative
  exact chainLeft_echo

instance : Echo (additive parse) (additive parse) Node.fold := by
  unfold additive
  exact chainLeft_echo

omit [∀ ph, Echo (parse ph) (parse ph) Node.fold] in
instance {v v' : View} [h : Agree View.fold v v'] :
    Agree id (comparison? v) (comparison? v') := by
  unfold comparison?
  refine Agree.token (v.token? 0) (v'.token? 0) (fun w => .refl) (fun w => .refl) fun o => ?_
  refine Agree.token (v.token? 1) (v'.token? 1) (fun w => ?_) (fun w => ?_) fun o' => ?_
  -- A word after a mark is no part of an operator.
  · rcases o with _ | t
    · exact .refl
    · cases t with
      | mark m => cases m <;> exact .refl
      | _ => exact .refl
  · rcases o with _ | t
    · exact .refl
    · cases t with
      | mark m => cases m <;> exact .refl
      | _ => exact .refl
  · split <;> infer_instance

instance : Echo (comparand parse) (comparand parse) Node.fold := .of <| by
  unfold comparand
  refine .seq fun v => .fork ?_ inferInstance
  refine .step fun start => .step fun quantifier => .seq fun args => ?_
  infer_instance

instance {left left' : Node} {negated : Bool} [Agree Node.fold left left'] :
    Echo (membership parse left negated) (membership parse left' negated) Node.fold := .of <| by
  unfold membership
  refine .seq fun v => .fork ?_ ?_
  · refine .step fun _ => .seq fun query => .step fun _ => ?_
    infer_instance
  · refine .seq fun members => ?_
    infer_instance

omit [∀ ph, Echo (parse ph) (parse ph) Node.fold] in
instance : Echo eatTestNegation eatTestNegation id := by
  unfold eatTestNegation
  exact eatIf_echo

instance {left left' : Node} [Agree Node.fold left left'] :
    Echo (testOf parse left) (testOf parse left') Node.fold := .of <| by
  unfold testOf
  refine .step fun negated => .step fun hasIn => .fork inferInstance ?_
  refine .step fun hasBetween => .fork ?_ ?_
  · refine .seq fun low => .step fun _ => .seq fun high => ?_
    infer_instance
  · refine .step fun hasLike => .fork ?_ ?_
    · refine .seq fun pattern => .seq fun escape => ?_
      infer_instance
    · refine .step fun hasIs => .fork ?_ inferInstance
      refine .step fun negated => .step fun _ => ?_
      infer_instance

instance : Echo (predicate parse) (predicate parse) Node.fold := .of <| by
  unfold predicate
  refine .seq fun left => .seq fun x => ?_
  refine Agree.elim (comparison? x.left) (comparison? x.right) fun o => ?_
  cases o <;> infer_instance

instance : Echo (negationBody parse) (negationBody parse) Node.fold := .of <| by
  unfold negationBody
  refine .seq fun v => .fork ?_ inferInstance
  refine .step fun start => .step fun _ => .seq fun inner => ?_
  infer_instance

omit [∀ ph, Echo (parse ph) (parse ph) Node.fold] in
instance {op : String} {v v' : View} [h : Agree View.fold v v'] :
    Agree id (logical? op v) (logical? op v') := by
  unfold logical?
  infer_instance

instance : Echo (expressionBody parse) (expressionBody parse) Node.fold := by
  unfold expressionBody
  exact chainLeft_echo

end

end Parser

end Portability
