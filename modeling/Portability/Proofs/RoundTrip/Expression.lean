import Portability.Proofs.RoundTrip.Levels

/-! Every expression is read back from its tokens. -/
namespace Portability

namespace Opening

variable {m : Level} {ts : List Token} {s : Source} {start stop : Nat}

theorem opens (h : Opening m ts) (hs : s.Stands start ts stop) :
    s.Opens m start := by
  obtain ⟨t, rest, rfl, ht⟩ := h
  exact ⟨t, hs.1, ht⟩

theorem lt (h : Opening m ts) (hs : s.Stands start ts stop) : start < stop := by
  obtain ⟨t, rest, rfl, -⟩ := h
  exact hs.2.le

end Opening

namespace Expression

/-- The expression is read at its level, with its own tree as the result. -/
def Sound (e : Expression) : Prop :=
  ∀ (s : Source) (start stop : Nat), s.Stands start e.bare stop → s.Ends e.level.operand stop →
    e.level.Reaches s start stop e.shape

variable {e : Expression} {m : Level} {s : Source} {start stop : Nat}

theorem Sound.bare (h : e.Sound) (hs : s.Stands start e.bare stop) (hle : m.rank ≤ e.level.rank)
    (hend : s.Ends m stop) : m.Reads s start stop e.shape := by
  have hown : s.Ends e.level stop := hend.tighter hle
  have hoperand : e.level.rank ≤ e.level.operand.rank := by cases e.level <;> decide
  have hreads := (h s start stop hs (hown.tighter hoperand)).reads hown
  refine hreads.loosen_to hle hend fun hlevel => ?_
  have hopens : s.Opens e.level start :=
    (tokens_of_le (Nat.le_refl _) ▸ opening e e.level : Opening e.level e.bare).opens hs
  exact hopens.not_isWord (by decide) (.inr (by simpa [Level.looser] using hlevel))

/-- At every level the expression is read as it stands or in parentheses. -/
theorem Sound.reads (h : e.Sound) (hs : s.Stands start (e.tokens m) stop) (hend : s.Ends m stop) :
    m.Reads s start stop e.shape := by
  by_cases hle : m.rank ≤ e.level.rank
  · rw [tokens_of_le hle] at hs
    exact h.bare hs hle hend
  · have hlooser : e.level.looser m = true := by simpa [Level.looser] using hle
    simp only [tokens_eq, enclose, hlooser, if_true, Source.stands_cons, Source.stands_append,
      Source.stands_nil] at hs
    obtain ⟨hopen, mid, hs, hclose, rfl⟩ := hs
    have hinner : Level.disjunction.Reads s (start + 1) mid e.shape :=
      h.bare hs (Nat.zero_le _) (Source.ends_of_free hclose (by decide))
    have hsigned : m.rank ≤ Level.signed.rank := by cases m <;> decide
    have henclosed := Level.reads_enclosed hopen ((opening e .disjunction).opens hs) hinner hclose
      (hend.tighter hsigned)
    refine henclosed.loosen_to hsigned hend fun _ => ?_
    simp [View.isWord, View.isWordAt, View.word?, View.token?, hopen]

/-- On the left of an operator the expression is the chain so far. -/
theorem Sound.reaches (h : e.Sound) (hs : s.Stands start (e.tokens m) stop)
    (hend : s.Ends m.operand stop) : m.Reaches s start stop e.shape := by
  by_cases hlevel : e.level = m
  · subst hlevel
    exact h s start stop (tokens_of_le (Nat.le_refl _) ▸ hs) hend
  · have htokens : e.tokens m.operand = e.tokens m := by
      have hlooser : e.level.looser m.operand = e.level.looser m := by
        generalize e.level = l at hlevel
        cases m <;> cases l <;> first | rfl | exact absurd rfl hlevel
      rw [tokens_eq, tokens_eq, hlooser]
    exact .first (h.reads (htokens ▸ hs) hend)

/-! ### One case per construct -/

theorem binding_token (op : Connective) : op.token.binding = some op.level := by
  cases op
  case or | and => exact binding_keyword (by decide) rfl
  all_goals decide

theorem operator?_of_token {op : Connective} {pos : Nat} (h : s.tokenAt? pos = some op.token)
    (hopens : s.Opens m (pos + 1)) : op.level.operator? ⟨s, pos⟩ = some op.kind := by
  have heq : (View.mk s pos).isMarkAt 1 .eq = false := hopens.not_isMark rfl
  have htoken : (View.mk s pos).token? 0 = some op.token := h
  cases op
  case or | and =>
    have hword := Source.isWord_of_token h
    simp [Connective.level, Level.operator?, Parser.logical?, hword, Connective.kind]
  all_goals
    simp [Connective.level, Level.operator?, Parser.binaryOp?, htoken, Connective.token, heq,
      Connective.kind, Mark.text]

theorem sound_number (digits : String) (long : Bool) : (number digits long).Sound := by
  intro s start stop hs hend
  obtain ⟨ht, rfl⟩ := hs
  exact .first (Level.reads_number ht hend)

theorem sound_var (v : Variable) : (var v).Sound := by
  intro s start stop hs hend
  obtain ⟨ht, rfl⟩ := hs
  exact .first (Level.reads_variable ht hend)

theorem Sound.sign (op : Sign) (h : e.Sound) : (sign op e).Sound := by
  intro s start stop hs hend
  exact .first (Level.reads_sign hs.1 (h.reads hs.2 hend))

theorem Sound.negation (h : e.Sound) : (negation e).Sound := by
  intro s start stop hs hend
  exact .first (Level.reads_negation hs.1 (h.reads hs.2 hend))

theorem Sound.binary (op : Connective) {left right : Expression} (hleft : left.Sound)
    (hright : right.Sound) : (binary op left right).Sound := by
  intro s start stop hs hend
  simp only [Expression.bare, tokens, enclose, Level.looser_disjunction, Bool.false_eq_true,
    if_false, Source.stands_append, Source.stands_cons] at hs
  obtain ⟨mid, hl, hop, hr⟩ := hs
  have hmid : s.Ends op.level.operand mid :=
    Source.ends_of_binding hop (binding_token op) (by cases op <;> decide)
  have hopens := (opening right op.level.operand).opens hr
  exact .next (hleft.reaches hl hmid) hl.le (Source.lt_of_tokenAt? hop)
    (operator?_of_token hop hopens) (hright.reads hr hend) hr.le

theorem ends_of_predicate {pos : Nat} (h : s.Ends .predicate pos) : s.Ends .additive pos :=
  h.tighter (by decide)

theorem ends_additive {pos : Nat} {w : String} (h : s.tokenAt? pos = some (.word w none))
    (hkey : w ∈ keywords) (hw : wordBinding w = some .predicate) : s.Ends .additive pos :=
  Source.ends_of_binding h (binding_keyword hkey hw) (by decide)

theorem Sound.comparison (op : Relation) {left right : Expression} (hleft : left.Sound)
    (hright : right.Sound) : (comparison op left right).Sound := by
  intro s start stop hs hend
  simp only [Expression.bare, tokens, enclose, Level.looser_disjunction, Bool.false_eq_true,
    if_false, Source.stands_append] at hs
  obtain ⟨mid, hl, after, hop, hr⟩ := hs
  have hmid : s.Ends .additive mid := by
    cases op <;> exact Source.ends_of_binding (l := .predicate) hop.1 (by decide) (by decide)
  have hafter : mid < after := by
    cases op <;> simp [Relation.tokens] at hop <;> omega
  have hopens := (opening right .additive).opens hr
  refine .first fun parse hserves => .seq (hleft.reads hl hmid parse hserves) fun n hn => .look ?_
  simp only [Level.comparison?_of_stands hop hopens]
  have hskip : Parser.advanceBy (after - mid) s mid = some ((), after) := by
    rw [Level.advanceBy_eq (by have := hopens.lt; omega)]
    congr 2
    omega
  have hcomparand := Level.gives_comparand hserves (Nat.lt_of_le_of_lt hl.le hafter) hopens
    (hright.reads hr (ends_of_predicate hend))
  exact .scan hskip (.seq hcomparand fun n' hn' => .node (by simp [hn, hn']))

/-- Where the parts of a test stand: the operand, `NOT` if it is there, and the word. -/
theorem Sound.test {negated : Bool} {w : String} {rest : List Token} (h : e.Sound)
    (hw : w ∈ ["IN", "BETWEEN", "LIKE"])
    (hs : s.Stands start (e.tokens .additive ++ (notTokens negated ++ .word w none :: rest)) stop) :
    ∃ mid pos, Level.additive.Reads s start mid e.shape ∧ start ≤ pos ∧
      (∃ first, s.tokenAt? mid = some (.word first none)) ∧
      Parser.eatTestNegation s mid = some (negated, pos) ∧
      s.tokenAt? pos = some (.word w none) ∧ s.Stands (pos + 1) rest stop := by
  simp only [Source.stands_append, Source.stands_cons] at hs
  obtain ⟨mid, he, pos, hnegator, hword, hrest⟩ := hs
  have htests : ∀ w ∈ ["IN", "BETWEEN", "LIKE"],
      w ∈ keywords ∧ wordBinding w = some .predicate := by decide
  have hfirst : ∃ first, s.tokenAt? mid = some (.word first none) ∧ first ∈ keywords ∧
      wordBinding first = some .predicate := by
    cases negated with
    | true => exact ⟨"NOT", hnegator.1, by decide, rfl⟩
    | false =>
      obtain rfl : mid = pos := hnegator
      exact ⟨w, hword, htests w hw⟩
  obtain ⟨first, hfirst, hkey, hbinding⟩ := hfirst
  exact ⟨mid, pos, h.reads he (ends_additive hfirst hkey hbinding),
    Nat.le_trans he.le hnegator.le, ⟨first, hfirst⟩,
    Level.eatTestNegation_of_stands hnegator hword hw, hword, hrest⟩

theorem Sound.between (negated : Bool) {low high : Expression} (h : e.Sound) (hlow : low.Sound)
    (hhigh : high.Sound) : (between negated e low high).Sound := by
  intro s start stop hs hend
  obtain ⟨mid, pos, hoperand, hle, ⟨first, hfirst⟩, hnot, hword, hrest⟩ :=
    h.test (by decide) hs
  simp only [Source.stands_append, Source.stands_cons] at hrest
  obtain ⟨and, hl, hand, hh⟩ := hrest
  have hlow := hlow.reads hl (Source.ends_of_binding hand
    (binding_keyword (by decide) rfl) (by decide))
  have hhigh := hhigh.reads hh (ends_of_predicate hend)
  refine .first (Level.reads_test hoperand hfirst fun parse left hserves hleft => ?_)
  have hlt := Source.lt_of_tokenAt? hword
  have hlt' := Source.lt_of_tokenAt? hand
  refine .scan hnot (.skip (Source.not_isWord_of_apart hword (by decide)) ?_)
  refine .eat (Source.isWord_of_token hword) hlt ?_
  refine .seq (hlow.behind hserves (Nat.lt_succ_of_le hle) hlt) fun a ha => ?_
  refine .eat (Source.isWord_of_token hand) hlt' ?_
  have hand : pos + 1 ≤ and := hl.le
  refine .seq (hhigh.behind hserves (by omega) hlt') fun b hb => ?_
  exact .node (by simp [hleft, ha, hb])

theorem Sound.like (negated : Bool) {pattern : Expression} (h : e.Sound)
    (hpattern : pattern.Sound) : (like negated e pattern).Sound := by
  intro s start stop hs hend
  obtain ⟨mid, pos, hoperand, hle, ⟨first, hfirst⟩, hnot, hword, hrest⟩ :=
    h.test (by decide) hs
  have hpattern := hpattern.reads hrest (ends_of_predicate hend)
  have hescape : (View.mk s stop).isWord "ESCAPE" = false :=
    hend.not_isWord (by decide) rfl (Nat.le_refl _)
  refine .first (Level.reads_test hoperand hfirst fun parse left hserves hleft => ?_)
  have hlt := Source.lt_of_tokenAt? hword
  refine .scan hnot (.skip (Source.not_isWord_of_apart hword (by decide)) ?_)
  refine .skip (Source.not_isWord_of_apart hword (by decide)) ?_
  refine .eat (Source.isWord_of_token hword) hlt ?_
  refine .seq (hpattern.behind hserves (Nat.lt_succ_of_le hle) hlt) fun a ha => ?_
  refine .seq (.itemAfter_none (Parser.eatWord_of_not hescape)) fun escape hnone => ?_
  exact .node (by simpa [hleft, ha] using hnone)

theorem Sound.likeEscape (negated : Bool) {pattern escape : Expression} (h : e.Sound)
    (hpattern : pattern.Sound) (hescape : escape.Sound) :
    (likeEscape negated e pattern escape).Sound := by
  intro s start stop hs hend
  obtain ⟨mid, pos, hoperand, hle, ⟨first, hfirst⟩, hnot, hword, hrest⟩ :=
    h.test (by decide) hs
  simp only [Source.stands_append, Source.stands_cons] at hrest
  obtain ⟨after, hp, hafter, he⟩ := hrest
  have hpattern := hpattern.reads hp (ends_additive hafter (by decide) rfl)
  have hescape := hescape.reads he (ends_of_predicate hend)
  refine .first (Level.reads_test hoperand hfirst fun parse left hserves hleft => ?_)
  have hlt := Source.lt_of_tokenAt? hword
  have hlt' := Source.lt_of_tokenAt? hafter
  refine .scan hnot (.skip (Source.not_isWord_of_apart hword (by decide)) ?_)
  refine .skip (Source.not_isWord_of_apart hword (by decide)) ?_
  refine .eat (Source.isWord_of_token hword) hlt ?_
  refine .seq (hpattern.behind hserves (Nat.lt_succ_of_le hle) hlt) fun a ha => ?_
  have hnext : pos + 1 ≤ after := hp.le
  have hitem := hescape.behind hserves (by omega : start < after + 1) hlt'
  refine .seq (.itemAfter (Source.eatWord_of_token hafter) hitem) fun b hb => ?_
  exact .node (by simp [hleft, ha, hb])

theorem Sound.isNull (negated : Bool) (h : e.Sound) : (isNull negated e).Sound := by
  intro s start stop hs hend
  simp only [Expression.bare, tokens, enclose, Level.looser_disjunction, Bool.false_eq_true,
    if_false, Source.stands_append, Source.stands_cons, Source.stands_nil] at hs
  obtain ⟨mid, he, his, null, hnot, hnull, rfl⟩ := hs
  have hoperand := h.reads he (ends_additive his (by decide) rfl)
  refine .first (Level.reads_test hoperand his fun parse left hserves hleft => ?_)
  have hskip (word : String) (h : apart "IS" word = true) : (View.mk s mid).isWord word = false :=
    Source.not_isWord_of_apart his h
  refine .skip (by simp [hskip "NOT" (by decide)]) ?_
  refine .skip (hskip "IN" (by decide)) ?_
  refine .skip (hskip "BETWEEN" (by decide)) ?_
  refine .skip (hskip "LIKE" (by decide)) ?_
  refine .eat (Source.isWord_of_token his) (Source.lt_of_tokenAt? his) ?_
  have hrest (n : Bool) : Gives s (do
      let _ ← Parser.eatWord "NULL"
      Parser.node (.isNull n) left.start [left]) null (null + 1)
      (·.shape = .of (.isNull n) [e.shape]) :=
    .eat (Source.isWord_of_token hnull) (Source.lt_of_tokenAt? hnull) (.node (by simp [hleft]))
  cases negated with
  | true =>
    obtain ⟨ht, rfl⟩ := hnot
    exact .eat (Source.isWord_of_token ht) (Source.lt_of_tokenAt? ht) (hrest true)
  | false =>
    obtain rfl : mid + 1 = null := hnot
    exact .skip (Source.not_isWord_of_apart hnull (by decide)) (hrest false)

/-! ### Members of a list -/

/-- A member of a list in parentheses: a query or an expression. -/
def member (parse : Descent) : Parser (List Node) := do
  return [← parse (if (← Parser.look).startsQueryAt 0 then .query else .expression)]

/-- A round of the loop over the members. -/
def memberRound (parse : Descent) (members : List Node) :
    Parser (Round (List Node) (List Node)) := do
  let v ← Parser.look
  if v.atEnd || v.isMark .rparen then return .done members
  else
    let before ← Parser.position
    let members := members ++ (← member parse)
    if ← Parser.memberFollows before then return .again members else return .done members

theorem memberFollows_comma {before pos : Nat} (h : s.tokenAt? pos = some (.mark .comma)) :
    Parser.memberFollows before s pos = some (true, pos + 1) := by
  simp [Parser.memberFollows, Parser.eatMark, Parser.eatIf, bind, Parser.look, Parser.advance, pure,
    Source.isMark_of_token h, Source.lt_of_tokenAt? h]

theorem memberFollows_rparen {before pos : Nat} (h : s.tokenAt? pos = some (.mark .rparen))
    (hlt : before < pos) : Parser.memberFollows before s pos = some (false, pos) := by
  have hcomma : (View.mk s pos).isMark .comma = false := by
    simp [View.isMark, View.isMarkAt, View.token?, h]
  have hne : (pos == before) = false := by simpa using Nat.ne_of_gt hlt
  simp [Parser.memberFollows, Parser.eatMark, Parser.eatIf, bind, Parser.look, pure, hcomma,
    Parser.stepPast, Parser.position, hne, Parser.sees, Source.isMark_of_token h]

/-- One member more; whether another round follows depends on what stands behind it. -/
theorem gives_memberRound {parse : Descent} {pos mid rank : Nat} {more : Bool}
    (members : List Node) (hserves : parse.Serves s start rank) (hlt : start < pos) (h : e.Sound)
    (hs : s.Stands pos e.bare mid) (hend : s.Ends .disjunction mid)
    (hfollows : Parser.memberFollows pos s mid = some (more, stop)) :
    Gives s (memberRound parse members) pos stop fun r => ∃ ns : List Node,
      r = (if more then .again ns else .done ns) ∧
        ns.map Node.shape = members.map Node.shape ++ [e.shape] := by
  have hopens : s.Opens .disjunction pos := (opening e .disjunction).opens hs
  have hrparen : (View.mk s pos).isMark .rparen = false := hopens.not_isMark rfl
  have hselect : (View.mk s pos).isWordAt 0 "SELECT" = false :=
    hopens.not_isWord (by decide) (.inl (by decide))
  have hwith : (View.mk s pos).isWordAt 0 "WITH" = false :=
    hopens.not_isWord (by decide) (.inl (by decide))
  have hread := (h.bare hs (Nat.zero_le _) hend).behind hserves hlt (Nat.le_of_lt hopens.lt)
  have hmember : Gives s (member parse) pos mid (·.map Node.shape = [e.shape]) := by
    refine .look ?_
    simp only [View.startsQueryAt, hselect, hwith]
    exact .seq hread fun n hn => .ret (by simp [hn])
  refine .look (.no (by simp [View.atEnd, hrparen, hopens.lt]) (.position ?_))
  refine .seq hmember fun ns hns => .scan hfollows ?_
  cases more <;> exact .ret ⟨members ++ ns, rfl, by simp [hns]⟩

/-- All members from one on, up to the closing parenthesis. -/
theorem gives_members {parse : Descent} {pos rank k : Nat} {rest : List Expression}
    (members : List Node) (hserves : parse.Serves s start rank) (hlt : start < pos) (h : e.Sound)
    (hrest : ∀ x ∈ rest, x.Sound) (hs : s.Stands pos (e.bare ++ memberTokens rest) stop)
    (hclose : s.tokenAt? stop = some (.mark .rparen)) (hk : s.size - pos < k) :
    Gives s (Parser.rounds (memberRound parse) k members) pos stop fun ns =>
      ns.map Node.shape = members.map Node.shape ++ e.shape :: shapes rest := by
  induction rest generalizing e pos k members with
  | nil =>
    simp only [memberTokens, List.append_nil] at hs
    obtain ⟨k, rfl⟩ : ∃ j, k = j + 1 := ⟨k - 1, by omega⟩
    have hpos : pos < stop := (opening e .disjunction).lt hs
    have hround := gives_memberRound members hserves hlt h hs
      (Source.ends_of_free hclose (by decide)) (memberFollows_rparen hclose hpos)
    exact .done (hround.imp fun r ⟨ns, hr, hns⟩ => ⟨ns, hr, by simpa [shapes] using hns⟩)
  | cons x rest ih =>
    simp only [memberTokens, Source.stands_append, Source.stands_cons] at hs
    obtain ⟨mid, he, hcomma, after, hx, hs⟩ := hs
    obtain ⟨k, rfl⟩ : ∃ j, k = j + 1 := ⟨k - 1, by omega⟩
    have hround := gives_memberRound members hserves hlt h he
      (Source.ends_of_free hcomma (by decide)) (memberFollows_comma hcomma)
    have hmid : pos ≤ mid := he.le
    have hsize := Source.lt_of_tokenAt? hcomma
    refine .again hround (by omega) (by omega) fun ns hns => ?_
    have hnext := ih (k := k) ns (by omega : start < mid + 1) (hrest x (by simp))
      (fun y hy => hrest y (by simp [hy])) (Source.stands_append.mpr ⟨after, hx, hs⟩) (by omega)
    exact hnext.imp fun found hfound => by simp [hfound, hns, shapes]

theorem Sound.inList (negated : Bool) {first : Expression} {rest : List Expression} (h : e.Sound)
    (hfirst : first.Sound) (hrest : ∀ x ∈ rest, x.Sound) :
    (inList negated e first rest).Sound := by
  intro s start stop hs hend
  obtain ⟨mid, pos, hoperand, hle, ⟨w, hw⟩, hnot, hword, hmembers⟩ := h.test (by decide) hs
  rw [← List.append_assoc] at hmembers
  simp only [Source.stands_cons, Source.stands_append, Source.stands_nil] at hmembers
  obtain ⟨hopen, close, hmembers, hclose, rfl⟩ := hmembers
  refine .first (Level.reads_test hoperand hw fun parse left hserves hleft => ?_)
  refine .scan hnot (.eat (Source.isWord_of_token hword) (Source.lt_of_tokenAt? hword) ?_)
  have hopens : s.Opens .disjunction (pos + 1 + 1) :=
    (opening first .disjunction).append.opens (Source.stands_append.mpr hmembers)
  have hselect : (View.mk s (pos + 1)).isWordAt 1 "SELECT" = false :=
    hopens.not_isWord (by decide) (.inl (by decide))
  have hwith : (View.mk s (pos + 1)).isWordAt 1 "WITH" = false :=
    hopens.not_isWord (by decide) (.inl (by decide))
  refine .look (.no (by simp [View.startsQueryAt, hselect, hwith]) ?_)
  have hlist : Gives s (Parser.parenList parse) (pos + 1) (close + 1)
      (·.map Node.shape = first.shape :: shapes rest) := by
    refine .eat (Source.isMark_of_token hopen) (Source.lt_of_tokenAt? hopen) ?_
    have hread := gives_members (k := s.size + 2) [] hserves (by omega : start < pos + 1 + 1)
      hfirst hrest (Source.stands_append.mpr hmembers) hclose (by omega)
    refine .seq (Gives.loop hread) fun ns hns => ?_
    exact .eat (Source.isMark_of_token hclose) (Source.lt_of_tokenAt? hclose) (.ret hns)
  exact .seq hlist fun ns hns => .node (by simp [hleft, hns])

/-- Every expression is read at its level: by recursion, one case per construct. -/
theorem sound : (e : Expression) → e.Sound
  | .number digits long => sound_number digits long
  | .var v => sound_var v
  | .binary op left right => (sound left).binary op (sound right)
  | .negation operand => (sound operand).negation
  | .comparison op left right => (sound left).comparison op (sound right)
  | .between negated operand low high => (sound operand).between negated (sound low) (sound high)
  | .inList negated operand first rest =>
    (sound operand).inList negated (sound first) fun x _ => sound x
  | .like negated operand pattern => (sound operand).like negated (sound pattern)
  | .likeEscape negated operand pattern escape =>
    (sound operand).likeEscape negated (sound pattern) (sound escape)
  | .isNull negated operand => (sound operand).isNull negated
  | .sign op operand => (sound operand).sign op

/-- At any level an expression is read to its end, and its tree is the result. -/
theorem reads (e : Expression) (hs : s.Stands start (e.tokens m) stop) (hend : s.Ends m stop) :
    m.Reads s start stop e.shape := e.sound.reads hs hend

end Expression

end Portability
