import Portability.Proofs.Casing.Definition

/-! Statements, phrases and batches of two sources that differ in case. -/
namespace Portability

namespace Parser

section

variable {parse : Descent} [∀ ph, Echo (parse ph) (parse ph) Node.fold]

instance : Echo (afterWith parse) (afterWith parse) Node.fold := .of <| by
  unfold afterWith
  refine .seq fun x => ?_
  refine Agree.elim x.left.keyword? x.right.keyword? fun o => ?_
  split <;> infer_instance

omit [∀ ph, Echo (parse ph) (parse ph) Node.fold] in
instance {n n' first first' : Node} [Agree Node.fold n n'] [Agree Node.fold first first'] :
    Agree Node.fold (withFirst n first) (withFirst n' first') := by
  unfold withFirst
  infer_instance

instance : Echo (withStatement parse) (withStatement parse) Node.fold := .of <| by
  unfold withStatement
  refine .step fun start => .seq fun o => ?_
  refine Agree.option (φ := Node.fold) o.left o.right ?_ fun ctes => ?_
  all_goals
    dsimp only
    infer_instance

omit [∀ ph, Echo (parse ph) (parse ph) Node.fold] in
instance {kind : Kind} : Echo (wordStatement kind) (wordStatement kind) Node.fold := .of <| by
  unfold wordStatement
  refine .step fun start => .step fun _ => ?_
  infer_instance

omit [∀ ph, Echo (parse ph) (parse ph) Node.fold] in
instance {make : String → Kind}
    [∀ x : Twins Text.lower, Agree Kind.fold (make x.left) (make x.right)] :
    Echo (namedStatement make) (namedStatement make) Node.fold := .of <| by
  unfold namedStatement
  refine .step fun start => .step fun _ => .seq fun name => ?_
  infer_instance

omit [∀ ph, Echo (parse ph) (parse ph) Node.fold] in
instance : Echo labelStatement labelStatement Node.fold := .of <| by
  unfold labelStatement
  refine .step fun start => .seq fun name => .step fun _ => ?_
  infer_instance

instance {word : String} :
    Echo (keywordStatement parse word) (keywordStatement parse word) Node.fold :=
  .of <| by
    unfold keywordStatement
    split <;> infer_instance

instance : Echo (statementShape parse) (statementShape parse) Node.fold := .of <| by
  unfold statementShape
  refine .seq fun x => .fork inferInstance (.fork inferInstance ?_)
  refine Agree.elim x.left.keyword? x.right.keyword? fun o => ?_
  cases o <;> infer_instance

instance : Echo (statementBody parse) (statementBody parse) Node.fold := .of <| by
  unfold statementBody
  refine .step fun start => .seq fun found => .step fun pos => .fork ?_ inferInstance
  refine .step fun _ => .seq fun text => ?_
  infer_instance

instance {ph : Phrase} : Echo (phraseBody parse ph) (phraseBody parse ph) Node.fold := by
  cases ph
  all_goals
    unfold phraseBody
    infer_instance

instance {outer : Phrase} {left : Nat} {ph : Phrase} :
    Echo (inside outer left parse ph) (inside outer left parse ph) Node.fold := .of <| by
  have : Tracks Node.fold (endless : Parser Node) endless := ⟨.endless⟩
  unfold inside
  infer_instance

end

/-- Phrases agree at every depth of nesting. -/
instance {depth : Nat} {ph : Phrase} : Echo (phrase depth ph) (phrase depth ph) Node.fold := by
  induction depth generalizing ph with
  | zero => exact ⟨.endless⟩
  | succ depth ih =>
    refine .of ?_
    unfold phrase
    infer_instance

instance {depth : Nat} : Echo (statements depth) (statements depth) (List.map Node.fold) :=
  .of <| by
    unfold statements
    refine .loop (List.map Node.fold) fun found => .seq fun v => .fork inferInstance (.fork ?_ ?_)
    · refine .step fun _ => ?_
      infer_instance
    · refine .seq fun statement => ?_
      infer_instance

instance : Echo batch batch Node.fold := .of <| by
  unfold batch
  refine .seq fun x => ?_
  dsimp only
  refine Agree.elim x.left.source.size x.right.source.size fun size => ?_
  infer_instance

end Parser

end Portability
