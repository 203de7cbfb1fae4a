import Portability.Analysis
import Portability.Proofs.Casing.Constructs

/-! Walks over trees that are the same up to case sight the same, up to case. Step: what is known
once a node is entered or left. Run: the walk over a node and everything below it. -/
namespace Portability

/-! ### One step -/

namespace ObjectStack

variable (o : ObjectStack)

theorem fold_enter (node : Nat) (kind name : String) :
    (o.enter node kind name).fold = o.fold.enter node (Text.lower kind) (Text.lower name) := by
  simp [enter, fold, OpenObject.fold, Text.lower_eq_self (s := " ") rfl]

theorem fold_enterPart (node : Nat) (description : String) :
    (o.enterPart node description).fold = o.fold.enterPart node (Text.lower description) := rfl

theorem fold_markMultiEvent : o.markMultiEvent.fold = o.fold.markMultiEvent := by
  obtain ⟨_ | ⟨first, rest⟩, parts⟩ := o <;> rfl

theorem fold_leave (node : Nat) : (o.leave node).fold = o.fold.leave node := by
  simp [leave, fold, List.dropWhile_map, Function.comp_def, OpenObject.fold, OpenPart.fold]

/-- A node opens the same objects and parts, with descriptions that are the same up to case. -/
theorem enterNode_fold {o o' : ObjectStack} (h : o.fold = o'.fold) (n : Node) :
    (o.enterNode n.fold).fold = (o'.enterNode n).fold := by
  simp only [enterNode, Node.kind_fold, Node.id_fold]
  cases n.kind <;> simp only [Kind.fold]
  case createTrigger =>
    split <;> simp [fold_markMultiEvent, fold_enter, h]
  case constraint name kind clustered options =>
    cases name <;> simp [fold_enterPart, h]
  all_goals simp [fold_enter, fold_enterPart, h]

/-- The object that a finding shows is the same up to case. -/
theorem lower_object_fold : Text.lower o.object = o.fold.object := by
  obtain ⟨_ | ⟨first, rest⟩, parts⟩ := o <;> simp [object, fold, OpenObject.fold]

theorem lower_part_fold : Text.lower o.part = o.fold.part := by
  obtain ⟨objects, _ | ⟨first, rest⟩⟩ := o <;> simp [part, fold, OpenPart.fold]

end ObjectStack

/-- The sigils of a target have no case. -/
theorem QueryTrait.ofTarget_lower (target : String) :
    ofTarget (Text.lower target) = ofTarget target := by simp [ofTarget]

theorem Kind.clauseTrait?_fold (kind : Kind) : kind.fold.clauseTrait? = kind.clauseTrait? := by
  cases kind <;> simp [fold, clauseTrait?, QueryTrait.ofTarget_lower]

theorem Site.isInSpec_fold (s : Site) : s.fold.isInSpec = s.isInSpec := by
  unfold isInSpec
  rw [s.parentKind?_fold]
  cases s.parentKind? with
  | none => rfl
  | some kind => cases kind <;> rfl

namespace QueryStack

variable (q : QueryStack)

theorem enter_fold (site : Site) : q.enter site.fold = q.enter site := by
  have hclause : q.addClause site.fold = q.addClause site := by
    unfold addClause
    rw [site.kind_fold, Kind.clauseTrait?_fold, site.isInSpec_fold]
  unfold enter
  rw [hclause, site.queryTraits_fold, site.kind_fold]
  cases site.kind <;> simp [Kind.fold]

theorem leave_fold (n : Node) : q.leave n.fold = q.leave n := by
  unfold leave
  rw [n.kind_fold]
  cases n.kind <;> simp [Kind.fold]

end QueryStack

theorem ErrorTracker.enter_fold (e : ErrorTracker) (n : Node) : e.enter n.fold = e.enter n := by
  have hvalue : ∀ (name : String) (value : Option Node),
      e.noteValue (Text.lower name) (value.map Node.fold) = e.noteValue name value := by
    intro name value
    cases value <;> simp [noteValue, note_fold]
  unfold enter
  rw [n.kind_fold, n.children_fold]
  cases n.kind <;> simp [Kind.fold, hvalue]

/-- The database in use after a node is the same up to case. -/
theorem Kind.lower_databaseAfter_fold {database database' : String}
    (h : Text.lower database = Text.lower database') (kind : Kind) :
    Text.lower (kind.fold.databaseAfter database) = Text.lower (kind.databaseAfter database') := by
  cases kind <;> simp [fold, databaseAfter, h]

namespace Walk.Alike

variable {w w' : Walk} (h : w.Alike w')

include h

/-- Walks that are alike stay so when a node is entered. -/
theorem enter (site : Site) : (w.enter site.fold).Alike (w'.enter site) where
  objects := ObjectStack.enterNode_fold h.objects site.node
  queries := by
    rw [Walk.enter, Walk.enter, QueryStack.enter_fold, h.queries]
  errors := by
    rw [Walk.enter, Walk.enter, Site.node_fold, ErrorTracker.enter_fold, h.errors]
  database := by
    rw [Walk.enter, Walk.enter, Site.kind_fold]
    exact Kind.lower_databaseAfter_fold h.database site.kind

/-- Walks that are alike stay so when a node is left. -/
theorem leave (n : Node) : (w.leave n.fold).Alike (w'.leave n) where
  objects := by simp [Walk.leave, ObjectStack.fold_leave, h.objects]
  queries := by simp [Walk.leave, QueryStack.leave_fold, h.queries]
  errors := h.errors
  database := h.database

end Walk.Alike

/-! ### A whole walk -/

/-- The sighting with its texts in lower case. -/
def Sighting.fold (x : Sighting) : Sighting :=
  ⟨x.report.fold, Text.lower x.object, Text.lower x.part, x.isQueued⟩

/-- Equal reports are sighted in equal places. -/
theorem Walk.Alike.map_sighting {w w' : Walk} (h : w.Alike w') (isQueued : Bool)
    {rs rs' : List Report} (hrs : rs.map Report.fold = rs'.map Report.fold) :
    (rs.map (w.sighting isQueued)).map Sighting.fold =
      (rs'.map (w'.sighting isQueued)).map Sighting.fold := by
  have hfold : ∀ (w : Walk) (rs : List Report), (rs.map (w.sighting isQueued)).map Sighting.fold =
      (rs.map Report.fold).map
        fun r => ⟨r, w.objects.fold.object, w.objects.fold.part, isQueued⟩ := by
    intro w rs
    simp [Walk.sighting, Sighting.fold, Function.comp_def, ObjectStack.lower_object_fold,
      ObjectStack.lower_part_fold]
  rw [hfold, hfold, hrs, h.objects]

namespace Survey

theorem isOpaque_fold (kind : Kind) : isOpaque kind.fold = isOpaque kind := by cases kind <;> rfl

/-- What a walk sees of a node and below it. -/
theorem ofNode_eq_ite (s : Scope) (above : List Node) (w : Walk) (n : Node) :
    ofNode s above w n =
      let inside := w.enter ⟨n, above⟩
      let below :=
        if isOpaque n.kind then ([], inside) else ofParts s (n :: above) inside n.children
      ((reports s inside ⟨n, above⟩).map (inside.sighting false) ++ below.1 ++
        (closingReports s below.2 n).map (below.2.sighting true), below.2.leave n) := by
  cases n
  rw [ofNode]

variable {s : Scope} {w w' : Walk}

/-- Two walks sight the same up to case and know the same up to case afterwards. -/
def Echoes (r r' : List Sighting × Walk) : Prop :=
  r.1.map Sighting.fold = r'.1.map Sighting.fold ∧ r.2.Alike r'.2

/-- The parts of a node are surveyed one after the other, each from walks that are alike. -/
theorem ofParts_fold {above : List Node} {ns : List Node}
    (hstep : ∀ c ∈ ns, ∀ w w' : Walk, w.Alike w' →
      Echoes (ofNode s.fold (above.map Node.fold) w c.fold) (ofNode s above w' c))
    (h : w.Alike w') :
    Echoes (ofParts s.fold (above.map Node.fold) w (ns.map Node.fold)) (ofParts s above w' ns) := by
  induction ns generalizing w w' with
  | nil => exact ⟨rfl, h⟩
  | cons c rest ih =>
    obtain ⟨hhere, hnext⟩ := hstep c List.mem_cons_self w w' h
    obtain ⟨hrest, hafter⟩ := ih (fun d hd => hstep d (List.mem_cons_of_mem c hd)) hnext
    rw [List.map_cons]
    refine ⟨?_, hafter⟩
    show List.map _ (_ ++ _) = List.map _ (_ ++ _)
    rw [List.map_append, List.map_append, hhere, hrest]

/-- A node is surveyed alike in both trees, by induction on the node. -/
theorem ofNode_fold (h : w.Alike w') (above : List Node) (n : Node) :
    Echoes (ofNode s.fold (above.map Node.fold) w n.fold) (ofNode s above w' n) := by
  induction n using Node.induct generalizing above w w' with
  | node n ih =>
    have hinside := h.enter ⟨n, above⟩
    have hreports : (reports s.fold (w.enter (Site.fold ⟨n, above⟩)) (Site.fold ⟨n, above⟩)).map
        Report.fold = (reports s (w'.enter ⟨n, above⟩) ⟨n, above⟩).map Report.fold :=
      reports_fold hinside
    have hown := hinside.map_sighting false hreports
    have hbelow : Echoes
        (if isOpaque n.kind then ([], w.enter (Site.fold ⟨n, above⟩))
          else ofParts s.fold ((n :: above).map Node.fold) (w.enter (Site.fold ⟨n, above⟩))
            (n.children.map Node.fold))
        (if isOpaque n.kind then ([], w'.enter ⟨n, above⟩)
          else ofParts s (n :: above) (w'.enter ⟨n, above⟩) n.children) := by
      split
      · exact ⟨rfl, hinside⟩
      · exact ofParts_fold (fun c hc w w' hw => ih c hc hw (n :: above)) hinside
    obtain ⟨hsights, hafter⟩ := hbelow
    have hclosing := hafter.map_sighting true (closingReports_fold (s := s) (n := n) hafter)
    rw [ofNode_eq_ite, ofNode_eq_ite, Node.kind_fold, isOpaque_fold, Node.children_fold]
    refine ⟨?_, hafter.leave n⟩
    show List.map _ (_ ++ _ ++ _) = List.map _ (_ ++ _ ++ _)
    rw [List.map_append, List.map_append, List.map_append, List.map_append]
    exact congrArg₂ _ (congrArg₂ _ hown hsights) hclosing

/-- A batch is surveyed alike in every case of its words, and leaves the same database in use. -/
theorem ofBatch_fold {database database' : String}
    (h : Text.lower database = Text.lower database') :
    (ofBatch s.fold database).1.map Sighting.fold = (ofBatch s database').1.map Sighting.fold ∧
      Text.lower (ofBatch s.fold database).2 = Text.lower (ofBatch s database').2 := by
  have hstart : Walk.Alike { database } { database := database' } := ⟨rfl, rfl, rfl, h⟩
  obtain ⟨hsights, hafter⟩ := ofNode_fold (s := s) hstart [] s.tree.root
  exact ⟨hsights, hafter.database⟩

end Survey

end Portability
