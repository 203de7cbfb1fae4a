import Mathlib
import Portability.Proofs.BatchSplit
import Portability.Proofs.Coverage

/-! Batches do not meddle with each other. What a batch sees of the others is the names that hold
for the whole script, the setting `QUOTED_IDENTIFIER` at its start and the database in use. -/
namespace Portability

namespace Declarations

variable {schema : String} {d d' : Declarations} {kind : SymbolKind} {key : String}

/-- What the variables of the batch that is being read stand for. -/
def ownVariables (d : Declarations) : String → Option Symbol := d.symbols.locals d.symbols.active

/-- The variables that a batch declares, read by itself. -/
def localsOf (schema : String) (t : Tree) : String → Option Symbol :=
  (addBatch schema { quoted := { initial := true } } 0 t).ownVariables

@[simp] theorem active_declare (t : SymbolTable) (name : String) (symbol : Symbol) :
    (t.declare name symbol).active = t.active := by
  unfold SymbolTable.declare
  cases symbol <;> rfl

theorem locals_declare_of_ne {t : SymbolTable} {name : String} {symbol : Symbol} {batch : Nat}
    (h : batch ≠ t.active) : (t.declare name symbol).locals batch = t.locals batch := by
  unfold SymbolTable.declare
  cases symbol with
  | localVariable base => simp [Symbol.kind, h]
  | _ => rfl

theorem active_add (site : Site) : (add schema d site).symbols.active = d.symbols.active := by
  unfold add
  split
  · simp
  · split <;> rfl

theorem locals_add_of_ne {batch : Nat} (site : Site) (h : batch ≠ d.symbols.active) :
    (add schema d site).symbols.locals batch = d.symbols.locals batch := by
  unfold add
  split
  · exact locals_declare_of_ne h
  · split <;> rfl

/-- A node changes the variables of its batch in a way that depends on nothing else. -/
theorem ownVariables_add (site : Site) (h : d.ownVariables = d'.ownVariables) :
    (add schema d site).ownVariables = (add schema d' site).ownVariables := by
  unfold ownVariables at *
  rw [active_add, active_add]
  unfold add
  cases symbol? schema site.node with
  | none => cases quoted? site <;> exact h
  | some declared =>
    obtain ⟨name, symbol⟩ := declared
    unfold SymbolTable.declare
    cases symbol with
    | localVariable base => simp [Symbol.kind, h]
    | _ => exact h

theorem active_foldl_add (sites : List Site) :
    (sites.foldl (add schema) d).symbols.active = d.symbols.active := by
  induction sites generalizing d with
  | nil => rfl
  | cons site rest ih => rw [List.foldl_cons, ih, active_add]

theorem locals_foldl_add_of_ne {batch : Nat} (sites : List Site) (h : batch ≠ d.symbols.active) :
    (sites.foldl (add schema) d).symbols.locals batch = d.symbols.locals batch := by
  induction sites generalizing d with
  | nil => rfl
  | cons site rest ih =>
    rw [List.foldl_cons, ih (by rwa [active_add]), locals_add_of_ne site h]

theorem ownVariables_foldl_add (sites : List Site) (h : d.ownVariables = d'.ownVariables) :
    (sites.foldl (add schema) d).ownVariables = (sites.foldl (add schema) d').ownVariables := by
  induction sites generalizing d d' with
  | nil => exact h
  | cons site rest ih => exact ih (ownVariables_add site h)

theorem locals_addBatch_of_ne {index batch : Nat} (t : Tree) (h : batch ≠ index) :
    (addBatch schema d index t).symbols.locals batch = d.symbols.locals batch :=
  locals_foldl_add_of_ne t.sites h

/-- A batch that has no variables yet gets its own and no others. -/
theorem locals_addBatch {index : Nat} (t : Tree) (h : d.symbols.locals index = fun _ => none) :
    (addBatch schema d index t).symbols.locals index = localsOf schema t := by
  have hactive : (addBatch schema d index t).symbols.active = index := active_foldl_add t.sites
  have hown : (addBatch schema d index t).ownVariables = localsOf schema t :=
    ownVariables_foldl_add t.sites h
  rwa [ownVariables, hactive] at hown

/-- Of batches that are read one after the other, each keeps the variables it declared. -/
theorem locals_foldl_addBatch (trees : List Tree) {first : Nat}
    (hfresh : ∀ batch, first ≤ batch → d.symbols.locals batch = fun _ => none) :
    let done := (trees.zipIdx first).foldl (fun d (t, i) => addBatch schema d i t) d
    (∀ batch, batch < first → done.symbols.locals batch = d.symbols.locals batch) ∧
      ∀ i t, trees[i]? = some t → done.symbols.locals (first + i) = localsOf schema t := by
  induction trees generalizing d first with
  | nil => simp
  | cons t rest ih =>
    rw [List.zipIdx_cons, List.foldl_cons]
    have hrest : ∀ batch, first + 1 ≤ batch →
        (addBatch schema d first t).symbols.locals batch = fun _ => none := by
      intro batch hbatch
      rw [locals_addBatch_of_ne t (by omega)]
      exact hfresh batch (by omega)
    obtain ⟨hbefore, hafter⟩ := ih hrest
    refine ⟨fun batch hbatch => ?_, fun i u hi => ?_⟩
    · rw [hbefore batch (by omega), locals_addBatch_of_ne t (by omega)]
    · cases i with
      | zero =>
        obtain rfl : t = u := by simpa using hi
        exact (hbefore first (by omega)).trans (locals_addBatch t (hfresh first (by omega)))
      | succ i =>
        rw [show first + (i + 1) = first + 1 + i by omega]
        exact hafter i u (by simpa using hi)

/-- The variables of a batch are those it declares itself. -/
theorem locals_ofTrees {isOn : Bool} {trees : List Tree} {i : Nat} {t : Tree}
    (h : trees[i]? = some t) :
    (ofTrees schema isOn trees).symbols.locals i = localsOf schema t := by
  have hfresh : ∀ batch, 0 ≤ batch →
      ({ quoted := { initial := isOn } } : Declarations).symbols.locals batch = fun _ => none :=
    fun _ _ => rfl
  have hown : (ofTrees schema isOn trees).symbols.locals (0 + i) = localsOf schema t :=
    (locals_foldl_addBatch trees hfresh).2 i t h
  rwa [Nat.zero_add] at hown

/-! ### The names that hold for the whole script -/

/-- What a node makes of a name that holds for the whole script. -/
def nameAt? (schema : String) (kind : SymbolKind) (key : String) (site : Site) : Option Symbol :=
  match symbol? schema site.node with
  | some (name, symbol) =>
    if symbol.kind ≠ .localVariable ∧ kind = symbol.kind ∧ key = Text.upper name then some symbol
    else none
  | none => none

/-- What a batch makes of a name that holds for the whole script. The last declaration counts. -/
def nameIn? (schema : String) (kind : SymbolKind) (key : String) (t : Tree) : Option Symbol :=
  t.sites.reverse.findSome? (nameAt? schema kind key)

theorem unit_add (site : Site) :
    (add schema d site).symbols.unit kind key =
      (nameAt? schema kind key site).or (d.symbols.unit kind key) := by
  unfold add nameAt?
  cases symbol? schema site.node with
  | none => cases quoted? site <;> rfl
  | some declared =>
    obtain ⟨name, symbol⟩ := declared
    unfold SymbolTable.declare
    cases symbol with
    | localVariable base => rfl
    | _ =>
      simp only [Symbol.kind, ne_eq, reduceCtorEq, not_false_eq_true, true_and]
      split <;> rfl

theorem unit_foldl_add (sites : List Site) :
    (sites.foldl (add schema) d).symbols.unit kind key =
      (sites.reverse.findSome? (nameAt? schema kind key)).or (d.symbols.unit kind key) := by
  induction sites generalizing d with
  | nil => rfl
  | cons site rest ih =>
    rw [List.foldl_cons, ih, unit_add, List.reverse_cons, List.findSome?_append, Option.or_assoc]
    simp

theorem unit_ofTrees {isOn : Bool} (trees : List Tree) :
    (ofTrees schema isOn trees).symbols.unit kind key =
      trees.foldl (fun known t => (nameIn? schema kind key t).or known) none := by
  have hrun : ∀ (trees : List Tree) (first : Nat) (d : Declarations),
      ((trees.zipIdx first).foldl (fun d p => addBatch schema d p.2 p.1) d).symbols.unit kind key =
        trees.foldl (fun known t => (nameIn? schema kind key t).or known)
          (d.symbols.unit kind key) := by
    intro trees
    induction trees with
    | nil => exact fun _ _ => rfl
    | cons t rest ih =>
      intro first d
      rw [List.zipIdx_cons, List.foldl_cons, ih, List.foldl_cons]
      have hstep : (addBatch schema d first t).symbols.unit kind key =
          (nameIn? schema kind key t).or (d.symbols.unit kind key) := unit_foldl_add t.sites
      rw [hstep]
  exact hrun trees 0 _

/-- Variables are no names that hold for the whole script. -/
theorem nameIn?_eq_none_of_local {t : Tree}
    (h : ∀ site ∈ t.sites, ∀ d ∈ symbol? schema site.node, d.2.kind = .localVariable) :
    nameIn? schema kind key t = none := by
  refine List.findSome?_eq_none_iff.mpr fun site hsite => ?_
  unfold nameAt?
  split
  · next name symbol hsymbol =>
    rw [if_neg fun hkept => hkept.1 (h site (List.mem_reverse.mp hsite) _ hsymbol)]
  · rfl

end Declarations

/-- All that the outcome of a batch depends on. -/
structure BatchContext where
  batch : Batch
  matrix : Matrix
  version : Version
  schema : String
  overrides : Overrides
  /-- The names that hold for the whole script, those of later batches included. -/
  names : SymbolKind → String → Option Symbol
  /-- The setting at the start of the batch. -/
  quotedIdentifier : Bool
  /-- The database in use when the batch is reached. -/
  database : String

namespace BatchContext

/-- What the walk over the batch knows from the start. Its variables are those of its own tree. -/
def scope (c : BatchContext) (limits : NameLimits) (tree : Tree) : Scope where
  matrix := c.matrix
  schema := c.schema
  limits := limits
  symbols := { unit := c.names, locals := fun _ => Declarations.localsOf c.schema tree }
  quotedIdentifier := c.quotedIdentifier
  tree := tree

/-- The outcome of the batch by itself; nothing if its tree would never be finished. -/
def outcome? (c : BatchContext) : Option (Except Error BatchOutcome) :=
  (Tree.ofText? c.batch.content).map fun tree => do
    let limits ← NameLimits.ofMatrix c.matrix
    let judge : Judge := ⟨c.matrix, c.version, c.overrides⟩
    judge.outcome c.batch.place
      (Analysis.surveyBatch (c.scope limits tree) c.database c.batch).1

end BatchContext

namespace Analysis

variable {m m' : Matrix} {settings settings' : Settings} {script script' : String}

/-- The context of a batch in a script whose batches are parsed. -/
def contextAt? (m : Matrix) (settings : Settings) (version : Version) (batches : List ParsedBatch)
    (i : Nat) : Option BatchContext :=
  let declarations :=
    Declarations.ofTrees settings.schema settings.quotedIdentifier (batches.map (·.tree))
  batches[i]?.map fun p =>
    { batch := p.batch
      matrix := m
      version
      schema := settings.schema
      overrides := settings.overrides
      names := declarations.symbols.unit
      quotedIdentifier := declarations.quoted.startOf i
      database :=
        Survey.databaseAfter ((batches.take i).flatMap (·.tree.sites)) settings.database }

/-- The context of a batch in a script; nothing if there is no such batch. -/
def context? (m : Matrix) (settings : Settings) (script : String) (i : Nat) :
    Option BatchContext :=
  match m.resolveVersion settings.version with
  | .error _ => none
  | .ok version => (parse? script).bind (contextAt? m settings version · i)

/-- What a batch is walked with is what its context says. -/
theorem scope_eq_of_contextAt? {version : Version} {batches : List ParsedBatch} {i : Nat}
    {p : ParsedBatch} {c : BatchContext} {limits : NameLimits} (hp : batches[i]? = some p)
    (hc : contextAt? m settings version batches i = some c) :
    scope m limits settings
        (Declarations.ofTrees settings.schema settings.quotedIdentifier (batches.map (·.tree)))
        i p.tree = c.scope limits p.tree := by
  have htree : (batches.map (·.tree))[i]? = some p.tree := by simp [hp]
  simp only [contextAt?, hp, Option.map_some, Option.some.injEq] at hc
  subst hc
  simp only [scope, BatchContext.scope, SymbolTable.forBatch, Declarations.locals_ofTrees htree,
    QuotedIdentifier.isOn_resume]

/-- The verdicts on a batch among others are those on the batch by itself. -/
theorem outcome?_of_contextAt? {version : Version} {batches : List ParsedBatch}
    {limits : NameLimits}
    (hparsed : ∀ p ∈ batches, Tree.ofText? p.batch.content = some p.tree)
    (hlimits : NameLimits.ofMatrix m = .ok limits) (i : Nat) :
    (contextAt? m settings version batches i).map BatchContext.outcome? =
      (survey m limits settings batches)[i]?.map fun (place, sightings) =>
        some (Judge.outcome ⟨m, version, settings.overrides⟩ place sightings) := by
  have hscope : ∀ d i t, (scope m limits settings d i t).tree = t := fun _ _ _ => rfl
  rw [survey, getElem?_surveyFrom (hscope _) hparsed, Nat.zero_add]
  cases hp : batches[i]? with
  | none => simp [contextAt?, hp]
  | some p =>
    obtain ⟨c, hc⟩ : ∃ c, contextAt? m settings version batches i = some c := by
      simp [contextAt?, hp]
    have htree := hparsed p (List.mem_of_getElem? hp)
    rw [Option.map_some, Option.map_some, scope_eq_of_contextAt? hp hc, hc, Option.map_some]
    simp only [contextAt?, hp, Option.map_some, Option.some.injEq] at hc
    subst hc
    simp only [BatchContext.outcome?, htree, hlimits, Option.map_some, bind, Except.bind]

theorem outcomes_ofBatches {version : Version} {batches : List ParsedBatch} {a : Analysis}
    (hparsed : ∀ p ∈ batches, Tree.ofText? p.batch.content = some p.tree)
    (h : ofBatches m settings version batches = .ok a) (i : Nat) :
    a.outcomes[i]?.map (fun o => some (.ok o)) =
      (contextAt? m settings version batches i).map BatchContext.outcome? := by
  cases hlimits : NameLimits.ofMatrix m with
  | error e => simp [ofBatches, hlimits, bind, Except.bind] at h
  | ok limits =>
    rw [ofBatches_eq_map hlimits] at h
    cases houtcomes : Judge.outcomes ⟨m, version, settings.overrides⟩
        (survey m limits settings batches) with
    | error e =>
      rw [houtcomes] at h
      cases h
    | ok outcomes =>
      rw [houtcomes] at h
      cases h
      rw [outcome?_of_contextAt? hparsed hlimits]
      simp only [← List.getElem?_map]
      congr 1
      exact map_of_mapM (fun _ _ h => congrArg some h.symm) houtcomes

/-- Each outcome of an analysis is that of its batch by itself, in its context. -/
theorem outcomes_ofScript? {a : Analysis} (h : ofScript? m settings script = some (.ok a))
    (i : Nat) :
    a.outcomes[i]?.map (fun o => some (.ok o)) =
      (context? m settings script i).map BatchContext.outcome? := by
  unfold ofScript? at h
  unfold context?
  cases hversion : m.resolveVersion settings.version with
  | error e => simp [hversion] at h
  | ok version =>
    rw [hversion] at h
    obtain ⟨batches, hparse, hbatches⟩ := Option.map_eq_some_iff.mp h
    rw [hparse]
    exact outcomes_ofBatches (parse?_eq_some hparse).2 hbatches i

/-- There is a context for each batch of a script that is analysed, and for nothing else. -/
theorem batch_context? {a : Analysis} (h : ofScript? m settings script = some (.ok a)) (i : Nat) :
    (context? m settings script i).map (·.batch) = (Batch.split script)[i]? := by
  unfold ofScript? at h
  unfold context?
  cases hversion : m.resolveVersion settings.version with
  | error e => simp [hversion] at h
  | ok version =>
    rw [hversion] at h
    obtain ⟨batches, hparse, -⟩ := Option.map_eq_some_iff.mp h
    rw [hparse, ← (parse?_eq_some hparse).1, List.getElem?_map]
    simp [contextAt?, Function.comp_def]

theorem matrix_overrides_context? {i : Nat} {c : BatchContext}
    (h : context? m settings script i = some c) :
    c.matrix = m ∧ c.overrides = settings.overrides := by
  unfold context? at h
  split at h
  · cases h
  · obtain ⟨batches, -, hc⟩ := Option.bind_eq_some_iff.mp h
    obtain ⟨p, -, rfl⟩ := Option.map_eq_some_iff.mp hc
    exact ⟨rfl, rfl⟩

/-- An outcome belongs to the batch in its place, and its findings are the verdicts on what the
survey of that batch sights. -/
theorem exists_survey_of_outcome {a : Analysis} (h : ofScript? m settings script = some (.ok a))
    {i : Nat} {o : BatchOutcome} (ho : a.outcomes[i]? = some o) :
    ∃ b s database version, (Batch.split script)[i]? = some b ∧
      Tree.ofText? b.content = some s.tree ∧
      Judge.findings ⟨m, version, settings.overrides⟩ b.place (surveyBatch s database b).1 =
        .ok o.findings := by
  have hcontext := outcomes_ofScript? h i
  rw [ho, Option.map_some] at hcontext
  obtain ⟨c, hc, halone⟩ := Option.map_eq_some_iff.mp hcontext.symm
  obtain ⟨hmatrix, hoverrides⟩ := matrix_overrides_context? hc
  obtain ⟨tree, htree, houtcome⟩ := Option.map_eq_some_iff.mp halone
  obtain ⟨limits, -, houtcome⟩ := exists_of_bind_eq_ok houtcome
  obtain ⟨found, hfound, hmake⟩ := exists_of_bind_eq_ok houtcome
  cases hmake
  rw [hmatrix, hoverrides] at hfound
  refine ⟨c.batch, c.scope limits tree, c.database, c.version, ?_, htree, hfound⟩
  rw [← batch_context? h, hc, Option.map_some]

/-- Batches are isolated. The outcome of a batch is that of the batch by itself, in its context; and
where the contexts of two batches are the same, so are their outcomes, whatever else stands in
their scripts. -/
theorem outcomes_isolated {a a' : Analysis} (h : ofScript? m settings script = some (.ok a))
    (h' : ofScript? m' settings' script' = some (.ok a')) :
    (∀ i b, (Batch.split script)[i]? = some b →
      ∃ c o, context? m settings script i = some c ∧ c.batch = b ∧ a.outcomes[i]? = some o ∧
        c.outcome? = some (.ok o)) ∧
    ∀ i j, context? m settings script i = context? m' settings' script' j →
      a.outcomes[i]? = a'.outcomes[j]? := by
  constructor
  · intro i b hb
    rw [← batch_context? h, Option.map_eq_some_iff] at hb
    obtain ⟨c, hc, hbatch⟩ := hb
    have halone := outcomes_ofScript? h i
    rw [hc, Option.map_some, Option.map_eq_some_iff] at halone
    obtain ⟨o, ho, hout⟩ := halone
    exact ⟨c, o, hc, hbatch, ho, hout.symm⟩
  · intro i j hsame
    have hi := outcomes_ofScript? h i
    rw [hsame, ← outcomes_ofScript? h' j] at hi
    have hinj : Function.Injective fun o : BatchOutcome =>
        (some (.ok o) : Option (Except Error BatchOutcome)) := by
      intro o o' heq
      simpa using heq
    exact Option.map_injective hinj hi

/-- What the second batch of a script learns from a first one that declares no names. -/
theorem context?_second {content : String} {b : Batch}
    (hsplit : Batch.split script = [⟨1, content, 1, none, []⟩, b])
    (hfacts : ((Tree.ofApart? content).bind fun t => (Tree.ofApart? b.content).map fun t' =>
      ([t, t'].all (·.sites.all fun site => !Survey.atCursor site.kind &&
          (Declarations.symbol? "dbo" site.node).all (·.2.kind == .localVariable)),
        (Declarations.ofTrees "dbo" true [t, t']).quoted.startOf 1,
        Survey.databaseAfter t.sites "")) = some (true, true, "")) :
    (∃ a, ofScript? .default {} script = some (.ok a)) ∧
      context? .default {} script 1 =
        some ⟨b, .default, Matrix.Default.v200, "dbo", {}, fun _ _ => none, true, ""⟩ := by
  have hversion : Matrix.default.resolveVersion ({} : Settings).version = .ok Matrix.Default.v200 :=
    rfl
  obtain ⟨t, t', ht, ht', hfacts⟩ := Tree.exists_ofText?_pair_of_apart hfacts
  simp only [Prod.mk.injEq, List.all_eq_true, Bool.and_eq_true, Bool.not_eq_true',
    Option.all_eq_true, beq_iff_eq] at hfacts
  obtain ⟨hsites, hquoted, hdatabase⟩ := hfacts
  have hparse : parse? script = some [⟨⟨1, content, 1, none, []⟩, t⟩, ⟨b, t'⟩] := by
    simp [parse?, hsplit, ht, ht']
  have hunit : (Declarations.ofTrees "dbo" true [t, t']).symbols.unit = fun _ _ => none := by
    funext kind key
    have hnone : ∀ tree ∈ [t, t'], Declarations.nameIn? "dbo" kind key tree = none :=
      fun tree htree => Declarations.nameIn?_eq_none_of_local fun site hsite =>
        (hsites tree htree site hsite).2
    simp [Declarations.unit_ofTrees, hnone]
  refine ⟨exists_ofScript?_default hversion hparse ?_, ?_⟩
  · rintro ⟨p, hp, site, hsite, hcursor⟩
    have htree : p.tree ∈ [t, t'] := List.mem_map_of_mem (f := ParsedBatch.tree) hp
    rw [(hsites p.tree htree site hsite).1] at hcursor
    cases hcursor
  · simp only [context?, hversion, hparse, Option.bind_some, contextAt?]
    simpa [hunit, hquoted] using hdatabase

/-- A batch has the same outcome after one that stores an error code in a variable as after a
comment: the condition on that variable is not one on an error code in the batch. -/
theorem outcomes_isolated_variables :
    ∃ a a' o,
      ofScript? .default {}
        "DECLARE @n INT = @@ERROR\nGO\nDECLARE @e INT = @@ERROR IF @e = 5 OR @n = 6 SELECT @n" =
          some (.ok a) ∧
      ofScript? .default {}
        "-- n\nGO\nDECLARE @e INT = @@ERROR IF @e = 5 OR @n = 6 SELECT @n" = some (.ok a') ∧
      a.outcomes[1]? = some o ∧ a'.outcomes[1]? = some o := by
  have hsplit : Batch.split
      "DECLARE @n INT = @@ERROR\nGO\nDECLARE @e INT = @@ERROR IF @e = 5 OR @n = 6 SELECT @n" =
      [⟨1, "DECLARE @n INT = @@ERROR\n", 1, none, []⟩,
        ⟨2, "DECLARE @e INT = @@ERROR IF @e = 5 OR @n = 6 SELECT @n\n", 3, none, []⟩] := by
    refine Batch.split_pair (?_ : _ = ["DECLARE @n INT = @@ERROR", "GO",
      "DECLARE @e INT = @@ERROR IF @e = 5 OR @n = 6 SELECT @n"]) ?_ ?_ ?_ ?_ ?_ ?_ ?_
    all_goals decide +kernel
  have hsplit' : Batch.split
      "-- n\nGO\nDECLARE @e INT = @@ERROR IF @e = 5 OR @n = 6 SELECT @n" =
      [⟨1, "-- n\n", 1, none, []⟩,
        ⟨2, "DECLARE @e INT = @@ERROR IF @e = 5 OR @n = 6 SELECT @n\n", 3, none, []⟩] := by
    refine Batch.split_pair (?_ : _ = ["-- n", "GO",
      "DECLARE @e INT = @@ERROR IF @e = 5 OR @n = 6 SELECT @n"]) ?_ ?_ ?_ ?_ ?_ ?_ ?_
    all_goals decide +kernel
  obtain ⟨⟨a, ha⟩, hcontext⟩ := context?_second hsplit (by decide +kernel)
  obtain ⟨⟨a', ha'⟩, hcontext'⟩ := context?_second hsplit' (by decide +kernel)
  obtain ⟨halone, hsame⟩ := outcomes_isolated ha ha'
  obtain ⟨c, o, -, -, ho, -⟩ := halone 1 _ (congrArg (·[1]?) hsplit)
  exact ⟨a, a', o, ha, ha', ho, hsame 1 1 (hcontext.trans hcontext'.symm) ▸ ho⟩

end Analysis

end Portability
