import Mathlib
import Portability.Proofs.NameKeys

/-! What a table of symbols holds after any run of declarations and changes of batch: the last
declaration of a kind and name, and of a variable the last one in the batch that is in force. -/
namespace Portability.SymbolTable

/-- What is done to a table. -/
inductive Step where
  | enter (batch : Nat)
  | declare (name : String) (symbol : Symbol)

/-- The table after one step. -/
def apply (t : SymbolTable) : Step → SymbolTable
  | .enter batch => t.enter batch
  | .declare name symbol => t.declare name symbol

/-- The table after steps that begin with an empty one. -/
def run (steps : List Step) : SymbolTable := steps.foldl apply {}

/-- The batch that a step enters. -/
def Step.entered? : Step → Option Nat
  | .enter batch => some batch
  | .declare .. => none

/-- The batch entered last; the first one before any is entered. -/
def batchAfter (steps : List Step) : Nat := (steps.filterMap Step.entered?).getLast?.getD 0

/-- With a batch in force, the step declares a symbol of the kind under the name, in any case.
Variables only count where the batch in force is the one that is asked about. -/
inductive Declares (kind : SymbolKind) (batch : Nat) (name : String) (inForce : Nat)
    (symbol : Symbol) : Step → Prop
  | intro {spelled : String} (hkind : symbol.kind = kind) (hname : Text.same spelled name)
      (hbatch : kind = .localVariable → inForce = batch) :
      Declares kind batch name inForce symbol (.declare spelled symbol)

/-- The step at a place declares the symbol. -/
def DeclaresAt (steps : List Step) (kind : SymbolKind) (batch : Nat) (name : String) (i : Nat)
    (symbol : Symbol) : Prop :=
  ∃ step, steps[i]? = some step ∧ Declares kind batch name (batchAfter (steps.take i)) symbol step

variable {t : SymbolTable} {steps : List Step} {step : Step} {kind : SymbolKind} {batch i : Nat}
  {name : String} {symbol : Symbol}

/-! ### One step -/

theorem run_append_singleton (steps : List Step) (step : Step) :
    run (steps ++ [step]) = (run steps).apply step := by
  simp [run]

theorem batchAfter_append_singleton (steps : List Step) (step : Step) :
    batchAfter (steps ++ [step]) = step.entered?.getD (batchAfter steps) := by
  cases step <;> simp [batchAfter, Step.entered?]

/-- The batch in force is the one entered last. -/
theorem active_run (steps : List Step) : (run steps).active = batchAfter steps := by
  induction steps using List.reverseRecOn with
  | nil => rfl
  | append_singleton steps step ih =>
    rw [run_append_singleton, batchAfter_append_singleton, ← ih]
    cases step with
    | enter => rfl
    | declare name symbol =>
      show ((run steps).declare name symbol).active = (run steps).active
      unfold declare
      split <;> rfl

/-- A step that declares the name decides what is found. -/
theorem find?_apply (h : Declares kind batch name t.active symbol step) :
    ((t.apply step).enter batch).find? kind name = some symbol := by
  obtain ⟨hkind, hname, hbatch⟩ := h
  have hkey := Text.same_iff_upper.mp hname
  subst hkind
  cases symbol with
  | localVariable base => simp [apply, declare, enter, find?, Symbol.kind, hkey, hbatch rfl]
  | _ => simp [apply, declare, enter, find?, Symbol.kind, hkey]

/-- Any other step changes nothing, whatever batch it enters. -/
theorem find?_apply_of_not (h : ∀ symbol, ¬ Declares kind batch name t.active symbol step) :
    ((t.apply step).enter batch).find? kind name = (t.enter batch).find? kind name := by
  cases step with
  | enter => cases kind <;> rfl
  | declare spelled symbol =>
    -- Kind and key decide where the symbol is stored, and for a variable the batch does.
    have hnot : ¬ (symbol.kind = kind ∧ Text.upper name = Text.upper spelled ∧
        (kind = .localVariable → batch = t.active)) := fun ⟨hkind, hname, hbatch⟩ =>
      h symbol ⟨hkind, Text.same_iff_upper.mpr hname.symm, fun hlocal => (hbatch hlocal).symm⟩
    clear h
    cases symbol <;> cases kind <;> simp_all [apply, declare, enter, find?, Symbol.kind]
    exact fun hbatch hname => absurd hbatch (hnot hname)

/-! ### Runs -/

/-- What stands before the last step counts as it did without it. -/
theorem declaresAt_append_of_lt (hi : i < steps.length) :
    DeclaresAt (steps ++ [step]) kind batch name i symbol ↔
      DeclaresAt steps kind batch name i symbol := by
  rw [DeclaresAt, DeclaresAt, List.getElem?_append_left hi, List.take_append_of_le_length hi.le]

theorem declaresAt_append_length :
    DeclaresAt (steps ++ [step]) kind batch name steps.length symbol ↔
      Declares kind batch name (batchAfter steps) symbol step := by
  simp [DeclaresAt]

theorem DeclaresAt.lt_length (h : DeclaresAt steps kind batch name i symbol) :
    i < steps.length := by
  obtain ⟨step, hat, -⟩ := h
  exact (List.getElem?_eq_some_iff.mp hat).1

theorem DeclaresAt.symbol_eq {other : Symbol} (h : DeclaresAt steps kind batch name i symbol)
    (h' : DeclaresAt steps kind batch name i other) : symbol = other := by
  obtain ⟨step, hat, ⟨-, -, -⟩⟩ := h
  obtain ⟨step', hat', ⟨-, -, -⟩⟩ := h'
  have hstep := Option.some.inj (hat.symm.trans hat')
  exact (Step.declare.inj hstep).2

/-- The answer to a question about a name: the symbol of the last step that declares it. -/
inductive Answers (steps : List Step) (kind : SymbolKind) (batch : Nat) (name : String) :
    Option Symbol → Prop
  | found {i : Nat} {symbol : Symbol} (hat : DeclaresAt steps kind batch name i symbol)
      (hlast : ∀ j other, DeclaresAt steps kind batch name j other → j ≤ i) :
      Answers steps kind batch name (some symbol)
  | missing (h : ∀ i symbol, ¬ DeclaresAt steps kind batch name i symbol) :
      Answers steps kind batch name none

/-- One more step answers itself, or leaves the answer as it is. -/
theorem Answers.append_singleton {answer : Option Symbol}
    (h : Answers steps kind batch name answer)
    (hnot : ∀ symbol, ¬ Declares kind batch name (batchAfter steps) symbol step) :
    Answers (steps ++ [step]) kind batch name answer := by
  have hold : ∀ j other, DeclaresAt (steps ++ [step]) kind batch name j other →
      DeclaresAt steps kind batch name j other := by
    intro j other hj
    have hlt := hj.lt_length
    rw [List.length_append, List.length_singleton] at hlt
    rcases Nat.lt_succ_iff_lt_or_eq.mp hlt with hlt | rfl
    · exact (declaresAt_append_of_lt hlt).mp hj
    · exact absurd (declaresAt_append_length.mp hj) (hnot other)
  cases h with
  | found hat hlast =>
    refine .found ((declaresAt_append_of_lt hat.lt_length).mpr hat) ?_
    exact fun j other hj => hlast j other (hold j other hj)
  | missing hnone => exact .missing fun j other hj => hnone j other (hold j other hj)

theorem answers_find? (steps : List Step) (kind : SymbolKind) (batch : Nat) (name : String) :
    Answers steps kind batch name (((run steps).enter batch).find? kind name) := by
  induction steps using List.reverseRecOn with
  | nil =>
    have hnone : ((run []).enter batch).find? kind name = none := by cases kind <;> rfl
    rw [hnone]
    refine .missing fun i symbol h => ?_
    simpa using h.lt_length
  | append_singleton steps step ih =>
    rw [run_append_singleton]
    by_cases hdeclares : ∃ symbol, Declares kind batch name (batchAfter steps) symbol step
    · obtain ⟨symbol, hsymbol⟩ := hdeclares
      rw [find?_apply ((active_run steps).symm ▸ hsymbol)]
      refine .found (declaresAt_append_length.mpr hsymbol) fun j other hj => ?_
      have hlt := hj.lt_length
      rw [List.length_append, List.length_singleton] at hlt
      omega
    · have hnot := not_exists.mp hdeclares
      rw [find?_apply_of_not ((active_run steps).symm ▸ hnot)]
      exact ih.append_singleton hnot

theorem find?_run_eq_some_iff : ((run steps).enter batch).find? kind name = some symbol ↔
    ∃ i, DeclaresAt steps kind batch name i symbol ∧
      ∀ j other, DeclaresAt steps kind batch name j other → j ≤ i := by
  have hanswer := answers_find? steps kind batch name
  constructor
  · intro h
    rw [h] at hanswer
    cases hanswer with
    | found hat hlast => exact ⟨_, hat, hlast⟩
  · rintro ⟨i, hat, hlast⟩
    generalize ((run steps).enter batch).find? kind name = answer at hanswer
    cases hanswer with
    | found hat' hlast' =>
      have hsame := Nat.le_antisymm (hlast _ _ hat') (hlast' _ _ hat)
      rw [hat'.symbol_eq (hsame ▸ hat)]
    | missing hnone => exact absurd hat (hnone i symbol)

theorem find?_run_eq_none_iff : ((run steps).enter batch).find? kind name = none ↔
    ∀ i symbol, ¬ DeclaresAt steps kind batch name i symbol := by
  have hanswer := answers_find? steps kind batch name
  constructor
  · intro h
    rw [h] at hanswer
    cases hanswer with
    | missing hnone => exact hnone
  · intro hnone
    generalize ((run steps).enter batch).find? kind name = answer at hanswer
    cases hanswer with
    | found hat => exact absurd hat (hnone _ _)
    | missing => rfl

/-! ### Scopes in a list -/

/-- A table that keeps the variables of each batch in a scope of its own. There are as many scopes
as the batches entered so far need. -/
structure Scoped where
  unit : SymbolKind → String → Option Symbol := fun _ _ => none
  scopes : List (String → Option Symbol) := []
  active : Nat := 0

namespace Scoped

def enter (t : Scoped) (batch : Nat) : Scoped where
  unit := t.unit
  scopes := t.scopes ++ List.replicate (batch + 1 - t.scopes.length) fun _ => none
  active := batch

def declare (t : Scoped) (name : String) (symbol : Symbol) : Scoped :=
  let key := Text.upper name
  match symbol.kind with
  | .localVariable =>
    let t := t.enter t.active
    { t with
      scopes := t.scopes.modify t.active fun scope other =>
        if other = key then some symbol else scope other }
  | kind =>
    { t with
      unit := fun k other => if k = kind ∧ other = key then some symbol else t.unit k other }

def apply (t : Scoped) : Step → Scoped
  | .enter batch => t.enter batch
  | .declare name symbol => t.declare name symbol

def run (steps : List Step) : Scoped := steps.foldl apply {}

/-- The last declaration of a kind and name. -/
def find? (t : Scoped) (kind : SymbolKind) (name : String) : Option Symbol :=
  match kind with
  | .localVariable => t.scopes[t.active]?.bind fun scope => scope (Text.upper name)
  | kind => t.unit kind (Text.upper name)

/-- What the scopes hold, by batch and key. -/
def table (t : Scoped) : SymbolTable where
  unit := t.unit
  locals := fun batch key => t.scopes[batch]?.bind fun scope => scope key
  active := t.active

/-- A new scope holds nothing, and a scope once made is kept. -/
theorem table_enter (t : Scoped) (batch : Nat) : (t.enter batch).table = t.table.enter batch := by
  have hlocals : (t.enter batch).table.locals = t.table.locals := by
    funext other key
    simp only [table, enter]
    rcases Nat.lt_or_ge other t.scopes.length with hlt | hge
    · rw [List.getElem?_append_left hlt]
    · rw [List.getElem?_append_right hge, List.getElem?_eq_none hge, List.getElem?_replicate]
      split <;> rfl
  rw [SymbolTable.enter, ← hlocals]
  rfl

/-- The scope of the batch in force is there for its variables. -/
theorem table_declare (t : Scoped) (name : String) (symbol : Symbol) :
    (t.declare name symbol).table = t.table.declare name symbol := by
  cases symbol with
  | localVariable base =>
    have hscope : t.active < (t.enter t.active).scopes.length := by
      simp only [enter, List.length_append, List.length_replicate]
      omega
    have hlocals : (t.declare name (.localVariable base)).table.locals =
        (t.table.declare name (.localVariable base)).locals := by
      funext batch key
      have hold : (t.enter t.active).table.locals batch key = t.table.locals batch key := by
        rw [table_enter]
        rfl
      simp only [table, declare, Symbol.kind, SymbolTable.declare, List.getElem?_modify] at hold ⊢
      rw [← hold]
      by_cases hbatch : batch = t.active
      · subst hbatch
        have hactive : (t.enter t.active).active = t.active := rfl
        rw [hactive, List.getElem?_eq_getElem hscope]
        by_cases hkey : key = Text.upper name
        · simp [hkey]
        · simp [hkey]
      · have hactive : (t.enter t.active).active ≠ batch := fun h => hbatch h.symm
        simp [hactive, hbatch]
    have hunit : (t.declare name (.localVariable base)).table =
        { t.table with locals := (t.declare name (.localVariable base)).table.locals } := rfl
    rw [hunit, hlocals]
    rfl
  | _ => rfl

theorem table_run (steps : List Step) : (run steps).table = SymbolTable.run steps := by
  have hstep : ∀ (t : Scoped) (step : Step), (t.apply step).table = t.table.apply step := by
    rintro t (batch | ⟨name, symbol⟩)
    · exact table_enter t batch
    · exact table_declare t name symbol
  exact (List.foldl_hom table fun t step => (hstep t step).symm).symm

theorem find?_table (t : Scoped) (kind : SymbolKind) (name : String) :
    t.table.find? kind name = t.find? kind name := by
  cases kind <;> rfl

end Scoped

/-- After any steps the last declaration of the kind and name is found, of a variable the last one
in the batch in force, and nothing where there is none. Entering batches, whatever their order,
loses and mixes nothing; a batch finds what it would find if it were entered next; and scopes in a
list answer alike. -/
theorem find?_run (steps : List Step) (kind : SymbolKind) (name : String) :
    (∀ symbol, (run steps).find? kind name = some symbol ↔
      ∃ i, DeclaresAt steps kind (batchAfter steps) name i symbol ∧
        ∀ j other, DeclaresAt steps kind (batchAfter steps) name j other → j ≤ i) ∧
    ((run steps).find? kind name = none ↔
      ∀ i symbol, ¬ DeclaresAt steps kind (batchAfter steps) name i symbol) ∧
    (∀ (batches : List Nat) (batch : Nat),
      (run (steps ++ batches.map .enter ++ [.enter batch])).find? kind name =
        (run (steps ++ [.enter batch])).find? kind name) ∧
    (∀ batch, ((run steps).forBatch batch).find? kind name =
      (run (steps ++ [.enter batch])).find? kind name) ∧
    (Scoped.run steps).find? kind name = (run steps).find? kind name := by
  have henter : (run steps).enter (batchAfter steps) = run steps := by
    rw [← active_run]
    rfl
  refine ⟨fun symbol => ?_, ?_, fun batches batch => ?_, fun batch => ?_, ?_⟩
  · rw [← find?_run_eq_some_iff, henter]
  · rw [← find?_run_eq_none_iff, henter]
  · rw [run_append_singleton, run_append_singleton]
    induction batches using List.reverseRecOn with
    | nil => simp
    | append_singleton batches last ih =>
      rw [List.map_append, List.map_singleton, ← List.append_assoc, run_append_singleton]
      exact ih
  · rw [run_append_singleton]
    cases kind <;> rfl
  · rw [← Scoped.find?_table, Scoped.table_run]

/-- The variable of the first batch is there again when it is entered again. -/
example : (run [.declare "@a" (.localVariable "DATE"), .enter 5,
    .declare "@A" (.localVariable "INT"), .enter 0]).find? .localVariable "@a" =
      some (.localVariable "DATE") := by decide +kernel

end Portability.SymbolTable
