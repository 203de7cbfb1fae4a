import Mathlib
import Portability.Proofs.QuotedIdentifier
import Portability.Proofs.Verdicts

/-! The order of batches. Names hold for the whole script wherever they are declared, so batches
that neither change the database or the setting `QUOTED_IDENTIFIER` nor contradict each other can
trade places. -/
namespace Portability

/-- The statement that changes the database in use. -/
def Kind.isUse : Kind → Bool
  | .use _ => true
  | _ => false

theorem Survey.databaseAfter_eq {sites : List Site} (h : ∀ site ∈ sites, site.kind.isUse = false)
    (database : String) : databaseAfter sites database = database := by
  induction sites with
  | nil => rfl
  | cons site rest ih =>
    have hsame : site.kind.databaseAfter database = database := by
      have hkind := h site List.mem_cons_self
      unfold Kind.databaseAfter
      split
      · simp_all [Kind.isUse]
      · rfl
    rw [databaseAfter, List.foldl_cons, hsame]
    exact ih fun s hs => h s (List.mem_cons_of_mem site hs)

namespace Declarations

variable {schema : String} {d : Declarations} {kind : SymbolKind} {key : String}

/-- No declarations in two trees give different symbols to one kind and name. The variables of
different batches have nothing to do with each other. -/
def Agree (schema : String) (t t' : Tree) : Prop :=
  ∀ d ∈ t.sites.filterMap (symbol? schema ·.node),
    ∀ d' ∈ t'.sites.filterMap (symbol? schema ·.node),
      d.2.kind ≠ .localVariable → d.2.kind = d'.2.kind → Text.upper d.1 = Text.upper d'.1 →
        d.2 = d'.2

instance (schema : String) (t t' : Tree) : Decidable (Agree schema t t') :=
  inferInstanceAs (Decidable (∀ d ∈ _, ∀ d' ∈ _, _ → _ → _ → _))

theorem exists_of_nameIn?_eq_some {t : Tree} {symbol : Symbol}
    (h : nameIn? schema kind key t = some symbol) :
    ∃ name, (name, symbol) ∈ t.sites.filterMap (symbol? schema ·.node) ∧
      symbol.kind ≠ .localVariable ∧ kind = symbol.kind ∧ key = Text.upper name := by
  obtain ⟨site, hsite, hname⟩ := List.exists_of_findSome?_eq_some h
  unfold nameAt? at hname
  split at hname
  · rename_i name declared hdeclared
    obtain ⟨hkinds, hsymbol⟩ := Option.ite_none_right_eq_some.mp hname
    cases hsymbol
    exact ⟨name, List.mem_filterMap.mpr ⟨site, List.mem_reverse.mp hsite, hdeclared⟩, hkinds⟩
  · cases hname

/-- Trees that agree can be read in either order. -/
theorem Agree.or_nameIn? {t t' : Tree} (h : Agree schema t t') (known : Option Symbol) :
    (nameIn? schema kind key t').or ((nameIn? schema kind key t).or known) =
      (nameIn? schema kind key t).or ((nameIn? schema kind key t').or known) := by
  cases ht : nameIn? schema kind key t with
  | none => simp
  | some symbol =>
    cases ht' : nameIn? schema kind key t' with
    | none => simp
    | some symbol' =>
      obtain ⟨name, hname, hnot, hkind, hkey⟩ := exists_of_nameIn?_eq_some ht
      obtain ⟨name', hname', -, hkind', hkey'⟩ := exists_of_nameIn?_eq_some ht'
      have hsame : symbol = symbol' := h _ hname _ hname' hnot (hkind.symm.trans hkind')
        (hkey.symm.trans hkey')
      simp [hsame]

/-- The names that hold for a script do not depend on the order of its batches. -/
theorem unit_ofTrees_perm {isOn : Bool} {trees trees' : List Tree} (hperm : trees.Perm trees')
    (hagree : trees.Pairwise (Agree schema)) :
    (ofTrees schema isOn trees).symbols.unit = (ofTrees schema isOn trees').symbols.unit := by
  funext kind key
  rw [unit_ofTrees, unit_ofTrees]
  let Swap (t t' : Tree) : Prop := ∀ known : Option Symbol,
    (nameIn? schema kind key t').or ((nameIn? schema kind key t).or known) =
      (nameIn? schema kind key t).or ((nameIn? schema kind key t').or known)
  have hsymm : Std.Symm Swap := ⟨fun _ _ h known => (h known).symm⟩
  have hswap := List.Pairwise.forall_of_forall (R := Swap) (fun _ _ _ => rfl)
    (hagree.imp fun h known => h.or_nameIn? known)
  exact hperm.foldl_eq' (fun t ht t' ht' => hswap ht ht') none

end Declarations

/-! ### Batches in another place -/

/-- The finding is the same, but for the number of the batch and the line of the script. -/
def Finding.Moved (f f' : Finding) : Prop :=
  f' = { f with batch := f'.batch, fileLine := f'.fileLine }

/-- The same batch in another place: its number and its lines in the script may differ. -/
structure ParsedBatch.Moved (p p' : ParsedBatch) : Prop where
  content : p'.batch.content = p.batch.content
  tree : p'.tree = p.tree
  repetitions : p'.batch.repetitions = p.batch.repetitions
  directives :
    p'.batch.directives.map (fun d => (d.line - p'.batch.startLine, d.command, d.text)) =
      p.batch.directives.map fun d => (d.line - p.batch.startLine, d.command, d.text)

theorem ParsedBatch.Moved.directiveReports {p p' : ParsedBatch} (h : p.Moved p') :
    Analysis.directiveReports p'.batch = Analysis.directiveReports p.batch := by
  have hlines := congrArg (List.map fun d : Nat × String × String =>
    Report.item .directives d.2.1 d.2.2 (d.1 + 1)) h.directives
  simp only [List.map_map, Function.comp_def] at hlines
  simp only [Analysis.directiveReports, hlines, h.repetitions, h.content]

section

variable {α β ε : Type}

theorem perm_map_of_equiv {f : α → β} {as as' : List α} (σ : Fin as.length ≃ Fin as'.length)
    (h : ∀ i, f as'[σ i] = f as[i]) : (as.map f).Perm (as'.map f) := by
  have hfn : ∀ {n n' : Nat} (σ : Fin n ≃ Fin n') (g : Fin n → β) (g' : Fin n' → β),
      (∀ i, g' (σ i) = g i) → (List.ofFn g).Perm (List.ofFn g') := by
    intro n n' σ g g' hg
    obtain rfl : n = n' := Fin.equiv_iff_eq.mp ⟨σ⟩
    obtain rfl : g' ∘ σ = g := funext hg
    exact Equiv.Perm.ofFn_comp_perm σ g'
  have hfns := hfn σ (fun i => f as[i]) (fun i => f as'[i]) h
  simpa using hfns

theorem Alike.exists_ok_iff {R : α → β → Prop} {x : Except Error α} {y : Except Error β}
    (h : Alike R x y) : (∃ a, x = .ok a) ↔ ∃ b, y = .ok b := by
  cases h with
  | error e => simp
  | ok h => simp

theorem mapM_eq_ok_iff {f : α → Except ε β} {as : List α} :
    (∃ bs, as.mapM f = .ok bs) ↔ ∀ a ∈ as, ∃ b, f a = .ok b := by
  refine ⟨?_, mapM_eq_ok_of_forall⟩
  rintro ⟨bs, hbs⟩ a ha
  obtain ⟨b, -, hb⟩ := exists_of_mem_of_mapM hbs ha
  exact ⟨b, hb⟩

theorem getElem?_of_mapM {f : α → Except ε β} {as : List α} {bs : List β}
    (h : as.mapM f = .ok bs) (i : Fin as.length) : ∃ b, bs[i.val]? = some b ∧ f as[i] = .ok b := by
  have hresults : bs.map Except.ok = as.map f := map_of_mapM (fun _ _ => Eq.symm) h
  have hi : (bs.map Except.ok)[i.val]? = some (f as[i]) := by simp [hresults]
  rw [List.getElem?_map] at hi
  obtain ⟨b, hb, hfb⟩ := Option.map_eq_some_iff.mp hi
  exact ⟨b, hb, hfb.symm⟩

/-- Computations that fail alike at places that correspond fail together over two lists, or give
related results at these places. -/
theorem mapM_of_equiv {R : β → β → Prop} {f : α → Except Error β} {as as' : List α}
    (σ : Fin as.length ≃ Fin as'.length)
    (h : ∀ i : Fin as.length, Alike R (f as[i]) (f as'[σ i])) :
    (∃ e e', as.mapM f = .error e ∧ as'.mapM f = .error e') ∨
      ∃ bs bs', as.mapM f = .ok bs ∧ as'.mapM f = .ok bs' ∧
        ∀ i : Fin as.length, ∃ b b', bs[i.val]? = some b ∧ bs'[(σ i).val]? = some b' ∧ R b b' := by
  have hboth : (∃ bs, as.mapM f = .ok bs) ↔ ∃ bs, as'.mapM f = .ok bs := by
    rw [mapM_eq_ok_iff, mapM_eq_ok_iff, List.forall_mem_iff_get, List.forall_mem_iff_get]
    exact σ.forall_congr fun i => (h i).exists_ok_iff
  cases hbs : as.mapM f with
  | error e =>
    cases hbs' : as'.mapM f with
    | error e' => exact Or.inl ⟨e, e', rfl, rfl⟩
    | ok bs' => simp [hbs, hbs'] at hboth
  | ok bs =>
    cases hbs' : as'.mapM f with
    | error e' => simp [hbs, hbs'] at hboth
    | ok bs' =>
      refine Or.inr ⟨bs, bs', rfl, rfl, fun i => ?_⟩
      obtain ⟨b, hb, hfb⟩ := getElem?_of_mapM hbs i
      obtain ⟨b', hb', hfb'⟩ := getElem?_of_mapM hbs' (σ i)
      have hi := h i
      rw [hfb, hfb'] at hi
      cases hi with
      | ok hR => exact ⟨b, b', hb, hb', hR⟩

end

namespace Judge

variable {j : Judge} {place place' : BatchPlace}

theorem finding_moved (x : Sighting) :
    Alike Finding.Moved (j.finding place x) (j.finding place' x) := by
  unfold finding
  simp only [bind, Except.bind]
  split
  · exact .error _
  · split
    · exact .error _
    · exact .ok rfl

/-- The place of a batch only shows in the places of its findings. -/
theorem outcome_moved (sightings : List Sighting) :
    Alike (BatchOutcome.Related Finding.Moved) (j.outcome place sightings)
      (j.outcome place' sightings) := by
  have hfindings : Alike (List.Forall₂ Finding.Moved) (j.findings place sightings)
      (j.findings place' sightings) :=
    findings_related (C := .alike)
      (List.forall₂_same.mpr fun x (_ : x ∈ sightings) => ⟨rfl, finding_moved x⟩)
  exact Comparison.alike.bind hfindings fun fs fs' hfs => .ok ⟨hfs, rfl⟩

end Judge

namespace Analysis

variable {m : Matrix} {settings : Settings} {version : Version} {limits : NameLimits}
  {batches batches' : List ParsedBatch}

/-- The batches leave the database in use and the setting `QUOTED_IDENTIFIER` as they are. -/
structure Quiet (batches : List ParsedBatch) : Prop where
  parsed : ∀ p ∈ batches, Tree.ofText? p.batch.content = some p.tree
  noUse : ∀ p ∈ batches, ∀ site ∈ p.tree.sites, site.kind.isUse = false
  noQuoted : ∀ p ∈ batches, ∀ site ∈ p.tree.sites, ∀ isOn, ¬ site.Changes isOn

/-- What the walk over a batch knows that is read with the settings and with the names of the
script. -/
def quietScope (m : Matrix) (limits : NameLimits) (settings : Settings)
    (names : SymbolKind → String → Option Symbol) (t : Tree) : Scope where
  matrix := m
  schema := settings.schema
  limits := limits
  symbols := { unit := names, locals := fun _ => Declarations.localsOf settings.schema t }
  quotedIdentifier := settings.quotedIdentifier
  tree := t

/-- The sightings of a batch that is walked with the settings and with the names of the script. -/
def sightingsOf (m : Matrix) (limits : NameLimits) (settings : Settings)
    (names : SymbolKind → String → Option Symbol) (p : ParsedBatch) : List Sighting :=
  (surveyBatch (quietScope m limits settings names p.tree) settings.database p.batch).1

/-- The names that hold for a script. -/
def namesOf (settings : Settings) (batches : List ParsedBatch) :
    SymbolKind → String → Option Symbol :=
  (Declarations.ofTrees settings.schema settings.quotedIdentifier
    (batches.map (·.tree))).symbols.unit

theorem scope_of_quiet (h : Quiet batches) {i : Nat} {p : ParsedBatch} (hp : batches[i]? = some p) :
    scope m limits settings (Declarations.ofTrees settings.schema settings.quotedIdentifier
      (batches.map (·.tree))) i p.tree =
      quietScope m limits settings (namesOf settings batches) p.tree := by
  have htree : (batches.map (·.tree))[i]? = some p.tree := by simp [hp]
  have hquoted : (Declarations.ofTrees settings.schema settings.quotedIdentifier
      (batches.map (·.tree))).quoted.startOf i = settings.quotedIdentifier := by
    rw [Declarations.startOf_ofTrees _ _ (by simpa using (List.getElem?_eq_some_iff.mp hp).1)]
    refine Declarations.settingAfter_eq fun t ht => ?_
    obtain ⟨q, hq, rfl⟩ := List.mem_map.mp (List.mem_of_mem_take ht)
    exact h.noQuoted q hq
  rw [scope, SymbolTable.forBatch, Declarations.locals_ofTrees htree, QuotedIdentifier.isOn_resume,
    hquoted]
  rfl

theorem databaseAfter_of_quiet (h : Quiet batches) (i : Nat) (database : String) :
    Survey.databaseAfter ((batches.take i).flatMap (·.tree.sites)) database = database := by
  refine Survey.databaseAfter_eq (fun site hsite => ?_) _
  obtain ⟨q, hq, hsite⟩ := List.mem_flatMap.mp hsite
  exact h.noUse q (List.mem_of_mem_take hq) site hsite

/-- Nothing but the names flows between such batches. -/
theorem survey_eq_map (h : Quiet batches) :
    survey m limits settings batches = batches.map fun p =>
      (p.batch.place, sightingsOf m limits settings (namesOf settings batches) p) := by
  refine List.ext_getElem? fun i => ?_
  have hscope : ∀ d i t, (scope m limits settings d i t).tree = t := fun _ _ _ => rfl
  rw [survey, getElem?_surveyFrom (hscope _) h.parsed, List.getElem?_map, Nat.zero_add,
    databaseAfter_of_quiet h]
  cases hp : batches[i]? with
  | none => rw [Option.map_none, Option.map_none]
  | some p => rw [Option.map_some, Option.map_some, scope_of_quiet h hp, sightingsOf]

theorem sightingsOf_moved {names : SymbolKind → String → Option Symbol} {p p' : ParsedBatch}
    (h : p.Moved p') :
    sightingsOf m limits settings names p' = sightingsOf m limits settings names p := by
  simp only [sightingsOf, surveyBatch, h.directiveReports, h.tree]

/-- Two analyses fail both, or what the first says of a batch the second says of the batch that
corresponds to it, but for numbers of batches and lines of the script. -/
def Reordered {n n' : Nat} (σ : Fin n ≃ Fin n') (r r' : Except Error Analysis) : Prop :=
  (∃ e e', r = .error e ∧ r' = .error e') ∨
    ∃ a a', r = .ok a ∧ r' = .ok a' ∧ a.batches = n ∧ a.version = a'.version ∧
      ∀ i, ∃ o o', a.outcomes[i.val]? = some o ∧ a'.outcomes[(σ i).val]? = some o' ∧
        o.Related Finding.Moved o'

theorem Quiet.moved (h : Quiet batches) (σ : Fin batches.length ≃ Fin batches'.length)
    (hmoved : ∀ i : Fin batches.length, batches[i].Moved batches'[σ i]) : Quiet batches' := by
  have horigin : ∀ p' ∈ batches', ∃ p ∈ batches, p.Moved p' := by
    intro p' hp'
    obtain ⟨k, rfl⟩ := List.mem_iff_get.mp hp'
    obtain ⟨i, rfl⟩ := σ.surjective k
    exact ⟨batches[i], List.getElem_mem i.isLt, hmoved i⟩
  constructor <;> intro p' hp' <;> obtain ⟨p, hp, hsame⟩ := horigin p' hp'
  · rw [hsame.content, hsame.tree]
    exact h.parsed p hp
  · rw [hsame.tree]
    exact h.noUse p hp
  · rw [hsame.tree]
    exact h.noQuoted p hp

/-- A batch has the same outcome in another place, given the same names. -/
theorem outcome_sightingsOf_moved {j : Judge} {names : SymbolKind → String → Option Symbol}
    {p p' : ParsedBatch} (h : p.Moved p') :
    Alike (BatchOutcome.Related Finding.Moved)
      (j.outcome p.batch.place (sightingsOf m limits settings names p))
      (j.outcome p'.batch.place (sightingsOf m limits settings names p')) := by
  rw [sightingsOf_moved h]
  exact Judge.outcome_moved _

theorem ofBatches_eq_mapM (h : Quiet batches) (hlimits : NameLimits.ofMatrix m = .ok limits) :
    ofBatches m settings version batches =
      (batches.mapM fun p => Judge.outcome ⟨m, version, settings.overrides⟩ p.batch.place
        (sightingsOf m limits settings (namesOf settings batches) p)).map
        fun outcomes => { outcomes, version := version.text } := by
  rw [ofBatches_eq_map hlimits, Judge.outcomes, survey_eq_map h, List.mapM_map]
  rfl

theorem ofBatches_reordered (h : Quiet batches)
    (hagree : batches.Pairwise fun p q => Declarations.Agree settings.schema p.tree q.tree)
    (σ : Fin batches.length ≃ Fin batches'.length)
    (hmoved : ∀ i : Fin batches.length, batches[i].Moved batches'[σ i]) :
    Reordered σ (ofBatches m settings version batches)
      (ofBatches m settings version batches') := by
  cases hlimits : NameLimits.ofMatrix m with
  | error e => exact Or.inl ⟨e, e, by simp [ofBatches, hlimits, bind, Except.bind]⟩
  | ok limits =>
    have hnames : namesOf settings batches = namesOf settings batches' :=
      Declarations.unit_ofTrees_perm (perm_map_of_equiv σ fun i => (hmoved i).tree)
        (List.pairwise_map.mpr hagree)
    rw [ofBatches_eq_mapM h hlimits, ofBatches_eq_mapM (h.moved σ hmoved) hlimits, ← hnames]
    rcases mapM_of_equiv (f := fun p : ParsedBatch => Judge.outcome
      ⟨m, version, settings.overrides⟩ p.batch.place
        (sightingsOf m limits settings (namesOf settings batches) p))
      σ fun i => outcome_sightingsOf_moved (hmoved i) with
      ⟨e, e', he, he'⟩ | ⟨os, os', hos, hos', hsame⟩
    · rw [he, he']
      exact Or.inl ⟨e, e', rfl, rfl⟩
    · have hlength := congrArg List.length (map_of_mapM (g := Except.ok) (fun _ _ => Eq.symm) hos)
      rw [hos, hos']
      exact Or.inr ⟨_, _, rfl, rfl, by simpa [Analysis.batches] using hlength, rfl, hsame⟩

/-- The order of batches does not matter. Where no batch changes the database or the setting
`QUOTED_IDENTIFIER` and no two batches declare a name differently, the batches of a script can be
put in any other order: the analysis fails as before, or finds the same in every batch. -/
theorem outcomes_reordered (h : Quiet batches)
    (hagree : batches.Pairwise fun p q => Declarations.Agree settings.schema p.tree q.tree)
    (σ : Fin batches.length ≃ Fin batches'.length)
    (hmoved : ∀ i : Fin batches.length, batches[i].Moved batches'[σ i]) :
    Reordered σ (ofBatches m settings version batches) (ofBatches m settings version batches') ∧
      ∀ script script', parse? script = some batches → parse? script' = some batches' →
        ∃ r r', ofScript? m settings script = some r ∧ ofScript? m settings script' = some r' ∧
          Reordered σ r r' := by
  refine ⟨ofBatches_reordered h hagree σ hmoved, fun script script' hparse hparse' => ?_⟩
  unfold ofScript?
  cases m.resolveVersion settings.version with
  | error e => exact ⟨_, _, rfl, rfl, Or.inl ⟨e, e, rfl, rfl⟩⟩
  | ok version =>
    rw [hparse, hparse']
    exact ⟨_, _, rfl, rfl, ofBatches_reordered h hagree σ hmoved⟩

/-- A view can be changed before it is created. -/
theorem outcomes_reordered_view :
    ∃ (t u : Tree) (a a' : Analysis) (o o' : BatchOutcome),
      ofBatches .default {} Matrix.Default.v200
        [⟨⟨1, "DELETE v\n", 1, none, []⟩, t⟩,
          ⟨⟨2, "CREATE VIEW v AS SELECT 1\n", 3, none, []⟩, u⟩] = .ok a ∧
      ofBatches .default {} Matrix.Default.v200
        [⟨⟨1, "CREATE VIEW v AS SELECT 1\n", 1, none, []⟩, u⟩,
          ⟨⟨2, "DELETE v\n", 3, none, []⟩, t⟩] = .ok a' ∧
      a.outcomes[0]? = some o ∧ a'.outcomes[1]? = some o' ∧ o.Related Finding.Moved o' := by
  obtain ⟨t, u, ht, hu, hfacts⟩ : ∃ t u, Tree.ofText? "DELETE v\n" = some t ∧
      Tree.ofText? "CREATE VIEW v AS SELECT 1\n" = some u ∧
      ([t, u].all (·.sites.all fun site =>
          !site.kind.isUse && (Declarations.quoted? site).isNone && !Survey.atCursor site.kind),
        decide ([t, u].Pairwise (Declarations.Agree "dbo"))) = (true, true) :=
    Tree.exists_ofText?_pair_of_apart (by decide +kernel)
  obtain ⟨hcalm, hagree⟩ := Prod.mk.inj hfacts
  have hsites : ∀ tree ∈ [t, u], ∀ site ∈ tree.sites, site.kind.isUse = false ∧
      Declarations.quoted? site = none ∧ Survey.atCursor site.kind = false := by
    simpa [List.all_eq_true, and_assoc] using hcalm
  have hquiet : Quiet [⟨⟨1, "DELETE v\n", 1, none, []⟩, t⟩,
      ⟨⟨2, "CREATE VIEW v AS SELECT 1\n", 3, none, []⟩, u⟩] :=
    { parsed := by simp [ht, hu]
      noUse := fun p hp site hsite => (hsites p.tree (List.mem_map_of_mem hp) site hsite).1
      noQuoted := fun p hp site hsite =>
        Declarations.quoted?_eq_none_iff.mp
          (hsites p.tree (List.mem_map_of_mem hp) site hsite).2.1 }
  obtain ⟨limits, hlimits⟩ := Matrix.Default.nameLimits
  have hfirst : ∃ a, ofBatches .default {} Matrix.Default.v200
      [⟨⟨1, "DELETE v\n", 1, none, []⟩, t⟩,
        ⟨⟨2, "CREATE VIEW v AS SELECT 1\n", 3, none, []⟩, u⟩] = .ok a := by
    refine ofBatches_of_covers Matrix.Default.covers hlimits hquiet.parsed ?_
    rintro ⟨p, hp, site, hsite, hat⟩
    rw [(hsites p.tree (List.mem_map_of_mem hp) site hsite).2.2] at hat
    cases hat
  obtain ⟨a, ha⟩ := hfirst
  obtain ⟨hmoved, -⟩ := @outcomes_reordered .default {} Matrix.Default.v200 _
    [⟨⟨1, "CREATE VIEW v AS SELECT 1\n", 1, none, []⟩, u⟩, ⟨⟨2, "DELETE v\n", 3, none, []⟩, t⟩]
    hquiet (by simpa using hagree) (Equiv.swap (0 : Fin 2) 1)
    (Fin.forall_fin_two.mpr ⟨⟨rfl, rfl, rfl, rfl⟩, ⟨rfl, rfl, rfl, rfl⟩⟩)
  rcases hmoved with ⟨e, e', he, -⟩ | ⟨_, a', hfirst, hlast, -, -, hsame⟩
  · cases he.symm.trans ha
  · obtain ⟨o, o', ho, ho', hrelated⟩ := hsame (0 : Fin 2)
    cases hfirst.symm.trans ha
    exact ⟨t, u, a, a', o, o', ha, hlast, ho, ho', hrelated⟩

end Analysis

end Portability
