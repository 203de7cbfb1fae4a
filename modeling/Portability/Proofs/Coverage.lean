import Mathlib
import Portability.Matrix.Default
import Portability.Proofs.Apart
import Portability.Proofs.Judging
import Portability.Proofs.Text
import Portability.Proofs.Vocabulary
import Portability.Proofs.Walk

/-! The default matrix knows what reports ask it for, with one exception. -/
namespace Portability

namespace Matrix

variable {m : Matrix} {name : String} {lookup : Option String}

/-- The section whose name is written in just this way. -/
def named? (m : Matrix) (name : String) : Option Section := m.sections.find? (·.name == name)

/-- Where names differ by more than case, a section is found by its own name. -/
theorem find?_eq_of_named? {sec : Section} (hkeys : (m.sections.map Section.key).Nodup)
    (h : m.named? name = some sec) : m.find? name = some sec := by
  have hmem : sec ∈ m.sections := List.mem_of_find?_eq_some h
  have hname : sec.name = name := by simpa using List.find?_some h
  have hsome : (m.find? name).isSome := by
    rw [find?, List.find?_isSome]
    exact ⟨sec, hmem, by simp [Section.key, hname]⟩
  obtain ⟨found, hfound⟩ := Option.isSome_iff_exists.mp hsome
  have hkey : found.key = sec.key := by
    have := List.find?_some hfound
    simpa [Section.key, hname] using this
  have hsame := List.inj_on_of_nodup_map hkeys (List.mem_of_find?_eq_some hfound) hmem hkey
  rw [hfound, hsame]

theorem isSome_find?_of_defines (h : m.defines name lookup) : (m.find? name).isSome := by
  unfold defines at h
  split at h
  · simp [*]
  · cases h

theorem find_eq_ok (h : (m.find? name).isSome) (item : Option String) :
    ∃ sec, m.find name item = .ok sec ∧ m.find? name = some sec := by
  obtain ⟨sec, hsec⟩ := Option.isSome_iff_exists.mp h
  exact ⟨sec, by simp [find, hsec], hsec⟩

theorem status_eq_ok (version : Version) (h : m.defines name lookup) :
    ∃ st, m.status version name lookup = .ok st := by
  obtain ⟨sec, hfind, hsec⟩ := find_eq_ok (isSome_find?_of_defines h) lookup
  unfold status
  rw [hfind]
  cases lookup with
  | none => exact ⟨_, rfl⟩
  | some item =>
    have htakes : sec.takes (Text.upper item) := by simpa [defines, hsec] using h
    exact ⟨sec.verdict version (some (Text.upper item)),
      by simp [bind, Except.bind, htakes, pure, Except.pure]⟩

theorem status_eq_error (version : Version) {sec : Section} {item : String}
    (hsec : m.find? name = some sec) (htakes : sec.takes (Text.upper item) = false) :
    m.status version name (some item) = .error (.drift name (some item)) := by
  simp [status, find, hsec, htakes, bind, Except.bind, throw, throwThe, MonadExceptOf.throw]

theorem require_eq_ok (h : m.defines name lookup) : m.require name lookup = .ok () := if_pos h

theorem group_eq_ok (lookup : Option String) (h : (m.find? name).isSome) :
    ∃ g, m.group name lookup = .ok g := by
  obtain ⟨sec, hfind, -⟩ := find_eq_ok h lookup
  exact ⟨_, by rw [group, hfind]; rfl⟩

theorem nameLimits_eq_ok {length names : Section}
    (hlength : m.find? Topic.identifierLength.name = some length) (hlimit : length.limit.isSome)
    (hnames : m.find? Topic.specialColumnNames.name = some names) (hitems : names.items.isSome) :
    ∃ limits, NameLimits.ofMatrix m = .ok limits := by
  obtain ⟨limit, hlimit⟩ := Option.isSome_iff_exists.mp hlimit
  obtain ⟨special, hspecial⟩ := Option.isSome_iff_exists.mp hitems
  exact ⟨⟨limit, special⟩, by
    simp [NameLimits.ofMatrix, Matrix.limit, items, find, hlength, hnames, hlimit, hspecial, bind,
      Except.bind, pure, Except.pure]⟩

namespace Default

/-- What the default matrix shows in its bytes: names differ in more than case, the words of every
topic are listed, sections of arguments are open, and what reports look up is there, but for
`CURRENT OF`. -/
structure Checked : Prop where
  names : (Matrix.default.sections.map fun sec =>
    (Text.bytes sec.name).map Text.capitalByte).Nodup
  words : Topic.all.all fun t => (Matrix.default.named? t.name).any fun sec =>
    match t.vocabulary? with
    | none => sec.items.isNone
    | some words => words.all fun word =>
      sec.items.all (·.any (Text.bytes · == (Text.bytes word).map Text.capitalByte))
  arguments : Matrix.default.sections.all fun sec =>
    sec.items.isNone || !sec.name.toList.contains ':'
  atCursor : (Matrix.default.named? Topic.cursors.name).any fun sec => !sec.takes "CURRENT OF"
  lengthLimit : (Matrix.default.named? Topic.identifierLength.name).any (·.limit.isSome)
  specialNames : (Matrix.default.named? Topic.specialColumnNames.name).any (·.items.isSome)

theorem checked : Checked := by
  constructor <;> decide +kernel

end Default

/-- What a matrix must be like to judge all reports that keep to the vocabulary. -/
structure Covers (m : Matrix) : Prop where
  /-- There is a section for every topic. -/
  topic : ∀ t : Topic, (m.find? t.name).isSome
  word : ∀ (t : Topic) (word : String), t.speaks word → m.defines t.name (some word)
  /-- Sections on arguments take any value. -/
  argument : ∀ name item position sec,
    m.find? (argumentSection name item position) = some sec → sec.items = none

theorem defines_of_topic (hm : m.Covers)
    (h : ∃ t : Topic, name = t.name ∧
      ∀ word, lookup = some word → t.speaks word ∨ m.defines t.name (some word)) :
    m.defines name lookup := by
  obtain ⟨t, rfl, hword⟩ := h
  cases lookup with
  | none =>
    obtain ⟨sec, hsec⟩ := Option.isSome_iff_exists.mp (hm.topic t)
    simp [defines, hsec]
  | some word => exact (hword word rfl).elim (hm.word t word) id

/-- Where no closed section has a colon in its name, sections on arguments take any value. -/
theorem items_eq_none_of_argumentSection
    (h : ∀ sec ∈ m.sections, sec.items ≠ none → ':' ∉ sec.name.toList) {item : String}
    {position : Nat} {sec : Section}
    (hsec : m.find? (argumentSection name item position) = some sec) : sec.items = none := by
  by_contra hclosed
  have hcolon := h sec (List.mem_of_find?_eq_some hsec) hclosed
  have hkey : Text.upper sec.name = Text.upper (argumentSection name item position) := by
    simpa [Section.key] using List.find?_some hsec
  have hmem : ':' ∈ (Text.upper sec.name).toList := by
    rw [hkey, Text.toList_upper]
    exact List.mem_map.mpr ⟨':', by simp [argumentSection], rfl⟩
  rw [Text.toList_upper] at hmem
  obtain ⟨c, hc, hupper⟩ := List.mem_map.mp hmem
  exact hcolon (Text.eq_colon_of_toUpper hupper ▸ hc)

/-- The values of an argument are never unknown. -/
theorem argumentStatus_eq_ok (version : Version) (hm : m.Covers) {item : String} {position : Nat}
    (h : m.hasArgumentRule name item position) (value? : Option String) :
    ∃ st, m.argumentStatus version name item position value? = .ok st := by
  obtain ⟨sec, hsec⟩ := Option.isSome_iff_exists.mp h
  cases value? with
  | none =>
    obtain ⟨found, hfind, -⟩ := find_eq_ok h none
    exact ⟨.reviewManually, by simp [argumentStatus, hfind, bind, Except.bind, pure, Except.pure]⟩
  | some value =>
    apply status_eq_ok version
    simp [defines, hsec, Section.takes, hm.argument name item position sec hsec]

theorem callStatus_eq_ok (version : Version) (hm : m.Covers) {function : String}
    {argument? : Option CallArgument} {inColumn : Bool}
    (hq : (Question.call function argument? inColumn).IsPlain m) :
    ∃ st, m.callStatus version function argument? = .ok st := by
  obtain ⟨hfunction, hargument⟩ := hq
  obtain ⟨own, hown⟩ := status_eq_ok version hfunction
  simp only [callStatus, hown, bind, Except.bind]
  cases argument? with
  | none => exact ⟨own, rfl⟩
  | some a => exact argumentStatus_eq_ok version hm (hargument a rfl) a.value?

theorem ruleCall_eq_ok (version : Version) (hm : m.Covers) {function : String}
    {argument? : Option CallArgument} {inColumn : Bool}
    (hq : (Question.call function argument? inColumn).IsPlain m) :
    ∃ r, m.ruleCall version function argument? inColumn = .ok r ∧
      (m.find? r.sectionName).isSome := by
  obtain ⟨st, hst⟩ := callStatus_eq_ok version hm hq
  simp only [ruleCall, hst, bind, Except.bind]
  split
  · -- the section on computed columns is asked for the function only if it lists it
    have hdefines : m.defines Topic.functionsInComputedColumn.name
        (if m.defines Topic.functionsInComputedColumn.name (some function) then some function
          else none) := by
      split
      · assumption
      · exact defines_of_topic hm ⟨.functionsInComputedColumn, rfl, by simp⟩
    obtain ⟨inner, hinner⟩ := status_eq_ok version hdefines
    rw [hinner]
    exact ⟨_, rfl, hm.topic .functionsInComputedColumn⟩
  · rw [require_eq_ok hq.1]
    exact ⟨_, rfl, hm.topic .builtInFunctions⟩

/-- A matrix that covers the vocabulary has an answer to every question that keeps to it. -/
theorem rule_eq_ok (version : Version) (hm : m.Covers) {q : Question} (hq : q.IsPlain m) :
    ∃ r, m.rule version q = .ok r ∧ (m.find? r.sectionName).isSome := by
  cases q with
  | item name lookup =>
    have hdefines := defines_of_topic hm hq
    obtain ⟨st, hst⟩ := status_eq_ok version hdefines
    exact ⟨_, by rw [rule, hst]; rfl, isSome_find?_of_defines hdefines⟩
  | ruled name lookup st =>
    have hdefines := defines_of_topic hm hq
    exact ⟨_, by rw [rule, require_eq_ok hdefines]; rfl, isSome_find?_of_defines hdefines⟩
  | argument name option position value? =>
    obtain ⟨rfl, hrule⟩ := hq
    have hdefines : m.defines Topic.setOptions.name (some option) :=
      hm.word .setOptions option (by simp)
    obtain ⟨st, hst⟩ := argumentStatus_eq_ok version hm hrule value?
    exact ⟨_, by rw [rule, hst]; simp [require_eq_ok hdefines, bind, Except.bind]; rfl,
      isSome_find?_of_defines hdefines⟩
  | call function argument? inColumn => exact ruleCall_eq_ok version hm hq

namespace Default

theorem nodup_keys : (Matrix.default.sections.map Section.key).Nodup := by
  refine List.Nodup.of_map Text.bytes ?_
  simpa [Section.key, Text.bytes_upper, Function.comp_def] using checked.names

/-- The section takes all that reports name under the topic. -/
def hears (sec : Section) (t : Topic) : Bool :=
  match t.vocabulary? with
  | none => sec.items.isNone
  | some words => words.all fun word => sec.takes (String.ofList (word.toList.map Char.toUpper))

/-- Whether a section takes an item shows in the bytes. -/
theorem takes_of_bytes {sec : Section} {word : String}
    (h : sec.items.all (·.any (Text.bytes · == (Text.bytes word).map Text.capitalByte))) :
    sec.takes (String.ofList (word.toList.map Char.toUpper)) := by
  unfold Section.takes
  split
  · rfl
  · rename_i items hitems
    rw [hitems] at h
    obtain ⟨item, hitem, hbytes⟩ := List.any_eq_true.mp h
    rw [beq_iff_eq, ← Text.bytes_upper] at hbytes
    rw [← Text.upper_eq_ofList, ← Text.bytes_inj hbytes]
    exact List.contains_iff_mem.mpr hitem

theorem named?_hears : Topic.all.all fun t => (Matrix.default.named? t.name).any (hears · t) := by
  refine List.all_eq_true.mpr fun t ht => ?_
  obtain ⟨sec, hsec, hall⟩ := (Option.any_eq_true _ _).mp (List.all_eq_true.mp checked.words t ht)
  refine (Option.any_eq_true _ _).mpr ⟨sec, hsec, ?_⟩
  unfold hears
  split at hall
  · exact hall
  · refine List.all_eq_true.mpr fun word hword => ?_
    exact takes_of_bytes (List.all_eq_true.mp hall word hword)

theorem find?_topic (t : Topic) :
    ∃ sec, Matrix.default.find? t.name = some sec ∧ hears sec t := by
  have h := List.all_eq_true.mp named?_hears t (Topic.mem_all t)
  obtain ⟨sec, hsec, hhears⟩ := (Option.any_eq_true _ _).mp h
  exact ⟨sec, find?_eq_of_named? nodup_keys hsec, hhears⟩

theorem takes_of_speaks {sec : Section} {t : Topic} {word : String} (h : hears sec t)
    (hword : t.speaks word) : sec.takes (Text.upper word) := by
  unfold hears at h
  rw [Topic.speaks] at hword
  cases hvocabulary : t.vocabulary? with
  | none =>
    simp only [hvocabulary, Option.isNone_iff_eq_none] at h
    simp [Section.takes, h]
  | some words =>
    simp only [hvocabulary] at h hword
    rw [Text.upper_eq_ofList]
    exact List.all_eq_true.mp h word (by simpa using hword)

/-- The default matrix has a section for every topic and knows every word of the vocabulary. -/
theorem covers : Matrix.default.Covers where
  topic t := by
    obtain ⟨sec, hsec, -⟩ := find?_topic t
    simp [hsec]
  word t word hword := by
    obtain ⟨sec, hsec, hhears⟩ := find?_topic t
    simpa [defines, hsec] using takes_of_speaks hhears hword
  argument name item position sec hsec := by
    refine items_eq_none_of_argumentSection (fun sec hsec hclosed => ?_) hsec
    have := List.all_eq_true.mp checked.arguments sec hsec
    simpa [hclosed] using this

/-- The one item that reports name and the default matrix lacks. -/
theorem rule_atCursor (version : Version) :
    Matrix.default.rule version Survey.atCursorQuestion =
      .error (.drift Topic.cursors.name (some "CURRENT OF")) := by
  have hupper : Text.upper "CURRENT OF" = "CURRENT OF" := by
    rw [Text.upper_eq_ofList]
    decide +kernel
  obtain ⟨sec, hsec, hnot⟩ := (Option.any_eq_true _ _).mp checked.atCursor
  have htakes : sec.takes (Text.upper "CURRENT OF") = false := by
    rw [hupper]
    simpa using hnot
  rw [Survey.atCursorQuestion, rule,
    status_eq_error version (find?_eq_of_named? nodup_keys hsec) htakes]
  rfl

theorem nameLimits : ∃ limits, NameLimits.ofMatrix Matrix.default = .ok limits := by
  obtain ⟨length, hfound, hlimit⟩ := (Option.any_eq_true _ _).mp checked.lengthLimit
  obtain ⟨names, hfound', hitems⟩ := (Option.any_eq_true _ _).mp checked.specialNames
  exact nameLimits_eq_ok (find?_eq_of_named? nodup_keys hfound) hlimit
    (find?_eq_of_named? nodup_keys hfound') hitems

end Default

end Matrix

/-- A report that keeps to the vocabulary becomes a finding. -/
theorem Judge.finding_eq_ok {j : Judge} (hm : j.matrix.Covers) {place : BatchPlace} {x : Sighting}
    (hx : x.report.question.IsPlain j.matrix) : ∃ f, j.finding place x = .ok f := by
  obtain ⟨ruling, hruling, hsome⟩ := Matrix.rule_eq_ok j.version hm hx
  obtain ⟨group, hgroup⟩ := Matrix.group_eq_ok ruling.lookup hsome
  exact ⟨_, by rw [finding, hruling]; simp only [bind, Except.bind, hgroup]; rfl⟩

theorem Judge.finding_eq_error {j : Judge} {place : BatchPlace} {x : Sighting} {e : Error}
    (h : j.matrix.rule j.version x.report.question = .error e) : j.finding place x = .error e := by
  rw [finding, h]
  rfl

namespace Survey

variable {s : Scope} {text : String} {database : String}

/-- The sightings of a batch keep to the vocabulary, those of conditions on the row at a cursor
apart. -/
theorem ofBatch_plain (h : Tree.ofText? text = some s.tree) {x : Sighting}
    (hx : x ∈ (ofBatch s database).1) :
    x.report.question.IsPlain s.matrix ∨
      x.report.question = atCursorQuestion ∧ ∃ site ∈ s.tree.sites, atCursor site.kind := by
  obtain ⟨site, hsite, w, hreport⟩ := mem_ofNode (children_eq_nil_of_isOpaque h) hx
  rcases hreport with hreport | hreport
  · cases hat : atCursor site.kind with
    | false => exact Or.inl (reports_plain (Tree.fits_of_mem_sites h hsite) hat _ hreport)
    | true =>
      rcases (reports_atCursor hat).2 _ hreport with hquestion | hplain
      · exact Or.inr ⟨hquestion, site, hsite, hat⟩
      · exact Or.inl hplain
  · exact Or.inl (closingReports_plain _ hreport)

theorem exists_atCursor (h : Tree.ofText? text = some s.tree) {site : Site}
    (hsite : site ∈ s.tree.sites) (hat : atCursor site.kind) :
    ∃ x ∈ (ofBatch s database).1, x.report.question = atCursorQuestion := by
  obtain ⟨w, hreports⟩ := exists_reports_of_mem (s := s) (w := { database })
    (children_eq_nil_of_isOpaque h) hsite
  obtain ⟨r, hr, hquestion⟩ := (reports_atCursor (w := w) hat).1
  obtain ⟨x, hx, hreport⟩ := hreports r hr
  exact ⟨x, hx, hreport ▸ hquestion⟩

end Survey

namespace Judge

variable {j : Judge} {place : BatchPlace} {sightings : List Sighting}

theorem outcome_eq_ok (h : ∀ x ∈ sightings, ∃ f, j.finding place x = .ok f) :
    ∃ o, j.outcome place sightings = .ok o := by
  have hall : ∃ all, (sightings.mapM fun x => return (x.isQueued, ← j.finding place x)) =
      (.ok all : Except Error (List (Bool × Finding))) := by
    apply mapM_eq_ok_of_forall
    intro x hx
    obtain ⟨f, hf⟩ := h x hx
    exact ⟨(x.isQueued, f), by rw [hf]; rfl⟩
  obtain ⟨all, hall⟩ := hall
  exact ⟨_, by rw [outcome, findings, hall]; rfl⟩

/-- Where findings fail in one way only, one failing is enough for the batch. -/
theorem outcome_eq_error {e : Error}
    (honly : ∀ x ∈ sightings, ∀ e', j.finding place x = .error e' → e' = e)
    (hsome : ∃ x ∈ sightings, j.finding place x = .error e) :
    j.outcome place sightings = .error e := by
  have hall : (sightings.mapM fun x => return (x.isQueued, ← j.finding place x)) =
      (.error e : Except Error (List (Bool × Finding))) := by
    apply mapM_eq_error_of_exists
    · intro x hx e' he'
      cases hf : j.finding place x with
      | error e'' =>
        rw [hf] at he'
        cases he'
        exact honly x hx _ hf
      | ok f =>
        rw [hf] at he'
        cases he'
    · obtain ⟨x, hx, hf⟩ := hsome
      exact ⟨x, hx, by rw [hf]; rfl⟩
  rw [outcome, findings, hall]
  rfl

end Judge

namespace Analysis

open Survey

section

variable {s : Scope} {j : Judge} {place : BatchPlace} {b : Batch} {text database : String}
  {e : Error}

/-- A sighting becomes a finding, or it is that of a condition on the row at a cursor. -/
theorem finding_of_covers (hm : j.matrix.Covers) (hs : s.matrix = j.matrix)
    (h : Tree.ofText? text = some s.tree) {x : Sighting} (hx : x ∈ (surveyBatch s database b).1) :
    (∃ f, j.finding place x = .ok f) ∨
      x.report.question = atCursorQuestion ∧ ∃ site ∈ s.tree.sites, atCursor site.kind := by
  rcases List.mem_append.mp hx with hx | hx
  · obtain ⟨r, hr, rfl⟩ := List.mem_map.mp hx
    exact Or.inl (Judge.finding_eq_ok hm (directiveReports_plain b r hr))
  · rcases ofBatch_plain h hx with hplain | hat
    · exact Or.inl (Judge.finding_eq_ok hm (hs ▸ hplain))
    · exact Or.inr hat

theorem outcome_of_covers (hm : j.matrix.Covers) (hs : s.matrix = j.matrix)
    (h : Tree.ofText? text = some s.tree) (hnone : ¬ ∃ site ∈ s.tree.sites, atCursor site.kind) :
    ∃ o, j.outcome place (surveyBatch s database b).1 = .ok o := by
  apply Judge.outcome_eq_ok
  intro x hx
  rcases finding_of_covers hm hs h hx with hok | ⟨-, hat⟩
  · exact hok
  · exact absurd hat hnone

theorem outcome_atCursor (hm : j.matrix.Covers) (hs : s.matrix = j.matrix)
    (hrule : j.matrix.rule j.version atCursorQuestion = .error e)
    (h : Tree.ofText? text = some s.tree) (hsome : ∃ site ∈ s.tree.sites, atCursor site.kind) :
    j.outcome place (surveyBatch s database b).1 = .error e := by
  apply Judge.outcome_eq_error
  · intro x hx e' he'
    rcases finding_of_covers hm hs h hx with ⟨f, hf⟩ | ⟨hquestion, -⟩
    · cases he'.symm.trans hf
    · exact Except.error.inj (he'.symm.trans (Judge.finding_eq_error (hquestion ▸ hrule)))
  · obtain ⟨site, hsite, hat⟩ := hsome
    obtain ⟨x, hx, hquestion⟩ := exists_atCursor h hsite hat
    exact ⟨x, List.mem_append_right _ hx, Judge.finding_eq_error (hquestion ▸ hrule)⟩

/-- There is no other way for a batch to fail. -/
theorem eq_of_outcome_eq_error {e' : Error} (hm : j.matrix.Covers) (hs : s.matrix = j.matrix)
    (hrule : j.matrix.rule j.version atCursorQuestion = .error e)
    (h : Tree.ofText? text = some s.tree)
    (he' : j.outcome place (surveyBatch s database b).1 = .error e') : e' = e := by
  by_cases hat : ∃ site ∈ s.tree.sites, atCursor site.kind
  · exact Except.error.inj (he'.symm.trans (outcome_atCursor hm hs hrule h hat))
  · obtain ⟨o, ho⟩ := outcome_of_covers hm hs h hat
    cases he'.symm.trans ho

end

variable {m : Matrix} {settings : Settings} {script : String} {version : Version}
  {batches : List ParsedBatch} {limits : NameLimits} {e : Error}

/-- A condition on the row at a cursor stands in one of the batches. -/
def HasAtCursor (batches : List ParsedBatch) : Prop :=
  ∃ p ∈ batches, ∃ site ∈ p.tree.sites, atCursor site.kind

/-- Once the limits on names are read, an analysis is the judging of what was surveyed. -/
theorem ofBatches_eq_map (hlimits : NameLimits.ofMatrix m = .ok limits) :
    ofBatches m settings version batches =
      (Judge.outcomes ⟨m, version, settings.overrides⟩ (survey m limits settings batches)).map
        fun outcomes => { outcomes, version := version.text } := by
  simp only [ofBatches, hlimits, bind, Except.bind]
  rfl

/-- An analysis succeeds if every batch can be judged, whatever is known before it. -/
theorem ofBatches_eq_ok (hlimits : NameLimits.ofMatrix m = .ok limits)
    (hparsed : ∀ p ∈ batches, Tree.ofText? p.batch.content = some p.tree)
    (h : ∀ p ∈ batches, ∀ (s : Scope) (place : BatchPlace) (database : String),
      s.matrix = m → s.tree = p.tree → ∃ o,
        Judge.outcome ⟨m, version, settings.overrides⟩ place (surveyBatch s database p.batch).1 =
          .ok o) :
    ∃ a, ofBatches m settings version batches = .ok a := by
  obtain ⟨outcomes, houtcomes⟩ : ∃ outcomes,
      Judge.outcomes ⟨m, version, settings.overrides⟩ (survey m limits settings batches) =
        .ok outcomes := by
    apply mapM_eq_ok_of_forall
    intro entry hentry
    obtain ⟨i, p, hp, rfl⟩ := (mem_surveyFrom_iff (fun _ _ => rfl) hparsed).mp hentry
    exact h p (List.mem_of_getElem? hp) _ _ _ rfl rfl
  rw [ofBatches_eq_map hlimits, houtcomes]
  exact ⟨_, rfl⟩

theorem ofBatches_of_covers (hm : m.Covers) (hlimits : NameLimits.ofMatrix m = .ok limits)
    (hparsed : ∀ p ∈ batches, Tree.ofText? p.batch.content = some p.tree)
    (hnone : ¬ HasAtCursor batches) : ∃ a, ofBatches m settings version batches = .ok a := by
  refine ofBatches_eq_ok hlimits hparsed fun p hp s place database hmatrix htree => ?_
  refine outcome_of_covers hm hmatrix (htree ▸ hparsed p hp) ?_
  exact fun hat => hnone ⟨p, hp, htree ▸ hat⟩

theorem ofBatches_atCursor (hm : m.Covers) (hlimits : NameLimits.ofMatrix m = .ok limits)
    (hrule : m.rule version atCursorQuestion = .error e)
    (hparsed : ∀ p ∈ batches, Tree.ofText? p.batch.content = some p.tree)
    (hsome : HasAtCursor batches) : ofBatches m settings version batches = .error e := by
  have houtcomes :
      Judge.outcomes ⟨m, version, settings.overrides⟩ (survey m limits settings batches) =
        .error e := by
    apply mapM_eq_error_of_exists
    · intro entry hentry e' he'
      obtain ⟨i, p, hp, rfl⟩ := (mem_surveyFrom_iff (fun _ _ => rfl) hparsed).mp hentry
      have hmem := List.mem_of_getElem? hp
      exact eq_of_outcome_eq_error hm rfl hrule (hparsed p hmem) he'
    · obtain ⟨p, hp, hat⟩ := hsome
      obtain ⟨i, hi⟩ := List.mem_iff_getElem?.mp hp
      exact ⟨_, (mem_surveyFrom_iff (fun _ _ => rfl) hparsed).mpr ⟨i, p, hi, rfl⟩,
        outcome_atCursor hm rfl hrule (hparsed p hp) hat⟩
  rw [ofBatches_eq_map hlimits, houtcomes]
  rfl

theorem ofScript?_eq (hversion : m.resolveVersion settings.version = .ok version)
    (hparse : parse? script = some batches) :
    ofScript? m settings script = some (ofBatches m settings version batches) := by
  rw [ofScript?, hversion, hparse]
  rfl

theorem exists_ofScript?_default
    (hversion : Matrix.default.resolveVersion settings.version = .ok version)
    (hparse : parse? script = some batches) (hnone : ¬ HasAtCursor batches) :
    ∃ a, ofScript? .default settings script = some (.ok a) := by
  obtain ⟨limits, hlimits⟩ := Matrix.Default.nameLimits
  have hparsed := (parse?_eq_some hparse).2
  obtain ⟨a, ha⟩ := ofBatches_of_covers Matrix.Default.covers hlimits hparsed hnone
  exact ⟨a, by rw [ofScript?_eq hversion hparse, ha]⟩

/-- A script of one batch in which no condition on the row at a cursor stands is analysed. -/
theorem exists_ofScript?_batch {b : Batch}
    (hversion : Matrix.default.resolveVersion settings.version = .ok version)
    (hsplit : Batch.split script = [b])
    (htree : ((Tree.ofText? b.content).map fun t => t.sites.any (atCursor ·.kind)) = some false) :
    ∃ a, ofScript? .default settings script = some (.ok a) := by
  obtain ⟨t, ht, hnone⟩ := Option.map_eq_some_iff.mp htree
  have hparse : parse? script = some [⟨b, t⟩] := by simp [parse?, hsplit, ht]
  refine exists_ofScript?_default hversion hparse ?_
  rintro ⟨p, hp, site, hsite, hat⟩
  obtain rfl := List.mem_singleton.mp hp
  rw [List.any_eq_true.mpr ⟨site, hsite, hat⟩] at hnone
  cases hnone

/-- With the default matrix, a script is analysed unless a condition on the row at a cursor stands
in it. Then the matrix is asked for an item it does not have, and nothing else is found out. -/
theorem ofScript?_default
    (hversion : Matrix.default.resolveVersion settings.version = .ok version)
    (hparse : parse? script = some batches) :
    ((∃ a, ofScript? .default settings script = some (.ok a)) ↔ ¬ HasAtCursor batches) ∧
      (HasAtCursor batches → ofScript? .default settings script =
        some (.error (.drift Topic.cursors.name (some "CURRENT OF")))) := by
  have hfails : HasAtCursor batches → ofScript? .default settings script =
      some (.error (.drift Topic.cursors.name (some "CURRENT OF"))) := by
    intro hsome
    obtain ⟨limits, hlimits⟩ := Matrix.Default.nameLimits
    rw [ofScript?_eq hversion hparse, ofBatches_atCursor Matrix.Default.covers hlimits
      (Matrix.Default.rule_atCursor version) (parse?_eq_some hparse).2 hsome]
  refine ⟨⟨?_, exists_ofScript?_default hversion hparse⟩, hfails⟩
  rintro ⟨a, ha⟩ hsome
  cases ha.symm.trans (hfails hsome)

/-- No item is missing from a `DELETE`, until it is one at a cursor. -/
theorem ofScript?_default_delete :
    ∃ batches, parse? "DELETE t WHERE CURRENT OF c" = some batches ∧ HasAtCursor batches ∧
      ofScript? .default {} "DELETE t WHERE CURRENT OF c" =
        some (.error (.drift "Cursors" (some "CURRENT OF"))) := by
  have hlines : Text.lines "DELETE t WHERE CURRENT OF c" = ["DELETE t WHERE CURRENT OF c"] := by
    decide +kernel
  have hrole : Batch.lineRole "DELETE t WHERE CURRENT OF c" = .code := by decide +kernel
  have hempty : Batch.Draft.isEmpty ⟨1, ["DELETE t WHERE CURRENT OF c"], []⟩ = false := by cbv
  have hcontent : Batch.Draft.content ⟨1, ["DELETE t WHERE CURRENT OF c"], []⟩ =
      "DELETE t WHERE CURRENT OF c\n" := by cbv
  have htree : ((Tree.ofText? "DELETE t WHERE CURRENT OF c\n").map fun t =>
      t.sites.any (atCursor ·.kind)) = some true :=
    Tree.map_ofText?_of_apart (by decide +kernel)
  obtain ⟨t, ht, hany⟩ := Option.map_eq_some_iff.mp htree
  have hparse : parse? "DELETE t WHERE CURRENT OF c" =
      some [⟨⟨1, "DELETE t WHERE CURRENT OF c\n", 1, none, []⟩, t⟩] := by
    simp [parse?, Batch.split, hlines, Batch.splitFrom, hrole, Batch.Draft.empty, Batch.close,
      hempty, Batch.Draft.finish, hcontent, ht]
  have hat : HasAtCursor [⟨⟨1, "DELETE t WHERE CURRENT OF c\n", 1, none, []⟩, t⟩] :=
    ⟨_, List.mem_cons_self, List.any_eq_true.mp hany⟩
  have hversion : Matrix.default.resolveVersion ({} : Settings).version = .ok Matrix.Default.v200 :=
    rfl
  exact ⟨_, hparse, hat, (ofScript?_default hversion hparse).2 hat⟩

end Analysis

end Portability
