import Mathlib
import Portability.Record.Writer
import Portability.Run
import Portability.Proofs.Delivery

/-! What a run leaves behind. Each script adds all of its records or none, the summary has an entry
for each script in order, and the counts agree with what was written. -/
namespace Portability

/-- What one script adds to a run. -/
structure Share where
  records : List String
  entry : UnitOutcome

namespace Run

variable {application : String} {script : Script} {o : Outcome} {shares : List Share}

/-- What a script adds, by what its analysis returned. A finding without a record takes back the
records of the findings before it. -/
inductive Adds (application : String) : Script × Except Error Analysis → Share → Prop
  | found {script : Script} {a : Analysis} {records : List String}
      (h : a.findings.map (Record.encode application script.path) = records.map .ok) :
      Adds application (script, .ok a)
        ⟨records,
          { path := script.path, batches := a.batches, findings := a.findings.length,
            failure? := none }⟩
  | failed {script : Script} {e : Error} :
      Adds application (script, .error e)
        ⟨[], { path := script.path, batches := 0, findings := 0, failure? := some e.message }⟩
  | withdrawn {script : Script} {a : Analysis} {f : Finding} {before after : List Finding}
      {e : Error} (h : a.findings = before ++ f :: after)
      (hbefore : ∀ g ∈ before, ∃ record, Record.encode application script.path g = .ok record)
      (hf : Record.encode application script.path f = .error e) :
      Adds application (script, .ok a)
        ⟨[], { path := script.path, batches := 0, findings := 0, failure? := some e.message }⟩

/-! ### One more script -/

/-- The outcome is made of what the scripts so far added. Every entry counts the records of its
script, and every record has its verdict. -/
structure MadeOf (shares : List Share) (o : Outcome) : Prop where
  records : o.records = shares.flatMap (·.records)
  units : o.summary.units = shares.map (·.entry)
  counts : ∀ share ∈ shares, share.entry.findings = share.records.length
  verdicts : o.summary.verdicts.length = o.records.length

theorem MadeOf.failure (h : MadeOf shares o) (script : Script) (e : Error) :
    MadeOf (shares ++ [⟨[], ⟨script.path, 0, 0, some e.message⟩⟩])
      { o with summary := o.summary.addFailure script.path e.message } where
  records := by simp [h.records]
  units := by simp [Summary.addFailure, h.units]
  counts := List.forall_mem_append.mpr ⟨h.counts, by simp⟩
  verdicts := h.verdicts

theorem MadeOf.success (h : MadeOf shares o) {path : String} {a : Analysis} {records : List String}
    (hlength : a.findings.length = records.length) (codes : List String) :
    MadeOf (shares ++ [⟨records, ⟨path, a.batches, a.findings.length, none⟩⟩])
      { records := o.records ++ records
        summary := o.summary.addSuccess path a.batches a.findings codes } where
  records := by simp [h.records]
  units := by simp [Summary.addSuccess, h.units]
  counts := List.forall_mem_append.mpr ⟨h.counts, by simp [hlength]⟩
  verdicts := by simp [Summary.addSuccess, h.verdicts, hlength]

/-- Records are made up to the first finding that has none. -/
theorem records_eq_error {path : String} {a : Analysis} {e : Error}
    (h : records application path a = .error e) :
    ∃ before f after, a.findings = before ++ f :: after ∧
      (∀ g ∈ before, ∃ record, Record.encode application path g = .ok record) ∧
      Record.encode application path f = .error e := by
  unfold records at h
  generalize a.findings = findings at h ⊢
  induction findings with
  | nil => cases h
  | cons g rest ih =>
    rw [mapM_cons_eq] at h
    cases hg : Record.encode application path g with
    | error e' =>
      rw [hg] at h
      cases h
      exact ⟨[], g, rest, rfl, by simp, hg⟩
    | ok record =>
      cases hrest : rest.mapM (Record.encode application path) with
      | ok lines =>
        rw [hg, hrest] at h
        cases h
      | error e' =>
        rw [hg, hrest] at h
        cases h
        obtain ⟨before, f, after, rfl, hbefore, hf⟩ := ih hrest
        refine ⟨g :: before, f, after, rfl, fun x hx => ?_, hf⟩
        rcases List.mem_cons.mp hx with rfl | hx
        · exact ⟨record, hg⟩
        · exact hbefore x hx

/-- One more script adds its share and changes nothing else. -/
theorem MadeOf.add (application : String) (h : MadeOf shares o)
    (x : Script × Except Error Analysis) :
    ∃ share, Adds application x share ∧
      MadeOf (shares ++ [share]) (Run.add application o x) := by
  obtain ⟨script, result⟩ := x
  cases result with
  | error e => exact ⟨_, .failed, h.failure script e⟩
  | ok a =>
    cases hrecords : Run.records application script.path a with
    | error e =>
      obtain ⟨before, f, after, hfindings, hbefore, hf⟩ := records_eq_error hrecords
      refine ⟨_, .withdrawn hfindings hbefore hf, ?_⟩
      have hadd : Run.add application o (script, .ok a) =
          { o with summary := o.summary.addFailure script.path e.message } := by
        simp [Run.add, hrecords, bind, Except.bind]
      rw [hadd]
      exact h.failure script e
    | ok records =>
      have hall : records.map .ok = a.findings.map (Record.encode application script.path) :=
        map_of_mapM (fun _ _ => Eq.symm) hrecords
      refine ⟨_, .found hall.symm, ?_⟩
      have hadd : Run.add application o (script, .ok a) =
          { records := o.records ++ records
            summary := o.summary.addSuccess script.path a.batches a.findings
              (a.handled.map fun c => toString c.code) } := by
        simp [Run.add, hrecords, bind, Except.bind, pure, Except.pure]
      rw [hadd]
      exact h.success (by simpa using (congrArg List.length hall).symm) _

/-! ### All scripts -/

theorem MadeOf.foldl (application : String) (h : MadeOf shares o)
    (results : List (Script × Except Error Analysis)) :
    ∃ added, List.Forall₂ (Adds application) results added ∧
      MadeOf (shares ++ added) (results.foldl (Run.add application) o) := by
  induction results generalizing o shares with
  | nil => exact ⟨[], .nil, by simpa using h⟩
  | cons x rest ih =>
    obtain ⟨share, hshare, hnext⟩ := h.add application x
    obtain ⟨added, hadded, hlast⟩ := ih hnext
    exact ⟨share :: added, .cons hshare hadded, by simpa using hlast⟩

/-- The number of records is the number of findings that the entries count. -/
theorem MadeOf.total (h : MadeOf shares o) : o.summary.total = o.records.length := by
  have hcounts := h.counts
  rw [Summary.total, h.units, h.records]
  clear h
  induction shares with
  | nil => rfl
  | cons share rest ih =>
    have hrest := ih fun x hx => hcounts x (List.mem_cons_of_mem share hx)
    rw [List.map_cons, List.foldr_cons, List.flatMap_cons, List.length_append, hrest,
      hcounts share List.mem_cons_self]

/-- Where every analysis returns, the run adds up what they return. -/
theorem carryOut?_eq {root : Entry} {r : Request} {p : Plan}
    {results : List (Script × Except Error Analysis)} (hscripts : results.map (·.1) = p.scripts)
    (hresults : ∀ x ∈ results, analyze? root r p x.1 = some x.2) :
    carryOut? root r p =
      some (results.foldl (add r.application) { summary := { version := p.version.text } }) := by
  have hanalyses : (results.map (·.1)).mapM (fun s => (analyze? root r p s).map (s, ·)) =
      some results := by
    clear hscripts
    induction results with
    | nil => rfl
    | cons x rest ih =>
      rw [List.map_cons, List.mapM_cons, hresults x List.mem_cons_self,
        ih fun y hy => hresults y (List.mem_cons_of_mem x hy)]
      rfl
  rw [carryOut?, ← hscripts, hanalyses]
  rfl

end Run

/-- Every verdict is counted under one status. -/
theorem Summary.sum_statusTotal (s : Summary) :
    (Status.all.map s.statusTotal).sum = s.verdicts.length := by
  unfold statusTotal
  induction s.verdicts with
  | nil => rfl
  | cons v rest ih =>
    have hone : (Status.all.map fun status => if v.2 == status then 1 else 0).sum = 1 := by
      cases v.2 <;> rfl
    simp only [List.countP_cons, List.length_cons, List.sum_map_add, ih, hone]

/-! ### Writing -/

namespace Writer

/-- Without an error all records are written, each with a line feed behind it, and counted. -/
theorem writeAll_done {w w' : Writer} {records : List String}
    (h : w.writeAll records = (w', none)) :
    w'.sink.text = w.sink.text ++ String.join (records.map (· ++ "\n")) ∧
      w'.written = w.written + records.length := by
  induction records generalizing w with
  | nil =>
    cases h
    simp
  | cons record rest ih =>
    have hwrites := w.writes_write record
    rcases hnext : w.write record with ⟨next, _ | e⟩
    · rw [(writeAll_cons_none hnext rest).1] at h
      obtain ⟨htexts, hcount⟩ := ih h
      rw [hnext] at hwrites
      cases hwrites with
      | whole =>
        refine ⟨?_, ?_⟩
        · rw [htexts, Sink.put, List.map_cons, String.join_cons, String.append_assoc]
        · rw [hcount, List.length_cons, Nat.add_right_comm, Nat.add_assoc]
    · rw [(writeAll_cons_some hnext rest).1] at h
      cases h

end Writer

namespace Run

/-- The output of a run. Whatever the analyses of the scripts return, each script adds its share:
the text is made of the records of those scripts that were analysed and all of whose findings have
a record, the others are listed with the reason, and the numbers of records written, of findings
and of verdicts of all statuses agree. -/
theorem output_accounted (application version : String)
    (results : List (Script × Except Error Analysis)) :
    ∃ o shares, o = results.foldl (add application) { summary := { version } } ∧
      List.Forall₂ (Adds application) results shares ∧
      o.text = String.join ((shares.flatMap (·.records)).map (· ++ "\n")) ∧
      o.summary.units = shares.map (·.entry) ∧
      o.records.length = o.summary.total ∧
      o.summary.total = (Status.all.map o.summary.statusTotal).sum ∧
      (∀ room path w, Writer.writeAll ⟨{ room }, path, 0⟩ o.records = (w, none) →
        w.sink.text = o.text ∧ w.written = o.summary.total) ∧
      ∀ root r p, r.application = application → p.version.text = version →
        results.map (·.1) = p.scripts → (∀ x ∈ results, analyze? root r p x.1 = some x.2) →
        carryOut? root r p = some o := by
  have hstart : MadeOf [] ({ summary := { version } } : Outcome) := ⟨rfl, rfl, by simp, rfl⟩
  obtain ⟨shares, hshares, hmade⟩ := hstart.foldl application results
  rw [List.nil_append] at hmade
  have htotal := hmade.total
  refine ⟨_, shares, rfl, hshares, ?_, hmade.units, htotal.symm, ?_, ?_, ?_⟩
  · rw [Outcome.text, hmade.records]
  · rw [Summary.sum_statusTotal, hmade.verdicts, htotal]
  · intro room path w hw
    obtain ⟨htext, hwritten⟩ := Writer.writeAll_done hw
    refine ⟨?_, ?_⟩
    · simpa [Outcome.text] using htext
    · rw [hwritten, htotal, Nat.zero_add]
  · rintro root r p rfl rfl hscripts hresults
    exact carryOut?_eq hscripts hresults

theorem Adds.of_forall_encode {script : Script} {a : Analysis} {share : Share}
    (h : Adds application (script, .ok a) share)
    (hall : ∀ f ∈ a.findings, (Record.encode application script.path f).isOk) :
    a.findings.map (Record.encode application script.path) = share.records.map .ok := by
  cases h with
  | found h => exact h
  | @withdrawn _ _ f _ _ _ h _ hf =>
    have hok := hall f (by simp [h])
    rw [hf] at hok
    cases hok

theorem Adds.of_encode_eq_error {script : Script} {a : Analysis} {share : Share} {f : Finding}
    (h : Adds application (script, .ok a) share) (hmem : f ∈ a.findings)
    (hf : (Record.encode application script.path f).isOk = false) : share.records = [] := by
  cases h with
  | found h =>
    have hok : Record.encode application script.path f ∈ _ := List.mem_map_of_mem hmem
    rw [h] at hok
    obtain ⟨record, -, hrecord⟩ := List.mem_map.mp hok
    rw [← hrecord] at hf
    cases hf
  | withdrawn => rfl

/-- A finding over two lines takes the one before it along; a script that cannot be read and one
with a plain finding stand beside it. -/
theorem output_accounted_withdrawn :
    let plain : Finding := ⟨"PRINT", "", "g", .ignored, 1, 1, 1, "", "", ""⟩
    let o := [(⟨"a.sql", none⟩, .error (.sourceUnreadable "a.sql")),
      (⟨"b.sql", none⟩, .ok ⟨[⟨[plain, { plain with item := "A\nB" }], []⟩], ""⟩),
      (⟨"c.sql", none⟩, .ok ⟨[⟨[plain], []⟩], ""⟩)].foldl (add "") { summary := { version := "" } }
    (∃ w, Writer.writeAll ⟨⟨none, ""⟩, "out", 0⟩ o.records = (w, none) ∧
      w.written = o.summary.total ∧ w.sink.text = "PRINT||g|Ignored|1||c.sql|1|1|||\n") ∧
      ∃ o, carryOut? (.folder []) { inputs := [] }
        ⟨.default, {}, Matrix.Default.v200, [⟨"a.sql", none⟩]⟩ = some o ∧ o.text = "" := by
  intro plain o
  have hplain : Record.encode "" "c.sql" plain = .ok "PRINT||g|Ignored|1||c.sql|1|1|||" := by cbv
  have hbroken : (Record.encode "" "b.sql" { plain with item := "A\nB" }).isOk = false := by cbv
  constructor
  · obtain ⟨_, shares, rfl, hshares, htext, -, -, -, hwrite, -⟩ := output_accounted "" ""
      [(⟨"a.sql", none⟩, .error (.sourceUnreadable "a.sql")),
        (⟨"b.sql", none⟩, .ok ⟨[⟨[plain, { plain with item := "A\nB" }], []⟩], ""⟩),
        (⟨"c.sql", none⟩, .ok ⟨[⟨[plain], []⟩], ""⟩)]
    rcases hshares with _ | ⟨⟨⟩, _ | ⟨hb, _ | ⟨hc, _ | _⟩⟩⟩
    have hnone := hb.of_encode_eq_error (List.mem_cons_of_mem plain List.mem_cons_self) hbroken
    have hone := hc.of_forall_encode
      (by simp [Analysis.findings, hplain, Except.isOk, Except.toBool])
    have hline : ["PRINT||g|Ignored|1||c.sql|1|1|||"] = _ :=
      List.map_injective_iff.mpr (fun _ _ => Except.ok.inj)
        ((by simp [Analysis.findings, hplain] : _ = _).trans hone)
    have hall := Writer.writeAll_endless "" "out" 0 o.records
    obtain ⟨hsink, hwritten⟩ := hwrite none "out" _ hall
    rw [List.flatMap_cons, List.flatMap_cons, List.flatMap_cons, hnone, ← hline] at htext
    exact ⟨_, hall, hwritten, hsink.trans (htext.trans (by decide +kernel))⟩
  · obtain ⟨o, shares, -, hshares, htext, -, -, -, -, hrun⟩ := output_accounted ""
      Matrix.Default.v200.text [(⟨"a.sql", none⟩, .error (.sourceUnreadable "a.sql"))]
    refine ⟨o, hrun (.folder []) { inputs := [] } _ rfl rfl rfl (by simp [analyze?]; rfl), ?_⟩
    rcases hshares with _ | ⟨⟨⟩, _ | _⟩
    exact htext

end Run

end Portability
