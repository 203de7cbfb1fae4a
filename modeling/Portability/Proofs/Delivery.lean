import Portability.Proofs.Records

/-! Records written to a destination with limited room. What arrives is a run of whole lines, at
most one record at the end without its line feed, and nothing behind such a record; the writer
counts the whole lines. -/
namespace Portability

/-! ### Room -/

namespace Sink

variable {s : Sink} {text : String}

/-- There is room for the text behind what has arrived. -/
def Fits (s : Sink) (text : String) : Prop :=
  ∀ room ∈ s.room, s.text.utf8ByteSize + text.utf8ByteSize ≤ room

/-- The sink with a text behind what has arrived. -/
def put (s : Sink) (text : String) : Sink := { s with text := s.text ++ text }

/-- What has arrived takes up all of the room. -/
def IsFull (s : Sink) : Prop := s.room = some s.text.utf8ByteSize

theorem write?_eq_some (h : s.Fits text) : s.write? text = some (s.put text) := by
  unfold write?
  cases hroom : s.room with
  | none => simp [put, hroom]
  | some room =>
    have hle := h room hroom
    simp [put, hroom, Nat.not_lt.mpr hle]

theorem write?_eq_none (h : ¬ s.Fits text) : s.write? text = none := by
  unfold write?
  cases hroom : s.room with
  | none =>
    have hall : s.Fits text := by simp [Fits, hroom]
    exact (h hall).elim
  | some room =>
    have hlt : room < s.text.utf8ByteSize + text.utf8ByteSize := by
      simpa [Fits, hroom] using h
    simp [hlt]

theorem put_put (s : Sink) (a b : String) : (s.put a).put b = s.put (a ++ b) := by
  simp [put, String.append_assoc]

theorem fits_append {a b : String} : s.Fits (a ++ b) ↔ s.Fits a ∧ (s.put a).Fits b := by
  simp only [Fits, put, String.utf8ByteSize_append]
  constructor
  · intro h
    constructor
    · intro room hroom
      have := h room hroom
      omega
    · intro room hroom
      have := h room hroom
      omega
  · rintro ⟨-, h⟩ room hroom
    have := h room hroom
    omega

theorem fits_line_iff {room : Nat} {record : String} (h : s.room = some room) :
    s.Fits (record ++ "\n") ↔ s.text.utf8ByteSize + record.utf8ByteSize + 1 ≤ room := by
  have hone : "\n".utf8ByteSize = 1 := by decide
  simp [Fits, h, String.utf8ByteSize_append, hone, Nat.add_assoc]

/-- A line feed is one byte: where it alone finds no room, there is none left. -/
theorem isFull_of_not_fits {record : String} (h : s.Fits record)
    (hline : ¬ s.Fits (record ++ "\n")) : (s.put record).IsFull := by
  have hone : "\n".utf8ByteSize = 1 := by decide
  cases hroom : s.room with
  | none =>
    have hall : s.Fits (record ++ "\n") := by simp [Fits, hroom]
    exact (hline hall).elim
  | some room =>
    have hle := h room hroom
    have hlt : room < s.text.utf8ByteSize + (record ++ "\n").utf8ByteSize := by
      simpa [Fits, hroom] using hline
    rw [String.utf8ByteSize_append, hone] at hlt
    simp only [IsFull, put, hroom, String.utf8ByteSize_append, Option.some.injEq]
    omega

theorem IsFull.not_fits_line (h : s.IsFull) (record : String) : ¬ s.Fits (record ++ "\n") := by
  have hone : "\n".utf8ByteSize = 1 := by decide
  intro hfits
  have hle := hfits _ h
  rw [String.utf8ByteSize_append, hone] at hle
  omega

/-- Only a text without characters finds room in a full sink. -/
theorem IsFull.put_of_fits (h : s.IsFull) (hfits : s.Fits text) : s.put text = s := by
  have hle := hfits _ h
  have hempty : text = "" := by
    apply String.utf8ByteSize_eq_zero_iff.mp
    omega
  simp [put, hempty]

end Sink

namespace Writer

/-- What may be asked of a writer. -/
inductive Step where
  | emit (application file : String) (f : Finding)
  | writeAll (records : List String)

/-- The records that the step is about; a finding that has no record gives none. -/
def Step.records : Step → List String
  | emit application file f => (Record.encode application file f).toOption.toList
  | writeAll records => records

/-! ### One record -/

variable {w : Writer} {record : String} {records done : List String} {cut? : Option String}

/-- How the writing of a record ends: with the line feed behind it, without room for the line feed,
or without room for the record. -/
inductive Writes (w : Writer) (record : String) : Writer × Option Error → Prop
  | whole (h : w.sink.Fits (record ++ "\n")) : Writes w record
      ({ w with sink := w.sink.put (record ++ "\n"), written := w.written + 1 }, none)
  | cut (h : w.sink.Fits record) (hline : ¬ w.sink.Fits (record ++ "\n")) :
      Writes w record ({ w with sink := w.sink.put record }, some (.unwritable w.path))
  | refused (h : ¬ w.sink.Fits record) : Writes w record (w, some (.unwritable w.path))

theorem writes_write (w : Writer) (record : String) : w.Writes record (w.write record) := by
  unfold write
  by_cases hrecord : w.sink.Fits record
  · rw [Sink.write?_eq_some hrecord]
    dsimp only
    by_cases hline : (w.sink.put record).Fits "\n"
    · rw [Sink.write?_eq_some hline, Sink.put_put]
      exact .whole (Sink.fits_append.mpr ⟨hrecord, hline⟩)
    · rw [Sink.write?_eq_none hline]
      refine .cut hrecord ?_
      intro hall
      exact hline (Sink.fits_append.mp hall).2
  · rw [Sink.write?_eq_none hrecord]
    exact .refused hrecord

theorem write_eq_none_iff : (w.write record).2 = none ↔ w.sink.Fits (record ++ "\n") := by
  have hw := w.writes_write record
  generalize w.write record = result at hw
  cases hw with
  | whole h => simp [h]
  | cut h hline => simp [hline]
  | refused h =>
    have hline : ¬ w.sink.Fits (record ++ "\n") := fun hall => h (Sink.fits_append.mp hall).1
    simp [hline]

theorem room_write (w : Writer) (record : String) :
    (w.write record).1.sink.room = w.sink.room := by
  have hw := w.writes_write record
  generalize w.write record = result at hw
  cases hw <;> rfl

/-- Once the room is used up nothing changes any more. -/
theorem write_of_isFull (h : w.sink.IsFull) (record : String) :
    w.write record = (w, some (.unwritable w.path)) := by
  have hw := w.writes_write record
  generalize w.write record = result at hw
  cases hw with
  | whole hline => exact (h.not_fits_line record hline).elim
  | cut hfits hline => rw [h.put_of_fits hfits]
  | refused hfits => rfl

/-! ### Several records -/

/-- The records that are written in full, up to the first one that is not. -/
def accepted (w : Writer) : List String → List String
  | [] => []
  | record :: rest =>
    match w.write record with
    | (next, none) => record :: next.accepted rest
    | (_, some _) => []

theorem writeAll_cons_none {next : Writer} (h : w.write record = (next, none))
    (records : List String) :
    w.writeAll (record :: records) = next.writeAll records ∧
      w.accepted (record :: records) = record :: next.accepted records := by
  simp [writeAll, accepted, h]

theorem writeAll_cons_some {next : Writer} {e : Error} (h : w.write record = (next, some e))
    (records : List String) :
    w.writeAll (record :: records) = (next, some e) ∧ w.accepted (record :: records) = [] := by
  simp [writeAll, accepted, h]

/-- What has arrived: the records in `done`, each with its line feed, and perhaps one more record in
the last of the room. -/
structure Holds (w : Writer) (done : List String) (cut? : Option String) : Prop where
  text : w.sink.text = String.join (done.map (· ++ "\n")) ++ cut?.getD ""
  written : w.written = done.length
  full : ∀ record ∈ cut?, w.sink.IsFull

theorem Holds.write (h : w.Holds done cut?) (record : String) :
    ∃ cut'?, (w.write record).1.Holds (done ++ w.accepted [record]) cut'? ∧
      ∀ c ∈ cut'?, c ∈ cut? ∨ c = record := by
  cases cut? with
  | some c =>
    have hw := write_of_isFull (h.full c rfl) record
    have hnone := (writeAll_cons_some hw []).2
    refine ⟨some c, ?_, fun d hd => Or.inl hd⟩
    rw [hw, hnone, List.append_nil]
    exact h
  | none =>
    have htext : w.sink.text = String.join (done.map (· ++ "\n")) := by simpa using h.text
    have hw := w.writes_write record
    generalize hresult : w.write record = result at hw
    cases hw with
    | whole hfits =>
      have hone : w.accepted [record] = [record] := (writeAll_cons_none hresult []).2
      refine ⟨none, ⟨?_, ?_, by simp⟩, by simp⟩
      · simp [Sink.put, htext, hone]
      · simp [h.written, hone]
    | cut hfits hline =>
      have hnone : w.accepted [record] = [] := (writeAll_cons_some hresult []).2
      refine ⟨some record, ⟨?_, ?_, ?_⟩, by simp⟩
      · simp [Sink.put, htext, hnone]
      · simp [h.written, hnone]
      · intro c hc
        exact Sink.isFull_of_not_fits hfits hline
    | refused hfits =>
      have hnone : w.accepted [record] = [] := (writeAll_cons_some hresult []).2
      refine ⟨none, ?_, by simp⟩
      rw [hnone, List.append_nil]
      exact h

theorem Holds.writeAll (h : w.Holds done cut?) (records : List String) :
    ∃ cut'?, (w.writeAll records).1.Holds (done ++ w.accepted records) cut'? ∧
      ∀ c ∈ cut'?, c ∈ cut? ∨ c ∈ records := by
  induction records generalizing w done cut? with
  | nil => exact ⟨cut?, by simpa [Writer.writeAll, accepted] using h, fun c hc => Or.inl hc⟩
  | cons record rest ih =>
    obtain ⟨mid?, hmid, hfrom⟩ := h.write record
    rcases hresult : w.write record with ⟨next, _ | e⟩
    · have hone : w.accepted [record] = [record] := (writeAll_cons_none hresult []).2
      obtain ⟨hwriteAll, haccepted⟩ := writeAll_cons_none hresult rest
      rw [hresult, hone] at hmid
      obtain ⟨cut'?, hcut, hfrom'⟩ := ih hmid
      refine ⟨cut'?, ?_, ?_⟩
      · rw [hwriteAll, haccepted]
        simpa using hcut
      · intro c hc
        rcases hfrom' c hc with hc | hc
        · rcases hfrom c hc with hc | rfl
          · exact Or.inl hc
          · exact Or.inr List.mem_cons_self
        · exact Or.inr (List.mem_cons_of_mem record hc)
    · have hnone : w.accepted [record] = [] := (writeAll_cons_some hresult []).2
      obtain ⟨hwriteAll, haccepted⟩ := writeAll_cons_some hresult rest
      rw [hresult, hnone] at hmid
      refine ⟨mid?, ?_, ?_⟩
      · rw [hwriteAll, haccepted]
        exact hmid
      · intro c hc
        rcases hfrom c hc with hc | rfl
        · exact Or.inl hc
        · exact Or.inr List.mem_cons_self

theorem room_writeAll (w : Writer) (records : List String) :
    (w.writeAll records).1.sink.room = w.sink.room := by
  induction records generalizing w with
  | nil => rfl
  | cons record rest ih =>
    have hroom := w.room_write record
    rcases hresult : w.write record with ⟨next, _ | e⟩
    · rw [hresult] at hroom
      rw [(writeAll_cons_none hresult rest).1, ih, hroom]
    · rw [hresult] at hroom
      rw [(writeAll_cons_some hresult rest).1, hroom]

theorem writeAll_of_isFull (h : w.sink.IsFull) (records : List String) :
    (w.writeAll records).1 = w ∧ w.accepted records = [] := by
  cases records with
  | nil => exact ⟨rfl, rfl⟩
  | cons record rest =>
    obtain ⟨hwriteAll, haccepted⟩ := writeAll_cons_some (write_of_isFull h record) rest
    exact ⟨by rw [hwriteAll], haccepted⟩

/-- An error comes from the first record that is not written in full: the writer has written the
records before it and then tried this one. -/
theorem exists_failing {e : Error} (h : (w.writeAll records).2 = some e) :
    ∃ before record after, records = before ++ record :: after ∧
      (w.writeAll before).2 = none ∧ w.writeAll records = (w.writeAll before).1.write record ∧
      w.accepted records = before := by
  induction records generalizing w with
  | nil => cases h
  | cons record rest ih =>
    rcases hresult : w.write record with ⟨next, _ | e'⟩
    · obtain ⟨hwriteAll, haccepted⟩ := writeAll_cons_none hresult rest
      rw [hwriteAll] at h
      obtain ⟨before, failing, after, hsplit, hbefore, hfailing, hacc⟩ := ih h
      have hmore := (writeAll_cons_none hresult before).1
      refine ⟨record :: before, failing, after, by simp [hsplit], ?_, ?_, ?_⟩
      · rw [hmore]
        exact hbefore
      · rw [hwriteAll, hmore]
        exact hfailing
      · rw [haccepted, hacc]
    · obtain ⟨hwriteAll, haccepted⟩ := writeAll_cons_some hresult rest
      exact ⟨[], record, rest, rfl, rfl, by rw [hwriteAll]; exact hresult.symm, haccepted⟩

theorem accepted_of_done (h : (w.writeAll records).2 = none) : w.accepted records = records := by
  induction records generalizing w with
  | nil => rfl
  | cons record rest ih =>
    rcases hresult : w.write record with ⟨next, _ | e⟩
    · obtain ⟨hwriteAll, haccepted⟩ := writeAll_cons_none hresult rest
      rw [hwriteAll] at h
      rw [haccepted, ih h]
    · rw [(writeAll_cons_some hresult rest).1] at h
      cases h

/-! ### Steps -/

/-- The writer after a step, and the error of the step. -/
def step (w : Writer) : Step → Writer × Option Error
  | .emit application file f => w.emit application file f
  | .writeAll records => w.writeAll records

/-- The writer after several steps; their errors stop none of them. -/
def run (w : Writer) (steps : List Step) : Writer := steps.foldl (fun w s => (w.step s).1) w

/-- The records that are written in full in the course of several steps. -/
def history (w : Writer) : List Step → List String
  | [] => []
  | s :: rest => w.accepted s.records ++ (w.step s).1.history rest

theorem run_cons (w : Writer) (s : Step) (rest : List Step) :
    w.run (s :: rest) = (w.step s).1.run rest := rfl

theorem run_append (w : Writer) (steps more : List Step) :
    w.run (steps ++ more) = (w.run steps).run more := List.foldl_append

theorem history_append (w : Writer) (steps more : List Step) :
    w.history (steps ++ more) = w.history steps ++ (w.run steps).history more := by
  induction steps generalizing w with
  | nil => rfl
  | cons s rest ih => rw [List.cons_append, history, history, run_cons, ih, List.append_assoc]

/-- Of a step only its records matter for what arrives. -/
theorem step_eq_writeAll (w : Writer) (s : Step) : (w.step s).1 = (w.writeAll s.records).1 := by
  cases s with
  | writeAll records => rfl
  | emit application file f =>
    cases hencode : Record.encode application file f with
    | error e => simp [step, emit, Step.records, Writer.writeAll, hencode, Except.toOption]
    | ok record =>
      rcases hresult : w.write record with ⟨next, _ | e⟩ <;>
        simp [step, emit, Step.records, Writer.writeAll, hencode, hresult, Except.toOption]

theorem Holds.run (h : w.Holds done cut?) (steps : List Step) :
    ∃ cut'?, (w.run steps).Holds (done ++ w.history steps) cut'? ∧
      ∀ c ∈ cut'?, c ∈ cut? ∨ c ∈ steps.flatMap Step.records := by
  induction steps generalizing w done cut? with
  | nil => exact ⟨cut?, by simpa [Writer.run, history] using h, fun c hc => Or.inl hc⟩
  | cons s rest ih =>
    obtain ⟨mid?, hmid, hfrom⟩ := h.writeAll s.records
    rw [← step_eq_writeAll] at hmid
    obtain ⟨cut'?, hcut, hfrom'⟩ := ih hmid
    refine ⟨cut'?, ?_, ?_⟩
    · rw [run_cons, history, ← List.append_assoc]
      exact hcut
    · intro c hc
      rcases hfrom' c hc with hc | hc
      · rcases hfrom c hc with hc | hc
        · exact Or.inl hc
        · exact Or.inr (by simp [hc])
      · exact Or.inr (List.mem_append_right _ hc)

theorem room_run (w : Writer) (steps : List Step) : (w.run steps).sink.room = w.sink.room := by
  induction steps generalizing w with
  | nil => rfl
  | cons s rest ih => rw [run_cons, ih, step_eq_writeAll, room_writeAll]

theorem run_of_isFull (h : w.sink.IsFull) (steps : List Step) :
    w.run steps = w ∧ w.history steps = [] := by
  induction steps with
  | nil => exact ⟨rfl, rfl⟩
  | cons s rest ih =>
    obtain ⟨hwriteAll, haccepted⟩ := writeAll_of_isFull h s.records
    have hstep : (w.step s).1 = w := by rw [step_eq_writeAll, hwriteAll]
    rw [run_cons, history, haccepted, hstep]
    exact ih

theorem accepted_subset (w : Writer) (records : List String) : w.accepted records ⊆ records := by
  cases herror : (w.writeAll records).2 with
  | none => rw [accepted_of_done herror]; exact fun _ h => h
  | some e =>
    obtain ⟨before, record, after, hsplit, -, -, hbefore⟩ := exists_failing herror
    rw [hbefore, hsplit]
    exact List.subset_append_left _ _

theorem history_subset (w : Writer) (steps : List Step) :
    w.history steps ⊆ steps.flatMap Step.records := by
  induction steps generalizing w with
  | nil => exact fun _ h => h
  | cons s rest ih =>
    intro record hrecord
    rcases List.mem_append.mp hrecord with h | h
    · exact List.mem_append_left _ (w.accepted_subset s.records h)
    · exact List.mem_append_right _ (ih _ h)

theorem count_lineFeed_stream {records : List String}
    (h : ∀ record ∈ records, '\n' ∉ record.toList) :
    (String.join (records.map (· ++ "\n"))).toList.count '\n' = records.length := by
  induction records with
  | nil => rfl
  | cons record rest ih =>
    have hnone : record.toList.count '\n' = 0 :=
      List.count_eq_zero.mpr (h record List.mem_cons_self)
    have hrest := ih fun r hr => h r (List.mem_cons_of_mem record hr)
    rw [List.map_cons, String.join_cons, String.toList_append, List.count_append, hrest,
      String.toList_append, List.count_append, hnone]
    simp
    omega

theorem Holds.count_lineFeed (h : w.Holds done cut?)
    (hdone : ∀ record ∈ done, '\n' ∉ record.toList) (hcut : ∀ record ∈ cut?, '\n' ∉ record.toList) :
    w.sink.text.toList.count '\n' = w.written := by
  have hrest : (cut?.getD "").toList.count '\n' = 0 := by
    cases cut? with
    | none => rfl
    | some record => exact List.count_eq_zero.mpr (hcut record rfl)
  rw [h.text, String.toList_append, List.count_append, hrest, h.written,
    count_lineFeed_stream hdone, Nat.add_zero]

/-- The record of a finding is one line. -/
theorem Step.oneLine {s : Step}
    (h : ∀ records, s = .writeAll records → ∀ record ∈ records, '\n' ∉ record.toList) :
    ∀ record ∈ s.records, '\n' ∉ record.toList := by
  intro record hrecord
  cases s with
  | writeAll records => exact h records rfl record hrecord
  | emit application file f =>
    obtain ⟨r, hr, rfl⟩ : ∃ r, Record.encode application file f = .ok r ∧ r = record := by
      cases hencode : Record.encode application file f with
      | error e => simp [records, hencode, Except.toOption] at hrecord
      | ok r =>
        refine ⟨r, rfl, ?_⟩
        simpa [records, hencode, Except.toOption, eq_comm] using hrecord
    exact (Record.oneLine_of_encode hr).1

theorem history_writeAll (w : Writer) (steps : List Step) (records : List String) :
    w.history (steps ++ [.writeAll records]) =
      w.history steps ++ (w.run steps).accepted records := by
  rw [history_append]
  simp [history, Step.records]

/-- Whatever is asked of a writer with a number of bytes to fill, what arrives are the records that
were written without an error, in order and each with a line feed, and then perhaps one record
without it; then the writer is at its end. The writer counts the lines. A record is written if it
fits together with its line feed. When a list of records fails, the records before the one that
fails are written and counted, and only that one is tried then. A finding that has no record changes
nothing. -/
theorem sink_text_eq_lines_append_cut (room : Nat) (path : String) (steps : List Step)
    (h : ∀ records, Step.writeAll records ∈ steps → ∀ record ∈ records, '\n' ∉ record.toList) :
    let start : Writer := { sink := { room := some room }, path }
    let w := start.run steps
    let lines := start.history steps
    (∃ cut? : Option String,
      w.sink.text = String.join (lines.map (· ++ "\n")) ++ cut?.getD "" ∧
      ∀ record ∈ cut?, record ∈ steps.flatMap Step.records ∧
        ∀ more, start.run (steps ++ more) = w ∧ start.history (steps ++ more) = lines) ∧
    w.written = lines.length ∧ w.sink.text.toList.count '\n' = w.written ∧
    (∀ record, (w.write record).2 = none ↔
      w.sink.text.utf8ByteSize + record.utf8ByteSize + 1 ≤ room) ∧
    (∀ records, (w.writeAll records).2 = none →
      start.history (steps ++ [.writeAll records]) = lines ++ records) ∧
    (∀ records e, (w.writeAll records).2 = some e → ∃ before record after,
      records = before ++ record :: after ∧ (w.writeAll before).2 = none ∧
      w.writeAll records = (w.writeAll before).1.write record ∧
      start.history (steps ++ [.writeAll records]) = lines ++ before ∧
      (w.writeAll records).1.written = w.written + before.length) ∧
    ∀ application file f e, Record.encode application file f = .error e →
      w.emit application file f = (w, some e) := by
  intro start w lines
  have hempty : start.Holds [] none := ⟨rfl, rfl, by simp⟩
  obtain ⟨cut?, hholds, hfrom⟩ := hempty.run steps
  rw [List.nil_append] at hholds
  have hplain : ∀ record ∈ steps.flatMap Step.records, '\n' ∉ record.toList := by
    intro record hrecord
    obtain ⟨s, hs, hrecord⟩ := List.mem_flatMap.mp hrecord
    exact Step.oneLine (fun records hs' => h records (hs' ▸ hs)) record hrecord
  have hcut : ∀ record ∈ cut?, record ∈ steps.flatMap Step.records := by
    intro record hrecord
    exact (hfrom record hrecord).resolve_left (by simp)
  have hroom : w.sink.room = some room := room_run start steps
  refine ⟨⟨cut?, hholds.text, ?_⟩, hholds.written, ?_, ?_, ?_, ?_, ?_⟩
  · intro record hrecord
    refine ⟨hcut record hrecord, fun more => ?_⟩
    obtain ⟨hrun, hhistory⟩ := run_of_isFull (hholds.full record hrecord) more
    rw [run_append, history_append, hrun, hhistory, List.append_nil]
    exact ⟨rfl, rfl⟩
  · exact hholds.count_lineFeed
      (fun record hrecord => hplain record (history_subset start steps hrecord))
      fun record hrecord => hplain record (hcut record hrecord)
  · intro record
    rw [write_eq_none_iff, Sink.fits_line_iff hroom]
  · intro records hdone
    rw [history_writeAll, accepted_of_done hdone]
  · intro records e herror
    obtain ⟨before, record, after, hsplit, hbefore, hfailing, hacc⟩ := exists_failing herror
    refine ⟨before, record, after, hsplit, hbefore, hfailing, ?_, ?_⟩
    · rw [history_writeAll, hacc]
    · obtain ⟨_, hmore, -⟩ := hholds.writeAll records
      rw [hmore.written, hacc, List.length_append, hholds.written]
  · intro application file f e hencode
    simp [emit, hencode]

/-- Five bytes: a record that is too long is refused and a finding over two lines has no record; of
the next list the second record takes up the room, and a record without characters changes nothing
after that. -/
theorem sink_text_eq_lines_append_cut_five_bytes :
    let steps : List Step := [.writeAll ["abcdef", "x"],
      .emit "a" "b.sql" ⟨"A\nB", "", "", .ignored, 1, 1, 1, "", "", ""⟩,
      .writeAll ["ab", "cd", "e"], .writeAll [""]]
    let w := run { sink := { room := some 5 }, path := "out" } steps
    w.sink.text = "ab\ncd" ∧ w.written = 1 ∧ w.sink.text.toList.count '\n' = 1 ∧
      ∀ more, run { sink := { room := some 5 }, path := "out" } (steps ++ more) = w := by
  intro steps w
  have hplain : ∀ records, Step.writeAll records ∈ steps →
      ∀ record ∈ records, '\n' ∉ record.toList := by
    intro records hrecords
    simp only [steps, List.mem_cons, Step.writeAll.injEq, reduceCtorEq, List.not_mem_nil,
      false_or, or_false] at hrecords
    rcases hrecords with rfl | rfl | rfl <;> decide
  have htext : w.sink.text = "ab\ncd" := by decide +kernel
  have hlines : history { sink := { room := some 5 }, path := "out" } steps = ["ab"] := by
    decide +kernel
  obtain ⟨⟨cut?, hstream, hlast⟩, hwritten, hcount, -⟩ :=
    sink_text_eq_lines_append_cut 5 "out" steps hplain
  rw [hlines] at hstream hwritten
  refine ⟨htext, hwritten, hcount.trans hwritten, ?_⟩
  cases cut? with
  | none => exact absurd (htext.symm.trans hstream) (by decide)
  | some record => exact fun more => ((hlast record rfl).2 more).1

end Writer

end Portability
