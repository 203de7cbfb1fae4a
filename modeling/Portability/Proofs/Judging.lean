import Portability.Finding

/-! Verdicts on a list of reports: they are all given, or the first that fails is the outcome. -/
namespace Portability

variable {α β ε : Type}

theorem exists_of_bind_eq_ok {x : Except ε α} {f : α → Except ε β} {b : β} (h : x >>= f = .ok b) :
    ∃ a, x = .ok a ∧ f a = .ok b := by
  cases x with
  | error e => cases h
  | ok a => exact ⟨a, rfl, h⟩

/-- What every step of a fold keeps, the fold keeps. -/
theorem foldlM_invariant {f : β → α → Except ε β} {P : β → Prop} {as : List α} {b b' : β}
    (hstep : ∀ a ∈ as, ∀ b b', P b → f b a = .ok b' → P b') (hb : P b)
    (h : as.foldlM f b = .ok b') : P b' := by
  induction as generalizing b with
  | nil =>
    cases h
    exact hb
  | cons a as ih =>
    rw [List.foldlM_cons] at h
    obtain ⟨next, hnext, hrest⟩ := exists_of_bind_eq_ok h
    exact ih (fun x hx => hstep x (List.mem_cons_of_mem a hx))
      (hstep a List.mem_cons_self b next hb hnext) hrest

theorem mapM_cons_eq (f : α → Except ε β) (a : α) (as : List α) :
    (a :: as).mapM f =
      match f a with
      | .error e => .error e
      | .ok b =>
        match as.mapM f with
        | .error e => .error e
        | .ok bs => .ok (b :: bs) := by
  simp only [List.mapM_cons, bind, Except.bind, pure, Except.pure]
  cases f a with
  | error e => rfl
  | ok b => cases as.mapM f <;> rfl

theorem mapM_eq_ok_of_forall {f : α → Except ε β} {as : List α} (h : ∀ a ∈ as, ∃ b, f a = .ok b) :
    ∃ bs, as.mapM f = .ok bs := by
  induction as with
  | nil => exact ⟨[], rfl⟩
  | cons a as ih =>
    obtain ⟨b, hb⟩ := h a List.mem_cons_self
    obtain ⟨bs, hbs⟩ := ih fun x hx => h x (List.mem_cons_of_mem a hx)
    exact ⟨b :: bs, by rw [mapM_cons_eq, hb, hbs]⟩

/-- Where all failures are the same, one failing member is enough for it. -/
theorem mapM_eq_error_of_exists {f : α → Except ε β} {as : List α} {e : ε}
    (honly : ∀ a ∈ as, ∀ e', f a = .error e' → e' = e) (hsome : ∃ a ∈ as, f a = .error e) :
    as.mapM f = .error e := by
  induction as with
  | nil => simp at hsome
  | cons a as ih =>
    rw [mapM_cons_eq]
    cases ha : f a with
    | error e' => rw [honly a List.mem_cons_self e' ha]
    | ok b =>
      have hrest : ∃ x ∈ as, f x = .error e := by
        obtain ⟨x, hx, hfx⟩ := hsome
        rcases List.mem_cons.mp hx with rfl | hx
        · rw [ha] at hfx
          cases hfx
        · exact ⟨x, hx, hfx⟩
      rw [ih (fun x hx => honly x (List.mem_cons_of_mem a hx)) hrest]

theorem map_of_mapM {γ : Type} {f : α → Except ε β} {g : β → γ} {k : α → γ} {as : List α}
    {bs : List β} (hf : ∀ a b, f a = .ok b → g b = k a) (h : as.mapM f = .ok bs) :
    bs.map g = as.map k := by
  induction as generalizing bs with
  | nil =>
    cases h
    rfl
  | cons a as ih =>
    rw [mapM_cons_eq] at h
    split at h
    · cases h
    · rename_i b hb
      split at h
      · cases h
      · rename_i cs hcs
        cases h
        simp [hf a b hb, ih hcs]

theorem exists_of_mem_mapM {f : α → Except ε β} {as : List α} {bs : List β} {b : β}
    (h : as.mapM f = .ok bs) (hb : b ∈ bs) : ∃ a ∈ as, f a = .ok b := by
  have hresults : bs.map Except.ok = as.map f := map_of_mapM (fun _ _ => Eq.symm) h
  have hmem : Except.ok b ∈ as.map f := hresults ▸ List.mem_map_of_mem hb
  obtain ⟨a, ha, hfa⟩ := List.mem_map.mp hmem
  exact ⟨a, ha, hfa⟩

theorem exists_of_mem_of_mapM {f : α → Except ε β} {as : List α} {bs : List β} {a : α}
    (h : as.mapM f = .ok bs) (ha : a ∈ as) : ∃ b ∈ bs, f a = .ok b := by
  have hresults : bs.map Except.ok = as.map f := map_of_mapM (fun _ _ => Eq.symm) h
  obtain ⟨b, hb, hfa⟩ := List.mem_map.mp (hresults ▸ List.mem_map_of_mem ha)
  exact ⟨b, hb, hfa.symm⟩

/-- Members that pass a test are judged among all as they are on their own. -/
theorem filter_of_mapM {f : α → Except ε β} {test : α → Bool} {as : List α} {bs : List (Bool × β)}
    (h : (as.mapM fun a => return (test a, ← f a)) = .ok bs) (side : Bool) :
    (as.filter (test · == side)).mapM f = .ok ((bs.filter (·.1 == side)).map (·.2)) := by
  induction as generalizing bs with
  | nil =>
    cases h
    rfl
  | cons a as ih =>
    rw [mapM_cons_eq] at h
    cases ha : f a with
    | error e => simp [ha, bind, Except.bind] at h
    | ok b =>
      simp only [ha, bind, Except.bind, pure, Except.pure] at h
      split at h
      · cases h
      · rename_i cs hcs
        cases h
        have hrest := ih hcs
        by_cases ht : test a = side
        · rw [List.filter_cons_of_pos (by simpa using ht), mapM_cons_eq, ha, hrest]
          simp [ht]
        · simp [ht, hrest]

namespace Judge

/-- A finding is the report in its surroundings with the ruling on its question. -/
theorem exists_ruling_of_finding {j : Judge} {place : BatchPlace} {s : Sighting} {f : Finding}
    (h : j.finding place s = .ok f) :
    ∃ ruling group, j.matrix.rule j.version s.report.question = .ok ruling ∧
      j.matrix.group ruling.sectionName ruling.lookup = .ok group ∧
      f = {
        item := Text.collapse s.report.display
        detail := Text.truncate (Text.collapse (ruling.detail?.getD s.report.detail))
          Finding.detailLimit
        group
        status := (j.relabel ruling.sectionName (ruling.lookup.getD s.report.display)
          ruling.status).1
        misc := (j.relabel ruling.sectionName (ruling.lookup.getD s.report.display)
          ruling.status).2
        line := s.report.line
        batch := place.number
        fileLine := place.fileLine s.report.line
        object := Text.collapse s.object
        part := Text.collapse s.part } := by
  unfold finding at h
  simp only [bind, Except.bind] at h
  split at h
  · cases h
  · rename_i ruling hruling
    split at h
    · cases h
    · rename_i group hgroup
      cases h
      exact ⟨ruling, group, hruling, hgroup, rfl⟩

theorem item_of_finding {j : Judge} {place : BatchPlace} {s : Sighting} {f : Finding}
    (h : j.finding place s = .ok f) : f.item = Text.collapse s.report.display := by
  obtain ⟨_, _, -, -, rfl⟩ := exists_ruling_of_finding h
  rfl

/-- The verdicts that are held back come after the others, each part in its order. -/
theorem findings_eq_ok {j : Judge} {place : BatchPlace} {sightings : List Sighting}
    {found : List Finding} (h : j.findings place sightings = .ok found) :
    ∃ prompt queued, found = prompt ++ queued ∧
      (sightings.filter (·.isQueued == false)).mapM (j.finding place) = .ok prompt ∧
      (sightings.filter (·.isQueued == true)).mapM (j.finding place) = .ok queued := by
  unfold findings at h
  simp only [bind, Except.bind] at h
  split at h
  · cases h
  · rename_i all hall
    cases h
    refine ⟨_, _, ?_, filter_of_mapM hall false, filter_of_mapM hall true⟩
    simp [List.partition_eq_filter_filter, Function.comp_def]

/-- Every finding is the verdict on some sighting. -/
theorem exists_of_mem_findings {j : Judge} {place : BatchPlace} {sightings : List Sighting}
    {found : List Finding} {f : Finding} (h : j.findings place sightings = .ok found)
    (hf : f ∈ found) : ∃ x ∈ sightings, j.finding place x = .ok f := by
  obtain ⟨prompt, queued, rfl, hprompt, hqueued⟩ := findings_eq_ok h
  rcases List.mem_append.mp hf with hf | hf
  · obtain ⟨x, hx, hfx⟩ := exists_of_mem_mapM hprompt hf
    exact ⟨x, (List.mem_filter.mp hx).1, hfx⟩
  · obtain ⟨x, hx, hfx⟩ := exists_of_mem_mapM hqueued hf
    exact ⟨x, (List.mem_filter.mp hx).1, hfx⟩

/-- Every sighting has its finding. -/
theorem exists_finding_of_mem {j : Judge} {place : BatchPlace} {sightings : List Sighting}
    {found : List Finding} (h : j.findings place sightings = .ok found) {x : Sighting}
    (hx : x ∈ sightings) : ∃ f ∈ found, j.finding place x = .ok f := by
  obtain ⟨prompt, queued, rfl, hprompt, hqueued⟩ := findings_eq_ok h
  cases hside : x.isQueued with
  | false =>
    obtain ⟨f, hf, hfinding⟩ :=
      exists_of_mem_of_mapM hprompt (List.mem_filter.mpr ⟨hx, by simp [hside]⟩)
    exact ⟨f, List.mem_append_left _ hf, hfinding⟩
  | true =>
    obtain ⟨f, hf, hfinding⟩ :=
      exists_of_mem_of_mapM hqueued (List.mem_filter.mpr ⟨hx, by simp [hside]⟩)
    exact ⟨f, List.mem_append_right _ hf, hfinding⟩

end Judge

end Portability
