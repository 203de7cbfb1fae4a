import Mathlib
import Portability.Matrix.Default
import Portability.Matrix.Format
import Portability.Proofs.Coverage
import Portability.Proofs.NameKeys
import Portability.Proofs.VersionOrder

/-! The verdict of a matrix on an item is that of the newest rule in force, of equally new ones the
first. Rules of later versions do not matter to it, nor does the order among different versions. -/
namespace Portability

/-- The first of the greatest members is the greatest one that a search from the left finds. -/
theorem argmax_eq_some_iff {α β : Type} [LinearOrder β] {f : α → β} {l : List α} {m : α} :
    l.argmax f = some m ↔ (∀ a ∈ l, f a ≤ f m) ∧ l.find? (fun a => f a = f m) = some m := by
  have hfirst : ∀ {l : List α} {m : α}, l.argmax f = some m →
      l.find? (fun a => f a = f m) = some m := by
    intro l
    induction l with
    | nil => simp
    | cons x xs ih =>
      intro m hm
      rw [List.argmax_cons] at hm
      cases hxs : xs.argmax f with
      | none =>
        obtain rfl : x = m := by simpa [hxs] using hm
        simp
      | some c =>
        simp only [hxs] at hm
        split at hm
        · rename_i hlt
          obtain rfl := Option.some.inj hm
          rw [List.find?_cons_of_neg (by simpa using hlt.ne)]
          exact ih hxs
        · obtain rfl := Option.some.inj hm
          simp
  refine ⟨fun h => ⟨fun a ha => List.le_of_mem_argmax ha h, hfirst h⟩, ?_⟩
  rintro ⟨hmax, hfind⟩
  have hm : m ∈ l := List.mem_of_find?_eq_some hfind
  cases hl : l.argmax f with
  | none => simp [List.argmax_eq_none.mp hl] at hm
  | some n =>
    have hsame : f n = f m :=
      le_antisymm (hmax n (List.argmax_mem hl)) (List.le_of_mem_argmax hm hl)
    have hn := hfirst hl
    rwa [hsame, hfind, eq_comm] at hn

namespace Matrix

/-! ### Rules in force -/

/-- The rule is in force at a version and speaks about the item: it lists it, in any case, or every
item. Where no item is given, it is a rule on the section as a whole or on every item. -/
def Rule.Governs (r : Rule) (version : Version) (item : Option String) : Prop :=
  r.since.rank ≤ version.rank ∧
    (wildcard ∈ r.items ∨
      match item with
      | some item => ∃ listed ∈ r.items, Text.same listed item
      | none => r.items = [])

/-- The section takes the item: it is open, or it lists the item in any case. -/
def Section.Lists (s : Section) : Option String → Prop
  | some item => ∀ items, s.items = some items → ∃ listed ∈ items, Text.same listed item
  | none => True

/-- The rule on which the verdict rests: no rule in force is newer, and of the equally new ones none
stands before it. -/
structure Section.Decides (s : Section) (version : Version) (item : Option String) (r : Rule) :
    Prop where
  governs : r.Governs version item
  newest : ∀ x ∈ s.rules, x.Governs version item → x.since.rank ≤ r.since.rank
  first : ∃ before after, s.rules = before ++ r :: after ∧
    ∀ x ∈ before, x.Governs version item → x.since.rank < r.since.rank

/-- All items are in upper case. -/
structure Section.IsUpper (s : Section) : Prop where
  items : ∀ items, s.items = some items → ∀ i ∈ items, Text.upper i = i
  rules : ∀ r ∈ s.rules, ∀ i ∈ r.items, Text.upper i = i

/-- The rule is considered for an item in upper case. -/
def Rule.isCandidate (version : Version) (item : Option String) (r : Rule) : Bool :=
  !r.since.newer version && r.appliesTo item

theorem mem_upper_iff {items : List String} (h : ∀ i ∈ items, Text.upper i = i) (item : String) :
    Text.upper item ∈ items ↔ ∃ listed ∈ items, Text.same listed item := by
  constructor
  · intro hmem
    exact ⟨_, hmem, by rw [Text.same_iff_upper, Text.upper_upper]⟩
  · rintro ⟨listed, hmem, hsame⟩
    rw [← Text.upper_eq_of_same hsame, h listed hmem]
    exact hmem

theorem Rule.isCandidate_iff {r : Rule} (h : ∀ i ∈ r.items, Text.upper i = i) (version : Version)
    (item : Option String) :
    r.isCandidate version (item.map Text.upper) = true ↔ r.Governs version item := by
  unfold isCandidate Governs appliesTo
  have hforce : (!r.since.newer version) = true ↔ r.since.rank ≤ version.rank := by
    rw [Bool.not_eq_true', ← Bool.not_eq_true, Version.newer_iff, not_lt]
  rw [Bool.and_eq_true, hforce, Bool.or_eq_true, List.contains_iff_mem]
  cases item with
  | none => simp
  | some item => rw [Option.map_some, List.contains_iff_mem, mem_upper_iff h]

theorem Section.all_takes_iff {s : Section} (h : s.IsUpper) (item : Option String) :
    (item.all fun i => s.takes (Text.upper i)) = true ↔ s.Lists item := by
  cases item with
  | none => simp [Lists]
  | some item =>
    unfold takes Lists
    cases hitems : s.items with
    | none => simp
    | some items => simp [mem_upper_iff (h.items items hitems)]

/-- Rules are picked by the order of their versions, and the first of the greatest is kept. -/
theorem Section.rule?_eq_argmax (s : Section) (version : Version) (item : Option String) :
    s.rule? version item =
      (s.rules.filter (·.isCandidate version item)).argmax (·.since.rank) := by
  have hpick : Rule.pick = List.argAux fun b c : Rule => c.since.rank < b.since.rank := by
    funext best r
    cases best with
    | none => rfl
    | some b => simp only [Rule.pick, List.argAux, Version.newer_iff]
  rw [rule?, List.argmax, hpick]
  rfl

theorem Section.rule?_eq_some_iff {s : Section} (h : s.IsUpper) {version : Version}
    {item : Option String} {r : Rule} :
    s.rule? version (item.map Text.upper) = some r ↔ s.Decides version item r := by
  have hgoverns : ∀ x ∈ s.rules,
      x.isCandidate version (item.map Text.upper) = true ↔ x.Governs version item :=
    fun x hx => Rule.isCandidate_iff (h.rules x hx) version item
  rw [rule?_eq_argmax, argmax_eq_some_iff, List.find?_filter, List.find?_eq_some_iff_append]
  constructor
  · rintro ⟨hmax, hr, before, after, hsplit, hbefore⟩
    have hmem : r ∈ s.rules := by simp [hsplit]
    have hsub : ∀ x ∈ before, x ∈ s.rules := fun x hx => by simp [hsplit, hx]
    have hnewest : ∀ x ∈ s.rules, x.Governs version item → x.since.rank ≤ r.since.rank :=
      fun x hx hgov => hmax x (List.mem_filter.mpr ⟨hx, (hgoverns x hx).mpr hgov⟩)
    refine ⟨(hgoverns r hmem).mp (by simpa using hr), hnewest, before, after, hsplit, ?_⟩
    intro x hx hgov
    have hne := hbefore x hx
    refine lt_of_le_of_ne (hnewest x (hsub x hx) hgov) fun heq => ?_
    simp [(hgoverns x (hsub x hx)).mpr hgov, heq] at hne
  · rintro ⟨hgov, hnewest, before, after, hsplit, hbefore⟩
    have hmem : r ∈ s.rules := by simp [hsplit]
    refine ⟨fun x hx => ?_, by simpa using (hgoverns r hmem).mpr hgov, before, after, hsplit, ?_⟩
    · obtain ⟨hx, hcandidate⟩ := List.mem_filter.mp hx
      exact hnewest x hx ((hgoverns x hx).mp hcandidate)
    · intro x hx
      have hmemx : x ∈ s.rules := by simp [hsplit, hx]
      by_cases hcandidate : x.isCandidate version (item.map Text.upper) = true
      · simp [(hbefore x hx ((hgoverns x hmemx).mp hcandidate)).ne]
      · simp [hcandidate]

theorem Section.rule?_eq_none_iff {s : Section} (h : s.IsUpper) {version : Version}
    {item : Option String} :
    s.rule? version (item.map Text.upper) = none ↔ ∀ r ∈ s.rules, ¬ r.Governs version item := by
  rw [rule?_eq_argmax, List.argmax_eq_none, List.filter_eq_nil_iff]
  exact forall₂_congr fun r hr => not_congr (Rule.isCandidate_iff (h.rules r hr) version item)

/-! ### Matrices that are read -/

/-- The key is that of a rule: none of the other keys of a section. -/
def Entry.isRule (e : Entry) : Bool :=
  let key := Text.lower e.key
  key ≠ "list" && key ≠ "report_group" && key ≠ "default_classification" && key ≠ "limit" &&
    !Text.startsWith key itemGroupStart

theorem ruleOf_items {e : Entry} {r : Rule} (h : ruleOf e = .ok r) :
    r.items = upperMembers e.value := by
  unfold ruleOf at h
  split at h
  · cases h
  split at h
  · cases h
  split at h
  · cases h
  · cases h
    rfl

/-- An entry adds a rule, or it leaves the rules as they are and perhaps sets the items. -/
theorem Section.put_cases {s s' : Section} {e : Entry} (h : s.put e = .ok s') :
    (e.isRule = true ∧ ∃ r, ruleOf e = .ok r ∧ s' = { s with rules := s.rules ++ [r] }) ∨
      (e.isRule = false ∧ s'.name = s.name ∧ s'.rules = s.rules ∧
        (s'.items = s.items ∨ s'.items = none ∨ s'.items = some (upperMembers e.value))) := by
  dsimp only [put] at h
  unfold Entry.isRule
  split at h
  · rename_i hkey
    cases h
    refine .inr ⟨by simp [hkey], rfl, rfl, .inr ?_⟩
    dsimp only
    split <;> simp
  split at h
  · rename_i hkey
    cases h
    exact .inr ⟨by simp [hkey], rfl, rfl, .inl rfl⟩
  split at h
  · rename_i hkey
    split at h
    · cases h
      exact .inr ⟨by simp [hkey], rfl, rfl, .inl rfl⟩
    · cases h
  split at h
  · rename_i hkey
    split at h
    · cases h
      exact .inr ⟨by simp [hkey], rfl, rfl, .inl rfl⟩
    · cases h
  split at h
  · rename_i hkey
    cases h
    exact .inr ⟨by simp [hkey], rfl, rfl, .inl rfl⟩
  · cases hrule : ruleOf e with
    | error fault => simp [hrule, Except.map] at h
    | ok r =>
      rw [hrule] at h
      cases h
      exact .inl ⟨by simp [*], r, rfl, rfl⟩

theorem upper_of_mem_upperMembers {value i : String} (h : i ∈ upperMembers value) :
    Text.upper i = i := by
  obtain ⟨member, -, rfl⟩ := List.mem_map.mp h
  exact Text.upper_upper member

theorem Section.put_isUpper {s s' : Section} {e : Entry} (hs : s.IsUpper)
    (h : s.put e = .ok s') : s'.name = s.name ∧ s'.IsUpper := by
  rcases put_cases h with ⟨-, r, hr, rfl⟩ | ⟨-, hname, hrules, hitems⟩
  · refine ⟨rfl, hs.items, fun x hx i hi => ?_⟩
    rcases List.mem_append.mp hx with hx | hx
    · exact hs.rules x hx i hi
    · rw [List.mem_singleton.mp hx, ruleOf_items hr] at hi
      exact upper_of_mem_upperMembers hi
  · refine ⟨hname, fun items hsome i hi => ?_, hrules ▸ hs.rules⟩
    rcases hitems with hsame | hnone | hlist
    · exact hs.items items (hsame ▸ hsome) i hi
    · cases hnone.symm.trans hsome
    · rw [hlist, Option.some.injEq] at hsome
      exact upper_of_mem_upperMembers (hsome ▸ hi)

theorem isUpper_new (name : String) : Section.IsUpper { name } := ⟨by simp, by simp⟩

/-- The sections are in upper case and no two of them have one name. -/
def AllUpper (sections : List Section) : Prop :=
  (∀ s ∈ sections, s.IsUpper) ∧ (sections.map Section.key).Nodup

theorem addSection_allUpper {acc acc' : List Version × List Section} {raw : RawSection}
    (hacc : AllUpper acc.2) (h : addSection acc raw = .ok acc') : AllUpper acc'.2 := by
  dsimp only [addSection] at h
  split at h
  · cases h
  rename_i hnew
  split at h
  · obtain ⟨versions, -, h⟩ := exists_of_bind_eq_ok h
    cases h
    exact hacc
  · obtain ⟨s, hfold, h⟩ := exists_of_bind_eq_ok h
    cases h
    have hs : s.name = raw.name ∧ s.IsUpper :=
      foldlM_invariant (P := fun s => s.name = raw.name ∧ s.IsUpper)
        (fun e _ s s' hs hput =>
          ⟨(Section.put_isUpper hs.2 hput).1.trans hs.1, (Section.put_isUpper hs.2 hput).2⟩)
        ⟨rfl, isUpper_new raw.name⟩ hfold
    refine ⟨List.forall_mem_cons.mpr ⟨hs.2, hacc.1⟩, List.nodup_cons.mpr ⟨fun hmem => ?_, hacc.2⟩⟩
    obtain ⟨other, hother, hkey⟩ := List.mem_map.mp hmem
    refine hnew (List.any_eq_true.mpr ⟨other, hother, ?_⟩)
    rw [beq_iff_eq, hkey, Section.key, hs.1]

/-- The steps by which a text is read. -/
theorem parse_eq_ok_iff {origin text : String} {m : Matrix} :
    parse origin text = .ok m ↔ ∃ raw versions sections, rawSections text = .ok raw ∧
      raw.foldlM addSection ([], []) = .ok (versions, sections) ∧ versions ≠ [] ∧
      undeclared? versions sections = none ∧ m = ⟨origin, versions, sections.reverse⟩ := by
  unfold parse parseLocated
  cases hraw : rawSections text with
  | error fault => simp [bind, Except.bind]
  | ok raw =>
    cases hsections : raw.foldlM addSection ([], []) with
    | error fault => simp [bind, Except.bind, hsections]
    | ok acc =>
      obtain ⟨versions, sections⟩ := acc
      cases hversions : versions with
      | nil => simp [bind, Except.bind, hsections, hversions, throw, throwThe, MonadExceptOf.throw]
      | cons v rest =>
        cases hundeclared : undeclared? (v :: rest) sections <;>
          simp [bind, Except.bind, hsections, hversions, hundeclared, throw, throwThe,
            MonadExceptOf.throw, pure, Except.pure, eq_comm]

theorem parse_allUpper {m : Matrix} {origin text : String} (h : parse origin text = .ok m) :
    AllUpper m.sections := by
  obtain ⟨raw, versions, sections, -, hsections, -, -, rfl⟩ := parse_eq_ok_iff.mp h
  have hall : AllUpper sections := foldlM_invariant (P := fun acc => AllUpper acc.2)
    (fun s _ _ _ hacc => addSection_allUpper hacc) ⟨by simp, by simp⟩ hsections
  refine ⟨fun s hs => hall.1 s (List.mem_reverse.mp hs), ?_⟩
  rw [List.map_reverse]
  exact List.nodup_reverse.mpr hall.2

theorem upper_of_bytes {s : String} (h : (Text.bytes s).map Text.capitalByte = Text.bytes s) :
    Text.upper s = s := Text.bytes_inj (by rw [Text.bytes_upper, h])

theorem default_allUpper : AllUpper Matrix.default.sections := by
  have hbytes : ∀ s ∈ Matrix.default.sections,
      (∀ items ∈ s.items, ∀ i ∈ items, (Text.bytes i).map Text.capitalByte = Text.bytes i) ∧
        ∀ r ∈ s.rules, ∀ i ∈ r.items, (Text.bytes i).map Text.capitalByte = Text.bytes i := by
    decide +kernel
  refine ⟨fun s hs => ⟨fun items hitems i hi => ?_, fun r hr i hi => ?_⟩, Default.nodup_keys⟩
  · exact upper_of_bytes ((hbytes s hs).1 items hitems i hi)
  · exact upper_of_bytes ((hbytes s hs).2 r hr i hi)

/-! ### Other rules -/

/-- The second list has further rules, all of them of versions above the given one. -/
inductive InsertsNewer (version : Version) : List Rule → List Rule → Prop
  | nil : InsertsNewer version [] []
  | keep (r : Rule) {rules rules' : List Rule} :
    InsertsNewer version rules rules' → InsertsNewer version (r :: rules) (r :: rules')
  | insert (r : Rule) {rules rules' : List Rule} :
    r.since.newer version = true → InsertsNewer version rules rules' →
    InsertsNewer version rules (r :: rules')

/-- The second list has the same rules, and those of one version are in the same order. -/
def Reorders (rules rules' : List Rule) : Prop :=
  ∀ w : Version, rules'.filter (·.since.same w) = rules.filter (·.since.same w)

theorem InsertsNewer.rule?_eq {s s' : Section} {version : Version}
    (h : InsertsNewer version s.rules s'.rules) (item : Option String) :
    s'.rule? version item = s.rule? version item := by
  have hfilter : ∀ {rules rules' : List Rule}, InsertsNewer version rules rules' →
      rules'.filter (·.isCandidate version item) = rules.filter (·.isCandidate version item) := by
    intro rules rules' h
    induction h with
    | nil => rfl
    | keep r _ ih => simp only [List.filter_cons, ih]
    | insert r hnewer _ ih =>
      rw [List.filter_cons_of_neg (by simp [Rule.isCandidate, hnewer]), ih]
  rw [Section.rule?_eq_argmax, Section.rule?_eq_argmax, hfilter h]

theorem Reorders.mem_iff {rules rules' : List Rule} (h : Reorders rules rules') (r : Rule) :
    r ∈ rules' ↔ r ∈ rules := by
  have hself : r.since.same r.since = true := Version.same_iff.mpr rfl
  have hmem := congrArg (r ∈ ·) (h r.since)
  simpa [List.mem_filter, hself] using hmem

/-- Of the rules of one version the same one comes first. -/
theorem Reorders.find?_eq {rules rules' : List Rule} (h : Reorders rules rules')
    (p : Rule → Bool) (r : Rule) :
    (rules'.filter p).find? (fun x => x.since.rank = r.since.rank) =
      (rules.filter p).find? (fun x => x.since.rank = r.since.rank) := by
  have hrank : (fun x : Rule => decide (x.since.rank = r.since.rank)) =
      fun x => x.since.same r.since := by
    funext x
    rw [Bool.eq_iff_iff, decide_eq_true_iff, Version.same_iff]
  rw [hrank, ← List.head?_filter, ← List.head?_filter, List.filter_comm, h r.since,
    List.filter_comm]

theorem Reorders.rule?_eq {s s' : Section} (h : Reorders s.rules s'.rules) (version : Version)
    (item : Option String) : s'.rule? version item = s.rule? version item := by
  rw [Section.rule?_eq_argmax, Section.rule?_eq_argmax]
  ext r
  simp only [argmax_eq_some_iff, List.mem_filter, h.mem_iff, h.find?_eq]

/-- The second section differs from the first only in its rules, as the relation says. -/
def Section.WithRules (R : List Rule → List Rule → Prop) (s s' : Section) : Prop :=
  ∃ rules', R s.rules rules' ∧ s' = { s with rules := rules' }

/-- The second matrix differs from the first only in the rules of its sections. -/
def WithRules (R : List Rule → List Rule → Prop) (m m' : Matrix) : Prop :=
  List.Forall₂ (Section.WithRules R) m.sections m'.sections

/-! ### Verdicts -/

theorem status_eq (m : Matrix) (version : Version) (name : String) (item : Option String) :
    m.status version name item =
      match m.find? name with
      | some s =>
        if item.all fun i => s.takes (Text.upper i) then
          .ok (s.verdict version (item.map Text.upper))
        else .error (.drift name item)
      | none => .error (.drift name item) := by
  unfold status find
  cases m.find? name with
  | none => rfl
  | some s => cases item <;> rfl

theorem WithRules.find? {R : List Rule → List Rule → Prop} {m m' : Matrix} (h : WithRules R m m')
    (name : String) :
    Option.Rel (Section.WithRules R) (m.find? name) (m'.find? name) := by
  unfold Matrix.find?
  unfold WithRules at h
  generalize m.sections = sections, m'.sections = sections' at h ⊢
  induction h with
  | nil => exact .none
  | @cons s s' rest rest' hs _ ih =>
    have hkey : s'.key = s.key := by
      obtain ⟨rules', -, rfl⟩ := hs
      rfl
    rw [List.find?_cons, List.find?_cons, hkey]
    split
    · exact .some hs
    · exact ih

theorem status_withRules {R : List Rule → List Rule → Prop} {m m' : Matrix} {version : Version}
    (h : WithRules R m m')
    (hrule : ∀ s s', Section.WithRules R s s' → ∀ item,
      s'.rule? version item = s.rule? version item)
    (name : String) (item : Option String) :
    m'.status version name item = m.status version name item := by
  rw [status_eq, status_eq]
  have hfound := h.find? name
  generalize m.find? name = found, m'.find? name = found' at hfound ⊢
  cases hfound with
  | none => rfl
  | @some s s' hs =>
    have htakes : ∀ i, s'.takes i = s.takes i := by
      obtain ⟨rules', -, rfl⟩ := hs
      exact fun _ => rfl
    have hfallback : s'.fallback = s.fallback := by
      obtain ⟨rules', -, rfl⟩ := hs
      rfl
    simp only [htakes, Section.verdict, hrule s s' hs, hfallback]

theorem find?_eq_some_iff {m : Matrix} (h : AllUpper m.sections) {name : String} {s : Section} :
    m.find? name = some s ↔ s ∈ m.sections ∧ Text.same s.name name = true := by
  have hkey : ∀ t : Section, (t.key == Text.upper name) = Text.same t.name name := fun t => by
    rw [Bool.eq_iff_iff, beq_iff_eq, Text.same_iff_upper, Section.key]
  constructor
  · intro hfind
    have hsame : (s.key == Text.upper name) = true := by
      simpa using List.find?_some hfind
    exact ⟨List.mem_of_find?_eq_some hfind, hkey s ▸ hsame⟩
  · rintro ⟨hmem, hsame⟩
    cases hfind : m.find? name with
    | none =>
      have := List.find?_eq_none.mp hfind s hmem
      exact absurd hsame (by rwa [hkey] at this)
    | some t =>
      have ht : Text.upper t.name = Text.upper name := by
        simpa [Section.key] using List.find?_some hfind
      have hkeys : t.key = s.key := by
        rw [Section.key, Section.key, ht, Text.same_iff_upper.mp hsame]
      rw [List.inj_on_of_nodup_map h.2 (List.mem_of_find?_eq_some hfind) hmem hkeys]

theorem defines_iff {m : Matrix} (h : AllUpper m.sections) {name : String}
    {item : Option String} :
    m.defines name item = true ↔
      ∃ s ∈ m.sections, Text.same s.name name = true ∧ s.Lists item := by
  unfold defines
  constructor
  · intro hdef
    split at hdef
    · rename_i s hfind
      obtain ⟨hs, hsame⟩ := (find?_eq_some_iff h).mp hfind
      exact ⟨s, hs, hsame, (Section.all_takes_iff (h.1 s hs) item).mp hdef⟩
    · cases hdef
  · rintro ⟨s, hs, hsame, hitem⟩
    rw [(find?_eq_some_iff h).mpr ⟨hs, hsame⟩]
    exact (Section.all_takes_iff (h.1 s hs) item).mpr hitem

theorem status_eq_verdict {m : Matrix} (h : AllUpper m.sections) {name : String} {s : Section}
    (hs : s ∈ m.sections) (hname : Text.same s.name name = true) {item : Option String}
    (hitem : s.Lists item) (version : Version) :
    m.status version name item = .ok (s.verdict version (item.map Text.upper)) := by
  rw [status_eq, (find?_eq_some_iff h).mpr ⟨hs, hname⟩]
  exact if_pos (Section.all_takes_iff (h.1 s hs) item |>.mpr hitem)

theorem status_eq_drift_iff (m : Matrix) (version : Version) (name : String)
    (item : Option String) :
    m.status version name item = .error (.drift name item) ↔ m.defines name item = false := by
  rw [status_eq, defines]
  cases m.find? name with
  | none => simp
  | some s => cases h : item.all fun i => s.takes (Text.upper i) <;> simp [h]

/-- A matrix that is read knows just the pairs that it defines. On them the newest rule in force
decides, of equally new ones the first, and else the default of the section. -/
theorem status_decided {m : Matrix}
    (h : m = .default ∨ ∃ origin text, parse origin text = .ok m) (version : Version)
    (name : String) (item : Option String) :
    (m.status version name item = .error (.drift name item) ↔ m.defines name item = false) ∧
      (m.defines name item = true ↔
        ∃ s ∈ m.sections, Text.same s.name name = true ∧ s.Lists item) ∧
      (∀ s ∈ m.sections, Text.same s.name name = true → s.Lists item →
        (∃ r, s.Decides version item r ∧ m.status version name item = .ok r.status) ∨
          ((∀ r ∈ s.rules, ¬ r.Governs version item) ∧
            m.status version name item = .ok (s.fallback.getD .notSupported))) ∧
      (∀ m', WithRules (InsertsNewer version) m m' →
        m'.status version name item = m.status version name item) ∧
      ∀ m', WithRules Reorders m m' →
        m'.status version name item = m.status version name item := by
  have hupper : AllUpper m.sections := by
    rcases h with rfl | ⟨origin, text, hparse⟩
    · exact default_allUpper
    · exact parse_allUpper hparse
  refine ⟨status_eq_drift_iff m version name item, defines_iff hupper, fun s hs hname hitem => ?_,
    fun m' hm' => status_withRules hm' ?_ name item,
    fun m' hm' => status_withRules hm' ?_ name item⟩
  rotate_left
  · rintro s s' ⟨rules', hrules, rfl⟩
    exact InsertsNewer.rule?_eq hrules
  · rintro s s' ⟨rules', hrules, rfl⟩
    exact Reorders.rule?_eq hrules version
  rw [status_eq_verdict hupper hs hname hitem version, Section.verdict]
  cases hrule : s.rule? version (item.map Text.upper) with
  | none =>
    exact .inr ⟨(Section.rule?_eq_none_iff (hupper.1 s hs)).mp hrule, rfl⟩
  | some r =>
    exact .inl ⟨r, (Section.rule?_eq_some_iff (hupper.1 s hs)).mp hrule, rfl⟩

/-- Of two rules of one version the one that is written first decides. -/
theorem status_decided_bit : ∃ m : Matrix,
    parse "" "[Versions]\nlist=1,2.0\n[T]\nlist=Bit\nrewritten-2.0=bit\nsupported-2=bit" =
        .ok m ∧
      (∃ s ∈ m.sections, ∃ r, s.Decides ⟨"2", [2]⟩ (some "Bit") r ∧ r.status = .rewritten) ∧
      ∀ m', WithRules (InsertsNewer ⟨"2", [2]⟩) m m' →
        m'.status ⟨"2", [2]⟩ "t" (some "Bit") = .ok .rewritten := by
  have hraw : rawSections
      "[Versions]\nlist=1,2.0\n[T]\nlist=Bit\nrewritten-2.0=bit\nsupported-2=bit" =
      .ok [⟨"Versions", 1, [⟨"list", "1,2.0", 2⟩]⟩, ⟨"T", 3, [⟨"list", "Bit", 4⟩,
        ⟨"rewritten-2.0", "bit", 5⟩, ⟨"supported-2", "bit", 6⟩]⟩] := by rfl
  let s : Section := { name := "T", items := some ["BIT"], rules :=
    [⟨.rewritten, ⟨"2.0", [2, 0]⟩, ["BIT"]⟩, ⟨.supported, ⟨"2", [2]⟩, ["BIT"]⟩] }
  let m : Matrix := ⟨"", [⟨"1", [1]⟩, ⟨"2.0", [2, 0]⟩], [s]⟩
  have hundeclared : undeclared? m.versions [s] = none := by
    rw [undeclared?, List.mergeSort_singleton]
    cbv
  have hparse := parse_eq_ok_iff.mpr
    ⟨_, m.versions, [s], hraw, by cbv, by simp [m], hundeclared, (rfl : m = _)⟩
  have hs : s ∈ m.sections := List.mem_singleton_self s
  have hbit : Text.upper "Bit" = "BIT" := by
    rw [Text.upper_eq_ofList]
    decide +kernel
  have hname : Text.same "T" "t" = true := by
    rw [Text.same_iff_upper, Text.upper_eq_ofList, Text.upper_eq_ofList]
    decide +kernel
  have hlists : s.Lists (some "Bit") := by
    rintro _ ⟨⟩
    refine ⟨"BIT", by simp, Text.same_iff_upper.mpr ?_⟩
    rw [← hbit, Text.upper_upper]
  have hstatus : m.status ⟨"2", [2]⟩ "t" (some "Bit") = .ok .rewritten := by
    rw [status_eq_verdict (parse_allUpper hparse) hs hname hlists, Option.map_some, hbit]
    cbv
  obtain ⟨-, -, hverdict, hnewer, -⟩ :=
    status_decided (.inr ⟨"", _, hparse⟩) ⟨"2", [2]⟩ "t" (some "Bit")
  refine ⟨m, hparse, ⟨s, hs, ?_⟩, fun m' hm' => (hnewer m' hm').trans hstatus⟩
  rcases hverdict s hs hname hlists with ⟨r, hr, hrule⟩ | ⟨-, hfallback⟩
  · exact ⟨r, hr, Except.ok.inj (hrule.symm.trans hstatus)⟩
  · cases (Except.ok.inj (hstatus.symm.trans hfallback) : Status.rewritten = .notSupported)

end Matrix

end Portability
