import Mathlib
import Portability.Proofs.Comments
import Portability.Proofs.MatrixLines
import Portability.Proofs.Numerals
import Portability.Proofs.RuleChoice

/-! The texts that are accepted as a feature matrix. They are those of the format, except that the
section on versions may be there more than once. -/
namespace Portability

namespace Matrix

/-! ### The format -/

/-- In lower case, the key is the key of a status and a version with a hyphen between them. -/
def SpellsRule (key : String) (status : Status) (parts : List Nat) : Prop :=
  ∃ version, Text.lower key = status.key ++ "-" ++ version ∧ Version.Spells version parts

/-- The key is one that a section may have, and its value is one that it may have. -/
inductive KnownEntry (key value : String) : Prop
  | list : Text.same key "list" = true → KnownEntry key value
  | group : Text.same key "report_group" = true → KnownEntry key value
  | itemGroup : Text.startsWith key "report_group." = true → KnownEntry key value
  | fallback (status : Status) : Text.same key "default_classification" = true →
    Text.same status.key (Text.trim value) = true ∨
      Text.same status.label (Text.trim value) = true → KnownEntry key value
  | limit (n : Int) : Text.same key "limit" = true →
    Text.SpellsInt64 (Text.trim value).toList n → KnownEntry key value
  | rule (status : Status) (parts : List Nat) : SpellsRule key status parts → KnownEntry key value

/-- The section is the one on versions. -/
def IsVersions (name : String) : Prop := Text.same name "Versions" = true

/-- The key and its value are those of a list of versions. -/
def VersionEntry (key value : String) : Prop :=
  Text.same key "list" = true ∧ ∀ member ∈ listMembers value, ∃ parts, Version.Spells member parts

/-- The lines declare the version. -/
def Declares (lines : List String) (parts : List Nat) : Prop :=
  ∃ e ∈ keyValues "" lines, IsVersions e.owner ∧
    ∃ member ∈ listMembers e.value, Version.Spells member parts

/-- The format of a feature matrix. -/
structure Format (lines : List String) : Prop where
  placed : Placed [] lines
  /-- No section is there twice, but for the one on versions. -/
  names : (headerNames lines).Pairwise fun a b => Text.same a b = true → IsVersions a
  versions : ∀ e ∈ keyValues "" lines, IsVersions e.owner → VersionEntry e.key e.value
  declared : ∃ parts, Declares lines parts
  known : ∀ e ∈ keyValues "" lines, ¬ IsVersions e.owner → KnownEntry e.key e.value
  /-- The versions of rules are declared, up to zeros at their ends. -/
  rules : ∀ e ∈ keyValues "" lines, ¬ IsVersions e.owner → ∀ status parts,
    SpellsRule e.key status parts → ∃ parts', Declares lines parts' ∧
      Version.stripZeros parts' = Version.stripZeros parts

/-! ### Keys and values -/

/-- A text is cut at the last mark. -/
theorem splitAtLast?_eq_some_iff {mark : Char} {s before after : String} :
    splitAtLast? mark s = some (before, after) ↔
      s.toList = before.toList ++ mark :: after.toList ∧ mark ∉ after.toList := by
  unfold splitAtLast?
  rw [List.span_eq_takeWhile_dropWhile]
  have hjoin := List.takeWhile_append_dropWhile (p := fun c => decide (c ≠ mark))
    (l := s.toList.reverse)
  constructor
  · intro h
    split at h
    · rename_i last c first hspan
      obtain ⟨htake, hdrop⟩ := Prod.mk.inj hspan
      obtain ⟨rfl, rfl⟩ := Prod.mk.inj (Option.some.inj h)
      have hc := List.head_dropWhile_not (fun c => decide (c ≠ mark)) (l := s.toList.reverse)
        (by rw [hdrop]; simp)
      simp only [hdrop, List.head_cons] at hc
      obtain rfl : c = mark := by simpa using hc
      rw [htake, hdrop] at hjoin
      have hrev := congrArg List.reverse hjoin
      refine ⟨by simpa [eq_comm] using hrev, ?_⟩
      rw [String.toList_ofList, List.mem_reverse, ← htake]
      intro hmem
      simpa using List.mem_takeWhile_imp hmem
    · cases h
  · rintro ⟨hs, hafter⟩
    have hrev : s.toList.reverse = after.toList.reverse ++ mark :: before.toList.reverse := by
      simp [hs]
    have hall : ∀ c ∈ after.toList.reverse, decide (c ≠ mark) = true := by
      intro c hc
      simp only [decide_eq_true_eq]
      rintro rfl
      exact hafter (List.mem_reverse.mp hc)
    rw [hrev, List.takeWhile_append_of_pos hall, List.dropWhile_append_of_pos hall,
      List.takeWhile_cons_of_neg (by simp), List.dropWhile_cons_of_neg (by simp)]
    simp

/-- A hyphen is no part of a version. -/
theorem hyphen_notMem {version : String} {parts : List Nat} (h : Version.Spells version parts) :
    '-' ∉ version.toList := by
  intro hmem
  have htrim : '-' ∈ (Text.trim version).toList := by
    rw [Text.trim, String.toList_ofList]
    exact Text.mem_trimChars (by decide) hmem
  simpa using h.isDigit_or '-' htrim

theorem key_injective {a b : Status} (h : a.key = b.key) : a = b := by
  revert h
  cases a <;> cases b <;> decide

theorem hyphen_mem_of_spellsRule {key : String} {status : Status} {parts : List Nat}
    (h : SpellsRule key status parts) : '-' ∈ (Text.lower key).toList := by
  obtain ⟨version, hkey, -⟩ := h
  simp [hkey]

theorem SpellsRule.of_ruleOf {e : Entry} {r : Rule} (h : ruleOf e = .ok r) :
    SpellsRule e.key r.status r.since.parts := by
  unfold ruleOf at h
  split at h
  · cases h
  rename_i statusKey version hsplit
  split at h
  · cases h
  rename_i status hstatus
  split at h
  · cases h
  rename_i since hsince
  cases h
  obtain ⟨hkey, -⟩ := splitAtLast?_eq_some_iff.mp hsplit
  have hfound : status.key = statusKey := by simpa using List.find?_some hstatus
  refine ⟨version, String.toList_inj.mp ?_, (Version.parse?_eq_some_iff.mp hsince).1⟩
  simpa [hfound] using hkey

theorem SpellsRule.exists_ruleOf {e : Entry} {status : Status} {parts : List Nat}
    (h : SpellsRule e.key status parts) : ∃ r, ruleOf e = .ok r ∧ r.since.parts = parts := by
  obtain ⟨version, hkey, hversion⟩ := h
  have hsplit : splitAtLast? '-' (Text.lower e.key) = some (status.key, version) :=
    splitAtLast?_eq_some_iff.mpr ⟨by simp [hkey], hyphen_notMem hversion⟩
  have hstatus : Status.all.find? (fun st => st.key == status.key) = some status := by
    cases hfind : Status.all.find? fun st => st.key == status.key with
    | none => simpa using List.find?_eq_none.mp hfind status (Status.mem_all status)
    | some found =>
      have hkeys : found.key = status.key := by simpa using List.find?_some hfind
      rw [key_injective hkeys]
  have hparse : Version.parse? version = some ⟨Text.trim version, parts⟩ :=
    Version.parse?_eq_some_iff.mpr ⟨hversion, rfl⟩
  exact ⟨⟨status, ⟨Text.trim version, parts⟩, upperMembers e.value⟩,
    by simp [ruleOf, hsplit, hstatus, hparse], rfl⟩

/-! ### Entries -/

theorem same_iff_lower {s word : String} (h : Text.lower word = word) :
    Text.same s word = true ↔ Text.lower s = word := by
  rw [Text.same, h, beq_iff_eq]

/-- The words that a key may be, none of which holds a hyphen. -/
def keyWords : List String := ["list", "report_group", "default_classification", "limit"]

theorem lower_keyWords : ∀ word ∈ keyWords, Text.lower word = word ∧ '-' ∉ word.toList := by
  intro word hword
  have hchars : word.toList.map Char.toLower = word.toList ∧ '-' ∉ word.toList := by
    revert word
    decide
  exact ⟨Text.lower_eq_self hchars.1, hchars.2⟩

theorem isRule_iff {e : Entry} : e.isRule = true ↔
    (∀ word ∈ keyWords, Text.same e.key word = false) ∧
      Text.startsWith e.key itemGroupStart = false := by
  have hsame : ∀ word ∈ keyWords, Text.same e.key word = false ↔ Text.lower e.key ≠ word :=
    fun word hword => by
      rw [← Bool.not_eq_true, same_iff_lower (lower_keyWords word hword).1]
  rw [forall₂_congr hsame]
  simp [Entry.isRule, keyWords, and_assoc]

/-- The key of a rule is none of the other keys. -/
theorem SpellsRule.isRule {e : Entry} {status : Status} {parts : List Nat}
    (h : SpellsRule e.key status parts) : e.isRule = true := by
  refine isRule_iff.mpr ⟨fun word hword => ?_, ?_⟩
  · obtain ⟨hlower, hhyphen⟩ := lower_keyWords word hword
    rw [← Bool.not_eq_true, same_iff_lower hlower]
    rintro rfl
    exact hhyphen (hyphen_mem_of_spellsRule h)
  · obtain ⟨version, hkey, -⟩ := h
    have hstart : Text.lower itemGroupStart = itemGroupStart := Text.lower_eq_self (by decide)
    rw [Text.startsWith, hkey, hstart, String.toList_append, String.toList_append]
    cases status <;> rfl

theorem isSome_statusParse?_iff {value : String} : (Status.parse? value).isSome = true ↔
    ∃ status : Status, Text.same status.key (Text.trim value) = true ∨
      Text.same status.label (Text.trim value) = true := by
  simp [Status.parse?, List.find?_isSome, Status.mem_all]

/-- Where the key is one of these words, only this word counts. -/
theorem KnownEntry.of_keyWord {key value word : String} (hword : word ∈ keyWords)
    (hkey : Text.lower key = word) (h : KnownEntry key value) :
    word = "list" ∨ word = "report_group" ∨
      (word = "default_classification" ∧ (Status.parse? value).isSome = true) ∨
      (word = "limit" ∧ ∃ n, Text.SpellsInt64 (Text.trim value).toList n) := by
  have hsame : ∀ other ∈ keyWords, Text.same key other = true → word = other := by
    intro other hother h
    rw [← hkey, (same_iff_lower (lower_keyWords other hother).1).mp h]
  cases h with
  | list h => exact .inl (hsame "list" (by simp [keyWords]) h)
  | group h => exact .inr (.inl (hsame "report_group" (by simp [keyWords]) h))
  | itemGroup h =>
    have hstart : ∀ word ∈ keyWords, "report_group.".toList.isPrefixOf word.toList = false := by
      decide
    rw [Text.startsWith, hkey, Text.lower_eq_self (s := "report_group.") (by decide),
      hstart word hword] at h
    cases h
  | fallback status h hstatus =>
    exact .inr (.inr (.inl ⟨hsame "default_classification" (by simp [keyWords]) h,
      isSome_statusParse?_iff.mpr ⟨status, hstatus⟩⟩))
  | limit n h hn => exact .inr (.inr (.inr ⟨hsame "limit" (by simp [keyWords]) h, n, hn⟩))
  | rule status parts h =>
    exact absurd (hkey ▸ hyphen_mem_of_spellsRule h) (lower_keyWords word hword).2

/-- A section takes just the entries of the format. -/
theorem exists_put_iff {s : Section} {e : Entry} :
    (∃ s', s.put e = .ok s') ↔ KnownEntry e.key e.value := by
  have hsame : ∀ word ∈ keyWords, Text.lower e.key = word → Text.same e.key word = true :=
    fun word hword => (same_iff_lower (lower_keyWords word hword).1).mpr
  dsimp only [Section.put]
  split
  · rename_i hkey
    exact iff_of_true ⟨_, rfl⟩ (.list (hsame "list" (by simp [keyWords]) hkey))
  split
  · rename_i hkey
    exact iff_of_true ⟨_, rfl⟩ (.group (hsame "report_group" (by simp [keyWords]) hkey))
  split
  · rename_i hkey
    constructor
    · rintro ⟨s', h⟩
      have hsome : (Status.parse? e.value).isSome = true := by
        cases hstatus : Status.parse? e.value <;> simp_all
      obtain ⟨status, hstatus⟩ := isSome_statusParse?_iff.mp hsome
      exact .fallback status (hsame "default_classification" (by simp [keyWords]) hkey) hstatus
    · intro h
      obtain ⟨status, hstatus⟩ : ∃ status, Status.parse? e.value = some status := by
        simpa [Option.isSome_iff_exists] using h.of_keyWord (by simp [keyWords]) hkey
      exact ⟨_, by rw [hstatus]⟩
  split
  · rename_i hkey
    constructor
    · rintro ⟨s', h⟩
      split at h
      · rename_i n hn
        exact .limit n (hsame "limit" (by simp [keyWords]) hkey)
          (Text.parseInt64?_eq_some_iff.mp hn)
      · cases h
    · intro h
      obtain ⟨n, hn⟩ : ∃ n, Text.SpellsInt64 (Text.trim e.value).toList n := by
        simpa using h.of_keyWord (by simp [keyWords]) hkey
      exact ⟨_, by rw [Text.parseInt64?_eq_some_iff.mpr hn]⟩
  split
  · rename_i hkey
    exact iff_of_true ⟨_, rfl⟩ (.itemGroup (by simpa [itemGroupStart] using hkey))
  rename_i hlist hgroup hfallback hlimit hitem
  constructor
  · rintro ⟨s', h⟩
    cases hrule : ruleOf e with
    | error fault => simp [hrule, Except.map] at h
    | ok r => exact .rule _ _ (.of_ruleOf hrule)
  · intro h
    have hother : ∀ word ∈ keyWords, Text.same e.key word = true → Text.lower e.key = word :=
      fun word hword => (same_iff_lower (lower_keyWords word hword).1).mp
    cases h with
    | list h => exact absurd (hother "list" (by simp [keyWords]) h) hlist
    | group h => exact absurd (hother "report_group" (by simp [keyWords]) h) hgroup
    | itemGroup h => exact absurd (by simpa [itemGroupStart] using h) hitem
    | fallback status h hstatus =>
      exact absurd (hother "default_classification" (by simp [keyWords]) h) hfallback
    | limit n h hn => exact absurd (hother "limit" (by simp [keyWords]) h) hlimit
    | rule status parts h =>
      obtain ⟨r, hr, -⟩ := h.exists_ruleOf
      exact ⟨_, by rw [hr]; rfl⟩

/-! ### Sections -/

theorem isVersions_iff {name : String} :
    (Text.upper name == versionsKey) = true ↔ IsVersions name := by
  have hupper : Text.upper "Versions" = versionsKey := by
    rw [Text.upper_eq_ofList]
    decide +kernel
  rw [beq_iff_eq, IsVersions, Text.same_iff_upper, hupper]

instance (name : String) : Decidable (IsVersions name) := inferInstanceAs (Decidable (_ = true))

theorem exists_mapM_iff {α β ε : Type} {f : α → Except ε β} {as : List α} :
    (∃ bs, as.mapM f = .ok bs) ↔ ∀ a ∈ as, ∃ b, f a = .ok b := by
  refine ⟨fun ⟨bs, h⟩ a ha => ?_, mapM_eq_ok_of_forall⟩
  obtain ⟨b, -, hb⟩ := exists_of_mem_of_mapM h ha
  exact ⟨b, hb⟩

theorem exists_parse?_iff {text : String} :
    (∃ v, Version.parse? text = some v) ↔ ∃ parts, Version.Spells text parts := by
  constructor
  · rintro ⟨v, hv⟩
    exact ⟨v.parts, (Version.parse?_eq_some_iff.mp hv).1⟩
  · rintro ⟨parts, hparts⟩
    exact ⟨⟨Text.trim text, parts⟩, Version.parse?_eq_some_iff.mpr ⟨hparts, rfl⟩⟩

/-- The version that a member of a list declares. -/
def Entry.version (e : Entry) (text : String) : Except Located Version :=
  match Version.parse? text with
  | some version => .ok version
  | none => .error (e.line, .invalidVersion text)

/-- The versions that an entry declares. -/
def Entry.versions (e : Entry) : Except Located (List Version) :=
  if Text.same e.key "list" then (listMembers e.value).mapM e.version
  else .error (e.line, .unknownKey e.key)

theorem declaredVersions_eq (entries : List Entry) :
    declaredVersions entries = (entries.mapM Entry.versions).map List.flatten := by
  have hgroups : declaredVersions entries =
      entries.mapM Entry.versions >>= fun groups => pure groups.flatten := by
    unfold declaredVersions
    congr 2
    funext e
    rw [Entry.versions]
    cases Text.same e.key "list" with
    | false => rfl
    | true =>
      refine congrArg (List.mapM · (listMembers e.value)) (funext fun text => ?_)
      unfold Entry.version
      cases Version.parse? text <;> rfl
  rw [hgroups]
  cases entries.mapM Entry.versions <;> rfl

theorem Entry.version_eq_ok_iff {e : Entry} {text : String} {v : Version} :
    e.version text = .ok v ↔ Version.parse? text = some v := by
  unfold version
  cases Version.parse? text <;> simp

theorem Entry.exists_versions_iff {e : Entry} :
    (∃ vs, e.versions = .ok vs) ↔ VersionEntry e.key e.value := by
  unfold versions VersionEntry
  split
  · rename_i hkey
    simp only [exists_mapM_iff, version_eq_ok_iff, exists_parse?_iff, hkey, true_and]
  · rename_i hkey
    exact iff_of_false (by simp) fun h => hkey h.1

theorem Entry.mem_versions_iff {e : Entry} {vs : List Version} (h : e.versions = .ok vs)
    {v : Version} : v ∈ vs ↔ ∃ member ∈ listMembers e.value, Version.parse? member = some v := by
  unfold versions at h
  split at h
  · simp only [← version_eq_ok_iff (e := e)]
    constructor
    · exact exists_of_mem_mapM h
    · rintro ⟨member, hmember, hversion⟩
      obtain ⟨w, hw, hversion'⟩ := exists_of_mem_of_mapM h hmember
      rwa [Except.ok.inj (hversion.symm.trans hversion')]
  · cases h

theorem exists_declaredVersions_iff {entries : List Entry} :
    (∃ vs, declaredVersions entries = .ok vs) ↔ ∀ e ∈ entries, VersionEntry e.key e.value := by
  rw [declaredVersions_eq, ← forall₂_congr fun e _ => Entry.exists_versions_iff, ← exists_mapM_iff]
  cases entries.mapM Entry.versions <;> simp [Except.map]

theorem mem_declaredVersions_iff {entries : List Entry} {vs : List Version}
    (h : declaredVersions entries = .ok vs) {v : Version} :
    v ∈ vs ↔ ∃ e ∈ entries, ∃ member ∈ listMembers e.value, Version.parse? member = some v := by
  rw [declaredVersions_eq] at h
  cases hgroups : entries.mapM Entry.versions with
  | error fault => simp [hgroups, Except.map] at h
  | ok groups =>
    rw [hgroups] at h
    obtain rfl := Except.ok.inj h
    rw [List.mem_flatten]
    constructor
    · rintro ⟨group, hgroup, hv⟩
      obtain ⟨e, he, hversions⟩ := exists_of_mem_mapM hgroups hgroup
      exact ⟨e, he, (Entry.mem_versions_iff hversions).mp hv⟩
    · rintro ⟨e, he, hmember⟩
      obtain ⟨group, hgroup, hversions⟩ := exists_of_mem_of_mapM hgroups he
      exact ⟨group, hgroup, (Entry.mem_versions_iff hversions).mpr hmember⟩

/-! ### The rules of a section -/

theorem exists_foldlM_put_iff {entries : List Entry} {s : Section} :
    (∃ s', entries.foldlM Section.put s = .ok s') ↔ ∀ e ∈ entries, KnownEntry e.key e.value := by
  induction entries generalizing s with
  | nil => simp [pure, Except.pure]
  | cons e rest ih =>
    rw [List.foldlM_cons, List.forall_mem_cons, ← exists_put_iff (s := s)]
    constructor
    · rintro ⟨s', h⟩
      obtain ⟨next, hnext, hrest⟩ := exists_of_bind_eq_ok h
      exact ⟨⟨next, hnext⟩, ih.mp ⟨s', hrest⟩⟩
    · rintro ⟨⟨next, hnext⟩, hrest⟩
      obtain ⟨s', h⟩ := ih.mpr hrest
      exact ⟨s', by rw [hnext]; exact h⟩

theorem mem_rules_foldlM_put_iff {entries : List Entry} {s s' : Section}
    (h : entries.foldlM Section.put s = .ok s') {r : Rule} :
    r ∈ s'.rules ↔ r ∈ s.rules ∨ ∃ e ∈ entries, e.isRule = true ∧ ruleOf e = .ok r := by
  induction entries generalizing s with
  | nil =>
    cases h
    simp
  | cons e rest ih =>
    rw [List.foldlM_cons] at h
    obtain ⟨next, hnext, hrest⟩ := exists_of_bind_eq_ok h
    rw [ih hrest]
    rcases Section.put_cases hnext with ⟨hrule, own, hown, rfl⟩ | ⟨hrule, -, hrules, -⟩
    · simp only [List.mem_append, List.mem_singleton, List.exists_mem_cons_iff, hrule, hown,
        true_and, Except.ok.injEq, or_assoc, eq_comm (a := r)]
    · simp [hrule, hrules]

theorem name_foldlM_put {entries : List Entry} {s s' : Section}
    (h : entries.foldlM Section.put s = .ok s') : s'.name = s.name := by
  refine foldlM_invariant (P := fun found => found.name = s.name)
    (fun e _ found next hname hput => ?_) rfl h
  rcases Section.put_cases hput with ⟨-, -, -, rfl⟩ | ⟨-, hnext, -⟩
  · exact hname
  · exact hnext.trans hname

/-! ### All sections -/

variable {acc acc' : List Version × List Section} {raws : List RawSection}

/-- The entries of a section as written are those of the format. -/
def RawSection.Valid (s : RawSection) : Prop :=
  ∀ e ∈ s.entries, (IsVersions s.name → VersionEntry e.key e.value) ∧
    (¬ IsVersions s.name → KnownEntry e.key e.value)

/-- What one more section adds: its versions, or a section of its name. -/
theorem addSection_eq_ok_iff {raw : RawSection} :
    addSection acc raw = .ok acc' ↔ (∀ s ∈ acc.2, Text.same s.name raw.name = false) ∧
      ((IsVersions raw.name ∧ ∃ vs, declaredVersions raw.entries = .ok vs ∧
          acc' = (acc.1 ++ vs, acc.2)) ∨
        (¬ IsVersions raw.name ∧ ∃ s, raw.entries.foldlM Section.put { name := raw.name } = .ok s ∧
          acc' = (acc.1, s :: acc.2))) := by
  have hnew : acc.2.any (·.key == Text.upper raw.name) = false ↔
      ∀ s ∈ acc.2, Text.same s.name raw.name = false := by
    rw [List.any_eq_false]
    refine forall₂_congr fun s _ => ?_
    rw [← Bool.not_eq_true, Text.same_iff_upper, beq_iff_eq, Section.key]
  rw [← hnew, ← isVersions_iff]
  unfold addSection
  cases acc.2.any (·.key == Text.upper raw.name) with
  | true => simp [throw, throwThe, MonadExceptOf.throw, bind, Except.bind]
  | false =>
    cases Text.upper raw.name == versionsKey with
    | true =>
      cases declaredVersions raw.entries <;>
        simp [bind, Except.bind, pure, Except.pure, eq_comm]
    | false =>
      cases raw.entries.foldlM Section.put { name := raw.name } <;>
        simp [bind, Except.bind, pure, Except.pure, eq_comm]

theorem exists_addSection_iff {raw : RawSection} :
    (∃ acc', addSection acc raw = .ok acc') ↔
      raw.Valid ∧ ∀ s ∈ acc.2, Text.same s.name raw.name = false := by
  simp only [addSection_eq_ok_iff, exists_and_left]
  rw [and_comm]
  refine and_congr_left fun _ => ?_
  unfold RawSection.Valid
  by_cases hversions : IsVersions raw.name
  · simp only [hversions, true_and, not_true, false_and, or_false, true_imp_iff, false_imp_iff,
      and_true, ← exists_declaredVersions_iff]
    constructor
    · rintro ⟨_, vs, h, -⟩
      exact ⟨vs, h⟩
    · rintro ⟨vs, h⟩
      exact ⟨_, vs, h, rfl⟩
  · simp only [hversions, false_and, not_false_eq_true, true_and, false_or, true_imp_iff,
      false_imp_iff, ← exists_foldlM_put_iff (s := { name := raw.name })]
    constructor
    · rintro ⟨_, s, h, -⟩
      exact ⟨s, h⟩
    · rintro ⟨s, h⟩
      exact ⟨_, s, h, rfl⟩

/-- Sections are added one after the other as long as each is valid and its name is new. -/
theorem exists_foldlM_addSection_iff :
    (∃ acc', raws.foldlM addSection acc = .ok acc') ↔ (∀ r ∈ raws, r.Valid) ∧
      (raws.map (·.name)).Pairwise (fun a b => Text.same a b = true → IsVersions a) ∧
      ∀ r ∈ raws, ∀ s ∈ acc.2, Text.same s.name r.name = false := by
  induction raws generalizing acc with
  | nil => simp [pure, Except.pure]
  | cons raw rest ih =>
    have hstep : (∃ acc', (raw :: rest).foldlM addSection acc = .ok acc') ↔
        ∃ next, addSection acc raw = .ok next ∧ ∃ acc', rest.foldlM addSection next = .ok acc' := by
      rw [List.foldlM_cons]
      cases addSection acc raw with
      | error fault => simp [bind, Except.bind]
      | ok next => simp [bind, Except.bind]
    simp only [hstep, ih, List.map_cons, List.pairwise_cons, List.forall_mem_cons]
    constructor
    · rintro ⟨next, hnext, hvalid, hnames, hnew⟩
      obtain ⟨hraw, hrawNew⟩ := exists_addSection_iff.mp ⟨next, hnext⟩
      obtain ⟨-, ⟨hversions, vs, -, rfl⟩ | ⟨hversions, s, hput, rfl⟩⟩ :=
        addSection_eq_ok_iff.mp hnext
      · exact ⟨⟨hraw, hvalid⟩, ⟨fun _ _ _ => hversions, hnames⟩, hrawNew, hnew⟩
      · have hname : s.name = raw.name := name_foldlM_put hput
        refine ⟨⟨hraw, hvalid⟩, ⟨fun name hmem hsame => ?_, hnames⟩, hrawNew,
          fun r hr t ht => hnew r hr t (List.mem_cons_of_mem s ht)⟩
        obtain ⟨r, hr, rfl⟩ := List.mem_map.mp hmem
        have hother := hnew r hr s List.mem_cons_self
        rw [hname, hsame] at hother
        cases hother
    · rintro ⟨⟨hraw, hvalid⟩, ⟨hname, hnames⟩, hrawNew, hnew⟩
      obtain ⟨next, hnext⟩ := exists_addSection_iff.mpr ⟨hraw, hrawNew⟩
      refine ⟨next, hnext, hvalid, hnames, ?_⟩
      obtain ⟨-, ⟨hversions, vs, -, rfl⟩ | ⟨hversions, s, hput, rfl⟩⟩ :=
        addSection_eq_ok_iff.mp hnext
      · exact hnew
      · intro r hr t ht
        rcases List.mem_cons.mp ht with rfl | ht
        · rw [name_foldlM_put hput, ← Bool.not_eq_true]
          exact fun hsame => hversions (hname r.name (List.mem_map_of_mem hr) hsame)
        · exact hnew r hr t ht

theorem mem_versions_foldlM_iff (h : raws.foldlM addSection acc = .ok acc') {v : Version} :
    v ∈ acc'.1 ↔ v ∈ acc.1 ∨ ∃ r ∈ raws, IsVersions r.name ∧ ∃ e ∈ r.entries,
      ∃ member ∈ listMembers e.value, Version.parse? member = some v := by
  induction raws generalizing acc with
  | nil =>
    cases h
    simp
  | cons raw rest ih =>
    rw [List.foldlM_cons] at h
    obtain ⟨next, hnext, hrest⟩ := exists_of_bind_eq_ok h
    rw [ih hrest, List.exists_mem_cons_iff]
    obtain ⟨-, ⟨hversions, vs, hvs, rfl⟩ | ⟨hversions, s, hput, rfl⟩⟩ :=
      addSection_eq_ok_iff.mp hnext
    · simp only [List.mem_append, mem_declaredVersions_iff hvs, hversions, true_and, or_assoc]
    · simp only [hversions, false_and, false_or]

theorem mem_rules_foldlM_iff (h : raws.foldlM addSection acc = .ok acc') {x : Rule} :
    (∃ s ∈ acc'.2, x ∈ s.rules) ↔ (∃ s ∈ acc.2, x ∈ s.rules) ∨
      ∃ r ∈ raws, ¬ IsVersions r.name ∧ ∃ e ∈ r.entries, e.isRule = true ∧ ruleOf e = .ok x := by
  induction raws generalizing acc with
  | nil =>
    cases h
    simp
  | cons raw rest ih =>
    rw [List.foldlM_cons] at h
    obtain ⟨next, hnext, hrest⟩ := exists_of_bind_eq_ok h
    rw [ih hrest, List.exists_mem_cons_iff]
    obtain ⟨-, ⟨hversions, vs, hvs, rfl⟩ | ⟨hversions, s, hput, rfl⟩⟩ :=
      addSection_eq_ok_iff.mp hnext
    · simp only [hversions, not_true, false_and, false_or]
    · simp only [List.exists_mem_cons_iff, mem_rules_foldlM_put_iff hput, List.not_mem_nil,
        false_or, hversions, not_false_eq_true, true_and]
      rw [or_assoc, or_left_comm]

theorem undeclared?_eq_none_iff {versions : List Version} {sections : List Section} :
    undeclared? versions sections = none ↔
      ∀ s ∈ sections, ∀ r ∈ s.rules, ∃ v ∈ versions, v.same r.since = true := by
  unfold undeclared?
  simp only [List.findSome?_eq_none_iff, List.mem_mergeSort, Option.map_eq_none_iff,
    List.find?_eq_none, Bool.not_eq_true', Bool.not_eq_false, List.any_eq_true]

/-! ### The whole text -/

section

variable {text : String} {raw : List RawSection} {versions : List Version}
  {sections : List Section} {parts : List Nat}

/-- The keys of the lines are those of the sections as written. -/
theorem mem_keyValues_iff (h : rawSections text = .ok raw) {kv : KeyValue} :
    kv ∈ keyValues "" (contentLines (Text.lines text)) ↔
      ∃ s ∈ raw, ∃ e ∈ s.entries, kv = ⟨s.name, e.key, e.value⟩ := by
  rw [← ((rawSections_ok text).2 raw h).2]
  simp only [List.mem_flatMap, List.mem_map, eq_comm (a := kv)]

theorem declares_iff (hraw : rawSections text = .ok raw)
    (hsections : raw.foldlM addSection ([], []) = .ok (versions, sections)) :
    Declares (contentLines (Text.lines text)) parts ↔ ∃ v ∈ versions, v.parts = parts := by
  have hmem : ∀ v, v ∈ versions ↔ v ∈ [] ∨ _ := fun v => mem_versions_foldlM_iff hsections
  simp only [List.not_mem_nil, false_or] at hmem
  constructor
  · rintro ⟨kv, hkv, howner, member, hmember, hspells⟩
    obtain ⟨s, hs, e, he, rfl⟩ := (mem_keyValues_iff hraw).mp hkv
    exact ⟨⟨Text.trim member, parts⟩, (hmem _).mpr ⟨s, hs, howner, e, he, member, hmember,
      Version.parse?_eq_some_iff.mpr ⟨hspells, rfl⟩⟩, rfl⟩
  · rintro ⟨v, hv, rfl⟩
    obtain ⟨s, hs, howner, e, he, member, hmember, hparse⟩ := (hmem v).mp hv
    exact ⟨_, (mem_keyValues_iff hraw).mpr ⟨s, hs, e, he, rfl⟩, howner, member, hmember,
      (Version.parse?_eq_some_iff.mp hparse).1⟩

theorem exists_rule_iff (hraw : rawSections text = .ok raw)
    (hsections : raw.foldlM addSection ([], []) = .ok (versions, sections)) :
    (∃ s ∈ sections, ∃ r ∈ s.rules, r.since.parts = parts) ↔
      ∃ e ∈ keyValues "" (contentLines (Text.lines text)), ¬ IsVersions e.owner ∧
        ∃ status, SpellsRule e.key status parts := by
  have hmem : ∀ r, (∃ s ∈ sections, r ∈ s.rules) ↔ (∃ s ∈ [], r ∈ Section.rules s) ∨ _ :=
    fun r => mem_rules_foldlM_iff hsections
  simp only [List.not_mem_nil, false_and, exists_false, false_or] at hmem
  constructor
  · rintro ⟨s, hs, r, hr, rfl⟩
    obtain ⟨w, hw, howner, e, he, -, hrule⟩ := (hmem r).mp ⟨s, hs, hr⟩
    exact ⟨_, (mem_keyValues_iff hraw).mpr ⟨w, hw, e, he, rfl⟩, howner, r.status, .of_ruleOf hrule⟩
  · rintro ⟨kv, hkv, howner, status, hspells⟩
    obtain ⟨w, hw, e, he, rfl⟩ := (mem_keyValues_iff hraw).mp hkv
    obtain ⟨r, hrule, hparts⟩ := SpellsRule.exists_ruleOf (e := e) hspells
    obtain ⟨s, hs, hr⟩ := (hmem r).mpr ⟨w, hw, howner, e, he, SpellsRule.isRule hspells, hrule⟩
    exact ⟨s, hs, r, hr, hparts⟩

end

theorem exists_parse_iff {origin text : String} :
    (∃ m, parse origin text = .ok m) ↔ Format (contentLines (Text.lines text)) := by
  simp only [parse_eq_ok_iff]
  constructor
  · rintro ⟨m, raw, versions, sections, hraw, hsections, hsome, hdeclared, -⟩
    obtain ⟨hvalid, hnames, -⟩ := exists_foldlM_addSection_iff.mp ⟨_, hsections⟩
    have hentry : ∀ e ∈ keyValues "" (contentLines (Text.lines text)),
        (IsVersions e.owner → VersionEntry e.key e.value) ∧
          (¬ IsVersions e.owner → KnownEntry e.key e.value) := by
      intro kv hkv
      obtain ⟨s, hs, e, he, rfl⟩ := (mem_keyValues_iff hraw).mp hkv
      exact hvalid s hs e he
    have hdeclares : ∀ v ∈ versions, Declares (contentLines (Text.lines text)) v.parts :=
      fun v hv => (declares_iff hraw hsections).mpr ⟨v, hv, rfl⟩
    obtain ⟨first, _, rfl⟩ := List.exists_cons_of_ne_nil hsome
    refine ⟨(rawSections_ok text).1.mp ⟨raw, hraw⟩, ?_, fun e he => (hentry e he).1,
      ⟨_, hdeclares first List.mem_cons_self⟩, fun e he => (hentry e he).2, ?_⟩
    · rwa [((rawSections_ok text).2 raw hraw).1] at hnames
    · intro e he howner status parts hspells
      obtain ⟨s, hs, r, hr, rfl⟩ :=
        (exists_rule_iff hraw hsections).mpr ⟨e, he, howner, status, hspells⟩
      obtain ⟨v, hv, hsame⟩ := undeclared?_eq_none_iff.mp hdeclared s hs r hr
      exact ⟨v.parts, hdeclares v hv, Version.same_iff_stripZeros.mp hsame⟩
  · intro h
    obtain ⟨raw, hraw⟩ := (rawSections_ok text).1.mpr h.placed
    have hvalid : ∀ s ∈ raw, s.Valid := by
      intro s hs e he
      have hkv := (mem_keyValues_iff hraw).mpr ⟨s, hs, e, he, rfl⟩
      exact ⟨h.versions _ hkv, h.known _ hkv⟩
    have hnames := h.names
    rw [← ((rawSections_ok text).2 raw hraw).1] at hnames
    obtain ⟨⟨versions, sections⟩, hsections⟩ :
        ∃ acc, raw.foldlM addSection ([], []) = .ok acc :=
      exists_foldlM_addSection_iff.mpr ⟨hvalid, hnames, by simp⟩
    obtain ⟨parts, hparts⟩ := h.declared
    obtain ⟨v, hv, -⟩ := (declares_iff hraw hsections).mp hparts
    refine ⟨_, raw, versions, sections, hraw, hsections, List.ne_nil_of_mem hv, ?_, rfl⟩
    refine undeclared?_eq_none_iff.mpr fun s hs r hr => ?_
    obtain ⟨e, he, howner, status, hspells⟩ :=
      (exists_rule_iff hraw hsections).mp ⟨s, hs, r, hr, rfl⟩
    obtain ⟨parts', hdeclares, hzeros⟩ := h.rules e he howner status _ hspells
    obtain ⟨w, hw, rfl⟩ := (declares_iff hraw hsections).mp hdeclares
    exact ⟨w, hw, Version.same_iff_stripZeros.mpr hzeros⟩

/-- With one section on versions at most, no two names are the same. -/
theorem pairwise_names_iff {names : List String}
    (h : names.Pairwise fun a b => Text.same a b = true → IsVersions a) :
    names.countP (fun name => IsVersions name) ≤ 1 ↔
      names.Pairwise fun a b => Text.same a b = false := by
  induction names with
  | nil => simp
  | cons a rest ih =>
    obtain ⟨ha, hrest⟩ := List.pairwise_cons.mp h
    rw [List.pairwise_cons, List.countP_cons]
    by_cases hversions : IsVersions a
    · have hsame : ∀ b, Text.same a b = false ↔ ¬ IsVersions b := by
        intro b
        rw [← Bool.not_eq_true, not_iff_not, IsVersions, Text.same_iff_upper, Text.same_iff_upper,
          Text.same_iff_upper.mp hversions, eq_comm]
      have hnone : rest.countP (fun name => IsVersions name) = 0 ↔
          ∀ b ∈ rest, Text.same a b = false := by
        simp [List.countP_eq_zero, hsame]
      rw [← hnone, ← ih hrest, if_pos (decide_eq_true hversions)]
      omega
    · have hne : ∀ b ∈ rest, Text.same a b = false := fun b hb => by
        rw [← Bool.not_eq_true]
        exact fun hsame => hversions (ha b hb hsame)
      rw [and_iff_right hne, ← ih hrest]
      simp [hversions]

/-- A text is accepted just if it is of the format, in which no section is there twice but for the
one on versions; where there is one of these at most, no section at all is there twice. Any other
text is reported as malformed. -/
theorem parse_accepts_format (origin text : String) :
    let lines := contentLines (Text.lines text)
    ((∃ m, parse origin text = .ok m) ↔ Format lines) ∧
      ((∃ m, parse origin text = .ok m) ∧
          (headerNames lines).countP (fun name => IsVersions name) ≤ 1 ↔
        Format lines ∧ (headerNames lines).Pairwise fun a b => Text.same a b = false) ∧
      ((∃ m, parse origin text = .ok m) ∨
        ∃ line fault, parse origin text = .error (.matrixMalformed origin line fault)) := by
  intro lines
  refine ⟨exists_parse_iff, ?_, ?_⟩
  · rw [exists_parse_iff]
    exact and_congr_right fun h => pairwise_names_iff h.names
  · unfold parse
    split
    · exact .inl ⟨_, rfl⟩
    · exact .inr ⟨_, _, rfl⟩

end Matrix

end Portability
