import Mathlib
import Portability.Discovery

/-! Scripts that are reached more than once. Of the paths that a run reaches, each is found where it
is reached first, with what it was given there. Two paths can be spelled differently and lead to the
same place; every file is found once just when none do. -/
namespace Portability

/-! ### Places -/

namespace Path

/-- The place above one. Places are the names on the way, the last one first. -/
def leave : List String → List String
  | [] => [".."]
  | ".." :: names => ".." :: ".." :: names
  | _ :: names => names

/-- The place that is reached from another over a part of a path. -/
def enter (names : List String) (part : String) : List String :=
  if part = "" ∨ part = "." then names
  else if part = ".." then leave names
  else part :: names

/-- The place that a path leads to where there are no links, and whether the path begins at the
root of all files. -/
def place (path : String) : Bool × List String :=
  (isAbsolute path, (split path).foldl enter [])

/-- What is compared of a path. -/
def spelling (path : String) : Bool × List String := (isAbsolute path, parts path)

/-- The path has names only. -/
def Plain (path : String) : Prop := ∀ part ∈ parts path, part ≠ "." ∧ part ≠ ".."

variable {a b path : String}

theorem same_iff : same a b ↔ spelling a = spelling b := by
  simp [same, spelling]

/-- The parts that do not count lead nowhere. -/
theorem foldl_enter_parts (path : String) :
    (split path).foldl enter [] = (parts path).foldl enter [] := by
  have hempty : ∀ names : List String, enter names "" = names := fun _ => by simp [enter]
  have hdot : ∀ names : List String, enter names "." = names := fun _ => by simp [enter]
  have hskip : ∀ (skipped : String) (texts names : List String),
      (∀ names, enter names skipped = names) →
      (texts.filter (· ≠ skipped)).foldl enter names = texts.foldl enter names := by
    intro skipped texts names hskipped
    rw [List.foldl_filter]
    congr 1
    funext names part
    by_cases hpart : part = skipped <;> simp [hpart, hskipped]
  have hfilter : (split path).filter (!·.isEmpty) = (split path).filter (· ≠ "") := by
    apply List.filter_congr
    intro part _
    rw [Bool.eq_iff_iff]
    simp
  rw [parts, hfilter, ← hskip "" (split path) [] hempty]
  split
  · next hnil => rw [hnil]
  · next first rest hcons =>
    rw [hcons]
    dsimp only
    split
    · next hfirst => rw [hskip "." rest [] hdot, List.foldl_cons, hfirst.1, hdot]
    · rw [List.foldl_cons, List.foldl_cons, hskip "." rest _ hdot]

/-- Paths that are spelled alike lead to the same place. -/
theorem place_eq_of_spelling (h : spelling a = spelling b) : place a = place b := by
  obtain ⟨habsolute, hparts⟩ := Prod.mk.inj h
  rw [place, place, habsolute, foldl_enter_parts, foldl_enter_parts, hparts]

theorem mem_parts_ne_empty {part : String} (h : part ∈ parts path) : part ≠ "" := by
  have hsub : ∀ part ∈ parts path, part ∈ (split path).filter (!·.isEmpty) := by
    rw [parts]
    split
    · simp
    · next first rest hcons =>
      intro part
      rw [hcons]
      dsimp only
      split <;> grind
  have := (List.mem_filter.mp (hsub part h)).2
  simpa using this

/-- The place of a path that has names only is its names. -/
theorem place_of_plain (h : Plain path) : place path = (isAbsolute path, (parts path).reverse) := by
  have hnames : ∀ (texts names : List String),
      (∀ part ∈ texts, part ≠ "" ∧ part ≠ "." ∧ part ≠ "..") →
      texts.foldl enter names = texts.reverse ++ names := by
    intro texts
    induction texts with
    | nil => simp
    | cons part texts ih =>
      intro names hall
      obtain ⟨hempty, hdot, hup⟩ := hall part List.mem_cons_self
      rw [List.foldl_cons, enter, if_neg (by simp [hempty, hdot]), if_neg hup,
        ih _ fun part hpart => hall part (List.mem_cons_of_mem _ hpart)]
      simp
  rw [place, foldl_enter_parts,
    hnames _ _ fun part hpart => ⟨mem_parts_ne_empty hpart, h part hpart⟩]
  simp

theorem spelling_eq_of_plain (ha : Plain a) (hb : Plain b) (h : place a = place b) :
    spelling a = spelling b := by
  rw [place_of_plain ha, place_of_plain hb] at h
  obtain ⟨habsolute, hparts⟩ := Prod.mk.inj h
  rw [spelling, spelling, habsolute, List.reverse_inj.mp hparts]

end Path

namespace Entry

variable {root e : Entry} {names : List String} {trail : List Entry}

/-- The entry at a place below another one; the names are those on the way, the last one first. -/
def below? (root : Entry) : List String → Option Entry
  | [] => some root
  | name :: names => (below? root names).bind (child? name)

/-- The entries on the way to a place, the last one first. -/
inductive Trail (root : Entry) : List String → List Entry → Prop
  | root : Trail root [] [root]
  | child {name : String} {names : List String} {here e : Entry} {above : List Entry}
      (h : Trail root names (here :: above)) (hname : name ≠ "..")
      (hchild : here.child? name = some e) : Trail root (name :: names) (e :: here :: above)

theorem Trail.below?_eq (h : Trail root names trail) : root.below? names = trail.head? := by
  induction h with
  | root => rfl
  | child h hname hchild ih =>
    rw [below?, ih, List.head?_cons, Option.bind_some, hchild, List.head?_cons]

/-- What is followed from a place ends at the place that the parts lead to. -/
theorem trail_of_follow {parts : List String} (ht : Trail root names trail)
    (h : follow trail parts = some e) :
    ∃ above, Trail root (parts.foldl Path.enter names) (e :: above) := by
  induction parts generalizing names trail with
  | nil =>
    rw [follow] at h
    obtain ⟨above, rfl⟩ := List.head?_eq_some_iff.mp h
    exact ⟨above, ht⟩
  | cons part rest ih =>
    rw [List.foldl_cons]
    cases trail with
    | nil => cases h
    | cons here above =>
      rw [follow] at h
      split_ifs at h with hfile hstay hup
      · rw [Path.enter, if_pos hstay]
        exact ih ht h
      · rw [Path.enter, if_neg hstay, if_pos hup]
        cases ht with
        | root => cases rest <;> cases h
        | child ht hname hchild =>
          have hleave : ∀ {name : String} {names : List String}, name ≠ ".." →
              Path.leave (name :: names) = names := by
            intro name names hname
            unfold Path.leave
            split <;> simp_all
          rw [hleave hname]
          exact ih ht h
      · rw [Path.enter, if_neg hstay, if_neg hup]
        split at h
        · next e' hchild => exact ih (.child ht hup hchild) h
        · cases h

/-- A path leads to the entry at its place. -/
theorem at?_eq_some (path : String) (h : root.at? path = some e) :
    ∃ names, Path.place path = (false, names) ∧ root.below? names = some e := by
  rw [at?, Option.ite_none_left_eq_some] at h
  obtain ⟨hrelative, hfollow⟩ := h
  obtain ⟨above, htrail⟩ := trail_of_follow .root hfollow
  refine ⟨_, ?_, htrail.below?_eq⟩
  rw [Path.place]
  simp_all

end Entry

/-! ### Scripts reached and scripts found -/

namespace Discovery

variable {κ : Type} [DecidableEq κ] {key : String → κ} {root : Entry} {inputs : List String}
  {reached found : List Script}

/-- The scripts that the inputs reach, one after the other, however often. -/
def Reaches (root : Entry) (inputs : List String) (reached : List Script) : Prop :=
  ∃ lists, List.Forall₂ (fun path scripts => scriptsAt root path = .ok scripts)
      (inputs.flatMap (paths root)) lists ∧ reached = lists.flatten

/-- Up to some point a script is reached, and no path of a key. -/
def ReachedBefore (key : String → κ) (reached : List Script) (s : Script) (k : κ) : Prop :=
  ∃ before, before <+: reached ∧ s ∈ before ∧ ∀ r ∈ before, key r.path ≠ k

/-- Of the scripts that are reached, those that are found stand for every key once, in the order of
first reach and as they were then. -/
structure FirstOfEach (key : String → κ) (reached found : List Script) : Prop where
  once : (found.map fun s => key s.path).Nodup
  order : found.Pairwise fun s t => ReachedBefore key reached s (key t.path)
  first : ∀ s ∈ found, reached.find? (fun r => key r.path == key s.path) = some s
  covers : ∀ s ∈ reached, ∃ t ∈ found, key t.path = key s.path

theorem firstOfEach_nil : FirstOfEach key [] [] := ⟨by simp, by simp, by simp, by simp⟩

/-- One more script that is reached. -/
theorem FirstOfEach.push (h : FirstOfEach key reached found) (s : Script) :
    FirstOfEach key (reached ++ [s])
      (if ∃ t ∈ found, key t.path = key s.path then found else found ++ [s]) := by
  have hfirst : ∀ t ∈ found,
      (reached ++ [s]).find? (fun r => key r.path == key t.path) = some t := by
    intro t ht
    rw [List.find?_append, h.first t ht, Option.some_or]
  have horder : found.Pairwise fun t u => ReachedBefore key (reached ++ [s]) t (key u.path) := by
    apply h.order.imp
    rintro t u ⟨before, hbefore, ht, hnot⟩
    exact ⟨before, hbefore.trans (List.prefix_append _ _), ht, hnot⟩
  split
  · next hknown =>
    refine ⟨h.once, horder, hfirst, ?_⟩
    intro r hr
    rcases List.mem_append.mp hr with hr | hr
    · exact h.covers r hr
    · rw [List.mem_singleton.mp hr]
      exact hknown
  · next hnew =>
    have hnone : ∀ r ∈ reached, ¬ key r.path = key s.path := by
      intro r hr heq
      obtain ⟨t, ht, hkey⟩ := h.covers r hr
      exact hnew ⟨t, ht, hkey.trans heq⟩
    constructor
    · rw [List.map_append, List.nodup_append]
      refine ⟨h.once, by simp, ?_⟩
      simp only [List.map_cons, List.map_nil, List.mem_map, List.mem_singleton]
      rintro _ ⟨t, ht, rfl⟩ _ rfl heq
      exact hnew ⟨t, ht, heq⟩
    · rw [List.pairwise_append]
      refine ⟨horder, List.pairwise_singleton _ _, ?_⟩
      intro t ht u hu
      rw [List.mem_singleton.mp hu]
      exact ⟨reached, List.prefix_append _ _, List.mem_of_find?_eq_some (h.first t ht), hnone⟩
    · intro t ht
      rcases List.mem_append.mp ht with ht | ht
      · exact hfirst t ht
      · rw [List.mem_singleton.mp ht, List.find?_append,
          List.find?_eq_none.mpr (by simpa using hnone)]
        simp
    · intro r hr
      rcases List.mem_append.mp hr with hr | hr
      · obtain ⟨t, ht, hkey⟩ := h.covers r hr
        exact ⟨t, List.mem_append_left _ ht, hkey⟩
      · exact ⟨s, List.mem_append_right _ List.mem_cons_self, by rw [List.mem_singleton.mp hr]⟩

theorem firstOfEach_addNew (h : FirstOfEach Path.spelling reached found) (more : List Script) :
    FirstOfEach Path.spelling (reached ++ more) (addNew found more) := by
  induction more generalizing reached found with
  | nil => rwa [List.append_nil]
  | cons s more ih =>
    have hpush := h.push s
    have hknown : found.any (Path.same ·.path s.path) = true ↔
        ∃ t ∈ found, Path.spelling t.path = Path.spelling s.path := by
      simp [Path.same_iff]
    have hcons : addNew found (s :: more) = addNew
        (if ∃ t ∈ found, Path.spelling t.path = Path.spelling s.path then found
          else found ++ [s]) more := by
      rw [addNew, List.foldl_cons, addNew]
      congr 1
      exact if_congr hknown rfl rfl
    rw [hcons, List.append_cons]
    exact ih hpush

/-- The scripts that are found path by path are those that are reached, as they are added. -/
theorem reaches_of_foldlM {paths : List String} {before : List Script}
    (h : paths.foldlM (fun found path => do return addNew found (← scriptsAt root path)) before =
      .ok found) :
    ∃ lists, List.Forall₂ (fun path scripts => scriptsAt root path = .ok scripts) paths lists ∧
      found = addNew before lists.flatten := by
  induction paths generalizing before with
  | nil => exact ⟨[], .nil, (Except.ok.inj h).symm⟩
  | cons path paths ih =>
    rw [List.foldlM_cons] at h
    cases hscripts : scriptsAt root path with
    | error e =>
      rw [hscripts] at h
      cases h
    | ok scripts =>
      rw [hscripts] at h
      obtain ⟨lists, hlists, rfl⟩ := ih h
      refine ⟨scripts :: lists, .cons hscripts hlists, ?_⟩
      rw [List.flatten_cons, addNew, addNew, addNew, List.foldl_append]

/-- What stands for every key of one kind once stands for every key of another kind once just when
the keys of the second kind are the same no more often; those of the first kind are finer. -/
theorem FirstOfEach.coarser_iff {ι : Type} [DecidableEq ι] {coarse : String → ι}
    (h : FirstOfEach key reached found)
    (hfiner : ∀ {a b : String}, key a = key b → coarse a = coarse b) :
    FirstOfEach coarse reached found ↔
      ∀ s ∈ reached, ∀ t ∈ reached, coarse s.path = coarse t.path → key s.path = key t.path := by
  have hmem : ∀ s ∈ found, s ∈ reached := fun s hs => List.mem_of_find?_eq_some (h.first s hs)
  constructor
  · intro hcoarse s hs t ht heq
    obtain ⟨s', hs', hkey⟩ := h.covers s hs
    obtain ⟨t', ht', hkey'⟩ := h.covers t ht
    have hsame : s' = t' :=
      List.inj_on_of_nodup_map hcoarse.once hs' ht'
        ((hfiner hkey).trans (heq.trans (hfiner hkey').symm))
    rw [← hkey, ← hkey', hsame]
  · intro hkeys
    constructor
    · apply List.pairwise_map.mpr
      apply (List.pairwise_map.mp h.once).imp_of_mem
      intro s t hs ht hne heq
      exact hne (hkeys s (hmem s hs) t (hmem t ht) heq)
    · apply h.order.imp_of_mem
      rintro s t hs ht ⟨before, hbefore, hreach, hnot⟩
      refine ⟨before, hbefore, hreach, ?_⟩
      intro r hr heq
      exact hnot r hr (hkeys r (hbefore.subset hr) t (hmem t ht) heq)
    · intro s hs
      rw [← h.first s hs]
      apply List.find?_congr
      intro r hr
      rw [Bool.eq_iff_iff, beq_iff_eq, beq_iff_eq]
      exact ⟨hkeys r hr s (hmem s hs), hfiner⟩
    · intro s hs
      obtain ⟨t, ht, hkey⟩ := h.covers s hs
      exact ⟨t, ht, hfiner hkey⟩

/-- A run finds every path once, in the order of first reach and with the settings of the project
that reached it first. So it does for every file of the tree just when no file is reached by paths
that are spelled differently; paths made of names alone never are. -/
theorem discover_firstOfEach (h : discover root inputs = .ok found) :
    ∃ reached, Reaches root inputs reached ∧
      FirstOfEach Path.spelling reached found ∧
      (FirstOfEach Path.place reached found ↔ ∀ s ∈ reached, ∀ t ∈ reached,
        Path.place s.path = Path.place t.path → Path.spelling s.path = Path.spelling t.path) ∧
      ((∀ s ∈ reached, Path.Plain s.path) → FirstOfEach Path.place reached found) := by
  obtain ⟨lists, hlists, rfl⟩ := reaches_of_foldlM h
  have hspelling : FirstOfEach Path.spelling lists.flatten (addNew [] lists.flatten) :=
    firstOfEach_addNew firstOfEach_nil lists.flatten
  have hplace := hspelling.coarser_iff Path.place_eq_of_spelling
  refine ⟨lists.flatten, ⟨lists, hlists, rfl⟩, hspelling, hplace, ?_⟩
  intro hplain
  exact hplace.mpr fun s hs t ht => Path.spelling_eq_of_plain (hplain s hs) (hplain t ht)

/-- A dot in front spells a path differently, so the one file of a tree is found twice. -/
theorem discover_firstOfEach_dot :
    discover (.ofFiles [("a.sql", [])]) ["a.sql", "./a.sql"] =
      .ok [{ path := "a.sql" }, { path := "./a.sql" }] ∧
    Path.place "a.sql" = Path.place "./a.sql" ∧
    ∃ reached, Reaches (.ofFiles [("a.sql", [])]) ["a.sql", "./a.sql"] reached ∧
      FirstOfEach Path.spelling reached [{ path := "a.sql" }, { path := "./a.sql" }] ∧
      ¬ FirstOfEach Path.place reached [{ path := "a.sql" }, { path := "./a.sql" }] := by
  have hfound : discover (.ofFiles [("a.sql", [])]) ["a.sql", "./a.sql"] =
      .ok [{ path := "a.sql" }, { path := "./a.sql" }] := by
    have hsome : (discover (.ofFiles [("a.sql", [])]) ["a.sql", "./a.sql"]).toOption =
        some [{ path := "a.sql" }, { path := "./a.sql" }] := by decide +kernel
    revert hsome
    cases discover (.ofFiles [("a.sql", [])]) ["a.sql", "./a.sql"] with
    | error e => simp [Except.toOption]
    | ok found => exact fun hsome => congrArg Except.ok (Option.some.inj hsome)
  have hplace : Path.place "a.sql" = Path.place "./a.sql" := by decide +kernel
  obtain ⟨reached, hreached, hspelling, -⟩ := discover_firstOfEach hfound
  refine ⟨hfound, hplace, reached, hreached, hspelling, ?_⟩
  intro hfirst
  have := hfirst.once
  simp [hplace] at this

end Discovery

end Portability
