import Mathlib.Data.List.Infix
import Portability.Proofs.Apart
import Portability.Proofs.Layout.Statement
import Portability.Proofs.Sites

/-! Trees keep the order of their text: parts stand inside the whole and one after another, lines
never go back from one node to the next, and the text of a part is a piece of the text of the
whole. The statements of a batch and of a block leave out no token but semicolons. -/
namespace Portability

/-! ### Streams of tokens -/

/-- A joined token stands where its first part stood. -/
theorem positions_join (x : Lexeme) (rest : List Lexeme) :
    ((x.join rest).map (·.position)).Sublist (x.position :: rest.map (·.position)) := by
  unfold Lexeme.join
  split
  · split
    · simp
    · simp
  · split
    · split
      · split <;> simp
      · simp
    · simp

theorem positions_mergeLexemes (xs : List Lexeme) :
    ((mergeLexemes xs).map (·.position)).Sublist (xs.map (·.position)) := by
  induction xs with
  | nil => exact List.Sublist.refl _
  | cons x xs ih =>
    have hjoin := positions_join x (mergeLexemes xs)
    exact hjoin.trans (ih.cons_cons x.position)

namespace Source

variable {xs : List Lexeme} {pos start stop start' stop' : Nat}

/-- The significant tokens of a stream with their indices. -/
def marked (xs : List Lexeme) : List (Lexeme × Nat) :=
  (mergeLexemes xs).zipIdx.filter fun x => x.1.token.isSignificant

theorem size_ofLexemes : (ofLexemes xs).size = (marked xs).length := by
  simp [size, ofLexemes, marked]

theorem significant_ofLexemes : (ofLexemes xs).significant[pos]? = (marked xs)[pos]?.map (·.2) := by
  simp [ofLexemes, marked]

theorem lexemeAt?_ofLexemes : (ofLexemes xs).lexemeAt? pos = (marked xs)[pos]?.map (·.1) := by
  unfold lexemeAt?
  rw [significant_ofLexemes]
  cases hat : (marked xs)[pos]? with
  | none => rfl
  | some x =>
    obtain ⟨x, i⟩ := x
    have hmem : (x, i) ∈ (mergeLexemes xs).zipIdx :=
      List.mem_of_mem_filter (List.mem_of_getElem? hat)
    have hindex : (mergeLexemes xs)[i]? = some x := List.mk_mem_zipIdx_iff_getElem?.mp hmem
    simpa [ofLexemes] using hindex

/-- Every position has its token. -/
theorem exists_lexemeAt? (h : pos < (ofLexemes xs).size) :
    ∃ x, (ofLexemes xs).lexemeAt? pos = some x := by
  rw [size_ofLexemes] at h
  rw [lexemeAt?_ofLexemes, List.getElem?_eq_getElem h]
  exact ⟨_, rfl⟩

theorem indices_increase : (marked xs).Pairwise fun a b => a.2 < b.2 := by
  have hsub : ((marked xs).map (·.2)).Sublist ((mergeLexemes xs).zipIdx.map (·.2)) :=
    List.filter_sublist.map _
  rw [List.zipIdx_map_snd] at hsub
  have hlt := List.Pairwise.sublist hsub List.pairwise_lt_range'
  exact List.pairwise_map.mp hlt

/-- The lines of the significant tokens never go back if those of all tokens do not. -/
theorem lines_increase (h : xs.Pairwise fun a b => a.position.line ≤ b.position.line) :
    (marked xs).Pairwise fun a b => a.1.position.line ≤ b.1.position.line := by
  have hmarked : ((marked xs).map (·.1)).Sublist (mergeLexemes xs) := by
    have hsub : ((marked xs).map (·.1)).Sublist ((mergeLexemes xs).zipIdx.map (·.1)) :=
      List.filter_sublist.map _
    rwa [List.zipIdx_map_fst] at hsub
  have hpositions : (xs.map (·.position)).Pairwise fun p q => p.line ≤ q.line :=
    List.pairwise_map.mpr h
  have hmerged := hpositions.sublist (positions_mergeLexemes xs)
  rw [List.pairwise_map] at hmerged
  have hsignificant := hmerged.sublist hmarked
  rwa [List.pairwise_map] at hsignificant

theorem lineAt_mono (h : xs.Pairwise fun a b => a.position.line ≤ b.position.line)
    (hle : start ≤ stop) : (ofLexemes xs).lineAt start ≤ (ofLexemes xs).lineAt stop := by
  unfold lineAt
  rw [size_ofLexemes, lexemeAt?_ofLexemes, lexemeAt?_ofLexemes]
  by_cases hempty : (marked xs).length = 0
  · simp [List.eq_nil_of_length_eq_zero hempty]
  have hi : min start ((marked xs).length - 1) < (marked xs).length := by omega
  have hj : min stop ((marked xs).length - 1) < (marked xs).length := by omega
  have hij : min start ((marked xs).length - 1) ≤ min stop ((marked xs).length - 1) := by omega
  rw [List.getElem?_eq_getElem hi, List.getElem?_eq_getElem hj]
  rcases Nat.lt_or_eq_of_le hij with hlt | heq
  · have hline := List.pairwise_iff_getElem.mp (lines_increase h) _ _ hi hj hlt
    simp only [Option.map_some]
    omega
  · simp only [heq]
    exact Nat.le_refl _

/-! ### Lines and texts -/

/-- The line that a position stands for: the line of its token, past the end that of the last token,
and 1 if there is no token. Lines are counted from 1. -/
inductive StandsFor (s : Source) (pos : Nat) : Nat → Prop
  | here {x : Lexeme} (h : s.lexemeAt? pos = some x) : StandsFor s pos (max x.position.line 1)
  | past {x : Lexeme} (hpast : s.size ≤ pos) (h : s.lexemeAt? (s.size - 1) = some x) :
      StandsFor s pos (max x.position.line 1)
  | empty (h : s.size = 0) : StandsFor s pos 1

theorem standsFor_lineAt : (ofLexemes xs).StandsFor pos ((ofLexemes xs).lineAt pos) := by
  rcases Nat.eq_zero_or_pos (ofLexemes xs).size with hempty | hsize
  · have hnone : (marked xs).length = 0 := size_ofLexemes.symm.trans hempty
    have hline : (ofLexemes xs).lineAt pos = 1 := by
      simp [lineAt, lexemeAt?_ofLexemes, List.eq_nil_of_length_eq_zero hnone]
    rw [hline]
    exact .empty hempty
  · by_cases hlt : pos < (ofLexemes xs).size
    · obtain ⟨x, hx⟩ := exists_lexemeAt? hlt
      have hmin : min pos ((ofLexemes xs).size - 1) = pos := by omega
      have hline : (ofLexemes xs).lineAt pos = max x.position.line 1 := by simp [lineAt, hmin, hx]
      rw [hline]
      exact .here hx
    · have hlast : (ofLexemes xs).size - 1 < (ofLexemes xs).size := by omega
      obtain ⟨x, hx⟩ := exists_lexemeAt? hlast
      have hmin : min pos ((ofLexemes xs).size - 1) = (ofLexemes xs).size - 1 := by omega
      have hline : (ofLexemes xs).lineAt pos = max x.position.line 1 := by simp [lineAt, hmin, hx]
      rw [hline]
      exact .past (by omega) hx

theorem extract_piece {α : Type} {a : Array α} {lo lo' hi hi' : Nat} (hlo : lo ≤ lo')
    (hhi : hi' ≤ hi) : (a.extract lo' hi').toList <:+: (a.extract lo hi).toList := by
  rw [Array.toList_extract, Array.toList_extract, List.extract, List.extract]
  have hsuffix : (a.toList.drop lo').take (hi' - lo') <:+ (a.toList.drop lo).take (hi' - lo) := by
    rw [← List.drop_take, ← List.drop_take]
    exact List.drop_suffix_drop_left _ hlo
  exact hsuffix.isInfix.trans (List.take_prefix_take_left (by omega)).isInfix

theorem join_piece {ps qs : List String} (h : ps <:+: qs) :
    (String.join ps).toList <:+: (String.join qs).toList := by
  obtain ⟨before, after, rfl⟩ := h
  simp only [String.toList_join, List.flatMap_append]
  exact ⟨_, _, rfl⟩

/-- A piece of the stream has a piece of its text. -/
theorem textBetween_piece (hlo : start ≤ start') (hlt : start' < stop') (hhi : stop' ≤ stop)
    (hsize : stop ≤ (ofLexemes xs).size) :
    ((ofLexemes xs).textBetween start' stop').toList <:+:
      ((ofLexemes xs).textBetween start stop).toList := by
  have hlen : (ofLexemes xs).size = (marked xs).length := size_ofLexemes
  have hindex : ∀ i (_ : i < (marked xs).length),
      (ofLexemes xs).significant[i]? = some (marked xs)[i].2 := by
    intro i hi
    rw [significant_ofLexemes, List.getElem?_eq_getElem hi]
    rfl
  have hmono : ∀ i j (_ : i ≤ j) (_ : j < (marked xs).length),
      (marked xs)[i].2 ≤ (marked xs)[j].2 := by
    intro i j hij hj
    rcases Nat.lt_or_eq_of_le hij with hlt | rfl
    · exact Nat.le_of_lt (List.pairwise_iff_getElem.mp indices_increase i j (by omega) hj hlt)
    · exact Nat.le_refl _
  have hmin : min (stop - 1) ((marked xs).length - 1) = stop - 1 := by omega
  have hmin' : min (stop' - 1) ((marked xs).length - 1) = stop' - 1 := by omega
  unfold textBetween
  rw [if_neg (by omega), if_neg (by omega), hlen, hmin, hmin', hindex start' (by omega),
    hindex (stop' - 1) (by omega), hindex start (by omega), hindex (stop - 1) (by omega)]
  refine join_piece ((extract_piece ?_ ?_).map _)
  · exact hmono start start' hlo (by omega)
  · have hlast := hmono (stop' - 1) (stop - 1) (by omega) (by omega)
    omega

end Source

/-! ### Trees -/

namespace Node.Placed

variable {s : Source} {n : Node} {above : List Node}

/-- Everything below a placed node is placed inside it. -/
theorem of_mem {site : Site} (h : n.Placed s) (hsite : site ∈ n.sitesFrom above) :
    site.node.Placed s ∧ n.start ≤ site.node.start ∧ site.node.stop ≤ n.stop := by
  induction n using Node.induct generalizing above with
  | node n ih =>
    rcases Node.mem_sitesFrom.mp hsite with rfl | ⟨c, hc, hsite⟩
    · exact ⟨h, Nat.le_refl _, Nat.le_refl _⟩
    · cases h with
      | intro line parts covers below =>
        obtain ⟨hplaced, hstart, hstop⟩ := ih c hc (below c hc) hsite
        have hin := parts.inside c hc
        exact ⟨hplaced, by omega, by omega⟩

/-- Each node begins at or behind the one listed before it. -/
theorem starts_increase (h : n.Placed s) :
    (n.sitesFrom above).Pairwise fun a b => a.node.start ≤ b.node.start := by
  induction n using Node.induct generalizing above with
  | node n ih =>
    cases h with
    | intro line parts covers below =>
      rw [Node.sitesFrom_eq]
      refine List.pairwise_cons.mpr ⟨fun site hsite => ?_, List.pairwise_flatMap.mpr ⟨?_, ?_⟩⟩
      · obtain ⟨c, hc, hsite⟩ := List.mem_flatMap.mp hsite
        have hc' := (below c hc).of_mem hsite
        have hin := parts.inside c hc
        show n.start ≤ site.node.start
        omega
      · exact fun c hc => ih c hc (below c hc)
      · refine parts.order.imp_of_mem fun {c d} hc hd hle site hsite site' hsite' => ?_
        obtain ⟨hplaced, hstart, hstop⟩ := (below c hc).of_mem hsite
        have hd' := (below d hd).of_mem hsite'
        have hspan := hplaced.le
        omega

end Node.Placed

namespace Tree

theorem source_of_ofSource? {s : Source} {t : Tree} (h : ofSource? s = some t) : t.source = s := by
  obtain ⟨r, -, rfl⟩ := Option.map_eq_some_iff.mp h
  rfl

/-- Over tokens whose lines never go back: parts stand inside the whole, one after another; a node
is on the line of its first token; lines never go back from one node to the next; and the text of a
part with a token is a piece of the text of the whole. -/
theorem source_order {xs : List Lexeme} {t : Tree}
    (hlines : xs.Pairwise fun a b => a.position.line ≤ b.position.line)
    (h : ofSource? (Source.ofLexemes xs) = some t) :
    (∀ site ∈ t.sites, ∀ c ∈ site.node.children,
      site.node.start ≤ c.start ∧ c.start ≤ c.stop ∧ c.stop ≤ site.node.stop) ∧
    (∀ site ∈ t.sites, site.node.children.Pairwise fun a b => a.stop ≤ b.start) ∧
    (∀ site ∈ t.sites, (Source.ofLexemes xs).StandsFor site.node.start site.node.line) ∧
    (t.sites.map fun site => site.node.line).Pairwise (· ≤ ·) ∧
    (∀ site ∈ t.sites, ∀ c ∈ site.node.children, c.start < c.stop →
      (t.text c).toList <:+: (t.text site.node).toList) := by
  have hall := ofSource?_placed (Source.ofLexemes xs)
  rw [h] at hall
  obtain ⟨hroot, hspan, -⟩ := hall
  have hplaced : ∀ site ∈ t.sites, site.node.Placed (Source.ofLexemes xs) ∧
      site.node.stop ≤ (Source.ofLexemes xs).size := by
    intro site hsite
    obtain ⟨hsite, -, hstop⟩ := hroot.of_mem hsite
    exact ⟨hsite, hspan.2 ▸ hstop⟩
  have hparts : ∀ site ∈ t.sites, Laid site.node.start site.node.children site.node.stop := by
    intro site hsite
    cases (hplaced site hsite).1 with
    | intro line parts covers below => exact parts
  have hline : ∀ site ∈ t.sites,
      site.node.line = (Source.ofLexemes xs).lineAt site.node.start := by
    intro site hsite
    cases (hplaced site hsite).1 with
    | intro line parts covers below => exact line
  refine ⟨fun site hsite => (hparts site hsite).inside, fun site hsite => (hparts site hsite).order,
    fun site hsite => ?_, ?_, fun site hsite c hc hlt => ?_⟩
  · rw [hline site hsite]
    exact Source.standsFor_lineAt
  · have hstarts : t.sites.Pairwise fun a b => a.node.start ≤ b.node.start := hroot.starts_increase
    refine List.pairwise_map.mpr (hstarts.imp_of_mem fun {a b} ha hb hle => ?_)
    rw [hline a ha, hline b hb]
    exact Source.lineAt_mono hlines hle
  · have hin := (hparts site hsite).inside c hc
    have hb := (hplaced site hsite).2
    unfold text
    rw [source_of_ofSource? h]
    exact Source.textBetween_piece hin.1 hlt hin.2.2 hb

/-- A query over two lines: `SELECT a` and below it `FROM t`. -/
theorem source_order_lines : ∃ t,
    ofSource? (Source.ofLexemes
      [⟨.word "SELECT" none, ⟨1, 1⟩⟩, ⟨.space " ", ⟨1, 7⟩⟩, ⟨.word "a" none, ⟨1, 8⟩⟩,
        ⟨.space "\n", ⟨1, 9⟩⟩, ⟨.word "FROM" none, ⟨2, 1⟩⟩, ⟨.space " ", ⟨2, 5⟩⟩,
        ⟨.word "t" none, ⟨2, 6⟩⟩]) = some t ∧
    (t.sites.map fun site => site.node.line).Pairwise (· ≤ ·) := by
  obtain ⟨t, ht⟩ := exists_ofSource? (s := .ofLexemes
    [⟨.word "SELECT" none, ⟨1, 1⟩⟩, ⟨.space " ", ⟨1, 7⟩⟩, ⟨.word "a" none, ⟨1, 8⟩⟩,
      ⟨.space "\n", ⟨1, 9⟩⟩, ⟨.word "FROM" none, ⟨2, 1⟩⟩, ⟨.space " ", ⟨2, 5⟩⟩,
      ⟨.word "t" none, ⟨2, 6⟩⟩]) (Source.keyed_iff.mpr (by cbv))
  exact ⟨t, ht, (source_order (by decide) ht).2.2.2.1⟩

/-- The statements of a batch read every token once, semicolons apart, and so do the statements of a
block between its opening words and its end. -/
theorem statements_cover {s : Source} {t : Tree} (h : ofSource? s = some t) :
    t.root.kind = .batch ∧ Tiled s 0 t.root.children s.size ∧
    ∀ site ∈ t.sites, ∀ kind, site.node.kind = .block kind → ∃ lo hi,
      BlockOpening s kind site.node.start lo ∧ Tiled s lo site.node.children hi ∧
      BlockClosing s kind hi site.node.stop := by
  have hall := ofSource?_placed s
  rw [h] at hall
  obtain ⟨hroot, hspan, hkind⟩ := hall
  refine ⟨hkind, ?_, fun site hsite kind hblock => ?_⟩
  · cases hroot with
    | intro line parts covers below =>
      rw [hkind, hspan.1, hspan.2] at covers
      exact covers
  · cases (hroot.of_mem hsite).1 with
    | intro line parts covers below =>
      rw [hblock] at covers
      exact covers

/-- A block that is never closed, with a semicolon before its statement: `BEGIN; BREAK`. -/
theorem statements_cover_unclosed : ∃ t, ofSource? (.ofLexemes
      [⟨.word "BEGIN" none, ⟨1, 1⟩⟩, ⟨.mark .semicolon, ⟨1, 6⟩⟩, ⟨.word "BREAK" none, ⟨1, 7⟩⟩]) =
        some t ∧ ∃ lo hi, BlockOpening t.source .plain 0 lo ∧
      Tiled t.source lo [⟨0, .breakLoop, 1, 2, 3, []⟩] hi ∧ BlockClosing t.source .plain hi 3 := by
  have hrun : ((ofSource? (.ofLexemes
      [⟨.word "BEGIN" none, ⟨1, 1⟩⟩, ⟨.mark .semicolon, ⟨1, 6⟩⟩,
        ⟨.word "BREAK" none, ⟨1, 7⟩⟩])).map fun t => t.sites[1]?.map fun x =>
      ((x.node :: x.node.children).map Node.kind, (x.node :: x.node.children).map fun n =>
        [n.id, n.line, n.start, n.stop, n.children.length])) =
      some (some ([.block .plain, .breakLoop], [[1, 1, 0, 3, 1], [0, 1, 2, 3, 0]])) := by
    rw [Source.ofLexemes_of_allApart (by decide)]
    decide +kernel
  obtain ⟨t, ht, hsecond⟩ := Option.map_eq_some_iff.mp hrun
  obtain ⟨site, hat, hfacts⟩ := Option.map_eq_some_iff.mp hsecond
  obtain ⟨⟨id, kind, line, start, stop, children⟩, hchildren⟩ :
      ∃ n, site.node.children = [n] := by
    have hnumbers := congrArg Prod.snd hfacts
    simp only [List.map_cons, List.cons.injEq] at hnumbers
    obtain ⟨⟨-, -, -, -, hone, -⟩, -⟩ := hnumbers
    exact List.length_eq_one_iff.mp hone
  simp only [hchildren, List.map_cons, List.map_nil, Prod.mk.injEq, List.cons.injEq, and_true,
    List.length_eq_zero_iff] at hfacts
  obtain ⟨⟨hblock, rfl⟩, ⟨-, -, hstart, hstop, -⟩, rfl, rfl, rfl, rfl, rfl⟩ := hfacts
  obtain ⟨-, -, hblocks⟩ := statements_cover ht
  have hcover := hblocks site (List.mem_of_getElem? hat) _ hblock
  rw [hstart, hstop, hchildren] at hcover
  rw [← source_of_ofSource? ht] at hcover
  exact ⟨t, ht, hcover⟩

end Tree

end Portability
