import Mathlib.Data.List.Chain
import Mathlib.Data.List.Nodup
import Portability.Tree

/-! The sites of a tree: which there are and what encloses them. -/
namespace Portability

/-- An argument about a node may use that it holds for the parts of the node. -/
@[elab_as_elim]
theorem Node.induct {motive : Node → Prop}
    (node : ∀ n : Node, (∀ c ∈ n.children, motive c) → motive n) (n : Node) : motive n := by
  match n with
  | ⟨id, kind, line, start, stop, children⟩ =>
    refine node _ fun c hc => ?_
    have : sizeOf c < sizeOf children := List.sizeOf_lt_of_mem hc
    exact Node.induct node c
termination_by sizeOf n
decreasing_by
  simp
  omega

/-- The one node is a part of the other. -/
def Node.IsPartOf (c p : Node) : Prop := c ∈ p.children

theorem sitesOfParts_eq (above : List Node) (ns : List Node) :
    sitesOfParts above ns = ns.flatMap (·.sitesFrom above) := by
  induction ns with
  | nil => rfl
  | cons n rest ih => rw [sitesOfParts, ih, List.flatMap_cons]

theorem Node.sitesFrom_eq (above : List Node) (n : Node) :
    n.sitesFrom above = ⟨n, above⟩ :: n.children.flatMap (·.sitesFrom (n :: above)) := by
  cases n
  rw [Node.sitesFrom, sitesOfParts_eq]

theorem Node.mem_sitesFrom {above : List Node} {n : Node} {s : Site} :
    s ∈ n.sitesFrom above ↔
      s = ⟨n, above⟩ ∨ ∃ c ∈ n.children, s ∈ c.sitesFrom (n :: above) := by
  rw [Node.sitesFrom_eq, List.mem_cons, List.mem_flatMap]

/-- The way up from a node: the node itself and what encloses it. -/
def Site.path (s : Site) : List Node := s.node :: s.ancestors

/-- The sites below a node are those whose way up leads to it from part to whole. -/
theorem Node.mem_sitesFrom_iff {above : List Node} {n : Node} {s : Site} :
    s ∈ n.sitesFrom above ↔
      ∃ up, s.path = up ++ n :: above ∧ (up ++ [n]).IsChain IsPartOf := by
  induction n using Node.induct generalizing above with
  | node n ih =>
    rw [Node.mem_sitesFrom]
    constructor
    · rintro (rfl | ⟨c, hc, hs⟩)
      · exact ⟨[], rfl, .singleton n⟩
      · obtain ⟨up, hpath, hchain⟩ := (ih c hc).mp hs
        refine ⟨up ++ [c], by simp [hpath], ?_⟩
        rw [List.append_assoc]
        exact List.isChain_split.mpr ⟨hchain, List.isChain_pair.mpr hc⟩
    · rintro ⟨up, hpath, hchain⟩
      rcases List.eq_nil_or_concat up with rfl | ⟨low, c, rfl⟩
      · obtain ⟨node, ancestors⟩ := s
        cases hpath
        exact Or.inl rfl
      · rw [List.concat_eq_append, List.append_assoc] at hchain hpath
        have hsplit := List.isChain_split.mp hchain
        have hc : c ∈ n.children := List.isChain_pair.mp hsplit.2
        exact Or.inr ⟨c, hc, (ih c hc).mpr ⟨low, hpath, hsplit.1⟩⟩

theorem Tree.mem_sites_iff {t : Tree} {s : Site} :
    s ∈ t.sites ↔ s.path.IsChain Node.IsPartOf ∧ s.path.getLast? = some t.root := by
  unfold Tree.sites Node.sites
  rw [Node.mem_sitesFrom_iff]
  constructor
  · rintro ⟨up, hpath, hchain⟩
    rw [hpath]
    exact ⟨hchain, List.getLast?_concat⟩
  · rintro ⟨hchain, hlast⟩
    obtain ⟨up, hup⟩ := List.getLast?_eq_some_iff.mp hlast
    rw [hup] at hchain
    exact ⟨up, hup, hchain⟩

theorem Tree.part_mem_sites {t : Tree} {s : Site} {c : Node} (hs : s ∈ t.sites)
    (hc : c ∈ s.node.children) : (⟨c, s.node :: s.ancestors⟩ : Site) ∈ t.sites := by
  obtain ⟨hchain, hlast⟩ := Tree.mem_sites_iff.mp hs
  refine Tree.mem_sites_iff.mpr ⟨List.IsChain.cons_cons hc hchain, ?_⟩
  rwa [Site.path, List.getLast?_cons_cons]

/-- Neighbours with different identities have no site in common, so no site is listed twice. -/
theorem Node.nodup_sitesFrom {above : List Node} {n : Node}
    (h : ∀ s ∈ n.sitesFrom above, s.node.children.Nodup) :
    (n.sitesFrom above).Nodup := by
  induction n using Node.induct generalizing above with
  | node n ih =>
    rw [Node.sitesFrom_eq, List.nodup_cons]
    have hbelow : ∀ c ∈ n.children, ∀ s ∈ c.sitesFrom (n :: above), s ∈ n.sitesFrom above :=
      fun c hc s hs => Node.mem_sitesFrom.mpr (Or.inr ⟨c, hc, hs⟩)
    refine ⟨fun hmem => ?_, ?_⟩
    · obtain ⟨c, hc, hs⟩ := List.mem_flatMap.mp hmem
      obtain ⟨up, hpath, -⟩ := Node.mem_sitesFrom_iff.mp hs
      have := congrArg List.length hpath
      simp [Site.path] at this
      omega
    · refine List.nodup_flatMap.mpr ⟨fun c hc => ih c hc fun s hs => h s (hbelow c hc s hs), ?_⟩
      have hparts := h ⟨n, above⟩ (Node.mem_sitesFrom.mpr (Or.inl rfl))
      refine hparts.imp fun {c d} hne => ?_
      intro s hs hs'
      obtain ⟨up, hpath, -⟩ := Node.mem_sitesFrom_iff.mp hs
      obtain ⟨up', hpath', -⟩ := Node.mem_sitesFrom_iff.mp hs'
      rw [hpath] at hpath'
      have hlen := congrArg List.length hpath'
      simp at hlen
      have := (List.append_inj hpath' hlen).2
      exact hne (List.cons.inj this).1

end Portability
