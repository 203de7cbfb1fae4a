import Mathlib
import Portability.Proofs.Apart
import Portability.Proofs.Parsing.Statement
import Portability.Proofs.Sites

/-! The trees of batches are well formed: their links lead from every node to the root. -/
namespace Portability

/-- The node has a part of that identity. -/
def Node.hasPart (n : Node) (id : Nat) : Bool := n.children.any (·.id == id)

theorem Node.hasPart_iff {n : Node} {id : Nat} :
    n.hasPart id = true ↔ ∃ c ∈ n.children, c.id = id := by
  simp [Node.hasPart]

namespace Tree

/-- The node that has the given one among its parts. The root counts as a part of nothing. -/
def parent? (t : Tree) (n : Node) : Option Node :=
  if n.id = t.root.id then none
  else t.nodes.toList.reverse.find? (·.hasPart n.id)

/-- What encloses a node, nearest first, as far as that many steps lead. -/
def climb (t : Tree) : Nat → Node → List Node
  | 0, _ => []
  | steps + 1, n =>
    match t.parent? n with
    | some p => p :: t.climb steps p
    | none => []

/-- What encloses a node, nearest first, in no more steps than there are nodes. -/
def ancestors (t : Tree) (n : Node) : List Node := t.climb t.size n

/-- What holds of the tree of every batch. -/
structure WellFormed (t : Tree) : Prop where
  numbered : ∀ (i : Nat) (n : Node), t.nodes[i]? = some n → n.id = i
  /-- A part is a node that was built before the whole. -/
  part : ∀ n ∈ t.nodes, ∀ c ∈ n.children, c.id < n.id ∧ t.nodes[c.id]? = some c
  /-- No node is a part of two nodes or twice of one. -/
  once : (partIds t.nodes.toList).Nodup
  root_kind : t.root.kind = .batch
  root_mem : t.nodes[t.root.id]? = some t.root
  /-- The sites are those of the nodes that the root leads to, each listed once. -/
  reachable : ∀ n, (∃ s ∈ t.sites, s.node = n) ↔
    Relation.ReflTransGen (fun p c => c ∈ p.children) t.root n
  sites_once : (t.sites.map (·.node.id)).Nodup
  /-- What encloses a site directly is the one node that has it among its parts. -/
  parent : ∀ s ∈ t.sites, t.parent? s.node = s.parent?.map Site.node ∧
    ∀ p ∈ t.nodes, p.hasPart s.node.id ↔ t.parent? s.node = some p
  /-- What encloses a site is what climbing finds; it leads from part to whole up to the root. -/
  ancestors : ∀ s ∈ t.sites, t.ancestors s.node = s.ancestors ∧
    s.path.IsChain Node.IsPartOf ∧ s.path.getLast? = some t.root
  /-- Every site other than the root belongs to one statement of the batch. -/
  topStatement : ∀ s ∈ t.sites, s.node.id ≠ t.root.id →
    ∃ statement ∈ t.root.children, s.topStatement? = some statement ∧ statement ∈ s.path

end Tree

variable {t : Tree} {s : Site}

theorem partIds_unique {nodes : List Node} (h : (partIds nodes).Nodup) {p q : Node} {i : Nat}
    (hp : p ∈ nodes) (hq : q ∈ nodes) (hpi : i ∈ p.children.map Node.id)
    (hqi : i ∈ q.children.map Node.id) : p = q := by
  induction nodes with
  | nil => cases hp
  | cons n rest ih =>
    obtain ⟨-, hrest, hdisj⟩ := List.nodup_append.mp h
    have hin : ∀ k ∈ rest, i ∈ k.children.map Node.id → i ∈ partIds rest :=
      fun k hk hki => List.mem_flatMap.mpr ⟨k, hk, hki⟩
    rcases List.mem_cons.mp hp with rfl | hp'
    · rcases List.mem_cons.mp hq with rfl | hq'
      · rfl
      · exact absurd rfl (hdisj i hpi i (hin q hq' hqi))
    · rcases List.mem_cons.mp hq with rfl | hq'
      · exact absurd rfl (hdisj i hqi i (hin p hp' hpi))
      · exact ih hrest hp' hq'

theorem Holds.parent_unique {nodes : Array Node} {xs : List Node} (h : Holds nodes xs)
    {p q c d : Node} (hp : p ∈ nodes) (hq : q ∈ nodes) (hc : c ∈ p.children) (hd : d ∈ q.children)
    (hid : c.id = d.id) : p = q := by
  have honce := (List.nodup_append.mp h.once).2.1
  exact partIds_unique honce (Array.mem_toList_iff.mpr hp) (Array.mem_toList_iff.mpr hq)
    (List.mem_map_of_mem hc) (hid ▸ List.mem_map_of_mem hd)

theorem Holds.nodup_children {nodes : Array Node} {xs : List Node} (h : Holds nodes xs) {p : Node}
    (hp : p ∈ nodes) : (p.children.map Node.id).Nodup := by
  have honce := (List.nodup_append.mp h.once).2.1
  exact (List.nodup_flatMap.mp honce).1 p (Array.mem_toList_iff.mpr hp)

/-- The same identity means the same node. -/
theorem Holds.eq_of_id {nodes : Array Node} {xs : List Node} (h : Holds nodes xs) {m n : Node}
    (hm : m ∈ nodes) (hn : n ∈ nodes) (hid : m.id = n.id) : m = n := by
  obtain ⟨i, hi, rfl⟩ := Array.mem_iff_getElem.mp hm
  obtain ⟨j, hj, rfl⟩ := Array.mem_iff_getElem.mp hn
  have h1 := h.numbered i _ (Array.getElem?_eq_getElem hi)
  have h2 := h.numbered j _ (Array.getElem?_eq_getElem hj)
  have hij : i = j := by omega
  subst hij
  rfl

namespace Tree

theorem mem_nodes_of_mem_path (h : Holds t.nodes [t.root]) (hs : s ∈ t.sites) :
    ∀ n ∈ s.path, n ∈ t.nodes := by
  obtain ⟨hchain, hlast⟩ := mem_sites_iff.mp hs
  refine hchain.backwards_induction (· ∈ t.nodes) _ (fun c p hcp hp => ?_) fun hne => ?_
  · exact Array.mem_of_getElem? (h.part p hp c hcp)
  · have hroot : s.path.getLast hne = t.root := by
      rw [List.getLast?_eq_getLast_of_ne_nil hne] at hlast
      exact Option.some.inj hlast
    rw [hroot]
    exact h.mem List.mem_cons_self

theorem root_not_part (h : Holds t.nodes [t.root]) {p c : Node} (hp : p ∈ t.nodes)
    (hc : c ∈ p.children) : c.id ≠ t.root.id := by
  intro hid
  obtain ⟨hnot, -⟩ := List.nodup_cons.mp h.once
  exact hnot (List.mem_flatMap.mpr ⟨p, Array.mem_toList_iff.mpr hp,
    List.mem_map.mpr ⟨c, hc, hid⟩⟩)

theorem parent?_of_mem (h : Holds t.nodes [t.root]) {p c : Node} (hp : p ∈ t.nodes)
    (hc : c ∈ p.children) : t.parent? c = some p := by
  unfold parent?
  rw [if_neg (root_not_part h hp hc)]
  have hsome : (t.nodes.toList.reverse.find? (·.hasPart c.id)).isSome := by
    rw [List.find?_isSome]
    exact ⟨p, by simpa using hp, Node.hasPart_iff.mpr ⟨c, hc, rfl⟩⟩
  obtain ⟨q, hq⟩ := Option.isSome_iff_exists.mp hsome
  have hqmem : q ∈ t.nodes := by simpa using List.mem_of_find?_eq_some hq
  have hqpart := List.find?_some (p := fun n : Node => n.hasPart c.id) hq
  obtain ⟨d, hd, hid⟩ := Node.hasPart_iff.mp hqpart
  rw [hq, h.parent_unique hp hqmem hc hd hid.symm]

theorem parent?_root : t.parent? t.root = none := if_pos rfl

/-- Climbing retraces a way up to the root and needs no more steps than it is long. -/
theorem climb_eq (h : Holds t.nodes [t.root]) {n : Node} {above : List Node}
    (hmem : ∀ m ∈ n :: above, m ∈ t.nodes) (hchain : (n :: above).IsChain Node.IsPartOf)
    (hlast : (n :: above).getLast? = some t.root) {steps : Nat} (hsteps : above.length ≤ steps) :
    t.climb steps n = above := by
  induction above generalizing n steps with
  | nil =>
    cases hlast
    cases steps with
    | zero => rfl
    | succ steps => simp [climb, parent?_root]
  | cons p rest ih =>
    obtain ⟨hpart, hrest⟩ := List.isChain_cons_cons.mp hchain
    cases steps with
    | zero => simp at hsteps
    | succ steps =>
      have hp : p ∈ t.nodes := hmem p (by simp)
      have hup := ih (fun m hm => hmem m (List.mem_cons_of_mem n hm)) hrest
        (by simpa using hlast) (by simpa using hsteps)
      simp [climb, parent?_of_mem h hp hpart, hup]

/-- Identities grow on the way up, so it is shorter than the number of nodes. -/
theorem id_add_length_le (h : Holds t.nodes [t.root]) {n : Node} {above : List Node}
    (hmem : ∀ m ∈ n :: above, m ∈ t.nodes) (hchain : (n :: above).IsChain Node.IsPartOf)
    (hlast : (n :: above).getLast? = some t.root) : n.id + above.length ≤ t.root.id := by
  induction above generalizing n with
  | nil =>
    cases hlast
    simp
  | cons p rest ih =>
    obtain ⟨hpart, hrest⟩ := List.isChain_cons_cons.mp hchain
    have hlt := h.earlier p (hmem p (by simp)) n hpart
    have hle := ih (fun m hm => hmem m (List.mem_cons_of_mem n hm)) hrest (by simpa using hlast)
    simp only [List.length_cons]
    omega

theorem ancestors_eq (h : Holds t.nodes [t.root]) (hs : s ∈ t.sites) :
    t.ancestors s.node = s.ancestors := by
  obtain ⟨hchain, hlast⟩ := mem_sites_iff.mp hs
  have hmem := mem_nodes_of_mem_path h hs
  have hle := id_add_length_le h hmem hchain hlast
  have hroot := h.id_lt List.mem_cons_self
  refine climb_eq h hmem hchain hlast ?_
  unfold size
  omega

theorem mem_nodes_of_mem_sites (h : Holds t.nodes [t.root]) (hs : s ∈ t.sites) :
    s.node ∈ t.nodes :=
  mem_nodes_of_mem_path h hs s.node List.mem_cons_self

theorem fits_of_mem_sites {text : String} (h : ofText? text = some t) (hs : s ∈ t.sites) :
    s.kind.Fits s.node.children := by
  obtain ⟨hh, -⟩ := holds_ofText? h
  exact hh.fits s.node (mem_nodes_of_mem_sites hh hs)

theorem nodup_site_ids (h : Holds t.nodes [t.root]) : (t.sites.map (·.node.id)).Nodup := by
  have hsites : t.sites.Nodup := Node.nodup_sitesFrom fun s hs =>
    List.Nodup.of_map _ (h.nodup_children (mem_nodes_of_mem_sites h hs))
  refine List.Nodup.map_on (fun s hs s' hs' hid => ?_) hsites
  have hnode := h.eq_of_id (mem_nodes_of_mem_sites h hs) (mem_nodes_of_mem_sites h hs') hid
  have hup : s.ancestors = s'.ancestors := by
    rw [← ancestors_eq h hs, ← ancestors_eq h hs', hnode]
  obtain ⟨n, above⟩ := s
  obtain ⟨n', above'⟩ := s'
  cases hnode
  cases hup
  rfl

theorem parent?_eq (h : Holds t.nodes [t.root]) (hs : s ∈ t.sites) :
    t.parent? s.node = s.parent?.map Site.node := by
  obtain ⟨n, above⟩ := s
  obtain ⟨hchain, hlast⟩ := mem_sites_iff.mp hs
  cases above with
  | nil =>
    have hroot : n = t.root := Option.some.inj hlast
    rw [hroot]
    exact parent?_root
  | cons q rest =>
    have hq : q ∈ t.nodes := mem_nodes_of_mem_path h hs q (by simp [Site.path])
    exact parent?_of_mem h hq (List.isChain_cons_cons.mp hchain).1

theorem hasPart_iff_parent? (h : Holds t.nodes [t.root]) {n p : Node} (hn : n ∈ t.nodes)
    (hp : p ∈ t.nodes) : p.hasPart n.id ↔ t.parent? n = some p := by
  rw [Node.hasPart_iff]
  constructor
  · rintro ⟨c, hc, hid⟩
    have hcn := h.eq_of_id (Array.mem_of_getElem? (h.part p hp c hc)) hn hid
    exact parent?_of_mem h hp (hcn ▸ hc)
  · intro hparent
    unfold parent? at hparent
    split at hparent
    · cases hparent
    · exact Node.hasPart_iff.mp (List.find?_some (p := fun m : Node => m.hasPart n.id) hparent)

theorem topStatement_mem (hs : s ∈ t.sites) (hne : s.node.id ≠ t.root.id) :
    ∃ statement ∈ t.root.children, s.topStatement? = some statement ∧ statement ∈ s.path := by
  obtain ⟨hchain, hlast⟩ := mem_sites_iff.mp hs
  obtain ⟨up, hup⟩ := List.getLast?_eq_some_iff.mp hlast
  rcases List.eq_nil_or_concat up with rfl | ⟨low, c, rfl⟩
  · have hroot : s.node = t.root := (List.cons.inj hup).1
    exact absurd (congrArg Node.id hroot) hne
  · rw [List.concat_eq_append, List.append_assoc] at hup
    rw [hup] at hchain
    have hc : c ∈ t.root.children := List.isChain_pair.mp (List.isChain_split.mp hchain).2
    refine ⟨c, hc, ?_, by simp [hup]⟩
    have hrev : (s.node :: s.ancestors).reverse = t.root :: c :: low.reverse := by
      have := congrArg List.reverse hup
      simpa [Site.path] using this
    simp [Site.topStatement?, hrev]

end Tree

theorem Node.mem_sitesFrom_iff_reaches {above : List Node} {n m : Node} :
    (∃ s ∈ n.sitesFrom above, s.node = m) ↔
      Relation.ReflTransGen (fun p c => c ∈ p.children) n m := by
  induction n using Node.induct generalizing above with
  | node n ih =>
    rw [Relation.ReflTransGen.cases_head_iff]
    constructor
    · rintro ⟨s, hs, rfl⟩
      rcases Node.mem_sitesFrom.mp hs with rfl | ⟨c, hc, hs⟩
      · exact Or.inl rfl
      · exact Or.inr ⟨c, hc, (ih c hc).mp ⟨s, hs, rfl⟩⟩
    · rintro (rfl | ⟨c, hc, hreach⟩)
      · exact ⟨⟨n, above⟩, Node.mem_sitesFrom.mpr (Or.inl rfl), rfl⟩
      · obtain ⟨s, hs, hnode⟩ := (ih c hc).mpr hreach
        exact ⟨s, Node.mem_sitesFrom.mpr (Or.inr ⟨c, hc, hs⟩), hnode⟩

namespace Tree

/-- The tree of every text is well formed, however the text is written. -/
theorem wellFormed_ofText? {text : String} (h : ofText? text = some t) : t.WellFormed := by
  obtain ⟨hh, hkind⟩ := holds_ofText? h
  constructor
  case numbered => exact hh.numbered
  case part => exact fun n hn c hc => ⟨hh.earlier n hn c hc, hh.part n hn c hc⟩
  case once => exact (List.nodup_append.mp hh.once).2.1
  case root_kind => exact hkind
  case root_mem => exact hh.own t.root List.mem_cons_self
  case reachable => exact fun n => Node.mem_sitesFrom_iff_reaches
  case sites_once => exact nodup_site_ids hh
  case parent =>
    intro s hs
    exact ⟨parent?_eq hh hs, fun p => hasPart_iff_parent? hh (mem_nodes_of_mem_sites hh hs)⟩
  case ancestors => exact fun s hs => ⟨ancestors_eq hh hs, mem_sites_iff.mp hs⟩
  case topStatement => exact fun s hs hne => topStatement_mem hs hne

/-- A statement behind `WITH` gets its common table expressions as a part afterwards. -/
theorem wellFormed_with_delete :
    ∃ t, ofText? "WITH c AS (SELECT 1) DELETE c" = some t ∧ t.WellFormed := by
  obtain ⟨t, ht⟩ : ∃ t, ofText? "WITH c AS (SELECT 1) DELETE c" = some t :=
    exists_ofText?_of_apart (by decide +kernel)
  exact ⟨t, ht, wellFormed_ofText? ht⟩

end Tree

end Portability
