import Mathlib.Data.List.Perm.Subperm
import Mathlib.Data.List.Nodup
import Portability.Tree

/-! Who holds the nodes that a parser has built: the parser itself or one other node. -/
namespace Portability

/-- The operators that assign a value: the plain one and those that combine it with the old one. -/
def assignmentOperators : List String := ["=", "+=", "-=", "*=", "/=", "%=", "&=", "|=", "^="]

/-- The statements that work a cursor. -/
def cursorStatements : List String := ["OPEN", "CLOSE", "DEALLOCATE", "FETCH"]

/-- What a construct of each kind may say and be made of. -/
def Kind.Fits (kind : Kind) (parts : List Node) : Prop :=
  match kind with
  | .variableAssignment _ operator => operator ∈ assignmentOperators
  | .columnAssignment _ operator => operator ∈ "METHOD" :: assignmentOperators
  | .join _ (some hint) => hint ∈ Parser.joinHintWords
  | .cursorOp op _ _ => op ∈ "CURRENT OF" :: cursorStatements
  | .unparsed _ | .createOther .. | .drop .. => parts = []
  | _ => True

/-- The identities of all nodes that are parts of others. -/
def partIds (nodes : List Node) : List Nat := nodes.flatMap fun n => n.children.map Node.id

/-- A node that is replaced by one with more parts adds just these to the parts of all. -/
theorem partIds_set {nodes : List Node} {n m : Node} {ys : List Node} {i : Nat}
    (h : nodes[i]? = some n) (hparts : m.children = ys ++ n.children) :
    (partIds (nodes.set i m)).Perm (ys.map Node.id ++ partIds nodes) := by
  induction nodes generalizing i with
  | nil => simp at h
  | cons k rest ih =>
    cases i with
    | zero =>
      cases h
      simp [partIds, hparts]
    | succ i =>
      have hrest := ih (by simpa using h)
      have hcomm : (k.children.map Node.id ++ (ys.map Node.id ++ partIds rest)).Perm
          (ys.map Node.id ++ (k.children.map Node.id ++ partIds rest)) := by
        rw [← List.append_assoc, ← List.append_assoc]
        exact List.perm_append_comm.append_right _
      exact (hrest.append_left _).trans hcomm

/-- Each built node stands at the place of its identity, its parts were built before it, and no node
is held twice, by the parser, which holds `xs`, or by other nodes. -/
structure Holds (nodes : Array Node) (xs : List Node) : Prop where
  numbered : ∀ (i : Nat) (n : Node), nodes[i]? = some n → n.id = i
  earlier : ∀ n ∈ nodes, ∀ c ∈ n.children, c.id < n.id
  part : ∀ n ∈ nodes, ∀ c ∈ n.children, nodes[c.id]? = some c
  own : ∀ n ∈ xs, nodes[n.id]? = some n
  once : (xs.map Node.id ++ partIds nodes.toList).Nodup
  fits : ∀ n ∈ nodes, n.kind.Fits n.children

namespace Holds

variable {nodes : Array Node} {n m : Node} {xs ys : List Node}

/-- Before anything is read no node is built or held. -/
theorem nil : Holds #[] [] := by
  constructor <;> simp [partIds]

/-- Nodes may be dropped and may change their places among those held. -/
theorem of_subperm (h : Holds nodes xs) (hs : ys.Subperm xs) : Holds nodes ys where
  numbered := h.numbered
  earlier := h.earlier
  part := h.part
  own n hn := h.own n (hs.subset hn)
  once := by
    obtain ⟨zs, hp, hl⟩ := hs
    have hsub := (hl.map Node.id).append_right (partIds nodes.toList)
    have hperm := (hp.map Node.id).append_right (partIds nodes.toList)
    exact (hperm.nodup_iff).mp (h.once.sublist hsub)
  fits := h.fits

theorem id_lt (h : Holds nodes xs) (hn : n ∈ xs) : n.id < nodes.size :=
  (Array.getElem?_eq_some_iff.mp (h.own n hn)).1

theorem mem (h : Holds nodes xs) (hn : n ∈ xs) : n ∈ nodes :=
  Array.mem_of_getElem? (h.own n hn)

/-- Every part is one of the nodes that are built. -/
theorem part_lt (h : Holds nodes xs) {i : Nat} (hi : i ∈ partIds nodes.toList) :
    i < nodes.size := by
  simp only [partIds, List.mem_flatMap, List.mem_map, Array.mem_toList_iff] at hi
  obtain ⟨n, hn, c, hc, rfl⟩ := hi
  exact (Array.getElem?_eq_some_iff.mp (h.part n hn c hc)).1

/-- What the parser holds is no part of another node. -/
theorem part_ne (h : Holds nodes (n :: xs)) {k c : Node} (hk : k ∈ nodes) (hc : c ∈ k.children) :
    c.id ≠ n.id := by
  have hnone := (List.nodup_cons.mp h.once).1
  intro heq
  refine hnone (List.mem_append_right _ ?_)
  simp only [partIds, List.mem_flatMap, List.mem_map, Array.mem_toList_iff]
  exact ⟨k, hk, c, hc, heq⟩

/-- No node is held twice, so the others are not the first one. -/
theorem own_ne (h : Holds nodes (n :: xs)) {c : Node} (hc : c ∈ xs) : c.id ≠ n.id := by
  have hnone := (List.nodup_cons.mp h.once).1
  exact fun heq => hnone (List.mem_append_left _ (List.mem_map.mpr ⟨c, hc, heq⟩))

/-- A new node takes the nodes that become its parts out of the hands of the parser. -/
theorem push (h : Holds nodes (n.children ++ xs)) (hid : n.id = nodes.size)
    (hfits : n.kind.Fits n.children) : Holds (nodes.push n) (n :: xs) where
  numbered i k hk := by
    rw [Array.getElem?_push] at hk
    split at hk
    · cases hk
      omega
    · exact h.numbered i k hk
  earlier k hk c hc := by
    rcases Array.mem_push.mp hk with hk | rfl
    · exact h.earlier k hk c hc
    · rw [hid]
      exact h.id_lt (List.mem_append_left xs hc)
  part k hk c hc := by
    have hc' : nodes[c.id]? = some c := by
      rcases Array.mem_push.mp hk with hk | rfl
      · exact h.part k hk c hc
      · exact h.own c (List.mem_append_left xs hc)
    have hlt := (Array.getElem?_eq_some_iff.mp hc').1
    rw [Array.getElem?_push, if_neg (by omega), hc']
  own k hk := by
    rcases List.mem_cons.mp hk with rfl | hk
    · rw [hid, Array.getElem?_push_size]
    · have hk' := h.own k (List.mem_append_right _ hk)
      have hlt := (Array.getElem?_eq_some_iff.mp hk').1
      rw [Array.getElem?_push, if_neg (by omega), hk']
  once := by
    -- Against the old list, only the identity of the new node is added; it is out of range there.
    have hcomm : ((xs.map Node.id ++ partIds nodes.toList) ++ n.children.map Node.id).Perm
        (n.children.map Node.id ++ (xs.map Node.id ++ partIds nodes.toList)) :=
      List.perm_append_comm
    have hperm : ((n :: xs).map Node.id ++ partIds (nodes.push n).toList).Perm
        (n.id :: ((n.children ++ xs).map Node.id ++ partIds nodes.toList)) := by
      simpa [partIds] using hcomm
    rw [hperm.nodup_iff, List.nodup_cons]
    refine ⟨fun hmem => ?_, h.once⟩
    rcases List.mem_append.mp hmem with hmem | hmem
    · obtain ⟨k, hk, hkid⟩ := List.mem_map.mp hmem
      have := h.id_lt hk
      omega
    · have := h.part_lt hmem
      omega
  fits k hk := by
    rcases Array.mem_push.mp hk with hk | rfl
    · exact h.fits k hk
    · exact hfits

/-- A node that the parser holds is put in place of its earlier form, with further nodes in front of
its parts. -/
theorem amend (h : Holds nodes (n :: ys ++ xs)) (hid : m.id = n.id)
    (hparts : m.children = ys ++ n.children) (hlt : ∀ c ∈ ys, c.id < n.id)
    (hfits : m.kind.Fits m.children) : Holds (nodes.setIfInBounds n.id m) (m :: xs) := by
  have hn : n ∈ nodes := h.mem (List.mem_cons_self)
  have hget : nodes[n.id]? = some n := h.own n List.mem_cons_self
  have hsize : n.id < nodes.size := h.id_lt List.mem_cons_self
  have hkeep : ∀ c : Node, c.id ≠ n.id → nodes[c.id]? = some c →
      (nodes.setIfInBounds n.id m)[c.id]? = some c := by
    intro c hne hc
    rw [Array.getElem?_setIfInBounds_ne hne.symm, hc]
  have hmem : ∀ k ∈ nodes.setIfInBounds n.id m, k = m ∨ k ∈ nodes := by
    intro k hk
    rcases Array.mem_or_eq_of_mem_setIfInBounds hk with hk | hk
    · exact Or.inr hk
    · exact Or.inl hk
  constructor
  case numbered =>
    intro i k hk
    rw [Array.getElem?_setIfInBounds] at hk
    split at hk
    · cases hk
      omega
    · exact h.numbered i k hk
  case earlier =>
    intro k hk c hc
    rcases hmem k hk with rfl | hk
    · rw [hparts, List.mem_append] at hc
      rw [hid]
      rcases hc with hc | hc
      · exact hlt c hc
      · exact h.earlier n hn c hc
    · exact h.earlier k hk c hc
  case part =>
    intro k hk c hc
    rcases hmem k hk with rfl | hk
    · rw [hparts, List.mem_append] at hc
      rcases hc with hc | hc
      · have hc' := List.mem_append_left xs hc
        exact hkeep c (h.own_ne hc') (h.own c (List.mem_cons_of_mem n hc'))
      · exact hkeep c (h.part_ne hn hc) (h.part n hn c hc)
    · exact hkeep c (h.part_ne hk hc) (h.part k hk c hc)
  case own =>
    intro k hk
    rcases List.mem_cons.mp hk with rfl | hk
    · rw [hid, Array.getElem?_setIfInBounds_self_of_lt hsize]
    · have hk' := List.mem_append_right ys hk
      exact hkeep k (h.own_ne hk') (h.own k (List.mem_cons_of_mem n hk'))
  case once =>
    have hlist : nodes.toList[n.id]? = some n := by simpa using hget
    have hperm := partIds_set hlist hparts
    simp only [Array.toList_setIfInBounds, List.map_cons, List.cons_append, List.nodup_cons, hid]
    have hmoved : (xs.map Node.id ++ partIds (nodes.toList.set n.id m)).Perm
        ((ys ++ xs).map Node.id ++ partIds nodes.toList) := by
      refine (hperm.append_left _).trans ?_
      rw [List.map_append, ← List.append_assoc]
      exact List.perm_append_comm.append_right _
    obtain ⟨hnone, hrest⟩ := List.nodup_cons.mp h.once
    exact ⟨fun hin => hnone (hmoved.mem_iff.mp hin), hmoved.nodup_iff.mpr hrest⟩
  case fits =>
    intro k hk
    rcases hmem k hk with rfl | hk
    · exact hfits
    · exact h.fits k hk

end Holds

end Portability
