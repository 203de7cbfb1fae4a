import Portability.Proofs.Parsing.Arena

/-! Rules for parsers: the nodes that a parser holds are kept, become parts of new nodes or are
dropped, and none is used twice. -/
namespace Portability

/-- The step from the nodes `xs` to the nodes `ys`, whatever else is held. -/
structure Turns (xs ys : List Node) (old new : Array Node) : Prop where
  holds : ∀ rest, Holds old (xs ++ rest) → Holds new (ys ++ rest)
  size_le : old.size ≤ new.size
  origin : ∀ n ∈ ys, n.id ∈ xs.map Node.id ∨ old.size ≤ n.id

namespace Turns

variable {xs ys zs : List Node} {a b c : Array Node}

theorem drop (h : ys.Sublist xs) : Turns xs ys a a where
  holds rest hh := hh.of_subperm (h.append_right rest).subperm
  size_le := Nat.le_refl _
  origin _ hn := Or.inl (List.mem_map_of_mem (h.subset hn))

/-- Steps that follow one another are one step. -/
theorem trans (h : Turns xs ys a b) (k : Turns ys zs b c) : Turns xs zs a c where
  holds rest hh := k.holds rest (h.holds rest hh)
  size_le := Nat.le_trans h.size_le k.size_le
  origin n hn := by
    rcases k.origin n hn with hy | hb
    · obtain ⟨y, hy, hid⟩ := List.mem_map.mp hy
      rw [← hid]
      exact h.origin y hy
    · exact Or.inr (Nat.le_trans h.size_le hb)

/-- Nodes that a step does not use stay held in front of its own. -/
theorem frame (h : Turns [] ys a b) : Turns xs (xs ++ ys) a b where
  holds rest hh := by
    have hk := h.holds (xs ++ rest) hh
    refine hk.of_subperm (List.Perm.subperm ?_)
    rw [← List.append_assoc]
    exact List.perm_append_comm.append_right rest
  size_le := h.size_le
  origin n hn := by
    rcases List.mem_append.mp hn with hx | hy
    · exact Or.inl (List.mem_map_of_mem hx)
    · exact (h.origin n hy).imp_left fun hnil => absurd hnil List.not_mem_nil

end Turns

variable {σ τ α β : Type}

/-- A result of two readings in a row is one of the second, after one of the first. -/
theorem Reading.bind_eq_some {p : Reading τ α} {f : α → Reading τ β} {s : Source} {c c' : τ} {b : β}
    (h : (p >>= f) s c = some (b, c')) : ∃ a d, p s c = some (a, d) ∧ f a s d = some (b, c') := by
  simp only [bind] at h
  split at h
  · rename_i a d hp
    exact ⟨a, d, hp, h⟩
  · cases h

/-- Every result of the reading has the property. -/
def Yields (p : Reading τ α) (Q : α → Prop) : Prop := ∀ s c a c', p s c = some (a, c') → Q a

namespace Yields

variable {p q : Reading τ α} {f : α → Reading τ β} {P : α → Prop} {Q : β → Prop}

/-- What is given back without a step has the property itself. -/
theorem ret {a : α} (h : P a) : Yields (pure a : Reading τ α) P := by
  intro s c b c' hb
  cases hb
  exact h

/-- What follows a result with a property may use it. -/
theorem seq (hp : Yields p P) (hf : ∀ a, P a → Yields (f a) Q) : Yields (p >>= f) Q := by
  intro s c b c' hb
  obtain ⟨a, d, ha, hb⟩ := Reading.bind_eq_some hb
  exact hf a (hp s c a d ha) s d b c' hb

theorem step (hf : ∀ a, Yields (f a) Q) : Yields (p >>= f) Q :=
  seq (P := fun _ => True) (fun _ _ _ _ _ => trivial) fun a _ => hf a

theorem ite {c : Prop} [Decidable c] (hp : Yields p P) (hq : Yields q P) :
    Yields (if c then p else q) P := by
  split
  · exact hp
  · exact hq

/-- A property of nodes that depends on the kind only. -/
theorem node {kind : Kind} {start : Nat} {parts : List Node} {P : Node → Prop}
    (h : ∀ n : Node, n.kind = kind → P n) : Yields (Parser.node kind start parts) P := by
  intro s c n c' hn
  cases hn
  exact h _ rfl

end Yields

/-- Whenever the parser has a result, the nodes `xs` that it is given have turned into those that
belong to the result. -/
def Builds (xs : List Node) (p : Parser α) (ys : α → List Node) : Prop :=
  ∀ s c a c', p s c = some (a, c') → Turns xs (ys a) c.nodes c'.nodes

/-- The nodes that belong to the outcome of a round. -/
def Round.nodes (state : σ → List Node) (result : α → List Node) : Round σ α → List Node
  | .again s => state s
  | .done a => result a

@[simp] theorem Round.nodes_again (state : σ → List Node) (result : α → List Node) (s : σ) :
    (Round.again s).nodes state result = state s := rfl

@[simp] theorem Round.nodes_done (state : σ → List Node) (result : α → List Node) (a : α) :
    (Round.done a : Round σ α).nodes state result = result a := rfl

namespace Builds

variable {xs : List Node} {ys zs : α → List Node} {ws : β → List Node} {p q : Parser α}
  {f : α → Parser β}

theorem ret {a : α} (h : (ys a).Sublist xs) : Builds xs (pure a) ys := by
  intro s c b c' hb
  cases hb
  exact Turns.drop h

/-- A scan builds no node. -/
theorem scanned {p : Scan α} : Builds [] (liftM p : Parser α) fun _ => [] := by
  intro s c a c' ha
  simp only [liftM, monadLift, MonadLift.monadLift] at ha
  split at ha
  · cases ha
    exact Turns.drop (List.Sublist.refl [])
  · cases ha

theorem seq (hp : Builds xs p ys) (hf : ∀ a, Builds (ys a) (f a) ws) :
    Builds xs (p >>= f) ws := by
  intro s c b c' hb
  obtain ⟨a, d, ha, hb⟩ := Reading.bind_eq_some hb
  exact (hp s c a d ha).trans (hf a s d b c' hb)

/-- A step that uses none of the nodes held so far. -/
theorem step (hp : Builds [] p ys) (hf : ∀ a, Builds (xs ++ ys a) (f a) ws) :
    Builds xs (p >>= f) ws := by
  refine seq ?_ hf
  intro s c a c' ha
  exact (hp s c a c' ha).frame

theorem scan {p : Scan α} (hf : ∀ a, Builds xs (f a) ws) : Builds xs (liftM p >>= f) ws := by
  refine step scanned fun a => ?_
  rw [List.append_nil]
  exact hf a

/-- A scan whose results are known to have a property. -/
theorem scanOf {p : Scan α} {Q : α → Prop} (hp : Yields p Q)
    (hf : ∀ a, Q a → Builds xs (f a) ws) : Builds xs (liftM p >>= f) ws := by
  intro s c b c' hb
  obtain ⟨a, d, ha, hb⟩ := Reading.bind_eq_some hb
  simp only [liftM, monadLift, MonadLift.monadLift] at ha
  split at ha
  · rename_i a' pos hp'
    cases ha
    exact hf a (hp s _ a pos hp') s (Standing.moveTo c pos) b c' hb
  · cases ha

theorem drop (h : Builds [] p ys) : Builds xs p ys := by
  intro s c a c' ha
  exact (Turns.drop (List.nil_sublist xs)).trans (h s c a c' ha)

theorem ite {c : Prop} [Decidable c] (hp : Builds xs p ys) (hq : Builds xs q ys) :
    Builds xs (if c then p else q) ys := by
  split
  · exact hp
  · exact hq

theorem node {kind : Kind} {start : Nat} {parts : List Node} (h : parts.Sublist xs)
    (hfits : kind.Fits parts) :
    Builds xs (Parser.node kind start parts) fun n => [n] := by
  intro s c n c' hn
  cases hn
  refine (Turns.drop h).trans ⟨fun rest hh => ?_, ?_, fun n hn => ?_⟩
  · exact Holds.push hh rfl hfits
  · simp
  · cases List.mem_singleton.mp hn
    exact Or.inr (Nat.le_refl _)

theorem leaf {kind : Kind} {start : Nat} (hfits : kind.Fits []) :
    Builds xs (Parser.leaf kind start) fun n => [n] :=
  node (List.nil_sublist xs) hfits

/-- A node with other bounds. -/
theorem amend {n m : Node} (hid : m.id = n.id) (hkind : m.kind = n.kind)
    (hparts : m.children = n.children) : Builds [n] (Parser.amend m) fun n => [n] := by
  intro s c a c' ha
  cases ha
  refine ⟨fun rest hh => ?_, by simp, fun k hk => ?_⟩
  · have hfits : m.kind.Fits m.children := by
      rw [hkind, hparts]
      exact hh.fits n (hh.mem List.mem_cons_self)
    have hone : Holds c.nodes (n :: [] ++ rest) := hh
    have ham := Holds.amend hone hid (by simpa using hparts) (by simp) hfits
    simpa [hid] using ham
  · cases List.mem_singleton.mp hk
    exact Or.inl (by simp [hid])

theorem endless : Builds xs (Parser.endless : Parser α) ys := by
  intro s c a c' ha
  cases ha

/-- The nodes of the state of a loop are all that a round holds; by induction on the rounds. -/
theorem rounds {init : σ} {body : σ → Parser (Round σ α)} {inv : σ → List Node}
    (hbody : ∀ st, Builds (inv st) (body st) (Round.nodes inv ys)) (k : Nat) :
    Builds (inv init) (Parser.rounds body k init) ys := by
  induction k generalizing init with
  | zero => exact endless
  | succ k ih =>
    refine scan fun before => seq (hbody init) fun round => ?_
    cases round with
    | again st => exact scan fun pos => ite ih endless
    | done a => exact ret (List.Sublist.refl _)

/-- Every round keeps the nodes of its state. -/
theorem loop {init : σ} {body : σ → Parser (Round σ α)} (inv : σ → List Node)
    (hinit : (inv init).Sublist xs)
    (hbody : ∀ st, Builds (inv st) (body st) (Round.nodes inv ys)) :
    Builds xs (Parser.loop init body) ys := by
  intro s c a c' ha
  exact (Turns.drop hinit).trans (rounds hbody (s.size + 2) s c a c' ha)

end Builds

/-- The parser gives one node, built on its way or before, and holds nothing else. -/
abbrev Makes (p : Parser Node) : Prop := Builds [] p fun n => [n]

/-- The parser gives nodes that were built on its way. -/
abbrev MakesAll (p : Parser (List Node)) : Prop := Builds [] p fun ns => ns

namespace Builds

variable {ys : α → List Node} {item : Parser α} {p operand : Parser Node} {ps : Parser (List Node)}

theorem manyWhile {test : View → Bool} (h : Builds [] item ys) :
    Builds [] (Parser.manyWhile test item) fun items => items.flatMap ys := by
  refine loop (fun items => items.reverse.flatMap ys) (by simp) fun items => ?_
  refine scan fun v => ite ?_ ?_
  · refine step h fun a => ret ?_
    simp
  · exact ret (by simp)

theorem commaSeparated (h : Builds [] item ys) :
    Builds [] (Parser.commaSeparated item) fun items => items.flatMap ys := by
  refine loop (fun items => items.reverse.flatMap ys) (by simp) fun items => ?_
  refine step h fun a => scan fun more => ite ?_ ?_
  · exact ret (by simp)
  · exact ret (by simp)

theorem parenMembers (h : Builds [] item ys) :
    Builds [] (Parser.parenMembers item) fun items => items.flatMap ys := by
  refine scan fun opened => ite ?_ ?_
  · have hmember : Builds [] (do let m ← item; let _ ← Parser.eatMark .comma; return m) ys :=
      step h fun m => scan fun _ => ret (by simp)
    exact step (manyWhile hmember) fun members => scan fun _ => ret (by simp)
  · exact ret (by simp)

theorem listAfter {lead : Scan Bool} (h : MakesAll ps) :
    MakesAll (Parser.listAfter lead ps) := by
  refine scan fun found => ite ?_ ?_
  · exact h
  · exact ret (by simp)

theorem itemAfter {lead : Scan Bool} (h : Makes p) : MakesAll (Parser.itemAfter lead p) := by
  refine scan fun _ => ite ?_ ?_
  · exact step h fun n => ret (by simp)
  · exact ret (by simp)

theorem whenSees {test : View → Bool} (h : Makes p) : MakesAll (Parser.whenSees test p) :=
  itemAfter h

/-- Each operator takes the chain so far as its left part. -/
theorem chainLeft {operator? : View → Option Kind} (h : Makes operand)
    (hfits : ∀ v k parts, operator? v = some k → k.Fits parts) :
    Makes (Parser.chainLeft operand operator?) := by
  refine step h fun first => ?_
  refine loop (fun left => [left]) (by simp) fun left => ?_
  refine scan fun v => ?_
  split
  · rename_i kind hkind
    refine scan fun _ => step h fun right => ?_
    exact seq (node (by simp) (hfits _ _ _ hkind)) fun n => ret (by simp)
  · exact ret (by simp)

end Builds

namespace Makes

variable {p : Parser Node}

theorem manyWhile {test : View → Bool} (h : Makes p) : MakesAll (Parser.manyWhile test p) := by
  simpa using Builds.manyWhile h

theorem commaSeparated (h : Makes p) : MakesAll (Parser.commaSeparated p) := by
  simpa using Builds.commaSeparated h

theorem parenMembers (h : Makes p) : MakesAll (Parser.parenMembers p) := by
  simpa using Builds.parenMembers h

end Makes

end Portability
