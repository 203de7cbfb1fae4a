import Portability.Proofs.Parsing.Builds

/-! What the parts of a construct are, and rules for parsers whose nodes keep to it. -/
namespace Portability

namespace Kind

def isQuery : Kind → Bool
  | .query => true
  | _ => false

def isDataType : Kind → Bool
  | .dataType .. => true
  | _ => false

def isWithClause : Kind → Bool
  | .withClause => true
  | _ => false

def isOrderBy : Kind → Bool
  | .orderBy _ => true
  | _ => false

def isForClause : Kind → Bool
  | .forClause _ => true
  | _ => false

def isOptionClause : Kind → Bool
  | .optionClause => true
  | _ => false

/-- What the clauses of a query expression belong to. -/
def isQueryCore : Kind → Bool
  | .querySpec _ | .setOperation _ | .query | .otherStatement _ => true
  | _ => false

/-- What a derived table is made of. -/
def isRows : Kind → Bool
  | .query | .values _ => true
  | _ => false

/-- The construct may stand anywhere. -/
def isLoose : Kind → Bool
  | .querySpec _ | .cte _ => false
  | _ => true

/-- The construct may have the other one as a part: specifications of queries stand in queries and
set operations, common table expressions behind `WITH`. -/
def hosts (kind part : Kind) : Bool :=
  match part with
  | .querySpec _ => kind.isQuery || match kind with | .setOperation _ => true | _ => false
  | .cte _ => kind.isWithClause
  | _ => true

end Kind

/-- At most one part, of a kind that the test accepts. -/
def Optionally (test : Kind → Bool) (parts : List Node) : Prop :=
  parts.length ≤ 1 ∧ ∀ c ∈ parts, test c.kind = true

/-- The parts of a query: common table expressions, the query itself, and its clauses in order. -/
structure QueryParts (parts : List Node) : Prop where
  intro ::
  split : ∃ (ctes : List Node) (core : Node) (order format options : List Node),
    parts = ctes ++ core :: order ++ format ++ options ∧ Optionally Kind.isWithClause ctes ∧
      core.kind.isQueryCore = true ∧ Optionally Kind.isOrderBy order ∧
      Optionally Kind.isForClause format ∧ Optionally Kind.isOptionClause options

/-- The parts that a construct has, by number, kind and order. -/
def Kind.Admits (kind : Kind) (parts : List Node) : Prop :=
  match kind with
  | .batch | .block _ => ∀ c ∈ parts, c.kind.isStatement = true
  | .logical _ | .comparison _ | .binaryOp _ | .setOperation _ => parts.length = 2
  | .negation | .unaryOp _ | .isNull _ | .whereClause | .having | .top .. | .pivot _
  | .computedColumn _ | .columnAssignment .. | .variableAssignment .. => parts.length = 1
  | .between _ => parts.length = 3
  | .like _ | .join .. => parts.length = 2 ∨ parts.length = 3
  | .ifElse => 1 ≤ parts.length ∧ parts.length ≤ 3
  | .whileLoop => 1 ≤ parts.length ∧ parts.length ≤ 2
  | .inSubquery _ => ∃ operand query, parts = [operand, query] ∧ query.kind.isQuery = true
  | .existsQuery | .cte _ | .createView .. => ∃ query, parts = [query] ∧ query.kind.isQuery = true
  | .derivedTable _ => ∃ rows, parts = [rows] ∧ rows.kind.isRows = true
  | .query => QueryParts parts
  | .variableDecl _ => ∃ type rest, parts = type :: rest ∧ type.kind.isDataType = true
  | .parameter _ _ _ hasDefault => ∃ type rest, parts = type :: rest ∧
      type.kind.isDataType = true ∧ rest.length = if hasDefault then 1 else 0
  | _ => True

/-- The node and all nodes below it have the parts that their kinds admit. -/
inductive Node.Conforms : Node → Prop
  | intro {n : Node} (own : n.kind.Admits n.children)
      (hosts : ∀ c ∈ n.children, n.kind.hosts c.kind = true)
      (parts : ∀ c ∈ n.children, c.Conforms) : n.Conforms

/-- A node that conforms, of a kind that the test accepts. -/
structure Node.Is (test : Kind → Bool) (n : Node) : Prop where
  conforms : n.Conforms
  kind : test n.kind = true

/-- Nodes that conform and may be parts of anything. -/
abbrev Node.Loose (n : Node) : Prop := n.Is Kind.isLoose

def AllLoose (ns : List Node) : Prop := ∀ n ∈ ns, n.Loose

@[simp] theorem allLoose_nil : AllLoose [] := by simp [AllLoose]

@[simp] theorem allLoose_cons {n : Node} {ns : List Node} :
    AllLoose (n :: ns) ↔ n.Loose ∧ AllLoose ns := by
  simp [AllLoose]

@[simp] theorem allLoose_append {ns ms : List Node} :
    AllLoose (ns ++ ms) ↔ AllLoose ns ∧ AllLoose ms := by
  simp [AllLoose, or_imp, forall_and]

@[simp] theorem allLoose_flatten {rows : List (List Node)} :
    AllLoose rows.flatten ↔ ∀ row ∈ rows, AllLoose row := by
  simp only [AllLoose, List.mem_flatten, forall_exists_index, and_imp]
  exact ⟨fun h row hrow n hn => h n row hrow hn, fun h n row hrow hn => h row hrow n hn⟩

namespace Kind

variable {kind : Kind}

/-- What may stand anywhere is hosted by every construct. -/
theorem hosts_of_isLoose (host : Kind) (h : kind.isLoose = true) : host.hosts kind = true := by
  cases kind <;> first | rfl | cases h

end Kind

/-- All kinds that the test accepts may stand anywhere. -/
class LooseTest (test : Kind → Bool) : Prop where
  isLoose : ∀ kind : Kind, test kind = true → kind.isLoose = true

instance : LooseTest Kind.isLoose := ⟨fun _ h => h⟩

instance : LooseTest Kind.isStatement := ⟨fun kind h => by cases kind <;> first | rfl | cases h⟩

instance : LooseTest Kind.isQuery := ⟨fun kind h => by cases kind <;> first | rfl | cases h⟩

instance : LooseTest Kind.isDataType := ⟨fun kind h => by cases kind <;> first | rfl | cases h⟩

instance : LooseTest Kind.isRows := ⟨fun kind h => by cases kind <;> first | rfl | cases h⟩

instance : LooseTest Kind.isWithClause := ⟨fun kind h => by cases kind <;> first | rfl | cases h⟩

instance : LooseTest Kind.isOrderBy := ⟨fun kind h => by cases kind <;> first | rfl | cases h⟩

instance : LooseTest Kind.isForClause := ⟨fun kind h => by cases kind <;> first | rfl | cases h⟩

instance : LooseTest Kind.isOptionClause :=
  ⟨fun kind h => by cases kind <;> first | rfl | cases h⟩

section

variable {test : Kind → Bool} [LooseTest test] {n : Node} {ns : List Node}

/-- A node of a kind that may stand anywhere. -/
theorem Node.Is.loose (h : n.Is test) : n.Loose := ⟨h.conforms, LooseTest.isLoose _ h.kind⟩

theorem allLoose_of_is (h : ∀ n ∈ ns, n.Is test) : AllLoose ns := by
  intro n hn
  exact (h n hn).loose

/-- At most one node, of a kind that the test accepts. -/
theorem allLoose_of_item (h : ns.length ≤ 1 ∧ ∀ n ∈ ns, n.Is test) : AllLoose ns :=
  allLoose_of_is h.2

end

variable {σ τ α β : Type}

/-- What holds of the state before another round, and of the result of the last one. -/
def Round.All (I : σ → Prop) (Q : α → Prop) : Round σ α → Prop
  | .again state => I state
  | .done a => Q a

namespace Yields

variable {p : Reading τ α} {P Q : α → Prop}

theorem imp (h : Yields p P) (hPQ : ∀ a, P a → Q a) : Yields p Q := by
  intro s c a c' ha
  exact hPQ a (h s c a c' ha)

theorem endless : Yields (Parser.endless : Reading τ α) Q := by
  intro s c a c' ha
  cases ha

section

variable [Standing τ] {init : σ} {body : σ → Reading τ (Round σ α)} {I : σ → Prop}

/-- The invariant of a loop is kept by each round; by induction on the rounds. -/
theorem rounds (hbody : ∀ st, I st → Yields (body st) (Round.All I Q)) (k : Nat) (hinit : I init) :
    Yields (Parser.rounds body k init) Q := by
  induction k generalizing init with
  | zero => exact endless
  | succ k ih =>
    refine .step fun before => .seq (hbody init hinit) fun round hround => ?_
    cases round with
    | again st => exact .step fun _ => .ite (ih hround) endless
    | done a => exact .ret hround

/-- Every round keeps what holds of the state. -/
theorem loop (I : σ → Prop) (hinit : I init)
    (hbody : ∀ st, I st → Yields (body st) (Round.All I Q)) : Yields (Parser.loop init body) Q := by
  intro s
  exact rounds hbody (s.size + 2) hinit s

end

section

variable [Standing τ] {item : Reading τ α} {test : View → Bool} {lead : Scan Bool}

theorem manyWhile (h : Yields item P) :
    Yields (Parser.manyWhile test item) fun items => ∀ a ∈ items, P a := by
  refine .loop (fun items => ∀ a ∈ items, P a) (by simp) fun items hitems => ?_
  refine .step fun v => .ite ?_ ?_
  · exact .seq h fun a ha => .ret (by simpa [Round.All] using ⟨ha, hitems⟩)
  · exact .ret (by simpa [Round.All] using hitems)

theorem commaSeparated (h : Yields item P) :
    Yields (Parser.commaSeparated item) fun items => ∀ a ∈ items, P a := by
  refine .loop (fun items => ∀ a ∈ items, P a) (by simp) fun items hitems => .seq h fun a ha => ?_
  have hall : ∀ b ∈ a :: items, P b := by simpa using ⟨ha, hitems⟩
  exact .step fun _ => .ite (.ret hall) (.ret fun b hb => hall b (List.mem_reverse.mp hb))

theorem parenMembers (h : Yields item P) :
    Yields (Parser.parenMembers item) fun items => ∀ a ∈ items, P a := by
  have hmember : Yields (do let m ← item; let _ ← Parser.eatMark .comma; return m) P :=
    .seq h fun a ha => .step fun _ => .ret ha
  refine .step fun _ => .ite ?_ (.ret (by simp))
  exact .seq (.manyWhile hmember) fun items hitems => .step fun _ => .ret hitems

theorem listAfter {items : Reading τ (List α)} (h : Yields items fun as => ∀ a ∈ as, P a) :
    Yields (Parser.listAfter lead items) fun as => ∀ a ∈ as, P a := by
  refine .step fun found => .ite ?_ ?_
  · exact h
  · exact .ret (by simp)

/-- There is one item at most. -/
theorem itemAfter (h : Yields item P) :
    Yields (Parser.itemAfter lead item) fun as => as.length ≤ 1 ∧ ∀ a ∈ as, P a := by
  refine .step fun _ => .ite (.seq h fun a ha => .ret ?_) (.ret (by simp))
  simpa using ha

/-- At most one item is read, if the look ahead allows it. -/
theorem whenSees (h : Yields item P) :
    Yields (Parser.whenSees test item) fun as => as.length ≤ 1 ∧ ∀ a ∈ as, P a :=
  itemAfter h

end

section

variable {kind : Kind} {start : Nat} {parts : List Node} {test : Kind → Bool}

/-- A node over parts that it may have. -/
theorem build (hown : kind.Admits parts) (hhosts : ∀ c ∈ parts, kind.hosts c.kind = true)
    (hparts : ∀ c ∈ parts, c.Conforms) (hkind : test kind = true) :
    Yields (Parser.node kind start parts) (Node.Is test) := by
  intro s c n c' hn
  cases hn
  exact ⟨.intro hown hhosts hparts, hkind⟩

/-- A new node over parts that may stand anywhere. -/
theorem above (hown : kind.Admits parts) (hparts : AllLoose parts) (hkind : test kind = true) :
    Yields (Parser.node kind start parts) (Node.Is test) := by
  refine build hown ?_ ?_ hkind
  · intro c hc
    exact Kind.hosts_of_isLoose kind (hparts c hc).kind
  · intro c hc
    exact (hparts c hc).conforms

/-- A new node without parts. -/
theorem leaf (hown : kind.Admits []) (hkind : test kind = true) :
    Yields (Parser.leaf kind start) (Node.Is test) :=
  above hown (by simp) hkind

/-- A node with other bounds. -/
theorem amend {n m : Node} (h : n.Is test) (hkind : m.kind = n.kind)
    (hparts : m.children = n.children) : Yields (Parser.amend m) (Node.Is test) := by
  intro s c a c' ha
  cases ha
  obtain ⟨⟨hown, hhosts, hbelow⟩, htest⟩ := h
  rw [← hkind] at hown hhosts htest
  rw [← hparts] at hown hhosts hbelow
  exact ⟨.intro hown hhosts hbelow, htest⟩

/-- Operators combine two operands. -/
theorem chainLeft {operand : Parser Node} {operator? : View → Option Kind}
    (hop : ∀ v kind, operator? v = some kind → kind.isLoose = true ∧
      ∀ parts : List Node, parts.length = 2 → kind.Admits parts)
    (h : Yields operand Node.Loose) : Yields (Parser.chainLeft operand operator?) Node.Loose := by
  refine .seq h fun first hfirst => .loop Node.Loose hfirst fun left hleft => .step fun v => ?_
  split
  · rename_i kind hkind
    obtain ⟨hloose, hadmits⟩ := hop _ kind hkind
    refine .step fun _ => .seq h fun right hright => ?_
    exact .seq (.above (hadmits _ rfl) (by simp [hleft, hright]) hloose) fun n hn => .ret hn
  · exact .ret hleft

end

end Yields

end Portability
