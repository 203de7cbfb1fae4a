import Portability.Tree

/-! Where the nodes of a tree stand: one after another between two positions, inside what they are
parts of, and without a gap where statements follow each other. -/
namespace Portability

/-- The nodes stand one after another between two positions. -/
structure Laid (lo : Nat) (ns : List Node) (hi : Nat) : Prop where
  le : lo ≤ hi
  inside : ∀ n ∈ ns, lo ≤ n.start ∧ n.start ≤ n.stop ∧ n.stop ≤ hi
  order : ns.Pairwise fun a b => a.stop ≤ b.start

namespace Laid

variable {lo lo' mid hi hi' : Nat} {xs ys : List Node} {n : Node}

theorem nil (h : lo ≤ hi) : Laid lo [] hi := ⟨h, by simp, .nil⟩

theorem one (h : lo ≤ n.start) (hn : n.start ≤ n.stop) (h' : n.stop ≤ hi) : Laid lo [n] hi where
  le := by omega
  inside m hm := by
    cases List.mem_singleton.mp hm
    exact ⟨h, hn, h'⟩
  order := List.pairwise_singleton _ _

theorem of_sublist (h : Laid lo xs hi) (hs : ys.Sublist xs) : Laid lo ys hi where
  le := h.le
  inside n hn := h.inside n (hs.subset hn)
  order := h.order.sublist hs

/-- What is laid out up to a place goes on with what is laid out from there. -/
theorem append (h : Laid lo xs mid) (h' : Laid mid ys hi) : Laid lo (xs ++ ys) hi where
  le := Nat.le_trans h.le h'.le
  inside n hn := by
    have hle := h.le
    have hle' := h'.le
    rcases List.mem_append.mp hn with hx | hy
    · have hin := h.inside n hx
      omega
    · have hin := h'.inside n hy
      omega
  order := by
    refine List.pairwise_append.mpr ⟨h.order, h'.order, fun a ha b hb => ?_⟩
    have hina := h.inside a ha
    have hinb := h'.inside b hb
    omega

theorem widen (h : Laid lo xs hi) (hlo : lo' ≤ lo) (hhi : hi ≤ hi') : Laid lo' xs hi' where
  le := by
    have hle := h.le
    omega
  inside n hn := by
    have hin := h.inside n hn
    omega
  order := h.order

/-- What is laid out begins where its first node does. -/
theorem from_first (h : Laid lo (n :: xs) hi) : Laid n.start (n :: xs) hi where
  le := by
    have hin := h.inside n List.mem_cons_self
    omega
  inside m hm := by
    have hin := h.inside m hm
    have hfirst := h.inside n List.mem_cons_self
    rcases List.mem_cons.mp hm with rfl | hx
    · omega
    · have hle := List.rel_of_pairwise_cons h.order hx
      omega
  order := h.order

end Laid

/-! ### Statements without a gap -/

/-- The nodes read every token between two positions, semicolons apart, and none of them twice. -/
structure Tiled (s : Source) (lo : Nat) (ns : List Node) (hi : Nat) : Prop where
  inside : ∀ n ∈ ns, lo ≤ n.start ∧ n.start < n.stop ∧ n.stop ≤ hi
  order : ns.Pairwise fun a b => a.stop ≤ b.start
  between : ∀ i, lo ≤ i → i < hi → (∀ n ∈ ns, ¬(n.start ≤ i ∧ i < n.stop)) →
    (View.mk s i).isMark .semicolon = true

namespace Tiled

variable {s : Source} {lo hi q : Nat} {ns : List Node} {n : Node}

theorem nil : Tiled s lo [] lo := ⟨by simp, .nil, fun i _ _ _ => by omega⟩

/-- A semicolon between statements is no part of any. -/
theorem semicolon (h : Tiled s lo ns hi) (hmark : (View.mk s hi).isMark .semicolon = true) :
    Tiled s lo ns (hi + 1) where
  inside n hn := by
    have hin := h.inside n hn
    omega
  order := h.order
  between i hlo hi' hout := by
    by_cases heq : i = hi
    · rw [heq]
      exact hmark
    · exact h.between i hlo (by omega) hout

/-- A statement that begins where the others end is the next tile. -/
theorem statement (h : Tiled s lo ns hi) (hlo : lo ≤ hi) (hstart : n.start = hi)
    (hstop : n.stop = q) (hlt : hi < q) : Tiled s lo (ns ++ [n]) q where
  inside m hm := by
    rcases List.mem_append.mp hm with hm | hm
    · have hin := h.inside m hm
      omega
    · cases List.mem_singleton.mp hm
      omega
  order := by
    refine List.pairwise_append.mpr ⟨h.order, List.pairwise_singleton _ _, fun a ha b hb => ?_⟩
    cases List.mem_singleton.mp hb
    have hin := h.inside a ha
    omega
  between i hlo' hi' hout := by
    have hn := hout n (by simp)
    exact h.between i hlo' (by omega) fun m hm => hout m (List.mem_append_left _ hm)

end Tiled

/-! ### Blocks -/

/-- How many tokens from `lo` up to `hi` are the mark. -/
def markCount (s : Source) (mark : Mark) (lo hi : Nat) : Nat :=
  (List.range' lo (hi - lo)).countP fun i => (View.mk s i).isMark mark

/-- A group in parentheses from `lo` up to `hi`: the parentheses are balanced at `hi`, not before. A
group that is never closed goes up to the last token. -/
structure ParenGroup (s : Source) (lo hi : Nat) : Prop where
  lt : lo < hi
  opening : (View.mk s lo).isMark .lparen = true
  within : ∀ i, lo < i → i < hi → markCount s .rparen lo i < markCount s .lparen lo i
  closing : markCount s .rparen lo hi = markCount s .lparen lo hi ∨ hi = s.size

/-- The word that names a block after `BEGIN` and `END`. -/
def BlockKind.word? : BlockKind → Option String
  | .tryBody => some "TRY"
  | .catchBody => some "CATCH"
  | .plain => none

/-- The tokens from `lo` up to `hi` open a block of that kind. A block without a name may be
`ATOMIC`, with options. -/
inductive BlockOpening (s : Source) : BlockKind → Nat → Nat → Prop
  | named {kind : BlockKind} {word : String} {lo : Nat} (hkind : kind.word? = some word)
      (hbegin : (View.mk s lo).isWord "BEGIN" = true)
      (hword : (View.mk s (lo + 1)).isWord word = true) : BlockOpening s kind lo (lo + 2)
  | plain {lo : Nat} (hbegin : (View.mk s lo).isWord "BEGIN" = true)
      (hbare : (View.mk s (lo + 1)).isOneOf ["TRY", "CATCH", "ATOMIC"] = false) :
      BlockOpening s .plain lo (lo + 1)
  | atomic {lo : Nat} (hbegin : (View.mk s lo).isWord "BEGIN" = true)
      (hatomic : (View.mk s (lo + 1)).isWord "ATOMIC" = true)
      (hbare : (View.mk s (lo + 2)).isWord "WITH" = false) : BlockOpening s .plain lo (lo + 2)
  | atomicWith {lo : Nat} (hbegin : (View.mk s lo).isWord "BEGIN" = true)
      (hatomic : (View.mk s (lo + 1)).isWord "ATOMIC" = true)
      (hwith : (View.mk s (lo + 2)).isWord "WITH" = true)
      (hbare : (View.mk s (lo + 3)).isMark .lparen = false) : BlockOpening s .plain lo (lo + 3)
  | options {lo hi : Nat} (hbegin : (View.mk s lo).isWord "BEGIN" = true)
      (hatomic : (View.mk s (lo + 1)).isWord "ATOMIC" = true)
      (hwith : (View.mk s (lo + 2)).isWord "WITH" = true) (hgroup : ParenGroup s (lo + 3) hi) :
      BlockOpening s .plain lo hi

/-- The tokens from `lo` up to `hi` close a block of that kind. A block that is never closed ends
with the last token. -/
inductive BlockClosing (s : Source) : BlockKind → Nat → Nat → Prop
  | unclosed (kind : BlockKind) : BlockClosing s kind s.size s.size
  | closed {kind : BlockKind} {lo : Nat} (hend : (View.mk s lo).atBlockEnd = true)
      (hbare : ∀ word ∈ kind.word?, (View.mk s (lo + 1)).isWord word = false) :
      BlockClosing s kind lo (lo + 1)
  | named {kind : BlockKind} {word : String} {lo : Nat} (hkind : kind.word? = some word)
      (hend : (View.mk s lo).atBlockEnd = true)
      (hword : (View.mk s (lo + 1)).isWord word = true) : BlockClosing s kind lo (lo + 2)

/-! ### Constants and variables -/

/-- The token stands for the constant or the variable on its own. -/
inductive Token.Denotes : Token → Kind → Prop
  | number (digits : String) (long : Bool) : Denotes (.number digits long) (.literal .number)
  | string (value : String) : Denotes (.string value) (.literal .string)
  | national (value : String) : Denotes (.national value) (.literal .national)
  | hex (digits : String) : Denotes (.hex digits) (.literal .hex)
  | null {value : String} (h : Text.upper value = "NULL") :
      Denotes (.word value none) (.literal .null)
  | localVariable {value : String} {rest : List Char} (h : value.toList = '@' :: rest)
      (hlocal : rest.head? ≠ some '@') : Denotes (.word value none) (.localVariable value)
  | systemVariable {value : String} {rest : List Char} (h : value.toList = '@' :: '@' :: rest) :
      Denotes (.word value none) (.systemVariable (Text.upper value))

/-- There is one token from `start` up to `stop`, and it stands for the construct. -/
def Kind.IsToken (s : Source) (start stop : Nat) (kind : Kind) : Prop :=
  stop = start + 1 ∧ ∃ token, s.tokenAt? start = some token ∧ token.Denotes kind

/-- The statements of a batch, and those of a block between its opening words and its end, leave out
no token but semicolons. Constants and variables are one token. -/
def Kind.Covers (s : Source) (start : Nat) (parts : List Node) (stop : Nat) : Kind → Prop
  | .batch => Tiled s start parts stop
  | .block kind => ∃ lo hi, BlockOpening s kind start lo ∧ Tiled s lo parts hi ∧
      BlockClosing s kind hi stop
  | .literal k => Kind.IsToken s start stop (.literal k)
  | .localVariable name => Kind.IsToken s start stop (.localVariable name)
  | .systemVariable name => Kind.IsToken s start stop (.systemVariable name)
  | _ => True

/-- The kind asks nothing of the tokens between its parts. -/
def Kind.Free (kind : Kind) : Prop := ∀ s start parts stop, kind.Covers s start parts stop

/-! ### Placed nodes -/

/-- The node and everything below it stand where their tokens do. -/
inductive Node.Placed (s : Source) : Node → Prop
  | intro {n : Node} (line : n.line = s.lineAt n.start) (parts : Laid n.start n.children n.stop)
      (covers : n.kind.Covers s n.start n.children n.stop)
      (below : ∀ c ∈ n.children, c.Placed s) : n.Placed s

theorem Node.Placed.le {s : Source} {n : Node} (h : n.Placed s) : n.start ≤ n.stop := by
  cases h with
  | intro line parts covers below => exact parts.le

/-- A node may be made longer if nothing is asked of the tokens between its parts. -/
theorem Node.Placed.stretch {s : Source} {n : Node} (h : n.Placed s) (hfree : n.kind.Free)
    {stop : Nat} (hle : n.stop ≤ stop) : Node.Placed s { n with stop := stop } := by
  cases h with
  | intro line parts covers below =>
    exact .intro line (parts.widen (Nat.le_refl _) hle) (hfree _ _ _ _) below

/-- Placed nodes one after another between two positions of the stream. -/
structure Layout (s : Source) (lo : Nat) (ns : List Node) (hi : Nat) : Prop
    extends Laid lo ns hi where
  placed : ∀ n ∈ ns, n.Placed s
  bound : hi ≤ s.size

namespace Layout

variable {s : Source} {lo lo' mid hi : Nat} {xs ys : List Node} {n : Node}

theorem nil (h : lo ≤ hi) (hb : hi ≤ s.size) : Layout s lo [] hi := ⟨.nil h, by simp, hb⟩

theorem of_sublist (h : Layout s lo xs hi) (hs : ys.Sublist xs) : Layout s lo ys hi where
  toLaid := h.toLaid.of_sublist hs
  placed n hn := h.placed n (hs.subset hn)
  bound := h.bound

theorem append (h : Layout s lo xs mid) (h' : Layout s mid ys hi) : Layout s lo (xs ++ ys) hi where
  toLaid := h.toLaid.append h'.toLaid
  placed n hn := by
    rcases List.mem_append.mp hn with hx | hy
    · exact h.placed n hx
    · exact h'.placed n hy
  bound := h'.bound

theorem from_left (h : Layout s lo xs hi) (hle : lo' ≤ lo) : Layout s lo' xs hi :=
  ⟨h.toLaid.widen hle (Nat.le_refl hi), h.placed, h.bound⟩

theorem from_first (h : Layout s lo (n :: xs) hi) : Layout s n.start (n :: xs) hi :=
  ⟨h.toLaid.from_first, h.placed, h.bound⟩

/-- A node that stands between the positions, placed together with its parts. -/
theorem one (h : n.Placed s) (hlo : lo ≤ n.start) (hn : n.start ≤ n.stop) (hhi : n.stop ≤ hi)
    (hb : hi ≤ s.size) : Layout s lo [n] hi where
  toLaid := .one hlo hn hhi
  placed m hm := by
    cases List.mem_singleton.mp hm
    exact h
  bound := hb

end Layout

end Portability
