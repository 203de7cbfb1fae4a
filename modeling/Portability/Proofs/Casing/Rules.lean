import Portability.Proofs.Casing.Fold

/-! Readings of two sources that differ in case. Both give no result, or results that are the same
up to case, and then stand at the same place with the same nodes up to case. -/
namespace Portability

/-- The two values have the same image. -/
class Agree {α : Type} (φ : α → α) (a a' : α) : Prop where
  eq : φ a = φ a'

/-- Two values with the same image. -/
structure Twins {α : Type} (φ : α → α) where
  left : α
  right : α
  eq : φ left = φ right

instance {α : Type} {φ : α → α} {x : Twins φ} : Agree φ x.left x.right := ⟨x.eq⟩

/-- Pairs with the same image are pairs of values with the same image. -/
@[elab_as_elim] theorem Twins.pair {α β : Type} {φ : α → α} {ψ : β → β}
    {motive : Twins (Prod.map φ ψ) → Prop}
    (mk : ∀ (x : Twins φ) (y : Twins ψ),
      motive ⟨(x.left, y.left), (x.right, y.right), Prod.ext x.eq y.eq⟩)
    (z : Twins (Prod.map φ ψ)) : motive z := by
  obtain ⟨⟨a, b⟩, ⟨a', b'⟩, h⟩ := z
  exact mk ⟨a, a', congrArg Prod.fst h⟩ ⟨b, b', congrArg Prod.snd h⟩

/-- A state of a reading can be folded; its position stays. -/
class Folding (τ : Type) [Standing τ] where
  fold : τ → τ
  pos_fold (c : τ) : Standing.pos (fold c) = Standing.pos c
  fold_moveTo (c : τ) (pos : Nat) : fold (Standing.moveTo c pos) = Standing.moveTo (fold c) pos

instance : Folding Nat := ⟨id, fun _ => rfl, fun _ _ => rfl⟩

instance : Folding Cursor :=
  ⟨fun c => { c with nodes := c.nodes.map Node.fold }, fun _ => rfl, fun _ _ => rfl⟩

/-- No bare word begins with a brace. -/
def Source.Plain (s : Source) : Prop :=
  ∀ pos value, s.tokenAt? pos = some (.word value none) → value.toList.head? ≠ some '\x7b'

/-- The round with what it hands on or yields put through functions. -/
def Round.map {σ α : Type} (ψ : σ → σ) (φ : α → α) : Round σ α → Round σ α
  | .again state => .again (ψ state)
  | .done a => .done (φ a)

/-- What rounds that run side by side hand on or yield. -/
def Round.Related {σ α : Type} (I : σ → σ → Prop) (R : α → α → Prop) : Round σ α → Round σ α → Prop
  | .again st, .again st' => I st st'
  | .done a, .done a' => R a a'
  | _, _ => False

theorem Round.related_of_map {σ α : Type} {ψ : σ → σ} {φ : α → α} {r r' : Round σ α}
    (h : r.map ψ φ = r'.map ψ φ) : r.Related (ψ · = ψ ·) (φ · = φ ·) r' := by
  cases r <;> cases r' <;> simp_all [Round.map, Round.Related]

variable {τ : Type} [Standing τ] [Folding τ] {α β σ : Type}

/-- On sources and states that are the same up to case both readings give nothing, or related
results and again states that are the same up to case. -/
def Parallel (R : α → α → Prop) (p p' : Reading τ α) : Prop :=
  ∀ (s s' : Source) (c c' : τ), s.fold = s'.fold → s.Plain → Folding.fold c = Folding.fold c' →
    Option.Rel (fun r r' => R r.1 r'.1 ∧ Folding.fold r.2 = Folding.fold r'.2) (p s c) (p' s' c')

/-- The results of two readings have the same image, which is found from the readings. -/
class Echo (p p' : Reading τ α) (φ : outParam (α → α)) : Prop where
  parallel : Parallel (φ · = φ ·) p p'

/-- The results of two readings have the same image, which is given. -/
class Tracks (φ : α → α) (p p' : Reading τ α) : Prop where
  parallel : Parallel (φ · = φ ·) p p'

namespace Parallel

variable {R : α → α → Prop} {S : β → β → Prop} {p p' : Reading τ α} {f f' : α → Reading τ β}

/-- Related results are handed on to readings that run in parallel. -/
theorem bind (hp : Parallel R p p') (hf : ∀ a a', R a a' → Parallel S (f a) (f' a')) :
    Parallel S (p >>= f) (p' >>= f') := by
  intro s s' c c' hs hplain hc
  have hboth := hp s s' c c' hs hplain hc
  simp only [Bind.bind]
  generalize p s c = o, p' s' c' = o' at hboth ⊢
  cases hboth with
  | none => exact .none
  | some h => exact hf _ _ h.1 s s' _ _ hs hplain h.2

theorem imp {R' : α → α → Prop} (hp : Parallel R p p') (h : ∀ a a', R a a' → R' a a') :
    Parallel R' p p' := by
  intro s s' c c' hs hplain hc
  have hboth := hp s s' c c' hs hplain hc
  generalize p s c = o, p' s' c' = o' at hboth ⊢
  cases hboth with
  | none => exact .none
  | some hr => exact .some ⟨h _ _ hr.1, hr.2⟩

theorem ret {a a' : α} (h : R a a') : Parallel R (pure a : Reading τ α) (pure a') := by
  intro s s' c c' _ _ hc
  exact .some ⟨h, hc⟩

theorem endless : Parallel R (Parser.endless : Reading τ α) Parser.endless := by
  intro s s' c c' _ _ _
  exact .none

/-- Both cursors see the folded tokens at one position. -/
theorem look :
    Parallel (fun v v' => v.fold = v'.fold ∧ v.source.Plain) Parser.look Parser.look := by
  intro s s' c c' hs hplain hc
  cases (hc : c = c')
  exact .some ⟨⟨by simp [View.fold, hs], hplain⟩, rfl⟩

theorem remaining : Parallel Eq Parser.remaining Parser.remaining := by
  intro s s' c c' hs hplain hc
  have hsize : s.size = s'.size := by rw [← s.size_fold, hs, s'.size_fold]
  cases (hc : c = c')
  exact .some ⟨by rw [hsize], rfl⟩

/-- A scan in parallel stays so inside of a parser. -/
theorem lift {p p' : Scan α} (h : Parallel R p p') :
    Parallel R (liftM p : Reading τ α) (liftM p') := by
  intro s s' c c' hs hplain hc
  have hpos : Standing.pos c = Standing.pos c' := by
    rw [← Folding.pos_fold c, hc, Folding.pos_fold]
  have hboth := h s s' (Standing.pos c) (Standing.pos c') hs hplain hpos
  simp only [liftM, monadLift, MonadLift.monadLift]
  generalize p s (Standing.pos c) = o, p' s' (Standing.pos c') = o' at hboth ⊢
  cases hboth with
  | none => exact .none
  | some hr =>
    refine .some ⟨hr.1, ?_⟩
    rw [Folding.fold_moveTo, Folding.fold_moveTo, hc]
    exact congrArg _ hr.2

/-- The rounds of two loops go on and stop together. -/
theorem rounds {I : σ → σ → Prop} {body body' : σ → Reading τ (Round σ α)}
    (h : ∀ st st', I st st' → Parallel (Round.Related I R) (body st) (body' st')) (n : Nat) :
    ∀ st st', I st st' → Parallel R (Parser.rounds body n st) (Parser.rounds body' n st') := by
  induction n with
  | zero => exact fun _ _ _ => endless
  | succ n ih =>
    intro st st' hst
    refine bind (lift remaining) fun before _ hbefore => ?_
    subst hbefore
    refine bind (h st st' hst) fun r r' hr => ?_
    match r, r', hr with
    | .again next, .again next', hnext =>
      refine bind (lift remaining) fun left _ hleft => ?_
      subst hleft
      by_cases hless : left < before
      · simp only [hless, if_true]
        exact ih next next' hnext
      · simp only [hless, if_false]
        exact endless
    | .done a, .done a', ha => exact ret ha

/-- Loops whose rounds run in parallel do so as a whole. -/
theorem loop {I : σ → σ → Prop} {init init' : σ} {body body' : σ → Reading τ (Round σ α)}
    (hinit : I init init')
    (h : ∀ st st', I st st' → Parallel (Round.Related I R) (body st) (body' st')) :
    Parallel R (Parser.loop init body) (Parser.loop init' body') := by
  intro s s' c c' hs hplain hc
  have hsize : s.size = s'.size := by rw [← s.size_fold, hs, s'.size_fold]
  unfold Parser.loop
  rw [hsize]
  exact rounds h _ init init' hinit s s' c c' hs hplain hc

end Parallel

/-! ### Values that agree -/

section

variable {φ : α → α} {a a' : α} {as as' bs bs' : List α} {v v' : View} {offset : Nat}

/-- What is the same in a folded form is the same in two values with one folded form. -/
theorem eq_of_fold {γ : Type} {f : α → γ} (hf : ∀ a, f (φ a) = f a) (h : φ a = φ a') :
    f a = f a' := by
  rw [← hf a, h, hf a']

/-- Where nothing is folded the two values are the same. -/
theorem Agree.same (h : Agree id a a') : a = a' := h.eq

instance (priority := low) Agree.refl : Agree φ a a := ⟨rfl⟩

instance [h : Agree φ a a'] : Agree (Option.map φ) (some a) (some a') := ⟨congrArg some h.eq⟩

instance {m m' n n' : Nat} [hm : Agree id m m'] [hn : Agree id n n'] :
    Agree id (max m n) (max m' n') := ⟨by rw [hm.same, hn.same]⟩

section

variable {n n' : Node} [h : Agree Node.fold n n']
include h

instance : Agree id n.id n'.id := ⟨by rw [← n.id_fold, h.eq, n'.id_fold]⟩

instance : Agree id n.line n'.line := ⟨by rw [← n.line_fold, h.eq, n'.line_fold]⟩

instance : Agree id n.start n'.start := ⟨by rw [← n.start_fold, h.eq, n'.start_fold]⟩

instance : Agree id n.stop n'.stop := ⟨by rw [← n.stop_fold, h.eq, n'.stop_fold]⟩

instance : Agree Kind.fold n.kind n'.kind := ⟨by rw [← n.kind_fold, h.eq, n'.kind_fold]⟩

instance : Agree (List.map Node.fold) n.children n'.children :=
  ⟨by rw [← n.children_fold, h.eq, n'.children_fold]⟩

end

instance {place place' line line' start start' stop stop' : Nat} {kind kind' : Kind}
    {parts parts' : List Node} [hplace : Agree id place place'] [hkind : Agree Kind.fold kind kind']
    [hline : Agree id line line'] [hstart : Agree id start start']
    [hstop : Agree id stop stop'] [hparts : Agree (List.map Node.fold) parts parts'] :
    Agree Node.fold ⟨place, kind, line, start, stop, parts⟩
      ⟨place', kind', line', start', stop', parts'⟩ :=
  ⟨by
    rw [Node.fold_eq, Node.fold_eq]
    congr 1
    exacts [hplace.eq, hkind.eq, hline.eq, hstart.eq, hstop.eq, hparts.eq]⟩

instance [h : Agree φ a a'] [hs : Agree (List.map φ) as as'] :
    Agree (List.map φ) (a :: as) (a' :: as') := ⟨by rw [List.map_cons, h.eq, hs.eq, List.map_cons]⟩

instance [h : Agree id a a'] [hs : Agree id as as'] : Agree id (a :: as) (a' :: as') :=
  ⟨by rw [h.same, hs.same]⟩

instance [h : Agree id as as'] : Agree id as.reverse as'.reverse :=
  ⟨by rw [h.same]⟩

instance [ha : Agree id as as'] [hb : Agree id bs bs'] : Agree id (as ++ bs) (as' ++ bs') :=
  ⟨by rw [ha.same, hb.same]⟩

instance [ha : Agree (List.map φ) as as'] [hb : Agree (List.map φ) bs bs'] :
    Agree (List.map φ) (as ++ bs) (as' ++ bs') :=
  ⟨by rw [List.map_append, ha.eq, hb.eq, List.map_append]⟩

instance [h : Agree (List.map φ) as as'] : Agree (List.map φ) as.reverse as'.reverse :=
  ⟨by rw [List.map_reverse, h.eq, List.map_reverse]⟩

instance {xss xss' : List (List α)} [h : Agree (List.map (List.map φ)) xss xss'] :
    Agree (List.map φ) xss.flatten xss'.flatten :=
  ⟨by rw [List.map_flatten, h.eq, List.map_flatten]⟩

instance {b b' : β} {ψ : β → β} [ha : Agree φ a a'] [hb : Agree ψ b b'] :
    Agree (Prod.map φ ψ) (a, b) (a', b') := ⟨Prod.ext ha.eq hb.eq⟩

instance {st st' : σ} {ψ : σ → σ} [h : Agree ψ st st'] :
    Agree (Round.map ψ φ) (.again st) (.again st') := ⟨congrArg Round.again h.eq⟩

instance {ψ : σ → σ} [h : Agree φ a a'] : Agree (Round.map ψ φ) (.done a) (.done a') :=
  ⟨congrArg Round.done h.eq⟩

/-- Values that are the same stand for each other. -/
@[elab_as_elim] theorem Agree.elim (a a' : α) [h : Agree id a a'] {motive : α → α → Prop}
    (same : ∀ b, motive b b) : motive a a' := by
  cases (h.eq : a = a')
  exact same a

/-- Options that agree are both empty or hold values that agree. -/
@[elab_as_elim] theorem Agree.option (o o' : Option α) [h : Agree (Option.map φ) o o']
    {motive : Option α → Option α → Prop} (none : motive none none)
    (some : ∀ x : Twins φ, motive (some x.left) (some x.right)) : motive o o' := by
  have heq := h.eq
  cases o with
  | none =>
    cases o' with
    | none => exact none
    | some a' => cases heq
  | some a =>
    cases o' with
    | none => cases heq
    | some a' => exact some ⟨a, a', Option.some.inj heq⟩

/-- Tokens that agree are two spellings of a bare word or of a hexadecimal literal, or the same. -/
@[elab_as_elim] theorem Agree.token (o o' : Option Token) [h : Agree (Option.map Token.fold) o o']
    {motive : Option Token → Option Token → Prop}
    (bare : ∀ x : Twins Text.lower, motive (some (.word x.left none)) (some (.word x.right none)))
    (hex : ∀ x : Twins Text.lower, motive (some (.hex x.left)) (some (.hex x.right)))
    (same : ∀ o, motive o o) : motive o o' := by
  refine Agree.option (φ := Token.fold) o o' (same none) fun x => ?_
  obtain ⟨t, t', ht⟩ := x
  rcases t.eq_or_fold with ⟨w, rfl⟩ | ⟨d, rfl⟩ | hsame
  · rcases t'.eq_or_fold with ⟨w', rfl⟩ | ⟨d', rfl⟩ | hsame'
    · exact bare ⟨w, w', (Token.word.inj ht).1⟩
    · cases ht
    · rw [hsame'] at ht
      subst ht
      exact bare ⟨w, Text.lower w, by simp⟩
  · rcases t'.eq_or_fold with ⟨w', rfl⟩ | ⟨d', rfl⟩ | hsame'
    · cases ht
    · exact hex ⟨d, d', Token.hex.inj ht⟩
    · rw [hsame'] at ht
      subst ht
      exact hex ⟨d, Text.lower d, by simp⟩
  · rcases t'.eq_or_fold with ⟨w', rfl⟩ | ⟨d', rfl⟩ | hsame'
    · rw [hsame] at ht
      subst ht
      exact bare ⟨Text.lower w', w', by simp⟩
    · rw [hsame] at ht
      subst ht
      exact hex ⟨Text.lower d', d', by simp⟩
    · rw [hsame, hsame'] at ht
      exact ht ▸ same (some t)

instance {o o' : Option α} [h : Agree (Option.map φ) o o'] :
    Agree (List.map φ) o.toList o'.toList :=
  Agree.option (φ := φ) o o' ⟨rfl⟩ fun x => ⟨congrArg ([·]) x.eq⟩

instance {o o' : Option String} [Agree (Option.map Text.lower) o o'] :
    Agree id o.isSome o'.isSome :=
  Agree.option (φ := Text.lower) o o' ⟨rfl⟩ fun _ => ⟨rfl⟩

instance {o o' : Option String} [Agree (Option.map Text.lower) o o'] :
    Agree id o.isNone o'.isNone :=
  Agree.option (φ := Text.lower) o o' ⟨rfl⟩ fun _ => ⟨rfl⟩

section

variable {a a' b b' : String}

instance [ha : Agree Text.lower a a'] [hb : Agree Text.lower b b'] :
    Agree Text.lower (a ++ b) (a' ++ b') :=
  ⟨by rw [Text.lower_append, ha.eq, hb.eq, Text.lower_append]⟩

instance [h : Agree Text.lower a a'] :
    Agree Text.lower (Token.wordText a none) (Token.wordText a' none) := h

/-- Names of calls that fold alike are the same up to case. -/
theorem lower_eq_of_foldCall (h : foldCall a = foldCall a') : Text.lower a = Text.lower a' := by
  have hlower : ∀ s, Text.lower (foldCall s) = Text.lower s := by
    intro s
    unfold foldCall
    split <;> simp
  rw [← hlower a, h, hlower]

/-- Where the names of calls agree, all else that is read from them does. -/
instance (priority := low) [h : Agree foldCall a a'] : Agree Text.lower a a' :=
  ⟨lower_eq_of_foldCall h.eq⟩

instance (priority := low) {o o' : Option String} [h : Agree (Option.map foldCall) o o'] :
    Agree (Option.map Text.lower) o o' := by
  refine Agree.option (φ := foldCall) o o' inferInstance fun x => ?_
  exact ⟨congrArg some (lower_eq_of_foldCall x.eq)⟩

instance [h : Agree Text.lower a a'] : Agree id (Text.upper a) (Text.upper a') :=
  ⟨Text.upper_eq_of_lower h.eq⟩

instance {word : String} [h : Agree Text.lower a a'] :
    Agree id (Text.same a word) (Text.same a' word) :=
  ⟨eq_of_fold (f := (Text.same · word)) (fun s => Text.same_lower_left s word) h.eq⟩

instance {words : List String} [h : Agree Text.lower a a'] :
    Agree id (Text.oneOf a words) (Text.oneOf a' words) :=
  ⟨eq_of_fold (f := (Text.oneOf · words)) (fun s => Text.oneOf_lower s words) h.eq⟩

instance [h : Agree Text.lower a a'] :
    Agree id (a.toList.head? == some '@') (a'.toList.head? == some '@') :=
  ⟨eq_of_fold (f := fun s : String => s.toList.head? == some '@')
    (fun _ => Text.beq_head?_lower Text.isCaseless_at) h.eq⟩

instance [ha : Agree id a a'] [hb : Agree id b b'] : Agree id (a ++ b) (a' ++ b') :=
  ⟨by rw [ha.same, hb.same]⟩

instance {φ : String → String} {o o' : Option String} [h : Agree (Option.map φ) o o']
    [hd : Agree φ a a'] : Agree φ (o.getD a) (o'.getD a') := by
  refine Agree.option (φ := φ) o o' hd fun x => ?_
  exact inferInstanceAs (Agree φ x.left x.right)

end

section

variable {a a' : String} {o o' : Option String}

instance [h : Agree Text.lower a a'] : Agree Text.lower (Text.collapse a) (Text.collapse a') :=
  ⟨by rw [Text.lower_collapse, h.eq, Text.lower_collapse]⟩

instance [h : Agree id a a'] : Agree id (Text.collapse a) (Text.collapse a') :=
  ⟨by rw [h.same]⟩

instance [h : Agree id a a'] : Agree id (some a) (some a') := ⟨by rw [h.same]⟩

instance [h : Agree id a a'] : Agree id a.isEmpty a'.isEmpty := ⟨by rw [h.same]⟩

instance [Agree (Option.map Text.lower) o o'] {f : String → String}
    [hf : ∀ x : Twins Text.lower, Agree id (f x.left) (f x.right)] :
    Agree id (o.map f) (o'.map f) := by
  refine Agree.option (φ := Text.lower) o o' inferInstance fun x => ?_
  exact ⟨congrArg some (hf x).eq⟩

end

instance (priority := low) {o o' : Option String} {d : String} [h : Agree id o o'] :
    Agree id (o.getD d) (o'.getD d) := ⟨by rw [h.same]⟩

instance {sep : String} {words words' : List String} [h : Agree id words words'] :
    Agree id (String.intercalate sep words) (String.intercalate sep words') :=
  ⟨by rw [h.same]⟩

section

variable {ns ns' : List Node} [h : Agree (List.map Node.fold) ns ns']
include h

instance : Agree id ns.isEmpty ns'.isEmpty :=
  ⟨eq_of_fold (f := List.isEmpty) (fun _ => List.isEmpty_map) h.eq⟩

end

/-! ### Tests that agree -/

instance {b b' : Bool} [h : Agree id b b'] : Agree id (b = true) (b' = true) :=
  ⟨by rw [h.same]⟩

instance {b b' : Bool} [h : Agree id b b'] : Agree id (!b) (!b') := ⟨by rw [h.same]⟩

instance {b b' d : α} [BEq α] [h : Agree id (b == d) (b' == d)] : Agree id (b != d) (b' != d) :=
  ⟨by rw [bne, bne, h.same]⟩

instance {b b' d d' : Bool} [hb : Agree id b b'] [hd : Agree id d d'] :
    Agree id (b && d) (b' && d') := ⟨by rw [hb.same, hd.same]⟩

instance {b b' d d' : Bool} [hb : Agree id b b'] [hd : Agree id d d'] :
    Agree id (b || d) (b' || d') := ⟨by rw [hb.same, hd.same]⟩

instance {b b' d d' : Nat} [hb : Agree id b b'] [hd : Agree id d d'] :
    Agree id (b < d) (b' < d') := ⟨by rw [hb.same, hd.same]⟩

instance {b b' : Prop} {_ : Decidable b} {_ : Decidable b'} [h : Agree id b b'] :
    Agree id (decide b) (decide b') := ⟨by
  have hiff : b ↔ b' := iff_of_eq h.eq
  simp [hiff]⟩

instance {b b' : Prop} {_ : Decidable b} {_ : Decidable b'} {d d' : α} [hb : Agree id b b']
    [h : Agree φ a a'] [hd : Agree φ d d'] :
    Agree φ (if b then a else d) (if b' then a' else d') := by
  have hiff : b ↔ b' := iff_of_eq hb.eq
  by_cases hb : b
  · rw [if_pos hb, if_pos (hiff.mp hb)]
    exact h
  · rw [if_neg hb, if_neg (hb ∘ hiff.mpr)]
    exact hd

variable [h : Agree View.fold v v']
include h

instance {word : String} : Agree id (v.isWord word) (v'.isWord word) :=
  ⟨by rw [← v.isWord_fold word, h.eq, v'.isWord_fold word]⟩

instance {word : String} : Agree id (v.isWordAt offset word) (v'.isWordAt offset word) :=
  ⟨by rw [← v.isWordAt_fold offset word, h.eq, v'.isWordAt_fold offset word]⟩

instance {words : List String} : Agree id (v.isOneOf words) (v'.isOneOf words) :=
  ⟨by rw [← v.isOneOf_fold words, h.eq, v'.isOneOf_fold words]⟩

instance {words : List String} : Agree id (v.isOneOfAt offset words) (v'.isOneOfAt offset words) :=
  ⟨by rw [← v.isOneOfAt_fold offset words, h.eq, v'.isOneOfAt_fold offset words]⟩

instance {words : List String} : Agree id (v.isWords words) (v'.isWords words) :=
  ⟨by rw [← v.isWords_fold words, h.eq, v'.isWords_fold words]⟩

instance {mark : Mark} : Agree id (v.isMark mark) (v'.isMark mark) :=
  ⟨by rw [← v.isMark_fold mark, h.eq, v'.isMark_fold mark]⟩

instance {mark : Mark} : Agree id (v.isMarkAt offset mark) (v'.isMarkAt offset mark) :=
  ⟨by rw [← v.isMarkAt_fold offset mark, h.eq, v'.isMarkAt_fold offset mark]⟩

instance {word : String} : Agree id (v.isCall word) (v'.isCall word) :=
  ⟨by rw [← v.isCall_fold word, h.eq, v'.isCall_fold word]⟩

instance : Agree id (v.isAnyWordAt offset) (v'.isAnyWordAt offset) :=
  ⟨by rw [← v.isAnyWordAt_fold offset, h.eq, v'.isAnyWordAt_fold offset]⟩

instance : Agree id (v.startsQueryAt offset) (v'.startsQueryAt offset) :=
  ⟨by rw [← v.startsQueryAt_fold offset, h.eq, v'.startsQueryAt_fold offset]⟩

instance : Agree id (v.parensStartQuery) (v'.parensStartQuery) :=
  ⟨by rw [← v.parensStartQuery_fold, h.eq, v'.parensStartQuery_fold]⟩

instance : Agree id (v.atEnd) (v'.atEnd) :=
  ⟨by rw [← v.atEnd_fold, h.eq, v'.atEnd_fold]⟩

instance : Agree id (v.atStatementEnd) (v'.atStatementEnd) :=
  ⟨by rw [← v.atStatementEnd_fold, h.eq, v'.atStatementEnd_fold]⟩

instance : Agree id (v.atStatementWord) (v'.atStatementWord) :=
  ⟨by rw [← v.atStatementWord_fold, h.eq, v'.atStatementWord_fold]⟩

instance : Agree id (v.atBlockEnd) (v'.atBlockEnd) :=
  ⟨by rw [← v.atBlockEnd_fold, h.eq, v'.atBlockEnd_fold]⟩

instance : Agree id (v.isPlainName) (v'.isPlainName) :=
  ⟨by rw [← v.isPlainName_fold, h.eq, v'.isPlainName_fold]⟩

instance : Agree id (v.keyword?) (v'.keyword?) :=
  ⟨by rw [← v.keyword?_fold, h.eq, v'.keyword?_fold]⟩

instance : Agree id (v.leadingWords) (v'.leadingWords) :=
  ⟨by rw [← v.leadingWords_fold, h.eq, v'.leadingWords_fold]⟩

instance : Agree id (Text.upper v.display) (Text.upper v'.display) :=
  ⟨eq_of_fold (f := fun v : View => Text.upper v.display) (·.upper_display_fold) h.eq⟩

instance : Agree id (v.pos) (v'.pos) :=
  ⟨by rw [← v.pos_fold, h.eq, v'.pos_fold]⟩

instance : Agree id v.source.size v'.source.size :=
  ⟨eq_of_fold (φ := View.fold) (f := (·.source.size)) (·.source.size_fold) h.eq⟩

instance {start stop : Nat} :
    Agree Text.lower (v.source.textBetween start stop) (v'.source.textBetween start stop) :=
  ⟨by
    have hsource : v.source.fold = v'.source.fold := congrArg View.source h.eq
    rw [← v.source.lower_textBetween_fold, hsource, v'.source.lower_textBetween_fold]⟩

instance : Agree id (v.source.adjacentAt v.pos) (v'.source.adjacentAt v'.pos) :=
  ⟨eq_of_fold (φ := View.fold) (f := fun v => v.source.adjacentAt v.pos) (fun _ => rfl) h.eq⟩

instance : Agree (Option.map Text.lower) v.variableName? v'.variableName? :=
  ⟨by rw [← v.variableName?_fold, h.eq, v'.variableName?_fold]⟩

instance : Agree (Option.map Text.lower) (v.word? offset) (v'.word? offset) :=
  ⟨by rw [← v.word?_fold, h.eq, v'.word?_fold]⟩

instance : Agree (Option.map Token.fold) (v.token? offset) (v'.token? offset) :=
  ⟨by rw [← v.token?_fold, h.eq, v'.token?_fold]⟩

end

/-! ### Kinds that agree -/

section

variable {a a' b b' : String} {o o' : Option String} [ha : Agree Text.lower a a']

instance : Agree Kind.fold (.cte a) (.cte a') := ⟨by simp only [Kind.fold, ha.eq]⟩

instance : Agree Kind.fold (.into a) (.into a') := ⟨by simp only [Kind.fold, ha.eq]⟩

instance : Agree Kind.fold (.insert a) (.insert a') := ⟨by simp only [Kind.fold, ha.eq]⟩

instance : Agree Kind.fold (.update a) (.update a') := ⟨by simp only [Kind.fold, ha.eq]⟩

instance : Agree Kind.fold (.delete a) (.delete a') := ⟨by simp only [Kind.fold, ha.eq]⟩

instance : Agree Kind.fold (.merge a) (.merge a') := ⟨by simp only [Kind.fold, ha.eq]⟩

instance : Agree Kind.fold (.truncate a) (.truncate a') := ⟨by simp only [Kind.fold, ha.eq]⟩

instance : Agree Kind.fold (.createTable a) (.createTable a') := ⟨by simp only [Kind.fold, ha.eq]⟩

instance : Agree Kind.fold (.alterTable a) (.alterTable a') := ⟨by simp only [Kind.fold, ha.eq]⟩

instance : Agree Kind.fold (.columnDef a) (.columnDef a') := ⟨by simp only [Kind.fold, ha.eq]⟩

instance : Agree Kind.fold (.returnTable a) (.returnTable a') := ⟨by simp only [Kind.fold, ha.eq]⟩

instance : Agree Kind.fold (.variableDecl a) (.variableDecl a') :=
  ⟨by simp only [Kind.fold, ha.eq]⟩

instance : Agree Kind.fold (.tableVariableDecl a) (.tableVariableDecl a') :=
  ⟨by simp only [Kind.fold, ha.eq]⟩

instance : Agree Kind.fold (.goto a) (.goto a') := ⟨by simp only [Kind.fold, ha.eq]⟩

instance : Agree Kind.fold (.label a) (.label a') := ⟨by simp only [Kind.fold, ha.eq]⟩

instance : Agree Kind.fold (.use a) (.use a') := ⟨by simp only [Kind.fold, ha.eq]⟩

instance : Agree Kind.fold (.localVariable a) (.localVariable a') :=
  ⟨by simp only [Kind.fold, ha.eq]⟩

instance : Agree Kind.fold (.collate a) (.collate a') := ⟨by simp only [Kind.fold, ha.eq]⟩

instance : Agree Kind.fold (.nextValueFor a) (.nextValueFor a') :=
  ⟨by simp only [Kind.fold, ha.eq]⟩

instance {op op' : String} [hop : Agree id op op'] :
    Agree Kind.fold (.columnAssignment a op) (.columnAssignment a' op') :=
  ⟨by simp only [Kind.fold, ha.eq, hop.same]⟩

instance {op op' : String} [hop : Agree id op op'] :
    Agree Kind.fold (.variableAssignment a op) (.variableAssignment a' op') :=
  ⟨by simp only [Kind.fold, ha.eq, hop.same]⟩

instance {quote quote' : Option Quote} [hq : Agree id quote quote'] :
    Agree Kind.fold (.identifier a quote) (.identifier a' quote') :=
  ⟨by simp only [Kind.fold, ha.eq, hq.same]⟩

instance {options options' : List String} [ho : Agree id options options'] :
    Agree Kind.fold (.cursorDecl a options) (.cursorDecl a' options') :=
  ⟨by simp only [Kind.fold, ha.eq, ho.same]⟩

instance {kind : String} : Agree Kind.fold (.createOther kind a) (.createOther kind a') :=
  ⟨by simp only [Kind.fold, ha.eq]⟩

instance {op : String} {orientation orientation' : Option String}
    [ho : Agree id orientation orientation'] :
    Agree Kind.fold (.cursorOp op a orientation) (.cursorOp op a' orientation') :=
  ⟨by simp only [Kind.fold, ha.eq, ho.same]⟩

instance {verb : Verb} {options : List String} {check : Bool} :
    Agree Kind.fold (.createView a verb options check) (.createView a' verb options check) :=
  ⟨by simp only [Kind.fold, ha.eq]⟩

instance {verb : Verb} {options : List String} {number : Option Nat} :
    Agree Kind.fold (.createProcedure a verb options number)
      (.createProcedure a' verb options number) :=
  ⟨by simp only [Kind.fold, ha.eq]⟩

instance {verb : Verb} {kind : FunctionKind} {options : List String} :
    Agree Kind.fold (.createFunction a verb kind options) (.createFunction a' verb kind options) :=
  ⟨by simp only [Kind.fold, ha.eq]⟩

instance {isOutput readonly given given' : Bool} [hg : Agree id given given'] :
    Agree Kind.fold (.parameter a isOutput readonly given)
      (.parameter a' isOutput readonly given') :=
  ⟨by simp only [Kind.fold, ha.eq, hg.same]⟩

instance [ho : Agree id o o'] : Agree Kind.fold (.dataType a o) (.dataType a' o') :=
  ⟨by simp only [Kind.fold, ha.eq, ho.same]⟩

instance {verb : Verb} {scope : TriggerScope} {timing : String} {events options : List String}
    [hb : Agree Text.lower b b'] :
    Agree Kind.fold (.createTrigger a verb b scope timing events options)
      (.createTrigger a' verb b' scope timing events options) :=
  ⟨by simp only [Kind.fold, ha.eq, hb.eq]⟩

instance {unique included filtered filtered' : Bool} {clustered : Option Bool}
    {kind : Option String} {options : List String} [hb : Agree Text.lower b b']
    [hf : Agree id filtered filtered'] :
    Agree Kind.fold (.createIndex a b unique clustered kind included filtered options)
      (.createIndex a' b' unique clustered kind included filtered' options) := by
  cases (hf.eq : filtered = filtered')
  exact ⟨congrArg₂ (Kind.createIndex · · unique clustered kind included filtered options)
    ha.eq hb.eq⟩

variable [ho : Agree (Option.map Text.lower) o o']

instance : Agree Kind.fold (.tableRef a o) (.tableRef a' o') :=
  ⟨by simp only [Kind.fold, ha.eq, ho.eq]⟩

instance : Agree Kind.fold (.tableFunction a o) (.tableFunction a' o') :=
  ⟨by simp only [Kind.fold, ha.eq, ho.eq]⟩

instance {isTable : Bool} : Agree Kind.fold (.createType a o isTable) (.createType a' o' isTable) :=
  ⟨by simp only [Kind.fold, ha.eq, ho.eq]⟩

omit ha

instance : Agree Kind.fold (.selectItem o) (.selectItem o') := ⟨by simp only [Kind.fold, ho.eq]⟩

instance : Agree Kind.fold (.derivedTable o) (.derivedTable o') :=
  ⟨by simp only [Kind.fold, ho.eq]⟩

instance : Agree Kind.fold (.output o) (.output o') := ⟨by simp only [Kind.fold, ho.eq]⟩

instance {kind : ConstraintKind} {clustered : Option Bool} {options : List String} :
    Agree Kind.fold (.constraint o kind clustered options)
      (.constraint o' kind clustered options) :=
  ⟨by simp only [Kind.fold, ho.eq]⟩

instance {action : String} : Agree Kind.fold (.transaction action o) (.transaction action o') :=
  ⟨by simp only [Kind.fold, ho.eq]⟩

instance {options : List String} : Agree Kind.fold (.execute o options) (.execute o' options) :=
  ⟨by simp only [Kind.fold, ho.eq]⟩

instance {isOutput : Bool} : Agree Kind.fold (.execArg o isOutput) (.execArg o' isOutput) :=
  ⟨by simp only [Kind.fold, ho.eq]⟩

omit ho

instance {kind : String} {names names' : List String} {ifExists : Bool}
    [h : Agree (List.map Text.lower) names names'] :
    Agree Kind.fold (.drop kind names ifExists) (.drop kind names' ifExists) :=
  ⟨by simp only [Kind.fold, h.eq]⟩

instance {options : List String} [h : Agree foldSetting a a'] :
    Agree Kind.fold (.setOption options a) (.setOption options a') :=
  ⟨by simp only [Kind.fold, h.eq]⟩

instance [h : Agree id a a'] : Agree Kind.fold (.systemVariable a) (.systemVariable a') :=
  ⟨by simp only [Kind.fold, h.same]⟩

instance [h : Agree id a a'] : Agree Kind.fold (.otherStatement a) (.otherStatement a') :=
  ⟨by simp only [Kind.fold, h.same]⟩

instance [h : Agree id a a'] : Agree Kind.fold (.queryHint a) (.queryHint a') :=
  ⟨by simp only [Kind.fold, h.same]⟩

instance [h : Agree id a a'] : Agree Kind.fold (.waitFor a) (.waitFor a') :=
  ⟨by simp only [Kind.fold, h.same]⟩

instance [h : Agree id a a'] : Agree Kind.fold (.alterTableAction a) (.alterTableAction a') :=
  ⟨by simp only [Kind.fold, h.same]⟩

instance [h : Agree id a a'] : Agree Kind.fold (.mergeAction a) (.mergeAction a') :=
  ⟨by simp only [Kind.fold, h.same]⟩

instance {unpivot unpivot' : Bool} [h : Agree id unpivot unpivot'] :
    Agree Kind.fold (.pivot unpivot) (.pivot unpivot') := ⟨by simp only [Kind.fold, h.same]⟩

instance [h : Agree foldCall a a'] : Agree Kind.fold (.functionCall a) (.functionCall a') :=
  ⟨by simp only [Kind.fold, h.eq]⟩

end

/-! ### Readings one after the other -/

section

variable {φ : α → α} {ψ : β → β} {p p' : Reading τ α} {q q' : Reading τ β}
  {f f' : α → Reading τ β}

/-- An image that is given is the image that is found. -/
theorem Echo.of (h : Tracks φ p p') : Echo p p' φ := ⟨h.parallel⟩

theorem Echo.self (p : Reading τ α) [h : Echo p p φ] : Parallel (φ · = φ ·) p p := h.parallel

instance (priority := low) [h : Echo p p' φ] : Tracks φ p p' := ⟨h.parallel⟩

instance {p p' : Scan α} [h : Echo p p' φ] : Echo (liftM p : Reading τ α) (liftM p') φ :=
  ⟨h.parallel.lift⟩

instance {a a' : α} [h : Agree φ a a'] : Tracks φ (pure a : Reading τ α) (pure a') :=
  ⟨.ret h.eq⟩

instance (priority := high) [hp : Echo p p' id] [hf : ∀ a, Tracks ψ (f a) (f' a)] :
    Tracks ψ (p >>= f) (p' >>= f') where
  parallel := by
    refine hp.parallel.bind fun a a' ha => ?_
    cases (ha : a = a')
    exact (hf a).parallel

instance [hp : Echo p p' φ] [hf : ∀ x : Twins φ, Tracks ψ (f x.left) (f' x.right)] :
    Tracks ψ (p >>= f) (p' >>= f') where
  parallel := by
    refine hp.parallel.bind fun a a' ha => ?_
    exact (hf ⟨a, a', ha⟩).parallel

end

section

variable {φ : α → α} {p p' q q' : Reading τ α}

/-- Both sides take the same branch. -/
theorem Tracks.fork {b b' : Prop} {_ : Decidable b} {_ : Decidable b'} [hb : Agree id b b']
    (hp : Tracks φ p p') (hq : Tracks φ q q') :
    Tracks φ (if b then p else q) (if b' then p' else q') := by
  have hiff : b ↔ b' := iff_of_eq hb.eq
  by_cases h : b
  · rw [if_pos h, if_pos (hiff.mp h)]
    exact hp
  · rw [if_neg h, if_neg (h ∘ hiff.mpr)]
    exact hq

instance {b b' : Prop} {_ : Decidable b} {_ : Decidable b'} [Agree id b b'] [hp : Tracks φ p p']
    [hq : Tracks φ q q'] : Tracks φ (if b then p else q) (if b' then p' else q') := .fork hp hq

/-! What is written out inside of a computation is compared by the type of its result. -/

instance (priority := low) [hp : Echo p p' id] {f f' : α → Reading τ β} {ψ : β → β}
    [hf : ∀ a, Echo (f a) (f' a) ψ] : Echo (p >>= f) (p' >>= f') ψ := .of inferInstance

instance (priority := low) [hp : Echo p p' φ] {f f' : α → Reading τ β} {ψ : β → β}
    [hf : ∀ x : Twins φ, Echo (f x.left) (f' x.right) ψ] : Echo (p >>= f) (p' >>= f') ψ :=
  .of inferInstance

instance {b b' : Bool} [Agree id b b'] : Echo (pure b : Reading τ Bool) (pure b') id :=
  .of inferInstance

instance {words words' : List String} [Agree id words words'] :
    Echo (pure words : Reading τ (List String)) (pure words') id := .of inferInstance

instance (priority := low) {b b' : Prop} {_ : Decidable b} {_ : Decidable b'} [Agree id b b']
    [Echo p p' φ] [Echo q q' φ] : Echo (if b then p else q) (if b' then p' else q') φ :=
  .of inferInstance

instance {n n' : Node} [Agree Node.fold n n'] :
    Echo (pure n : Reading τ Node) (pure n') Node.fold := .of inferInstance

instance {ns ns' : List Node} [Agree (List.map Node.fold) ns ns'] :
    Echo (pure ns : Reading τ (List Node)) (pure ns') (List.map Node.fold) := .of inferInstance

/-- A first step whose results are the same up to case, and what follows it on such results. -/
theorem Tracks.seq {ψ : β → β} {f f' : α → Reading τ β} [Echo p p' φ]
    (h : ∀ x : Twins φ, Tracks ψ (f x.left) (f' x.right)) : Tracks ψ (p >>= f) (p' >>= f') :=
  inferInstance

/-- A first step whose results are the same on both sides. -/
theorem Tracks.step {ψ : β → β} {f f' : α → Reading τ β} [Echo p p' id]
    (h : ∀ a, Tracks ψ (f a) (f' a)) : Tracks ψ (p >>= f) (p' >>= f') :=
  inferInstance

/-- A computation that is written out in another one is compared by a given image. -/
theorem Tracks.thread (φ : α → α) {ψ : β → β} {f f' : α → Reading τ β} (hp : Tracks φ p p')
    (hf : ∀ x : Twins φ, Tracks ψ (f x.left) (f' x.right)) :
    Tracks ψ (p >>= f) (p' >>= f') where
  parallel := by
    refine hp.parallel.bind fun a a' ha => ?_
    exact (hf ⟨a, a', ha⟩).parallel

/-- Words at the cursor are no braces. -/
theorem Tracks.look {f f' : View → Reading τ β} {ψ : β → β}
    (h : ∀ x : Twins View.fold, x.left.source.Plain → Tracks ψ (f x.left) (f' x.right)) :
    Tracks ψ (liftM Parser.look >>= f) (liftM Parser.look >>= f') where
  parallel := by
    refine Parallel.look.lift.bind fun v v' hv => ?_
    obtain ⟨hsame, hplain⟩ := hv
    exact (h ⟨v, v', hsame⟩ hplain).parallel

/-- A loop whose states are the same up to case. -/
theorem Tracks.loop (ψ : σ → σ) {init init' : σ} {body body' : σ → Reading τ (Round σ α)}
    [hinit : Agree ψ init init']
    (h : ∀ x : Twins ψ, Tracks (Round.map ψ φ) (body x.left) (body' x.right)) :
    Tracks φ (Parser.loop init body) (Parser.loop init' body') where
  parallel := by
    refine .loop (I := (ψ · = ψ ·)) hinit.eq fun st st' hst => ?_
    have hround := (h ⟨st, st', hst⟩).parallel
    exact hround.imp fun _ _ => Round.related_of_map

/-- A loop whose state is the same on both sides. -/
theorem Tracks.round {init : σ} {body body' : σ → Reading τ (Round σ α)}
    (h : ∀ st, Tracks (Round.map id φ) (body st) (body' st)) :
    Tracks φ (Parser.loop init body) (Parser.loop init body') := by
  refine .loop id fun ⟨st, st', hst⟩ => ?_
  cases (hst : st = st')
  exact h st

instance {init : σ} {body body' : σ → Reading τ (Round σ α)}
    [h : ∀ st, Tracks (Round.map id φ) (body st) (body' st)] :
    Tracks φ (Parser.loop init body) (Parser.loop init body') := .round h

instance {init : σ} {body body' : σ → Reading τ (Round σ α)}
    [h : ∀ st, Tracks (Round.map id id) (body st) (body' st)] :
    Echo (Parser.loop init body) (Parser.loop init body') id := .of inferInstance

/-- A loop that gathers nodes. -/
instance {init init' : List Node} {body body' : List Node → Reading τ (Round (List Node) α)}
    [Agree (List.map Node.fold) init init']
    [h : ∀ x : Twins (List.map Node.fold),
      Tracks (Round.map (List.map Node.fold) φ) (body x.left) (body' x.right)] :
    Tracks φ (Parser.loop init body) (Parser.loop init' body') := .loop _ h

instance {init init' : List Node}
    {body body' : List Node → Reading τ (Round (List Node) (List Node))}
    [Agree (List.map Node.fold) init init']
    [h : ∀ x : Twins (List.map Node.fold),
      Tracks (Round.map (List.map Node.fold) (List.map Node.fold)) (body x.left) (body' x.right)] :
    Echo (Parser.loop init body) (Parser.loop init' body') (List.map Node.fold) :=
  .of inferInstance

/-- A loop that builds on one node. -/
instance {init init' : Node} {body body' : Node → Reading τ (Round Node α)}
    [Agree Node.fold init init']
    [h : ∀ x : Twins Node.fold,
      Tracks (Round.map Node.fold φ) (body x.left) (body' x.right)] :
    Tracks φ (Parser.loop init body) (Parser.loop init' body') := .loop _ h

end

theorem agree_size {s s' : Source} (h : s.fold = s'.fold) : s.size = s'.size :=
  eq_of_fold (f := Source.size) Source.size_fold h

end Portability
