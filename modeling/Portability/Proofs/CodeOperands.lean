import Mathlib
import Portability.Proofs.ErrorTracking
import Portability.Proofs.Numerals
import Portability.Proofs.TreeShape
import Portability.Proofs.ValueTexts

/-! What is compared with an error value, and what each operand counts as: signs before a number
are the signed value, zero is left out, and anything else is indeterminate. No value that is read
on the way is too great for 64 bits, nor is its negation. -/
namespace Portability

namespace Tree

/-- The node is signs, outermost first, before a number of digits that 64 bits can hold. -/
inductive SignedNumber (t : Tree) : Node → List String → Nat → Prop
  | number {n : Node} {k : Nat} (hkind : n.kind = .literal .number)
      (hdigits : Text.Digits (t.text n).toList k) (hlimit : k < 2 ^ 63) : SignedNumber t n [] k
  | sign {n operand : Node} {op : String} {signs : List String} {k : Nat}
      (hkind : n.kind = .unaryOp op) (hop : op = "+" ∨ op = "-")
      (hparts : n.children = [operand]) (hoperand : SignedNumber t operand signs k) :
      SignedNumber t n (op :: signs) k

/-- The value of a number behind signs. -/
def signedValue (signs : List String) (k : Nat) : Int := (-1) ^ signs.count "-" * k

theorem signedValue_minus (signs : List String) (k : Nat) :
    signedValue ("-" :: signs) k = -signedValue signs k := by
  rw [signedValue, List.count_cons_self, pow_succ, signedValue]
  ring

theorem signedValue_plus (signs : List String) (k : Nat) :
    signedValue ("+" :: signs) k = signedValue signs k := by
  rw [signedValue, List.count_cons_of_ne (by decide), signedValue]

theorem natAbs_signedValue (signs : List String) (k : Nat) : (signedValue signs k).natAbs = k := by
  simp [signedValue, Int.natAbs_mul, Int.natAbs_pow]

theorem signedValue_eq_zero {signs : List String} {k : Nat} : signedValue signs k = 0 ↔ k = 0 := by
  rw [← Int.natAbs_eq_zero, natAbs_signedValue]

/-- Signed numbers of 64 bits hold the value and its negation. -/
theorem exists_int64 (signs : List String) {k : Nat} (h : k < 2 ^ 63) :
    ∃ word : Int64, word.toInt = signedValue signs k ∧ (-word).toInt = -signedValue signs k := by
  have habs := natAbs_signedValue signs k
  refine ⟨.ofInt (signedValue signs k), ?_, ?_⟩
  · exact Int64.toInt_ofInt_of_le (by omega) (by omega)
  · rw [← Int64.ofInt_neg]
    exact Int64.toInt_ofInt_of_le (by omega) (by omega)

variable {text : String} {t : Tree} {site : Site} {n operand : Node} {op : String} {v : Int}
  {signs : List String} {k : Nat}

theorem signedNumber_number_iff (hkind : n.kind = .literal .number) :
    t.SignedNumber n signs k ↔ signs = [] ∧ Text.Digits (t.text n).toList k ∧ k < 2 ^ 63 := by
  constructor
  · intro h
    cases h with
    | number _ hdigits hlimit => exact ⟨rfl, hdigits, hlimit⟩
    | sign hsign => cases hkind.symm.trans hsign
  · rintro ⟨rfl, hdigits, hlimit⟩
    exact .number hkind hdigits hlimit

theorem signedNumber_sign_iff (hkind : n.kind = .unaryOp op) (hparts : n.children = [operand]) :
    t.SignedNumber n signs k ↔
      (op = "+" ∨ op = "-") ∧ ∃ rest, signs = op :: rest ∧ t.SignedNumber operand rest k := by
  constructor
  · intro h
    cases h with
    | number hnumber => cases hkind.symm.trans hnumber
    | sign hsign hop hbelow hoperand =>
      obtain rfl := Kind.unaryOp.inj (hkind.symm.trans hsign)
      obtain ⟨rfl, -⟩ := List.cons.inj (hparts.symm.trans hbelow)
      exact ⟨hop, _, rfl, hoperand⟩
  · rintro ⟨hop, rest, rfl, hoperand⟩
    exact .sign hkind hop hparts hoperand

theorem SignedNumber.lt (h : t.SignedNumber n signs k) : k < 2 ^ 63 := by
  induction h with
  | number _ _ hlimit => exact hlimit
  | sign _ _ _ _ ih => exact ih

theorem signedNumber_other (hnumber : n.kind ≠ .literal .number)
    (hsign : ∀ op, n.kind ≠ .unaryOp op) : ¬ t.SignedNumber n signs k := by
  intro h
  cases h with
  | number hkind => exact hnumber hkind
  | sign hkind => exact hsign _ hkind

/-! ### Values of operands -/

theorem integer?_number (hkind : n.kind = .literal .number) :
    t.integer? n = Text.parseInt64? (Text.trim (t.text n)) := by
  obtain ⟨id, kind, line, start, stop, children⟩ := n
  obtain rfl : kind = .literal .number := hkind
  rw [integer?, Tree.text]

theorem integer?_sign (hkind : n.kind = .unaryOp op) (hparts : n.children = [operand]) :
    t.integer? n = if op = "-" then (t.integer? operand).map fun v => -v
      else if op = "+" then t.integer? operand else none := by
  obtain ⟨id, kind, line, start, stop, children⟩ := n
  obtain rfl : kind = .unaryOp op := hkind
  obtain rfl : children = [operand] := hparts
  rw [integer?]

theorem integer?_other (hnumber : n.kind ≠ .literal .number) (hsign : ∀ op, n.kind ≠ .unaryOp op) :
    t.integer? n = none := by
  unfold integer?
  split
  · exact absurd rfl hnumber
  · exact absurd rfl (hsign _)
  · rfl

/-- Without signs the text of a number begins with a digit or a point, so that only digits spell
a signed number of 64 bits. -/
theorem integer?_number_eq_some_iff (h : ofText? text = some t) (hsite : site ∈ t.sites)
    (hkind : site.node.kind = .literal .number) : t.integer? site.node = some v ↔
      ∃ k : Nat, Text.Digits (t.text site.node).toList k ∧ k < 2 ^ 63 ∧ v = k := by
  obtain ⟨token, hdenotes, hshaped, htext⟩ :=
    token_of_isValue h hsite (by rw [Site.kind, hkind]; rfl)
  rw [Site.kind, hkind] at hdenotes
  cases hdenotes with
  | number digits long =>
    have hnumber : NumberText digits.toList := hshaped
    have hchars : (t.text site.node).toList =
        digits.toList ++ if long = true then ['L'] else [] := by
      rw [htext]
      cases long <;> simp [Token.sourceText, Token.display]
    have htrim : Text.trim (t.text site.node) = t.text site.node := by
      have htight := Text.tight_of_forall fun c hc => (hnumber.plain long c hc).1
      rw [Text.trim, hchars, htight.trimChars_eq, ← hchars, String.ofList_toList]
    have hsign : ∀ rest, (t.text site.node).toList ≠ '+' :: rest ∧
        (t.text site.node).toList ≠ '-' :: rest := by
      obtain ⟨c, more, hbegin, hc⟩ := hnumber.begins
      intro rest
      rw [hchars, hbegin, List.cons_append]
      constructor <;> rintro ⟨⟩ <;> simp at hc
    rw [integer?_number hkind, htrim, Text.parseInt64?_eq_some_iff, Text.SpellsInt64]
    constructor
    · rintro ⟨⟨-, hlimit⟩, spelled, k, hspelled, ⟨hplain | hplus, rfl⟩ | ⟨hminus, -⟩⟩
      · exact ⟨k, hplain ▸ hspelled, by omega, rfl⟩
      · exact absurd hplus (hsign spelled).1
      · exact absurd hminus (hsign spelled).2
    · rintro ⟨k, hspelled, hlimit, rfl⟩
      exact ⟨by omega, _, k, hspelled, .inl ⟨.inl rfl, rfl⟩⟩

/-- An operand has a value just if it is signs before such a number. -/
theorem integer?_eq_some_iff (h : ofText? text = some t) (hsite : site ∈ t.sites) :
    t.integer? site.node = some v ↔
      ∃ signs k, t.SignedNumber site.node signs k ∧ v = signedValue signs k := by
  obtain ⟨n, above⟩ := site
  -- Parentheses leave no node, so that the next sign is always the one part of this node.
  induction n using Node.induct generalizing above v with
  | node n ih =>
    by_cases hnumber : n.kind = .literal .number
    · rw [integer?_number_eq_some_iff h hsite hnumber]
      simp [signedNumber_number_iff hnumber, signedValue, and_assoc]
    by_cases hsign : ∃ op, n.kind = .unaryOp op
    · obtain ⟨op, hop⟩ := hsign
      have hadmits := (parts_admitted h hsite).1
      rw [Site.kind, hop] at hadmits
      obtain ⟨operand, hparts⟩ := List.length_eq_one_iff.mp hadmits
      have hmem : operand ∈ n.children := hparts ▸ List.mem_singleton_self operand
      have hoperand : ∀ v, t.integer? operand = some v ↔ _ := fun v =>
        ih operand hmem _ (part_mem_sites hsite hmem)
      rw [integer?_sign hop hparts]
      simp only [signedNumber_sign_iff hop hparts]
      by_cases hminus : op = "-"
      · subst hminus
        rw [if_pos rfl, Option.map_eq_some_iff]
        constructor
        · rintro ⟨w, hw, rfl⟩
          obtain ⟨signs, k, hsigned, rfl⟩ := (hoperand w).mp hw
          exact ⟨_, k, ⟨.inr rfl, signs, rfl, hsigned⟩, (signedValue_minus signs k).symm⟩
        · rintro ⟨-, k, ⟨-, signs, rfl, hsigned⟩, rfl⟩
          exact ⟨_, (hoperand _).mpr ⟨signs, k, hsigned, rfl⟩, (signedValue_minus signs k).symm⟩
      by_cases hplus : op = "+"
      · subst hplus
        rw [if_neg hminus, if_pos rfl, hoperand]
        constructor
        · rintro ⟨signs, k, hsigned, rfl⟩
          exact ⟨_, k, ⟨.inl rfl, signs, rfl, hsigned⟩, (signedValue_plus signs k).symm⟩
        · rintro ⟨-, k, ⟨-, signs, rfl, hsigned⟩, rfl⟩
          exact ⟨signs, k, hsigned, signedValue_plus signs k⟩
      · rw [if_neg hminus, if_neg hplus]
        simp [hminus, hplus]
    · rw [integer?_other hnumber (not_exists.mp hsign)]
      simp [signedNumber_other hnumber (not_exists.mp hsign)]

end Tree

namespace ErrorTracker

variable {text via : String} {t : Tree} {site : Site} {e : ErrorTracker} {n operand : Node}
  {operands : List Node} {checks : List CodeCheck}

/-- The node yields an error code, which is named by the variable that holds it, or else by the
text of its source. -/
inductive Names (e : ErrorTracker) (t : Tree) (n : Node) : String → Prop
  | tracked {name : String} (hkind : n.kind = .localVariable name)
      (htracked : e.isTracked name = true) : Names e t n name
  | source (h : n.ReadsError) : Names e t n (Text.collapse (t.text n))

theorem subject?_eq_some_iff : e.subject? t n = some via ↔ e.Names t n via := by
  constructor
  · intro h
    unfold subject? at h
    split at h
    · next name hkind =>
      obtain ⟨htracked, hname⟩ := Option.ite_none_right_eq_some.mp h
      obtain rfl := Option.some.inj hname
      exact .tracked hkind htracked
    · obtain ⟨hsource, hname⟩ := Option.ite_none_right_eq_some.mp h
      obtain rfl := Option.some.inj hname
      exact .source (Node.isErrorSource_iff.mp hsource)
  · rintro (⟨hkind, htracked⟩ | hreads)
    · simp [subject?, hkind, htracked]
    · have hsource := Node.isErrorSource_iff.mpr hreads
      obtain ⟨hkind, -⟩ | ⟨hkind, -⟩ := hreads <;> simp [subject?, hkind, hsource]

theorem subject?_eq_none_iff : e.subject? t n = none ↔ ∀ via, ¬ e.Names t n via := by
  simp only [Option.eq_none_iff_forall_ne_some, ← subject?_eq_some_iff, Ne]

/-- The node compares an error code, named `via`, with operands: on either side of an equality, of
which the left one comes first, before a list, or before the bounds of a range. -/
inductive Compares (e : ErrorTracker) (t : Tree) (n : Node) : String → List Node → Prop
  | left {op via : String} {left right : Node} (hkind : n.kind = .comparison op)
      (hop : op ∈ ["=", "<>", "!="]) (hparts : n.children = [left, right])
      (hnames : e.Names t left via) : Compares e t n via [right]
  | right {op via : String} {left right : Node} (hkind : n.kind = .comparison op)
      (hop : op ∈ ["=", "<>", "!="]) (hparts : n.children = [left, right])
      (hleft : ∀ other, ¬ e.Names t left other) (hnames : e.Names t right via) :
      Compares e t n via [left]
  | list {negated : Bool} {via : String} {subject : Node} {operands : List Node}
      (hkind : n.kind = .inList negated) (hparts : n.children = subject :: operands)
      (hnames : e.Names t subject via) : Compares e t n via operands
  | range {negated : Bool} {via : String} {subject low high : Node}
      (hkind : n.kind = .between negated) (hparts : n.children = [subject, low, high])
      (hnames : e.Names t subject via) : Compares e t n via [low, high]

/-- The checks that operands come to, in order. -/
inductive ChecksOf (t : Tree) (via : String) : List Node → List CodeCheck → Prop
  | nil : ChecksOf t via [] []
  /-- Zero means that there was no error. -/
  | zero {operand : Node} {signs : List String} {operands : List Node} {checks : List CodeCheck}
      (h : t.SignedNumber operand signs 0) (hrest : ChecksOf t via operands checks) :
      ChecksOf t via (operand :: operands) checks
  | code {operand : Node} {signs : List String} {k : Nat} {operands : List Node}
      {checks : List CodeCheck} (h : t.SignedNumber operand signs k) (hk : k ≠ 0)
      (hrest : ChecksOf t via operands checks) :
      ChecksOf t via (operand :: operands) (.code (Tree.signedValue signs k) via :: checks)
  | indeterminate {operand : Node} {operands : List Node} {checks : List CodeCheck}
      (h : ∀ signs k, ¬ t.SignedNumber operand signs k)
      (hrest : ChecksOf t via operands checks) :
      ChecksOf t via (operand :: operands)
        (.indeterminate (Text.collapse (t.text operand)) via :: checks)

/-- A node of the tree, somewhere. -/
def Within (t : Tree) (n : Node) : Prop := ∃ above, (⟨n, above⟩ : Site) ∈ t.sites

theorem check?_of_signedNumber (h : Tree.ofText? text = some t) (hwithin : Within t operand)
    {signs : List String} {k : Nat} (hsigned : t.SignedNumber operand signs k) :
    check? t via operand = if k = 0 then none else some (.code (Tree.signedValue signs k) via) := by
  obtain ⟨above, hsite⟩ := hwithin
  have hvalue := (Tree.integer?_eq_some_iff h hsite).mpr ⟨signs, k, hsigned, rfl⟩
  unfold check?
  split
  · next hzero =>
    have hk : Tree.signedValue signs k = 0 := Option.some.inj (hvalue.symm.trans hzero)
    rw [if_pos (Tree.signedValue_eq_zero.mp hk)]
  · next code hne hcode =>
    obtain rfl := Option.some.inj (hvalue.symm.trans hcode)
    rw [if_neg fun hk => hne (Tree.signedValue_eq_zero.mpr hk)]
  · next hnone => cases hvalue.symm.trans hnone

theorem check?_of_not (h : Tree.ofText? text = some t) (hwithin : Within t operand)
    (hnot : ∀ signs k, ¬ t.SignedNumber operand signs k) :
    check? t via operand = some (.indeterminate (Text.collapse (t.text operand)) via) := by
  obtain ⟨above, hsite⟩ := hwithin
  have hnone : t.integer? operand = none := by
    rw [Option.eq_none_iff_forall_ne_some]
    intro v hv
    obtain ⟨signs, k, hsigned, -⟩ := (Tree.integer?_eq_some_iff h hsite).mp hv
    exact hnot signs k hsigned
  rw [check?, hnone]

theorem checksOf_iff (h : Tree.ofText? text = some t) (hwithin : ∀ o ∈ operands, Within t o) :
    ChecksOf t via operands checks ↔ operands.filterMap (check? t via) = checks := by
  constructor
  · intro hchecks
    induction hchecks with
    | nil => rfl
    | zero hsigned _ ih =>
      obtain ⟨hoperand, hrest⟩ := List.forall_mem_cons.mp hwithin
      rw [List.filterMap_cons, check?_of_signedNumber h hoperand hsigned, if_pos rfl]
      exact ih hrest
    | code hsigned hk _ ih =>
      obtain ⟨hoperand, hrest⟩ := List.forall_mem_cons.mp hwithin
      rw [List.filterMap_cons, check?_of_signedNumber h hoperand hsigned, if_neg hk]
      exact congrArg _ (ih hrest)
    | indeterminate hnot _ ih =>
      obtain ⟨hoperand, hrest⟩ := List.forall_mem_cons.mp hwithin
      rw [List.filterMap_cons, check?_of_not h hoperand hnot]
      exact congrArg _ (ih hrest)
  · rintro rfl
    induction operands with
    | nil => exact .nil
    | cons operand operands ih =>
      obtain ⟨hoperand, hrest⟩ := List.forall_mem_cons.mp hwithin
      by_cases hsigned : ∃ signs k, t.SignedNumber operand signs k
      · obtain ⟨signs, k, hsigned⟩ := hsigned
        rw [List.filterMap_cons, check?_of_signedNumber h hoperand hsigned]
        by_cases hk : k = 0
        · subst hk
          exact .zero hsigned (ih hrest)
        · rw [if_neg hk]
          exact .code hsigned hk (ih hrest)
      · have hnot : ∀ signs k, ¬ t.SignedNumber operand signs k := by simpa using hsigned
        rw [List.filterMap_cons, check?_of_not h hoperand hnot]
        exact .indeterminate hnot (ih hrest)

theorem examine_of_compares (hcompares : e.Compares t n via operands) :
    e.examine t n = operands.filterMap (check? t via) := by
  cases hcompares with
  | left hkind hop hparts hnames =>
    have hsubject := subject?_eq_some_iff.mpr hnames
    simp only [examine, hkind, hparts, hsubject]
    exact if_pos (by simpa using hop)
  | right hkind hop hparts hleft hnames =>
    have hsubject := subject?_eq_some_iff.mpr hnames
    have hnone := subject?_eq_none_iff.mpr hleft
    simp only [examine, hkind, hparts, hsubject, hnone]
    exact if_pos (by simpa using hop)
  | list hkind hparts hnames =>
    have hsubject := subject?_eq_some_iff.mpr hnames
    simp only [examine, hkind, hparts, hsubject]
  | range hkind hparts hnames =>
    have hsubject := subject?_eq_some_iff.mpr hnames
    simp only [examine, hkind, hparts, hsubject]

theorem examine_of_not (hadmits : n.kind.Admits n.children)
    (hnot : ∀ via operands, ¬ e.Compares t n via operands) : e.examine t n = [] := by
  unfold examine
  split
  · next op left right rest hkind hparts =>
    have hlength : n.children.length = 2 := by rwa [hkind] at hadmits
    obtain rfl : rest = [] := by simpa [hparts] using hlength
    split
    · next hop =>
      have hop : op ∈ ["=", "<>", "!="] := by simpa using hop
      split
      · next via _ hleft =>
        exact absurd (.left hkind hop hparts (subject?_eq_some_iff.mp hleft)) (hnot _ _)
      · next via hleft hright =>
        exact absurd (.right hkind hop hparts (subject?_eq_none_iff.mp hleft)
          (subject?_eq_some_iff.mp hright)) (hnot _ _)
      · rfl
    · rfl
  · next subject operands hkind hparts =>
    split
    · next via hsubject =>
      exact absurd (.list hkind hparts (subject?_eq_some_iff.mp hsubject)) (hnot _ _)
    · rfl
  · next subject operands hkind hparts =>
    have hlength : n.children.length = 3 := by rwa [hkind] at hadmits
    obtain ⟨low, high, rfl⟩ : ∃ low high, operands = [low, high] := by
      rw [← List.length_eq_two]
      simpa [hparts] using hlength
    split
    · next via hsubject =>
      exact absurd (.range hkind hparts (subject?_eq_some_iff.mp hsubject)) (hnot _ _)
    · rfl
  · rfl

/-- What is compared with an error code stands below the comparison. -/
theorem Compares.subset (h : e.Compares t n via operands) : operands ⊆ n.children := by
  cases h with
  | left _ _ hparts | right _ _ hparts | list _ hparts | range _ hparts => simp [hparts]

end ErrorTracker

/-- A comparison of an error code comes to one check for each operand, in order, but for those that
are zero; the code of a number behind signs is its signed value, and any other operand is
indeterminate. Other nodes come to no check. No negation on the way leaves the signed numbers of 64
bits. -/
theorem ErrorTracker.examine_operands {text : String} {t : Tree} {site : Site}
    (h : Tree.ofText? text = some t) (hsite : site ∈ t.sites) (e : ErrorTracker) :
    (∀ via operands, e.Compares t site.node via operands →
      ∀ checks, ChecksOf t via operands checks ↔ e.examine t site.node = checks) ∧
    ((∀ via operands, ¬ e.Compares t site.node via operands) → e.examine t site.node = []) ∧
    ∀ v, t.integer? site.node = some v →
      ∃ word : Int64, word.toInt = v ∧ (-word).toInt = -v := by
  refine ⟨?_, examine_of_not (Tree.parts_admitted h hsite).1, ?_⟩
  · intro via operands hcompares checks
    rw [examine_of_compares hcompares]
    refine checksOf_iff h fun operand hoperand => ?_
    exact ⟨_, Tree.part_mem_sites hsite (hcompares.subset hoperand)⟩
  · intro v hv
    obtain ⟨signs, k, hsigned, rfl⟩ := (Tree.integer?_eq_some_iff h hsite).mp hv
    exact Tree.exists_int64 signs hsigned.lt

/-- A list of zero, of a number behind two signs, and of a variable. -/
theorem ErrorTracker.examine_operands_signs : ∃ t,
    Tree.ofText? "IF @e IN(0,+-7,@x)BREAK" = some t ∧ ∃ site ∈ t.sites, ∃ zero code other,
      Compares ⟨["@E"]⟩ t site.node "@e" [zero, code, other] ∧
      ChecksOf t "@e" [zero, code, other]
        [.code (-7) "@e", .indeterminate (Text.collapse (t.text other)) "@e"] ∧
      ∃ word : Int64, word.toInt = -7 ∧ (-word).toInt = 7 := by
  have hrun : ((Tree.ofText? "IF @e IN(0,+-7,@x)BREAK").map fun t => t.sites[2]?.map fun s =>
      (s.kind, s.node.children.map fun c => (c.kind, t.integer? c))) =
      some (some (.inList false, [(.localVariable "@e", none), (.literal .number, some 0),
        (.unaryOp "+", some (-7)), (.localVariable "@x", none)])) :=
    Tree.map_ofText?_of_apart (by decide +kernel)
  obtain ⟨t, ht, hlist⟩ := Option.map_eq_some_iff.mp hrun
  obtain ⟨site, hat, hparts⟩ := Option.map_eq_some_iff.mp hlist
  obtain ⟨hkind, hparts⟩ := Prod.mk.inj hparts
  obtain ⟨subject, _, hchildren, hsubject, hparts⟩ := List.map_eq_cons_iff.mp hparts
  obtain ⟨zero, _, rfl, hzero, hparts⟩ := List.map_eq_cons_iff.mp hparts
  obtain ⟨code, _, rfl, hcode, hparts⟩ := List.map_eq_cons_iff.mp hparts
  obtain ⟨other, _, rfl, hother, hparts⟩ := List.map_eq_cons_iff.mp hparts
  obtain rfl := List.map_eq_nil_iff.mp hparts
  simp only [Prod.mk.injEq] at hsubject hzero hcode hother
  have hsite : site ∈ t.sites := List.mem_of_getElem? hat
  have htracked : isTracked ⟨["@E"]⟩ "@e" = true := by decide +kernel
  have hcompares : Compares ⟨["@E"]⟩ t site.node "@e" [zero, code, other] :=
    .list hkind hchildren (.tracked hsubject.1 htracked)
  have hexamine : examine ⟨["@E"]⟩ t site.node =
      [.code (-7) "@e", .indeterminate (Text.collapse (t.text other)) "@e"] := by
    simp [examine_of_compares hcompares, check?, hzero.2, hcode.2, hother.2]
  obtain ⟨hchecks, -, -⟩ := examine_operands ht hsite ⟨["@E"]⟩
  have hbelow := Tree.part_mem_sites hsite (c := code) (by simp [hchildren])
  obtain ⟨-, -, hword⟩ := examine_operands ht hbelow ⟨["@E"]⟩
  exact ⟨t, ht, site, hsite, zero, code, other, hcompares,
    (hchecks _ _ hcompares _).mpr hexamine, hword _ hcode.2⟩

end Portability
