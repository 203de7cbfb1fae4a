import Portability.Declaration
import Portability.ErrorCode
import Portability.Query.Place
import Portability.Category.Expression
import Portability.Proofs.Casing.Fold
import Portability.Proofs.Casing.Naming
import Portability.Proofs.Sites

/-! What is known of a tree does not depend on case: where a query stands, which names are declared,
what the setting `QUOTED_IDENTIFIER` is, which category an expression has and which error codes a
predicate tests for. -/
namespace Portability

/-- The site with the node and what encloses it folded. -/
def Site.fold (s : Site) : Site := ⟨s.node.fold, s.ancestors.map Node.fold⟩

/-- The tree with its source and its nodes folded. -/
def Tree.fold (t : Tree) : Tree := ⟨t.source.fold, t.root.fold, t.nodes.map Node.fold⟩

theorem lower_foldCall (name : String) : Text.lower (foldCall name) = Text.lower name := by
  unfold foldCall
  split <;> simp

theorem lower_foldSetting (value : String) : Text.lower (foldSetting value) = Text.lower value := by
  unfold foldSetting
  split <;> simp

/-- No name in lower case is the name that an escape is parsed as. -/
theorem lower_ne_escapeCallName (raw : String) : Text.lower raw ≠ Parser.escapeCallName := by
  intro h
  have hsame := congrArg Text.lower h
  rw [Text.lower_lower, h] at hsame
  exact absurd hsame (by decide +kernel)

/-- Two optional values with the same image are both absent or both there. -/
theorem eq_none_or_of_map_eq {α β : Type} {f : α → β} {o o' : Option α} (h : o.map f = o'.map f) :
    (o = none ∧ o' = none) ∨ ∃ a a', o = some a ∧ o' = some a' ∧ f a = f a' := by
  cases o <;> cases o' <;> simp at h ⊢
  exact h

/-! ### Nodes and sites -/

namespace Node

variable (n : Node)

/-- A test on kinds that does not depend on case finds a part in both trees or in neither. -/
theorem hasChild_fold {test : Kind → Bool} (h : ∀ k : Kind, test k.fold = test k) :
    n.fold.hasChild test = n.hasChild test := by
  simp [hasChild, Function.comp_def, h]

/-- The first part that passes such a test is the same up to case. -/
theorem child?_fold {test : Kind → Bool} (h : ∀ k : Kind, test k.fold = test k) :
    n.fold.child? test = (n.child? test).map fold := by
  simp [child?, List.find?_map, h]

theorem firstKind?_fold : n.fold.firstKind? = n.firstKind?.map Kind.fold := by
  simp [firstKind?, Function.comp_def]

end Node

namespace Site

variable (s : Site)

@[simp] theorem kind_fold : s.fold.kind = s.kind.fold := s.node.kind_fold

@[simp] theorem node_fold : s.fold.node = s.node.fold := rfl

@[simp] theorem ancestors_fold : s.fold.ancestors = s.ancestors.map Node.fold := rfl

theorem parentKind?_fold : s.fold.parentKind? = s.parentKind?.map Kind.fold := by
  simp [parentKind?, Function.comp_def]

/-- A test on kinds that does not depend on case finds an ancestor in both trees or in neither. -/
theorem isInside_fold {test : Kind → Bool} (h : ∀ k : Kind, test k.fold = test k) :
    s.fold.isInside test = s.isInside test := by
  simp [isInside, Function.comp_def, h]

end Site

/-- The folded tree has the folded sites, in the same order. -/
theorem sitesFrom_fold (n : Node) (above : List Node) :
    n.fold.sitesFrom (above.map Node.fold) = (n.sitesFrom above).map Site.fold := by
  induction n using Node.induct generalizing above with
  | node n ih =>
    rw [Node.sitesFrom_eq, Node.sitesFrom_eq, Node.children_fold, List.map_cons, List.flatMap_map,
      List.map_flatMap]
    refine congrArg (List.cons _) (List.flatMap_congr fun c hc => ?_)
    exact ih c hc (n :: above)

/-! ### Queries -/

namespace QueryPlace

/-- The place with its owner folded. -/
def fold (p : QueryPlace) : QueryPlace := { p with owner? := p.owner?.map Node.fold }

theorem withClauses_fold (p : QueryPlace) (query : Node) :
    p.fold.withClauses query.fold = (p.withClauses query).fold := by
  unfold withClauses fold
  rw [Node.hasChild_fold _ (fun k => by cases k <;> rfl),
    Node.hasChild_fold _ (fun k => by cases k <;> rfl)]

theorem ownedBy_fold (p : QueryPlace) (via : Node) (owner? : Option Node) :
    p.fold.ownedBy via.fold (owner?.map Node.fold) = (p.ownedBy via owner?).fold := by
  cases owner? with
  | none => rfl
  | some owner => simp [ownedBy, fold, Option.any_map]

theorem isSetOperation_fold (kind : Kind) : kind.fold.isSetOperation = kind.isSetOperation := by
  cases kind <;> rfl

/-- The climb to the owner of a query goes the same way in both trees. -/
theorem climb_fold (p : QueryPlace) (current : Node) (above : List Node) :
    p.fold.climb current.fold (above.map Node.fold) = (p.climb current above).fold := by
  induction above generalizing p current with
  | nil => rfl
  | cons parent rest ih =>
    have hown := ownedBy_fold p current (some parent)
    simp only [List.map_cons, climb, Node.kind_fold]
    cases hkind : parent.kind
    case setOperation operator =>
      have hnext := ih
        { p with
          inSetOperation := true
          isLeading := p.isLeading && parent.children.head?.any (·.id == current.id) } parent
      simpa [Kind.fold, fold, Option.any_map, Function.comp_def] using hnext
    case query =>
      have hsame : (rest.map Node.fold).head?.any (·.kind.isSetOperation) =
          rest.head?.any (·.kind.isSetOperation) := by
        simp [Option.any_map, isSetOperation_fold]
      simp only [Kind.fold, withClauses_fold, hsame]
      split
      · exact ih _ parent
      · rw [List.head?_map]
        exact ownedBy_fold _ parent rest.head?
    all_goals exact hown

/-- The attributes of a query depend on the kinds of its owners, not on their texts. -/
theorem traits_fold (p : QueryPlace) : p.fold.traits = p.traits := by
  have howner : p.fold.ownerTraits = p.ownerTraits := by
    unfold ownerTraits fold
    cases p.owner? with
    | none => rfl
    | some owner =>
      simp only [Option.map_some, Node.kind_fold]
      cases owner.kind <;> rfl
  simp only [traits, howner]
  rfl

end QueryPlace

/-- The attributes that a query site has are the same. -/
theorem Site.queryTraits_fold (s : Site) : s.fold.queryTraits = s.queryTraits := by
  have hplace : s.fold.queryPlace = s.queryPlace.fold :=
    QueryPlace.climb_fold {} s.node s.ancestors
  unfold queryTraits
  rw [hplace, QueryPlace.traits_fold, isInside_fold _ (fun k => by cases k <;> rfl)]

/-! ### The setting `QUOTED_IDENTIFIER` -/

/-- Only `ON` itself folds to `ON`, and only `OFF` to `OFF`. -/
theorem foldSetting_eq_iff {value word : String} (h : word = "ON" ∨ word = "OFF") :
    foldSetting value = word ↔ value = word := by
  have hcapital : Text.lower word ≠ word := by rcases h with rfl | rfl <;> decide +kernel
  unfold foldSetting
  split
  · rfl
  · rename_i hvalue
    constructor
    · rintro rfl
      exact absurd (Text.lower_lower value) hcapital
    · rintro rfl
      exact absurd h hvalue

/-- A setting of quoted identifiers is recognized with the value that it sets. -/
theorem Kind.quotedIdentifier?_fold (kind : Kind) :
    kind.fold.quotedIdentifier? = kind.quotedIdentifier? := by
  cases kind
  case setOption options value =>
    have hon : foldSetting value = "ON" ↔ value = "ON" := foldSetting_eq_iff (Or.inl rfl)
    have hoff : foldSetting value = "OFF" ↔ value = "OFF" := foldSetting_eq_iff (Or.inr rfl)
    simp only [fold, quotedIdentifier?]
    split <;> grind
  all_goals rfl

theorem Site.isInRoutine_fold (s : Site) : s.fold.isInRoutine = s.isInRoutine :=
  s.isInside_fold fun k => by cases k <;> rfl

/-- The statements that carry the flag to later batches are the same. -/
theorem Declarations.quoted?_fold (site : Site) : quoted? site.fold = quoted? site := by
  simp [quoted?, Site.isInRoutine_fold, Kind.quotedIdentifier?_fold]

/-- The statement of the batch that a site stands in. -/
theorem Site.topStatement?_fold (s : Site) :
    s.fold.topStatement? = s.topStatement?.map Node.fold := by
  have hpath : (s.fold.node :: s.fold.ancestors).reverse =
      (s.node :: s.ancestors).reverse.map Node.fold := by simp
  simp only [topStatement?, hpath]
  rcases (s.node :: s.ancestors).reverse with _ | ⟨root, _ | ⟨statement, rest⟩⟩ <;> rfl

/-- Whether only settings follow is decided by the kinds of the later statements. -/
theorem Tree.endsWithOptions_fold (t : Tree) (s : Site) :
    t.fold.endsWithOptions s.fold = t.endsWithOptions s := by
  have hoption : ∀ k : Kind, k.fold.isSetOption = k.isSetOption := fun k => by cases k <;> rfl
  simp only [endsWithOptions, Site.topStatement?_fold]
  cases s.topStatement? with
  | none => rfl
  | some statement =>
    simp [fold, List.dropWhile_map, ← List.map_tail, Function.comp_def, hoption]

/-! ### Declared names -/

namespace Declarations

theorem declaredType?_fold (n : Node) : declaredType? n.fold = declaredType? n := by
  unfold declaredType?
  rw [n.child?_fold (fun k => by cases k <;> rfl)]
  cases n.child? _ with
  | none => rfl
  | some type =>
    simp only [Option.map_some, Node.kind_fold]
    cases type.kind <;> simp [Kind.fold]

/-- A node declares the same symbol, for a name that is the same up to case. -/
theorem symbol?_fold (schema : String) (n : Node) :
    (symbol? schema n.fold).map (Prod.map Text.upper id) =
      (symbol? schema n).map (Prod.map Text.upper id) := by
  unfold symbol?
  simp only [Node.kind_fold, declaredType?_fold]
  cases n.kind
  case createType raw base isTable => cases isTable <;> cases base <;> simp [Kind.fold]
  all_goals simp [Kind.fold, Text.upper_lower]

/-- A declaration is entered under a key without case, with the data that case does not touch. -/
theorem add_fold (schema : String) (d : Declarations) (site : Site) :
    add schema d site.fold = add schema d site := by
  have hsymbol := symbol?_fold schema site.node
  unfold add
  rw [quoted?_fold, Site.node_fold]
  cases h : symbol? schema site.node with
  | none =>
    rw [h, Option.map_none, Option.map_eq_none_iff] at hsymbol
    rw [hsymbol]
  | some p =>
    obtain ⟨name, symbol⟩ := p
    rw [h, Option.map_some, Option.map_eq_some_iff] at hsymbol
    obtain ⟨⟨name', symbol'⟩, hfold, heq⟩ := hsymbol
    obtain ⟨hname, rfl⟩ : Text.upper name' = Text.upper name ∧ symbol' = symbol := by
      simpa using heq
    rw [hfold]
    simp only [SymbolTable.declare, hname]

/-- Both trees of a batch declare the same symbols. -/
theorem addBatch_fold (schema : String) (d : Declarations) (index : Nat) (t : Tree) :
    addBatch schema d index t.fold = addBatch schema d index t := by
  have hsites : t.fold.sites = t.sites.map Site.fold := sitesFrom_fold t.root []
  simp only [addBatch, hsites, List.foldl_map, add_fold]

/-- Trees that are the same up to case declare the same. -/
theorem ofTrees_fold {trees trees' : List Tree} (h : trees.map Tree.fold = trees'.map Tree.fold)
    (schema : String) (quotedIdentifier : Bool) :
    ofTrees schema quotedIdentifier trees = ofTrees schema quotedIdentifier trees' := by
  have hfold : ∀ ts : List Tree, ofTrees schema quotedIdentifier (ts.map Tree.fold) =
      ofTrees schema quotedIdentifier ts := by
    intro ts
    simp [ofTrees, List.zipIdx_map, List.foldl_map, addBatch_fold]
  rw [← hfold, h, hfold]

end Declarations

namespace SymbolTable

variable (t : SymbolTable)

@[simp] theorem find?_lower (kind : SymbolKind) (name : String) :
    t.find? kind (Text.lower name) = t.find? kind name := by
  cases kind <;> simp [find?, Text.upper_lower]

@[simp] theorem variableType?_lower (name : String) :
    t.variableType? (Text.lower name) = t.variableType? name := by simp [variableType?]

end SymbolTable

/-! ### Categories -/

namespace Category

@[simp] theorem ofTypeName_lower (typeText : String) :
    ofTypeName (Text.lower typeText) = ofTypeName typeText := by simp [ofTypeName]

@[simp] theorem ofDeclared_lower (symbols : SymbolTable) (schema typeText : String) :
    ofDeclared symbols schema (Text.lower typeText) = ofDeclared symbols schema typeText := by
  simp [ofDeclared]

@[simp] theorem ofVariable_lower (symbols : SymbolTable) (schema name : String) :
    ofVariable symbols schema (Text.lower name) = ofVariable symbols schema name := by
  simp [ofVariable]

theorem ofCall_fold (s : Setting) (name : String) (args : List Category) :
    ofCall s (foldCall name) args = ofCall s name args := by
  unfold foldCall
  split
  · rfl
  · simp [ofCall, Text.upper_lower]

/-- The category of a node from those of its parts does not depend on case. -/
theorem ofKind_fold (s : Setting) (kind : Kind) (parts : List Category) :
    ofKind s kind.fold parts = ofKind s kind parts := by
  cases kind <;> simp [Kind.fold, ofKind, ofIdentifier, ofCall_fold]

theorem ofNodes_eq_map (s : Setting) (ns : List Node) : ofNodes s ns = ns.map (ofNode s) := by
  induction ns with
  | nil => rfl
  | cons n rest ih => simp [ofNodes, ih]

theorem ofNode_eq (s : Setting) (n : Node) :
    ofNode s n = ofKind s n.kind (n.children.map (ofNode s)) := by
  cases n
  rw [ofNode, ofNodes_eq_map]

/-- Every node has the same category in both trees, by structural induction. -/
theorem ofNode_fold (s : Setting) (n : Node) : ofNode s n.fold = ofNode s n := by
  induction n using Node.induct with
  | node n ih =>
    have hparts : n.fold.children.map (ofNode s) = n.children.map (ofNode s) := by
      simpa using ih
    rw [ofNode_eq, hparts, Node.kind_fold, ofKind_fold, ← ofNode_eq]

end Category

/-! ### Texts -/

namespace Text

theorem digitsValue?_toLower (cs : List Char) :
    digitsValue? (cs.map Char.toLower) = digitsValue? cs := by
  have hdigit : ∀ (n : Nat) (c : Char),
      (if c.toLower.isDigit then some (10 * n + (c.toLower.toNat - '0'.toNat)) else none) =
        if c.isDigit then some (10 * n + (c.toNat - '0'.toNat)) else none := by
    intro n c
    rcases capital_or_toLower c with ⟨k, hk, rfl⟩ | hc
    · have hno : ∀ k < 26, (capital k).isDigit = false ∧ (capital k).toLower.isDigit = false := by
        decide
      simp [hno k hk]
    · rw [hc]
  cases cs with
  | nil => rfl
  | cons c rest =>
    show List.foldl _ _ ((c :: rest).map Char.toLower) = List.foldl _ _ (c :: rest)
    simp only [List.foldl_map, hdigit]

/-- Digits and signs have no case. -/
theorem parseInt64?_lower (s : String) : parseInt64? (lower s) = parseInt64? s := by
  unfold parseInt64?
  rw [toList_lower]
  cases s.toList with
  | nil => rfl
  | cons c rest =>
    have hminus : c.toLower = '-' ↔ c = '-' := toLower_eq_iff (by decide)
    have hplus : c.toLower = '+' ↔ c = '+' := toLower_eq_iff (by decide)
    have hall := digitsValue?_toLower (c :: rest)
    by_cases hm : c = '-'
    · subst hm
      simp [digitsValue?_toLower, show Char.toLower '-' = '-' by decide]
    · by_cases hp : c = '+'
      · subst hp
        simp [digitsValue?_toLower, show Char.toLower '+' = '+' by decide]
      · simp_all

/-- A search without regard to case gives the same in lower case. -/
@[simp] theorem containsFolded_toLower (needle text : List Char) :
    containsFolded (needle.map Char.toLower) (text.map Char.toLower) =
      containsFolded needle text := by
  simp [containsFolded, Function.comp_def]

end Text

/-- The text under a node is the same up to case. -/
theorem Tree.lower_text_fold (t : Tree) (n : Node) :
    Text.lower (t.fold.text n.fold) = Text.lower (t.text n) := by
  rw [text, Node.start_fold, Node.stop_fold]
  exact t.source.lower_textBetween_fold n.start n.stop

/-- An integer operand has the same value. -/
theorem Tree.integer?_fold (t : Tree) (n : Node) : t.fold.integer? n.fold = t.integer? n := by
  have hnumber : ∀ start stop, Text.parseInt64? (Text.trim (t.fold.source.textBetween start stop)) =
      Text.parseInt64? (Text.trim (t.source.textBetween start stop)) := by
    intro start stop
    rw [← Text.parseInt64?_lower, ← Text.trim_lower]
    rw [show Text.lower (t.fold.source.textBetween start stop) = _ from
      t.source.lower_textBetween_fold start stop]
    rw [Text.trim_lower, Text.parseInt64?_lower]
  induction n using Node.induct with
  | node n ih =>
    obtain ⟨id, kind, line, start, stop, children⟩ := n
    cases kind
    case literal kind =>
      cases kind
      case number => exact hnumber start stop
      all_goals rfl
    case unaryOp op =>
      cases children with
      | nil => rfl
      | cons operand rest =>
        have hoperand := ih operand List.mem_cons_self
        simp [Node.fold, foldNodes, Kind.fold, integer?, hoperand]
    all_goals rfl

/-! ### Error codes -/

/-- `@@ERROR` and `ERROR_NUMBER()` are recognized in any case. -/
theorem Node.isErrorSource_fold (n : Node) : n.fold.isErrorSource = n.isErrorSource := by
  have hcall : ∀ name, Text.same (foldCall name) "ERROR_NUMBER" = Text.same name "ERROR_NUMBER" :=
    fun name => by rw [← Text.same_lower_left, lower_foldCall, Text.same_lower_left]
  unfold isErrorSource
  rw [kind_fold]
  cases n.kind <;> simp [Kind.fold, hcall]

/-- The check with its texts in lower case. -/
def CodeCheck.fold : CodeCheck → CodeCheck
  | .code number via => .code number (Text.lower via)
  | .indeterminate text via => .indeterminate (Text.lower text) (Text.lower via)

namespace ErrorTracker

variable (e : ErrorTracker)

@[simp] theorem isTracked_lower (name : String) :
    e.isTracked (Text.lower name) = e.isTracked name := by simp [isTracked, Text.upper_lower]

@[simp] theorem forget_lower (name : String) : e.forget (Text.lower name) = e.forget name := by
  simp [forget, Text.upper_lower]

/-- A value yields an error code in both sources or in neither. -/
theorem yieldsCode_fold (value : Node) : e.yieldsCode value.fold = e.yieldsCode value := by
  unfold yieldsCode
  rw [Node.isErrorSource_fold, Node.kind_fold]
  cases value.kind <;> simp [Kind.fold]

/-- An assignment makes the same variables tracked. -/
theorem note_fold (name : String) (value : Node) :
    e.note (Text.lower name) value.fold = e.note name value := by
  simp [note, yieldsCode_fold, Text.upper_lower]

/-- The operand that a check is about is the same up to case. -/
theorem subject?_fold (t : Tree) (n : Node) :
    (e.subject? t.fold n.fold).map Text.lower = (e.subject? t n).map Text.lower := by
  have htext : Text.lower (Text.collapse (t.fold.text n.fold)) =
      Text.lower (Text.collapse (t.text n)) := by
    rw [Text.lower_collapse, t.lower_text_fold, ← Text.lower_collapse]
  unfold subject?
  rw [Node.isErrorSource_fold, Node.kind_fold]
  cases n.kind
  case localVariable name =>
    simp only [Kind.fold, isTracked_lower]
    split <;> simp
  all_goals
    simp only [Kind.fold]
    split <;> simp [htext]

/-- One operand gives a check in both sources or in neither, with the same code. -/
theorem check?_fold (t : Tree) {via via' : String} (h : Text.lower via' = Text.lower via)
    (operand : Node) :
    (check? t.fold via' operand.fold).map CodeCheck.fold =
      (check? t via operand).map CodeCheck.fold := by
  unfold check?
  rw [t.integer?_fold]
  split <;> simp [CodeCheck.fold, h, t.lower_text_fold]

theorem filterMap_check?_fold (t : Tree) {via via' : String} (h : Text.lower via' = Text.lower via)
    (operands : List Node) :
    ((operands.map Node.fold).filterMap (check? t.fold via')).map CodeCheck.fold =
      (operands.filterMap (check? t via)).map CodeCheck.fold := by
  simp only [List.map_filterMap, List.filterMap_map, Function.comp_def, check?_fold t h]

/-- A predicate tests for the same codes, of error values that are spelled the same up to case. -/
theorem examine_fold (t : Tree) (n : Node) :
    (e.examine t.fold n.fold).map CodeCheck.fold = (e.examine t n).map CodeCheck.fold := by
  unfold examine
  rw [Node.kind_fold, Node.children_fold]
  cases n.kind
  case comparison op =>
    rcases n.children with _ | ⟨left, _ | ⟨right, rest⟩⟩
    · rfl
    · rfl
    · simp only [Kind.fold, List.map_cons]
      split
      · obtain ⟨hleft', hleft⟩ | ⟨_, _, hleft', hleft, hvia⟩ :=
          eq_none_or_of_map_eq (e.subject?_fold t left)
        · obtain ⟨hright', hright⟩ | ⟨_, _, hright', hright, hvia⟩ :=
            eq_none_or_of_map_eq (e.subject?_fold t right)
          · simp only [hleft', hleft, hright', hright, List.map_nil]
          · simp only [hleft', hleft, hright', hright]
            exact filterMap_check?_fold t hvia [left]
        · simp only [hleft', hleft]
          exact filterMap_check?_fold t hvia [right]
      · rfl
  case inList | between =>
    rcases n.children with _ | ⟨subject, operands⟩
    · rfl
    · simp only [Kind.fold, List.map_cons]
      obtain ⟨hfolded, hplain⟩ | ⟨_, _, hfolded, hplain, hvia⟩ :=
        eq_none_or_of_map_eq (e.subject?_fold t subject)
      · simp only [hfolded, hplain, List.map_nil]
      · simp only [hfolded, hplain]
        exact filterMap_check?_fold t hvia operands
  all_goals rfl

end ErrorTracker

end Portability
