import Portability.Proofs.Casing.Text
import Portability.Tree

/-! Sources and trees with the words of the script in lower case. Two scripts that differ in nothing
but the case of bare words have the same folded source, and what a parser looks at is the same in a
source and in its folded form. -/
namespace Portability

/-- The token with the letters of a bare word, or of a hexadecimal literal, in lower case. -/
def Token.fold : Token → Token
  | .word value none => .word (Text.lower value) none
  | .hex digits => .hex (Text.lower digits)
  | token => token

/-- The lexeme with its token folded. -/
def Lexeme.fold (x : Lexeme) : Lexeme := { x with token := x.token.fold }

/-- The source with every token folded. -/
def Source.fold (s : Source) : Source := { s with lexemes := s.lexemes.map Lexeme.fold }

/-- The view of the folded source. -/
def View.fold (v : View) : View := { v with source := v.source.fold }

/-! ### Tokens -/

namespace Token

/-- Only bare words and hexadecimal literals change. -/
theorem eq_or_fold (t : Token) :
    (∃ value, t = .word value none) ∨ (∃ digits, t = .hex digits) ∨ t.fold = t := by
  unfold fold
  split <;> simp

theorem isSignificant_fold (t : Token) : t.fold.isSignificant = t.isSignificant := by
  unfold fold
  split <;> rfl

/-- The text of a token is the same up to case. -/
theorem lower_sourceText_fold (t : Token) :
    Text.lower t.fold.sourceText = Text.lower t.sourceText := by
  unfold fold
  split <;> simp [sourceText, wordText]

/-- In capitals both tokens look alike. -/
theorem upper_display_fold (t : Token) : Text.upper t.fold.display = Text.upper t.display := by
  apply Text.upper_eq_of_lower
  unfold fold
  split <;> simp [display]

end Token

/-! ### Sources -/

namespace Source

variable (s : Source)

@[simp] theorem size_fold : s.fold.size = s.size := rfl

theorem lexemeAt?_fold (pos : Nat) : s.fold.lexemeAt? pos = (s.lexemeAt? pos).map Lexeme.fold := by
  simp only [lexemeAt?, fold, Array.getElem?_map]
  cases s.significant[pos]? <;> rfl

theorem tokenAt?_fold (pos : Nat) : s.fold.tokenAt? pos = (s.tokenAt? pos).map Token.fold := by
  simp only [tokenAt?, lexemeAt?_fold]
  cases s.lexemeAt? pos <;> rfl

@[simp] theorem lineAt_fold (pos : Nat) : s.fold.lineAt pos = s.lineAt pos := by
  simp only [lineAt, lexemeAt?_fold, size_fold]
  cases s.lexemeAt? (min pos (s.size - 1)) <;> rfl

@[simp] theorem adjacentAt_fold (pos : Nat) : s.fold.adjacentAt pos = s.adjacentAt pos := rfl

/-- The text between two tokens is the same up to case: the blanks between them stay. -/
theorem lower_textBetween_fold (start stop : Nat) :
    Text.lower (s.fold.textBetween start stop) = Text.lower (s.textBetween start stop) := by
  unfold textBetween
  split
  · rfl
  · simp only [fold, size]
    split
    · rw [Text.lower_join, Text.lower_join, ← Array.map_extract, Array.toList_map]
      simp only [List.map_map, Function.comp_def, Lexeme.fold, Token.lower_sourceText_fold]
    · rfl

/-- The text of one token. -/
theorem textBetween_succ (pos : Nat) :
    s.textBetween pos (pos + 1) = ((s.tokenAt? pos).map Token.sourceText).getD "" := by
  rw [textBetween, if_neg (by omega), tokenAt?, lexemeAt?]
  cases hi : s.significant[pos]? with
  | none => rfl
  | some i =>
    have hlast : min (pos + 1 - 1) (s.size - 1) = pos := by
      have hpos : pos < s.size := (Array.getElem?_eq_some_iff.mp hi).1
      omega
    rw [hlast, hi]
    have hone : (s.lexemes.extract i (i + 1)).toList = s.lexemes[i]?.toList := by
      rw [Array.toList_extract, List.extract_eq_take_drop, Nat.add_sub_cancel_left,
        List.take_one, List.head?_drop, Array.getElem?_toList]
    show String.join ((s.lexemes.extract i (i + 1)).toList.map (·.token.sourceText)) = _
    rw [hone, Option.bind_some]
    cases s.lexemes[i]? <;> simp

end Source

/-! ### Views -/

namespace View

variable (v : View) (offset : Nat)

@[simp] theorem pos_fold : v.fold.pos = v.pos := rfl

@[simp] theorem source_fold : v.fold.source = v.source.fold := rfl

theorem token?_fold : v.fold.token? offset = (v.token? offset).map Token.fold :=
  v.source.tokenAt?_fold _

@[simp] theorem atEnd_fold : v.fold.atEnd = v.atEnd := rfl

theorem word?_fold : v.fold.word? offset = (v.word? offset).map Text.lower := by
  simp only [word?, token?_fold]
  rcases v.token? offset with _ | t
  · rfl
  · cases t with
    | word value quote => cases quote <;> rfl
    | _ => rfl

/-- A keyword is read in capitals. -/
@[simp] theorem keyword?_fold : v.fold.keyword? = v.keyword? := by
  rw [keyword?, word?_fold, Option.map_map, keyword?]
  simp [Function.comp_def, Text.upper_lower]

@[simp] theorem isWordAt_fold (word : String) :
    v.fold.isWordAt offset word = v.isWordAt offset word := by
  simp only [isWordAt, word?_fold]
  cases v.word? offset <;> simp

@[simp] theorem isOneOfAt_fold (words : List String) :
    v.fold.isOneOfAt offset words = v.isOneOfAt offset words := by
  simp only [isOneOfAt, word?_fold]
  cases v.word? offset <;> simp

/-- Marks have no case. -/
@[simp] theorem isMarkAt_fold (mark : Mark) :
    v.fold.isMarkAt offset mark = v.isMarkAt offset mark := by
  simp only [isMarkAt, token?_fold]
  rcases v.token? offset with _ | t
  · rfl
  · cases t with
    | word value quote => cases quote <;> rfl
    | _ => rfl

@[simp] theorem isAnyWordAt_fold : v.fold.isAnyWordAt offset = v.isAnyWordAt offset := by
  simp only [isAnyWordAt, token?_fold]
  rcases v.token? offset with _ | t
  · rfl
  · cases t with
    | word value quote => cases quote <;> rfl
    | _ => rfl

@[simp] theorem isWord_fold (word : String) : v.fold.isWord word = v.isWord word :=
  v.isWordAt_fold 0 word

@[simp] theorem isOneOf_fold (words : List String) : v.fold.isOneOf words = v.isOneOf words :=
  v.isOneOfAt_fold 0 words

@[simp] theorem isMark_fold (mark : Mark) : v.fold.isMark mark = v.isMark mark :=
  v.isMarkAt_fold 0 mark

@[simp] theorem isWords_fold (words : List String) : v.fold.isWords words = v.isWords words := by
  induction words generalizing v with
  | nil => rfl
  | cons word rest ih =>
    have hrest := ih ⟨v.source, v.pos + 1⟩
    simp only [isWords, isWord_fold]
    exact congrArg _ hrest

@[simp] theorem atStatementWord_fold : v.fold.atStatementWord = v.atStatementWord :=
  v.isOneOf_fold _

@[simp] theorem atStatementEnd_fold : v.fold.atStatementEnd = v.atStatementEnd := by
  simp [atStatementEnd]

@[simp] theorem atBlockEnd_fold : v.fold.atBlockEnd = v.atBlockEnd := by simp [atBlockEnd]

@[simp] theorem isCall_fold (word : String) : v.fold.isCall word = v.isCall word := by
  simp [isCall]

/-- A query begins at the same places. -/
@[simp] theorem startsQueryAt_fold : v.fold.startsQueryAt offset = v.startsQueryAt offset := by
  simp [startsQueryAt]

/-- Parentheses are skipped alike. -/
theorem afterOpenings_fold (s : Source) (n pos : Nat) :
    afterOpenings s.fold n pos = afterOpenings s n pos := by
  induction n generalizing pos with
  | zero => rfl
  | succ n ih =>
    have hmark := (View.mk s pos).isMark_fold .lparen
    simp only [afterOpenings, ih]
    exact congrArg (fun b : Bool => if b then _ else _) hmark

@[simp] theorem parensStartQuery_fold : v.fold.parensStartQuery = v.parensStartQuery := by
  have hstarts := fun stop => (View.mk v.source stop).startsQueryAt_fold 0
  simp only [parensStartQuery, pos_fold, source_fold, Source.size_fold, afterOpenings_fold]
  exact congrArg _ (hstarts _)

theorem upper_display_fold : Text.upper v.fold.display = Text.upper v.display := by
  simp only [display, token?_fold]
  cases v.token? 0 <;> simp [Token.upper_display_fold]

@[simp] theorem leadingWords_fold : v.fold.leadingWords = v.leadingWords := by
  simp only [leadingWords, keyword?_fold, word?_fold, upper_display_fold]
  cases v.keyword? with
  | none => rfl
  | some first => cases v.word? 1 <;> simp [Text.upper_lower]

@[simp] theorem isPlainName_fold : v.fold.isPlainName = v.isPlainName := by
  simp only [isPlainName, token?_fold]
  rcases v.token? 0 with _ | t
  · rfl
  · cases t with
    | word value quote =>
      have hhead := Text.beq_head?_lower (s := value) (show Text.IsCaseless '@' by decide)
      cases quote <;> simp [Token.fold, bne, hhead]
    | _ => rfl

/-- A variable is told by its sigil, and its name is the same up to case. -/
theorem variableName?_fold : v.fold.variableName? = v.variableName?.map Text.lower := by
  simp only [variableName?, word?_fold]
  cases v.word? 0 with
  | none => rfl
  | some w =>
    have hat : ∀ c : Char, c.toLower = '@' ↔ c = '@' := fun c => Text.toLower_eq_iff (by decide)
    simp only [Option.map_some, Text.toList_lower]
    rcases w.toList with _ | ⟨c, _ | ⟨d, rest⟩⟩
    · rfl
    · by_cases hc : c = '@'
      · subst hc; rfl
      · simp [hc, hat]
    · by_cases hc : c = '@'
      · subst hc
        by_cases hd : d = '@'
        · subst hd; rfl
        · simp [hd, hat]
      · simp [hc, hat]

end View

/-! ### Trees -/

/-- The value of a session option: `ON` and `OFF` are told from other values. -/
def foldSetting (value : String) : String :=
  if value = "ON" ∨ value = "OFF" then value else Text.lower value

/-- The name of a call: the braces of an escape are told from names. -/
def foldCall (name : String) : String :=
  if name = Parser.escapeCallName then name else Text.lower name

/-- The kind with the texts that the script spells in lower case. What the parser itself spells, in
capitals, is kept. -/
def Kind.fold : Kind → Kind
  | .cte name => .cte (Text.lower name)
  | .selectItem knownAs => .selectItem (knownAs.map Text.lower)
  | .into target => .into (Text.lower target)
  | .tableRef name knownAs => .tableRef (Text.lower name) (knownAs.map Text.lower)
  | .derivedTable knownAs => .derivedTable (knownAs.map Text.lower)
  | .tableFunction name knownAs => .tableFunction (Text.lower name) (knownAs.map Text.lower)
  | .insert target => .insert (Text.lower target)
  | .update target => .update (Text.lower target)
  | .delete target => .delete (Text.lower target)
  | .merge target => .merge (Text.lower target)
  | .output target => .output (target.map Text.lower)
  | .truncate table => .truncate (Text.lower table)
  | .columnAssignment column operator => .columnAssignment (Text.lower column) operator
  | .variableAssignment name operator => .variableAssignment (Text.lower name) operator
  | .createTable name => .createTable (Text.lower name)
  | .alterTable table => .alterTable (Text.lower table)
  | .columnDef name => .columnDef (Text.lower name)
  | .dataType name args => .dataType (Text.lower name) args
  | .constraint name kind clustered options =>
    .constraint (name.map Text.lower) kind clustered options
  | .createView name verb options checkOption =>
    .createView (Text.lower name) verb options checkOption
  | .createProcedure name verb options number =>
    .createProcedure (Text.lower name) verb options number
  | .parameter name isOutput readonly hasDefault =>
    .parameter (Text.lower name) isOutput readonly hasDefault
  | .createFunction name verb kind options => .createFunction (Text.lower name) verb kind options
  | .returnTable name => .returnTable (Text.lower name)
  | .createTrigger name verb target scope timing events options =>
    .createTrigger (Text.lower name) verb (Text.lower target) scope timing events options
  | .createIndex name table unique clustered kind included filtered options =>
    .createIndex (Text.lower name) (Text.lower table) unique clustered kind included filtered
      options
  | .createType name base table => .createType (Text.lower name) (base.map Text.lower) table
  | .createOther objectKind name => .createOther objectKind (Text.lower name)
  | .drop objectKind names ifExists => .drop objectKind (names.map Text.lower) ifExists
  | .variableDecl name => .variableDecl (Text.lower name)
  | .tableVariableDecl name => .tableVariableDecl (Text.lower name)
  | .cursorDecl name options => .cursorDecl (Text.lower name) options
  | .setOption options value => .setOption options (foldSetting value)
  | .goto target => .goto (Text.lower target)
  | .label name => .label (Text.lower name)
  | .transaction action name => .transaction action (name.map Text.lower)
  | .execute procedure options => .execute (procedure.map Text.lower) options
  | .execArg name isOutput => .execArg (name.map Text.lower) isOutput
  | .cursorOp op cursor orientation => .cursorOp op (Text.lower cursor) orientation
  | .use database => .use (Text.lower database)
  | .identifier name quote => .identifier (Text.lower name) quote
  | .localVariable name => .localVariable (Text.lower name)
  | .functionCall name => .functionCall (foldCall name)
  | .collate collation => .collate (Text.lower collation)
  | .nextValueFor sequence => .nextValueFor (Text.lower sequence)
  | kind => kind

mutual

/-- The node with its kind and everything below it folded. -/
def Node.fold : Node → Node
  | ⟨id, kind, line, start, stop, children⟩ =>
    ⟨id, kind.fold, line, start, stop, foldNodes children⟩

/-- Neighbours folded. -/
def foldNodes : List Node → List Node
  | [] => []
  | n :: rest => n.fold :: foldNodes rest

end

theorem foldNodes_eq_map (ns : List Node) : foldNodes ns = ns.map Node.fold := by
  induction ns with
  | nil => rfl
  | cons n rest ih => simp [foldNodes, ih]

namespace Node

variable (n : Node)

/-- The kind and the parts are folded, and nothing else of a node changes. -/
theorem fold_eq : n.fold = { n with kind := n.kind.fold, children := n.children.map fold } := by
  cases n
  simp [fold, foldNodes_eq_map]

@[simp] theorem id_fold : n.fold.id = n.id := by rw [fold_eq]

@[simp] theorem kind_fold : n.fold.kind = n.kind.fold := by rw [fold_eq]

@[simp] theorem line_fold : n.fold.line = n.line := by rw [fold_eq]

@[simp] theorem start_fold : n.fold.start = n.start := by rw [fold_eq]

@[simp] theorem stop_fold : n.fold.stop = n.stop := by rw [fold_eq]

@[simp] theorem children_fold : n.fold.children = n.children.map fold := by rw [fold_eq]

end Node

end Portability
