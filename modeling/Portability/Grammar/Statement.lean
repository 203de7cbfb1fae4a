import Portability.Grammar.Definition

/-! Whole statements, and the knot that ties all phrases together. -/
namespace Portability.Parser

section

variable (parse : Descent)

def afterWith : Parser Node := do
  match (← look).keyword? with
  | some "INSERT" => insertStatement parse
  | some "UPDATE" => updateStatement parse
  | some "DELETE" => deleteStatement parse
  | some "MERGE" => mergeStatement parse
  | _ =>
    let start ← position
    let body ← queryExpression parse
    let tail ← queryTail parse
    node .query start (body :: tail)

/-- A part put in front of the others; the node then begins where the part does. -/
def withFirst (n first : Node) : Node :=
  if first.start < n.start then
    { n with children := first :: n.children, start := first.start, line := first.line }
  else { n with children := first :: n.children }

def withStatement : Parser Node := do
  let start ← position
  match ← withClause? parse with
  | some ctes => amend (withFirst (← afterWith parse) ctes)
  | none =>
    rewind start
    otherStatement

def wordStatement (kind : Kind) : Parser Node := do
  let start ← position
  advance
  leaf kind start

def namedStatement (make : String → Kind) : Parser Node := do
  let start ← position
  advance
  let name ← identifier
  leaf (make name) start

def labelStatement : Parser Node := do
  let start ← position
  let name ← identifier
  advance
  leaf (.label name) start

def keywordStatement (word : String) : Parser Node := do
  match word with
  | "SELECT" => queryStatement parse
  | "WITH" => withStatement parse
  | "INSERT" => insertStatement parse
  | "UPDATE" => updateStatement parse
  | "DELETE" => deleteStatement parse
  | "MERGE" => mergeStatement parse
  | "TRUNCATE" => if (← look).isWordAt 1 "TABLE" then truncateStatement else otherStatement
  | "CREATE" | "ALTER" => definitionStatement parse
  | "DROP" => dropStatement
  | "DECLARE" => declareStatement parse (tableElements parse)
  | "SET" => setStatement parse
  | "IF" => ifStatement parse
  | "WHILE" => whileStatement parse
  | "BEGIN" => beginStatement parse
  | "BREAK" => wordStatement .breakLoop
  | "CONTINUE" => wordStatement .continueLoop
  | "GOTO" => namedStatement .goto
  | "RETURN" => returnStatement parse
  | "WAITFOR" => waitForStatement parse
  | "COMMIT" | "ROLLBACK" | "SAVE" => transactionEnd
  | "EXEC" | "EXECUTE" => executeStatement parse
  | "PRINT" => printStatement parse
  | "RAISERROR" => raiserrorStatement parse
  | "THROW" => throwStatement parse
  | "OPEN" | "CLOSE" | "DEALLOCATE" | "FETCH" => cursorStatement parse word
  | "USE" => namedStatement .use
  | "GRANT" | "REVOKE" | "DENY" => permissionStatement
  | _ => otherStatement

def statementShape : Parser Node := do
  let v ← look
  if v.isPlainName && v.isMarkAt 1 .colon && !v.atStatementWord then labelStatement
  else if v.isMark .lparen then queryStatement parse
  else
    match v.keyword? with
    | some word => keywordStatement parse word
    | none => otherStatement

def statementBody : Parser Node := do
  let start ← position
  let found ← statementShape parse
  if (← position) == start then
    advance
    let text ← textFrom start
    leaf (.otherStatement (Text.upper text)) start
  else return found

end

/-- The body of each phrase, given parsers for the phrases in it. -/
def phraseBody (parse : Descent) : Phrase → Parser Node
  | .expression => expressionBody parse
  | .negation => negationBody parse
  | .signed => signedBody parse
  | .query => queryBody parse
  | .tableSource => tableSourceBody parse
  | .statement => statementBody parse

/-- The parsers of the phrases inside a phrase that begins with `left` tokens to read. Each of them
has fewer tokens left, or a lower rank at the same token: any other would contain itself without
end. -/
def inside (outer : Phrase) (left : Nat) (parse : Descent) : Descent := fun p => do
  let here ← remaining
  if here < left || here == left && p.rank < outer.rank then parse p else endless

/-- The parser of each phrase, nested at most that deep. -/
def phrase : Nat → Descent
  | 0, _ => endless
  | depth + 1, p => do
    let left ← remaining
    phraseBody (inside p left (phrase depth)) p

/-- The statements of a batch; semicolons between them are dropped. -/
def statements (depth : Nat) : Parser (List Node) :=
  loop [] fun found => do
    let v ← look
    if v.atEnd then return .done found.reverse
    else if v.isMark .semicolon then
      advance
      return .again found
    else return .again ((← phrase depth .statement) :: found)

/-- Phrases nest without reading a token between them at most this many times. -/
def phrasesPerToken : Nat := 8

/-- The root of the tree of a batch: it spans all tokens. -/
def batch : Parser Node := do
  let source := (← look).source
  let found ← statements (phrasesPerToken * (source.size + 1))
  let root ← node .batch 0 found
  amend { root with stop := source.size }

end Portability.Parser
