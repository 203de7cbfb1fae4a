import Portability.Parser

/-! Words that divide statements from each other. -/
namespace Portability

def statementWords : List String :=
  ["SELECT", "INSERT", "UPDATE", "DELETE", "MERGE", "TRUNCATE", "CREATE", "ALTER", "DROP",
   "DECLARE", "SET", "IF", "ELSE", "WHILE", "BEGIN", "END", "BREAK", "CONTINUE", "GOTO",
   "RETURN", "WAITFOR", "COMMIT", "ROLLBACK", "SAVE", "EXEC", "EXECUTE", "PRINT", "RAISERROR",
   "THROW", "OPEN", "FETCH", "CLOSE", "DEALLOCATE", "USE", "GRANT", "REVOKE", "DENY", "WITH",
   "DBCC", "BACKUP", "RESTORE", "CHECKPOINT", "KILL", "RECONFIGURE", "SHUTDOWN", "BULK",
   "ENABLE", "DISABLE", "READTEXT", "WRITETEXT", "UPDATETEXT", "SETUSER", "REVERT", "SEND",
   "RECEIVE", "GET", "MOVE"]

/-- Words that end a statement of no known shape. `SET` and `WITH` are not among them: they often
stand inside such statements. -/
def closingWords : List String :=
  ["SELECT", "INSERT", "UPDATE", "DELETE", "MERGE", "TRUNCATE", "CREATE", "ALTER", "DROP",
   "DECLARE", "IF", "ELSE", "WHILE", "BEGIN", "END", "RETURN", "EXEC", "EXECUTE", "PRINT",
   "RAISERROR", "THROW", "USE", "GRANT", "REVOKE", "DENY", "COMMIT", "ROLLBACK", "GOTO"]

/-- Words that are never an alias without `AS`. -/
def aliasStopWords : List String :=
  ["FROM", "WHERE", "GROUP", "HAVING", "ORDER", "UNION", "EXCEPT", "INTERSECT", "INTO",
   "OPTION", "FOR", "ON", "JOIN", "INNER", "LEFT", "RIGHT", "FULL", "CROSS", "OUTER", "APPLY",
   "PIVOT", "UNPIVOT", "WITH", "AS", "USING", "WHEN", "THEN", "OUTPUT", "VALUES", "TABLESAMPLE",
   "COLLATE", "OFFSET", "FETCH", "LOOP", "HASH", "REMOTE", "DEFAULT", "AND", "OR", "NOT", "IS",
   "IN", "LIKE", "BETWEEN", "ASC", "DESC", "CASE", "NULL"]

/-- Words that lead a statement of no known shape together with the word after them. -/
def pairedWords : List String :=
  ["ALTER", "CREATE", "DROP", "BEGIN", "END", "ENABLE", "DISABLE", "BULK", "DBCC", "BACKUP",
   "RESTORE", "EXECUTE", "EXEC", "GET", "MOVE", "SEND"]

namespace View

def atStatementWord (v : View) : Bool := v.isOneOf statementWords

/-- A statement ends here: nothing is left, or a semicolon or the next statement follows. -/
def atStatementEnd (v : View) : Bool := v.atEnd || v.isMark .semicolon || v.atStatementWord

def atBlockEnd (v : View) : Bool := v.isWord "END" && !v.isWordAt 1 "CONVERSATION"

/-- A query begins that many places ahead. -/
def startsQueryAt (v : View) (offset : Nat) : Bool :=
  v.isWordAt offset "SELECT" || v.isWordAt offset "WITH"

/-- The position after the opening parentheses from `pos` on, of at most `n`. -/
def afterOpenings (source : Source) : Nat → Nat → Nat
  | 0, pos => pos
  | n + 1, pos =>
    if (View.mk source pos).isMark .lparen then afterOpenings source n (pos + 1) else pos

/-- The parenthesis here opens a query, perhaps behind further parentheses. -/
def parensStartQuery (v : View) : Bool :=
  let stop := afterOpenings v.source (v.source.size - v.pos) v.pos
  v.pos < stop && (View.mk v.source stop).startsQueryAt 0

/-- The words that lead a statement of no known shape, and how many tokens they take. -/
def leadingWords (v : View) : String × Nat :=
  match v.keyword? with
  | none => (Text.upper v.display, 0)
  | some first =>
    match v.word? 1 with
    | some second =>
      if pairedWords.contains first && (first == "BULK" || !Text.oneOf second statementWords) then
        (first ++ " " ++ Text.upper second, 2)
      else (first, 1)
    | none => (first, 1)

/-- A word, delimited or not, that does not begin with `@`. -/
def isPlainName (v : View) : Bool :=
  match v.token? 0 with
  | some (.word value _) => value.toList.head? != some '@'
  | _ => false

end View

namespace Parser

/-- How deep a scan is in parentheses and in `CASE … END`. -/
structure Depth where
  parens : Nat
  cases : Nat

/-- The depth after a word that is part of the statement. -/
def Depth.word (d : Depth) (v : View) : Depth :=
  if v.isWord "CASE" then { d with cases := d.cases + 1 }
  else if v.isWord "END" && 0 < d.cases then { d with cases := d.cases - 1 }
  else d

/-- One token read if none was since a position. -/
def stepPast (before : Nat) : Scan Unit := do
  if (← position) == before then advance

/-- A comma read, or another token if none was read since a position. -/
def separate (before : Nat) : Scan Unit := do
  if !(← eatMark .comma) then stepPast before

/-- The rest of a statement of no known shape read: up to a semicolon, an unopened parenthesis or
a word that ends it outside parentheses. The statement begins at `start` and has one token at
least. -/
def skipStatement (start : Nat) : Scan Unit := do
  loop (Depth.mk 0 0) fun d => do
    let v ← look
    let outside := d.parens == 0
    let closes := v.isOneOf closingWords && !(v.isWord "END" && 0 < d.cases)
    if v.atEnd then return .done ()
    else if v.isMark .lparen then
      advance
      return .again { d with parens := d.parens + 1 }
    else if v.isMark .rparen then
      if outside then return .done ()
      else
        advance
        return .again { d with parens := d.parens - 1 }
    else if outside && (v.isMark .semicolon || start < v.pos && closes) then return .done ()
    else
      advance
      return .again (d.word v)
  stepPast start

/-- A statement of no known shape. -/
def otherStatement : Parser Node := do
  let start ← position
  let (words, count) := (← look).leadingWords
  advanceBy count
  skipStatement start
  leaf (.otherStatement words) start

/-- The options after `WITH` in the head of a view, routine or trigger, in upper case. -/
def routineOptions : Scan (List String) := do
  if ← eatWord "WITH" then
    loop [] fun options => do
      let v ← look
      if v.isOneOf ["EXECUTE", "EXEC"] && v.isWordAt 1 "AS" then
        advanceBy 3
        if ← eatMark .comma then return .again ("EXECUTE AS" :: options)
        else return .done ("EXECUTE AS" :: options).reverse
      else
        let start ← position
        skipUntil fun v =>
          v.isMark .comma || v.isOneOf ["AS", "FOR", "AFTER", "INSTEAD", "BEGIN", "RETURN"]
        let option := Text.upper (Text.collapse (← textFrom start))
        if option.isEmpty then return .done options.reverse
        else if ← eatMark .comma then return .again (option :: options)
        else return .done (option :: options).reverse
  else return []

/-- An assignment operator that many places ahead, `=` or a compound one, and the number of its
tokens. -/
def assignment? (v : View) (offset : Nat) : Option (String × Nat) :=
  match v.token? offset with
  | some (.mark .eq) => some ("=", 1)
  | some (.mark m) =>
    if [Mark.plus, .minus, .star, .slash, .percent, .amp, .pipe, .caret].contains m
        && v.isMarkAt (offset + 1) .eq then
      some (m.text ++ "=", 2)
    else none
  | _ => none

def skipWithParens : Scan Unit := do
  let v ← look
  if v.isCall "WITH" then
    advance
    skipParens

end Parser

end Portability
