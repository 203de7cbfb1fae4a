import Portability.Name
import Portability.Symbol

/-! Coarse categories of data, by type names and by the look of texts. -/
namespace Portability

/-- What sort of values a type or an expression has. -/
inductive Category where
  | numeric
  | string
  | dateTime
  | binary
  | null
  | unknown
  deriving DecidableEq, Repr

namespace Category

def numericTypes : List String :=
  ["BIT", "TINYINT", "SMALLINT", "INT", "INTEGER", "BIGINT", "DECIMAL", "DEC", "NUMERIC", "MONEY",
   "SMALLMONEY", "FLOAT", "REAL", "DOUBLE PRECISION"]

def stringTypes : List String :=
  ["CHAR", "CHARACTER", "VARCHAR", "CHAR VARYING", "CHARACTER VARYING", "NCHAR", "NVARCHAR",
   "NATIONAL CHAR", "NATIONAL CHARACTER", "NATIONAL CHARACTER VARYING", "TEXT", "NTEXT", "SYSNAME",
   "XML"]

def dateTimeTypes : List String :=
  ["DATE", "TIME", "DATETIME", "DATETIME2", "SMALLDATETIME", "DATETIMEOFFSET"]

def binaryTypes : List String :=
  ["BINARY", "VARBINARY", "BINARY VARYING", "IMAGE", "TIMESTAMP", "ROWVERSION", "UNIQUEIDENTIFIER"]

/-- System variables that hold texts; all others hold numbers. -/
def stringSystemVariables : List String :=
  ["@@SERVERNAME", "@@SERVICENAME", "@@VERSION", "@@LANGUAGE"]

/-- A type name in upper case, without arguments, quoting and the schema `sys`. -/
def baseTypeName (typeText : String) : String :=
  let bare := (typeText.toList.takeWhile (· ≠ '(')).filter fun c =>
    c ≠ '[' && c ≠ ']' && c ≠ '"'
  let name := Text.upper (Text.collapse (String.ofList bare))
  if "SYS.".toList.isPrefixOf name.toList then String.ofList (name.toList.drop 4) else name

def ofTypeName (typeText : String) : Category :=
  let base := baseTypeName typeText
  if numericTypes.contains base then .numeric
  else if stringTypes.contains base then .string
  else if dateTimeTypes.contains base then .dateTime
  else if binaryTypes.contains base then .binary
  else .unknown

/-- The characters without the signs before them. -/
def unsigned (cs : List Char) : List Char := cs.dropWhile fun c => c == '-' || c == '+'

/-- The category of a constant, by its look. -/
def ofLiteralText? (text : String) : Option Category :=
  match Text.trimChars text.toList with
  | [] => none
  | first :: rest =>
    if first = '\x27' then some .string
    else if (first = 'N' || first = 'n') && rest.head? == some '\x27' then some .string
    else if first = '0' && (rest.head? == some 'x' || rest.head? == some 'X') then some .binary
    else
      match unsigned (first :: rest) with
      | c :: more =>
        if c.isDigit || (c == '.' && !more.isEmpty) then some .numeric
        else if Text.same (String.ofList (first :: rest)) "NULL" then some .null
        else none
      | [] => none

def ofDeclared (symbols : SymbolTable) (schema typeText : String) : Category :=
  match ofTypeName typeText with
  | .unknown =>
    match symbols.typeBase? ((Name.resolve typeText).key schema) with
    | some base => ofTypeName base
    | none => .unknown
  | known => known

/-- The category of a variable; one that is not declared counts as a number. -/
def ofVariable (symbols : SymbolTable) (schema name : String) : Category :=
  match symbols.variableType? name with
  | some base => ofDeclared symbols schema base
  | none => .numeric

def ofSystemVariable (name : String) : Category :=
  if Text.oneOf name stringSystemVariables then .string else .numeric

/-- The category of a text: a constant, a variable or the name of a type. -/
def ofText (symbols : SymbolTable) (schema text : String) : Category :=
  match ofLiteralText? text with
  | some category => category
  | none =>
    let trimmed := Text.trim text
    match trimmed.toList with
    | '@' :: '@' :: _ => ofSystemVariable trimmed
    | '@' :: _ => ofVariable symbols schema trimmed
    | _ => ofDeclared symbols schema trimmed

/-- The category of a sum, difference or other combination of two values. -/
def combine (op : String) (left right : Category) : Category :=
  match op with
  | "+" =>
    if left = .string ∨ right = .string then .string
    else if left = .dateTime ∨ right = .dateTime then .dateTime
    else if left = .numeric ∧ right = .numeric then .numeric
    else if left = .binary ∧ right = .binary then .binary
    else if left = .null ∨ right = .null then .null
    else .unknown
  | "-" =>
    if left = .dateTime ∨ right = .dateTime then .dateTime
    else if left = .numeric ∧ right = .numeric then .numeric
    else .unknown
  | _ => if left = .numeric ∧ right = .numeric then .numeric else .unknown

end Category

end Portability
