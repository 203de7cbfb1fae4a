import Portability.Category
import Portability.Tree.Node

/-! Categories of expressions. -/
namespace Portability.Category

def dateTimeFunctions : List String :=
  ["GETDATE", "GETUTCDATE", "SYSDATETIME", "SYSUTCDATETIME", "SYSDATETIMEOFFSET", "DATEADD",
   "EOMONTH", "DATEFROMPARTS", "DATETIMEFROMPARTS", "DATETIME2FROMPARTS", "SMALLDATETIMEFROMPARTS",
   "TIMEFROMPARTS", "SWITCHOFFSET", "TODATETIMEOFFSET", "DATETRUNC"]

def stringFunctions : List String :=
  ["SUBSTRING", "LEFT", "RIGHT", "UPPER", "LOWER", "LTRIM", "RTRIM", "TRIM", "REPLACE", "CONCAT",
   "CONCAT_WS", "STUFF", "REPLICATE", "REVERSE", "CHAR", "NCHAR", "SPACE", "FORMAT", "DATENAME",
   "QUOTENAME", "STR", "STRING_AGG", "TRANSLATE", "OBJECT_NAME", "DB_NAME", "SUSER_SNAME",
   "USER_NAME", "APP_NAME", "HOST_NAME", "ERROR_MESSAGE", "ERROR_PROCEDURE", "NEWID_STRING"]

def numericFunctions : List String :=
  ["LEN", "DATALENGTH", "DATEDIFF", "DATEDIFF_BIG", "DATEPART", "YEAR", "MONTH", "DAY", "COUNT",
   "COUNT_BIG", "ABS", "CEILING", "FLOOR", "ROUND", "POWER", "SQRT", "SIGN", "CHARINDEX",
   "PATINDEX", "ASCII", "UNICODE", "ROW_NUMBER", "RANK", "DENSE_RANK", "NTILE", "ERROR_NUMBER",
   "ERROR_SEVERITY", "ERROR_STATE", "ERROR_LINE", "OBJECT_ID", "DB_ID", "SCOPE_IDENTITY",
   "IDENT_CURRENT", "@@ROWCOUNT", "RAND", "ISNUMERIC", "ISDATE", "SUM", "AVG"]

structure Setting where
  symbols : SymbolTable
  schema : String
  /-- Double quotes enclose identifiers, not strings. -/
  quotedIdentifier : Bool

def ofLiteralKind : LiteralKind → Category
  | .string | .national => .string
  | .number => .numeric
  | .hex => .binary
  | .null => .null

def ofIdentifier (s : Setting) (name : String) (quote : Option Quote) : Category :=
  if quote = some .double ∧ s.quotedIdentifier = false then .string
  else if Text.same name "CURRENT_TIMESTAMP" then .dateTime
  else .unknown

def ofCall (s : Setting) (name : String) (args : List Category) : Category :=
  let upper := Text.upper name
  if upper = "CAST" ∨ upper = "TRY_CAST" then args[1]?.getD .unknown
  else if upper = "CONVERT" ∨ upper = "TRY_CONVERT" then args[0]?.getD .unknown
  else if upper = "ISNULL" ∨ upper = "COALESCE" then
    (args.find? fun c => c ≠ .null && c ≠ .unknown).getD .unknown
  else if dateTimeFunctions.contains upper then .dateTime
  else if stringFunctions.contains upper then .string
  else if numericFunctions.contains upper then .numeric
  else
    match s.symbols.scalarFunctionType? ((Name.resolve name).key s.schema) with
    | some type => ofDeclared s.symbols s.schema type
    | none => .unknown

def ofKind (s : Setting) (kind : Kind) (parts : List Category) : Category :=
  match kind with
  | .literal k => ofLiteralKind k
  | .identifier name quote => ofIdentifier s name quote
  | .localVariable name => ofVariable s.symbols s.schema name
  | .systemVariable name => ofSystemVariable name
  | .dataType name _ => ofDeclared s.symbols s.schema name
  | .functionCall name => ofCall s name parts
  | .binaryOp op =>
    match parts with
    | left :: right :: _ => combine op left right
    | _ => .unknown
  | .unaryOp _ | .collate _ => parts.headD .unknown
  | .comparison _ | .inList _ | .inSubquery _ | .between _ | .like _ | .isNull _ | .existsQuery
  | .nextValueFor _ => .numeric
  | _ => .unknown

mutual

/-- The category of a node. -/
def ofNode (s : Setting) : Node → Category
  | ⟨_, kind, _, _, _, children⟩ => ofKind s kind (ofNodes s children)

def ofNodes (s : Setting) : List Node → List Category
  | [] => []
  | n :: rest => ofNode s n :: ofNodes s rest

end

end Portability.Category
