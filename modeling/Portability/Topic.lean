/-! The areas that constructs are assigned to; each is a section of the feature matrix. -/
namespace Portability

/-- An area of the language, with verdicts of its own in the feature matrix. -/
inductive Topic where
  | select | topWithoutOrder | resultWithoutOrder | selectTop | queryClauses | forClause
  | setOperators | commonTableExpressions | joins | joinHints | tableHints | queryHints | insert
  | update | delete | merge | truncateTable | outputClause | changesToViews | compoundAssignment
  | variableAssignment | variableAssignmentDependency | implicitConversion | datatypes
  | userDefinedDatatypes | identifiers | identifierLength | specialColumnNames | columnAttributes
  | computedColumns | constraints | constraintOptions | tableOptions | createTable | alterTable
  | views | viewOptions | procedures | procedureOptions | parameters | functions
  | functionOptions | objectDefinitions | triggers | triggerOptions | indexes | indexOptions
  | otherDefinitions | dropObject | localVariables | cursors | cursorOptions | fetchOrientation
  | setOptions | quotedIdentifier | controlFlow | errorHandling | raiserrorOptions | waitFor
  | transactions | dynamicSql | systemStoredProcedures | procedureCalls | executeOptions
  | otherStatements | permissions | parseErrors | systemVariables | builtInFunctions
  | functionsInComputedColumn | userDefinedFunctions | tableFunctions | xmlMethods
  | windowFunctions | operators | collations | sequences | crossDatabaseReferences
  | remoteObjectReferences | errorCodes | catalogViews | directives
  deriving DecidableEq, Repr

namespace Topic

def all : List Topic :=
  [.select, .topWithoutOrder, .resultWithoutOrder, .selectTop, .queryClauses, .forClause,
   .setOperators, .commonTableExpressions, .joins, .joinHints, .tableHints, .queryHints, .insert,
   .update, .delete, .merge, .truncateTable, .outputClause, .changesToViews, .compoundAssignment,
   .variableAssignment, .variableAssignmentDependency, .implicitConversion, .datatypes,
   .userDefinedDatatypes, .identifiers, .identifierLength, .specialColumnNames,
   .columnAttributes, .computedColumns, .constraints, .constraintOptions, .tableOptions,
   .createTable, .alterTable, .views, .viewOptions, .procedures, .procedureOptions, .parameters,
   .functions, .functionOptions, .objectDefinitions, .triggers, .triggerOptions, .indexes,
   .indexOptions, .otherDefinitions, .dropObject, .localVariables, .cursors, .cursorOptions,
   .fetchOrientation, .setOptions, .quotedIdentifier, .controlFlow, .errorHandling,
   .raiserrorOptions, .waitFor, .transactions, .dynamicSql, .systemStoredProcedures,
   .procedureCalls, .executeOptions, .otherStatements, .permissions, .parseErrors,
   .systemVariables, .builtInFunctions, .functionsInComputedColumn, .userDefinedFunctions,
   .tableFunctions, .xmlMethods, .windowFunctions, .operators, .collations, .sequences,
   .crossDatabaseReferences, .remoteObjectReferences, .errorCodes, .catalogViews, .directives]

theorem mem_all (t : Topic) : t ∈ all := by cases t <;> decide

def name : Topic → String
  | select => "SELECT"
  | topWithoutOrder => "SelectTopWoOrderBy"
  | resultWithoutOrder => "SelectResultWoOrderBy"
  | selectTop => "SELECT TOP"
  | queryClauses => "Query clauses"
  | forClause => "FOR clause"
  | setOperators => "Set operators"
  | commonTableExpressions => "Common table expressions"
  | joins => "Joins"
  | joinHints => "Join hints"
  | tableHints => "Table hints"
  | queryHints => "Query hints"
  | insert => "INSERT"
  | update => "UPDATE"
  | delete => "DELETE"
  | merge => "MERGE"
  | truncateTable => "TRUNCATE TABLE"
  | outputClause => "OUTPUT clause"
  | changesToViews => "DML on views"
  | compoundAssignment => "Compound assignment"
  | variableAssignment => "Variable assignment"
  | variableAssignmentDependency => "Variable assignment dependency"
  | implicitConversion => "Implicit conversion"
  | datatypes => "Datatypes"
  | userDefinedDatatypes => "User-defined datatypes"
  | identifiers => "Identifiers"
  | identifierLength => "Maximum identifier length"
  | specialColumnNames => "Special column names"
  | columnAttributes => "Column attributes"
  | computedColumns => "Computed columns"
  | constraints => "Constraints"
  | constraintOptions => "Constraint options"
  | tableOptions => "Table options"
  | createTable => "CREATE TABLE"
  | alterTable => "ALTER TABLE"
  | views => "Views"
  | viewOptions => "View options"
  | procedures => "Procedures"
  | procedureOptions => "Procedure options"
  | parameters => "Parameters"
  | functions => "Functions"
  | functionOptions => "Function options"
  | objectDefinitions => "Object definitions"
  | triggers => "Triggers"
  | triggerOptions => "Trigger options"
  | indexes => "Indexes"
  | indexOptions => "Index options"
  | otherDefinitions => "CREATE other"
  | dropObject => "DROP"
  | localVariables => "Variables"
  | cursors => "Cursors"
  | cursorOptions => "Cursor options"
  | fetchOrientation => "FETCH orientation"
  | setOptions => "SET options"
  | quotedIdentifier => "Quoted identifier"
  | controlFlow => "Control flow"
  | errorHandling => "Error handling"
  | raiserrorOptions => "RAISERROR options"
  | waitFor => "WAITFOR"
  | transactions => "Transactions"
  | dynamicSql => "Dynamic SQL"
  | systemStoredProcedures => "System stored procedures"
  | procedureCalls => "Procedure calls"
  | executeOptions => "EXECUTE options"
  | otherStatements => "Miscellaneous statements"
  | permissions => "Permissions"
  | parseErrors => "Parse errors"
  | systemVariables => "System variables"
  | builtInFunctions => "Built-in functions"
  | functionsInComputedColumn => "Functions in computed column"
  | userDefinedFunctions => "User-defined functions"
  | tableFunctions => "Table functions"
  | xmlMethods => "XML methods"
  | windowFunctions => "Window functions"
  | operators => "Operators"
  | collations => "Collations"
  | sequences => "Sequences"
  | crossDatabaseReferences => "Cross-database references"
  | remoteObjectReferences => "Remote object references"
  | errorCodes => "Error codes"
  | catalogViews => "Catalog views"
  | directives => "SQLCMD directives"

end Topic

end Portability
