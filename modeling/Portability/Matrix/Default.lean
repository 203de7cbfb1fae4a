import Portability.Matrix

/-! The feature matrix that is used when none is given. -/
namespace Portability.Matrix.Default

def v100 : Version := ⟨"1.0.0", [1, 0, 0]⟩

def v110 : Version := ⟨"1.1.0", [1, 1, 0]⟩

def v200 : Version := ⟨"2.0.0", [2, 0, 0]⟩

def queries : List Section :=
  [{ name := "SELECT"
     group := some "Queries"
     items := some ["SELECT", "SELECT..INTO ##TMP", "SELECT..INTO #TMP", "SELECT..INTO TABLE",
       "SELECT IN CTE", "SELECT SUBQUERY"]
     rules :=
       [⟨.supported, v100, ["SELECT", "SELECT IN CTE", "SELECT SUBQUERY", "SELECT..INTO TABLE"]⟩,
        ⟨.reviewManually, v100, ["SELECT..INTO #TMP"]⟩,
        ⟨.notSupported, v100, ["SELECT..INTO ##TMP"]⟩,
        ⟨.rewritten, v110, ["SELECT..INTO #TMP"]⟩] },
   { name := "SelectTopWoOrderBy"
     group := some "Queries"
     fallback := some .reviewSemantics },
   { name := "SelectResultWoOrderBy"
     group := some "Queries"
     fallback := some .reviewSemantics },
   { name := "SELECT TOP"
     group := some "Queries"
     items := some ["TOP IN INSERT", "TOP IN UPDATE", "TOP IN DELETE", "TOP IN MERGE",
       "TOP PERCENT", "TOP WITH TIES", "TOP (EXPRESSION)"]
     rules :=
       [⟨.supported, v100, ["TOP (EXPRESSION)"]⟩,
        ⟨.notSupported, v100, ["TOP IN INSERT", "TOP IN UPDATE", "TOP IN DELETE",
          "TOP IN MERGE", "TOP PERCENT"]⟩,
        ⟨.reviewManually, v100, ["TOP WITH TIES"]⟩,
        ⟨.supported, v200, ["TOP WITH TIES"]⟩] },
   { name := "Query clauses"
     group := some "Queries"
     rules :=
       [⟨.supported, v100, ["DISTINCT", "OFFSET FETCH", "GROUP BY ROLLUP", "GROUP BY CUBE",
          "GROUP BY GROUPING SETS", "TABLE VALUE CONSTRUCTOR"]⟩,
        ⟨.notSupported, v100, ["PIVOT", "UNPIVOT", "GROUP BY ALL"]⟩,
        ⟨.reviewSemantics, v100, ["GROUP BY WITH ROLLUP", "GROUP BY WITH CUBE"]⟩]
     fallback := some .reviewManually },
   { name := "FOR clause"
     group := some "Queries"
     rules :=
       [⟨.notSupported, v100, ["FOR XML", "FOR BROWSE"]⟩,
        ⟨.reviewManually, v100, ["FOR JSON"]⟩,
        ⟨.rewritten, v200, ["FOR JSON"]⟩]
     fallback := some .notSupported },
   { name := "Set operators"
     group := some "Queries"
     items := some ["UNION", "UNION ALL", "EXCEPT", "INTERSECT"]
     rules :=
       [⟨.supported, v100, ["UNION", "UNION ALL", "EXCEPT", "INTERSECT"]⟩] },
   { name := "Common table expressions"
     group := some "Queries"
     items := some ["CTE", "RECURSIVE CTE"]
     rules :=
       [⟨.supported, v100, ["CTE"]⟩,
        ⟨.reviewSemantics, v100, ["RECURSIVE CTE"]⟩] },
   { name := "Joins"
     group := some "Queries"
     items := some ["INNER JOIN", "LEFT OUTER JOIN", "RIGHT OUTER JOIN", "FULL OUTER JOIN",
       "CROSS JOIN", "CROSS APPLY", "OUTER APPLY", "OLD-STYLE OUTER JOIN"]
     rules :=
       [⟨.supported, v100, ["INNER JOIN", "LEFT OUTER JOIN", "RIGHT OUTER JOIN", "CROSS JOIN"]⟩,
        ⟨.reviewPerformance, v100, ["FULL OUTER JOIN"]⟩,
        ⟨.supported, v110, ["FULL OUTER JOIN"]⟩,
        ⟨.rewritten, v100, ["CROSS APPLY", "OUTER APPLY"]⟩,
        ⟨.notSupported, v100, ["OLD-STYLE OUTER JOIN"]⟩]
     itemGroups := [("OLD-STYLE OUTER JOIN", "Legacy syntax")] },
   { name := "Join hints"
     group := some "Queries"
     items := some ["LOOP", "HASH", "MERGE", "REMOTE"]
     rules :=
       [⟨.ignored, v100, ["LOOP", "HASH", "MERGE"]⟩,
        ⟨.notSupported, v100, ["REMOTE"]⟩] },
   { name := "Table hints"
     group := some "Queries"
     rules :=
       [⟨.ignored, v100, ["NOLOCK", "READUNCOMMITTED", "ROWLOCK", "PAGLOCK", "NOWAIT",
          "FORCESEEK", "FORCESCAN", "INDEX"]⟩,
        ⟨.reviewSemantics, v100, ["TABLOCK", "TABLOCKX", "UPDLOCK", "XLOCK", "HOLDLOCK",
          "SERIALIZABLE", "READPAST", "READCOMMITTED", "REPEATABLEREAD"]⟩]
     fallback := some .reviewManually },
   { name := "Query hints"
     group := some "Queries"
     rules :=
       [⟨.ignored, v100, ["RECOMPILE", "MAXDOP", "OPTIMIZE FOR", "FORCE ORDER", "HASH JOIN",
          "LOOP JOIN", "MERGE JOIN", "FAST"]⟩,
        ⟨.notSupported, v100, ["MAXRECURSION"]⟩,
        ⟨.supported, v200, ["MAXRECURSION"]⟩]
     fallback := some .reviewManually }]

def dataModification : List Section :=
  [{ name := "INSERT"
     group := some "Data modification"
     items := some ["INSERT..VALUES", "INSERT..SELECT", "INSERT..EXECUTE",
       "INSERT..DEFAULT VALUES", "MULTI-ROW VALUES"]
     rules :=
       [⟨.supported, v100, ["INSERT..VALUES", "INSERT..SELECT", "INSERT..DEFAULT VALUES",
          "MULTI-ROW VALUES"]⟩,
        ⟨.notSupported, v100, ["INSERT..EXECUTE"]⟩] },
   { name := "UPDATE"
     group := some "Data modification"
     items := some ["UPDATE", "UPDATE..FROM", "UPDATE .WRITE", "UPDATE COLUMN METHOD"]
     rules :=
       [⟨.supported, v100, ["UPDATE"]⟩,
        ⟨.reviewSemantics, v100, ["UPDATE..FROM"]⟩,
        ⟨.notSupported, v100, ["UPDATE .WRITE", "UPDATE COLUMN METHOD"]⟩] },
   { name := "DELETE"
     group := some "Data modification"
     items := some ["DELETE", "DELETE..FROM"]
     rules :=
       [⟨.supported, v100, ["DELETE"]⟩,
        ⟨.rewritten, v100, ["DELETE..FROM"]⟩] },
   { name := "MERGE"
     group := some "Data modification"
     rules :=
       [⟨.notSupported, v100, ["*"]⟩,
        ⟨.supported, v200, ["MERGE", "WHEN MATCHED UPDATE", "WHEN MATCHED DELETE",
          "WHEN NOT MATCHED INSERT"]⟩]
     fallback := some .reviewManually },
   { name := "TRUNCATE TABLE"
     group := some "Data modification"
     rules :=
       [⟨.supported, v100, ["*"]⟩] },
   { name := "OUTPUT clause"
     group := some "Data modification"
     items := some ["OUTPUT", "OUTPUT INTO"]
     rules :=
       [⟨.rewritten, v100, ["OUTPUT"]⟩,
        ⟨.notSupported, v100, ["OUTPUT INTO"]⟩] },
   { name := "DML on views"
     group := some "Data modification"
     items := some ["INSERT ON VIEW", "UPDATE ON VIEW", "DELETE ON VIEW", "MERGE ON VIEW",
       "TRUNCATE ON VIEW"]
     rules :=
       [⟨.reviewSemantics, v100, ["INSERT ON VIEW", "UPDATE ON VIEW", "DELETE ON VIEW"]⟩,
        ⟨.notSupported, v100, ["MERGE ON VIEW", "TRUNCATE ON VIEW"]⟩] },
   { name := "Compound assignment"
     group := some "Data modification"
     items := some ["+=", "-=", "*=", "/=", "%=", "&=", "|=", "^="]
     rules :=
       [⟨.rewritten, v100, ["*"]⟩] },
   { name := "Variable assignment"
     group := some "Procedural"
     items := some ["SELECT @VAR =", "UPDATE SET @VAR =", "SET @VAR ="]
     rules :=
       [⟨.supported, v100, ["SET @VAR ="]⟩,
        ⟨.rewritten, v100, ["SELECT @VAR ="]⟩,
        ⟨.notSupported, v100, ["UPDATE SET @VAR ="]⟩] },
   { name := "Variable assignment dependency"
     group := some "Procedural"
     fallback := some .reviewSemantics },
   { name := "Implicit conversion"
     group := some "Expressions"
     items := some ["NUMERIC TO DATETIME ASSIGNMENT", "NUMERIC TO DATETIME ARGUMENT"]
     rules :=
       [⟨.notSupported, v100, ["*"]⟩] }]

def definitions : List Section :=
  [{ name := "Datatypes"
     group := some "Datatypes"
     items := some ["BIGINT", "INT", "SMALLINT", "TINYINT", "BIT", "DECIMAL", "NUMERIC",
       "MONEY", "SMALLMONEY", "FLOAT", "REAL", "CHAR", "VARCHAR", "VARCHAR(MAX)", "NCHAR",
       "NVARCHAR", "NVARCHAR(MAX)", "TEXT", "NTEXT", "BINARY", "VARBINARY", "VARBINARY(MAX)",
       "IMAGE", "DATE", "TIME", "DATETIME", "DATETIME2", "SMALLDATETIME", "DATETIMEOFFSET",
       "UNIQUEIDENTIFIER", "XML", "SQL_VARIANT", "ROWVERSION", "TIMESTAMP", "HIERARCHYID",
       "GEOGRAPHY", "GEOMETRY", "CURSOR", "SYSNAME"]
     rules :=
       [⟨.supported, v100, ["BIGINT", "INT", "SMALLINT", "BIT", "DECIMAL", "NUMERIC", "FLOAT",
          "REAL", "CHAR", "VARCHAR", "VARCHAR(MAX)", "NCHAR", "NVARCHAR", "NVARCHAR(MAX)",
          "BINARY", "VARBINARY", "VARBINARY(MAX)", "DATE", "TIME", "DATETIME2",
          "UNIQUEIDENTIFIER"]⟩,
        ⟨.rewritten, v100, ["TINYINT", "MONEY", "SMALLMONEY", "TEXT", "NTEXT", "IMAGE",
          "DATETIME", "SMALLDATETIME", "SYSNAME"]⟩,
        ⟨.reviewSemantics, v100, ["DATETIMEOFFSET", "XML"]⟩,
        ⟨.supported, v200, ["DATETIMEOFFSET"]⟩,
        ⟨.notSupported, v100, ["SQL_VARIANT", "ROWVERSION", "TIMESTAMP", "HIERARCHYID",
          "GEOGRAPHY", "GEOMETRY", "CURSOR"]⟩] },
   { name := "User-defined datatypes"
     group := some "Datatypes"
     items := some ["TABLE TYPE", "ALIAS TYPE", "CREATE TYPE ALIAS", "CREATE TYPE TABLE"]
     rules :=
       [⟨.rewritten, v100, ["ALIAS TYPE", "CREATE TYPE ALIAS"]⟩,
        ⟨.notSupported, v100, ["TABLE TYPE", "CREATE TYPE TABLE"]⟩] },
   { name := "Identifiers"
     group := some "Names"
     items := some ["LEADING DOT IDENTIFIER", "SPECIAL COLUMN NAME"]
     rules :=
       [⟨.notSupported, v100, ["LEADING DOT IDENTIFIER"]⟩,
        ⟨.reviewManually, v100, ["SPECIAL COLUMN NAME"]⟩] },
   { name := "Maximum identifier length"
     group := some "Names"
     fallback := some .reviewManually
     limit := some 63 },
   { name := "Special column names"
     group := some "Names"
     items := some ["CTID", "OID", "XMIN", "XMAX", "CMIN", "CMAX", "TABLEOID", "ROWID"] },
   { name := "Column attributes"
     group := some "Tables"
     rules :=
       [⟨.supported, v100, ["IDENTITY", "DEFAULT", "COLLATE"]⟩,
        ⟨.rewritten, v100, ["ROWGUIDCOL"]⟩,
        ⟨.notSupported, v100, ["SPARSE", "FILESTREAM", "NOT FOR REPLICATION", "MASKED"]⟩]
     fallback := some .reviewManually },
   { name := "Computed columns"
     group := some "Tables"
     items := some ["COMPUTED COLUMN", "PERSISTED COMPUTED COLUMN"]
     rules :=
       [⟨.notSupported, v100, ["COMPUTED COLUMN"]⟩,
        ⟨.supported, v100, ["PERSISTED COMPUTED COLUMN"]⟩,
        ⟨.supported, v200, ["COMPUTED COLUMN"]⟩] },
   { name := "Constraints"
     group := some "Tables"
     rules :=
       [⟨.supported, v100, ["PRIMARY KEY IN CREATE TABLE", "UNIQUE IN CREATE TABLE",
          "FOREIGN KEY IN CREATE TABLE", "CHECK IN CREATE TABLE", "DEFAULT IN CREATE TABLE",
          "PRIMARY KEY IN ALTER TABLE", "UNIQUE IN ALTER TABLE", "FOREIGN KEY IN ALTER TABLE",
          "CHECK IN ALTER TABLE", "DEFAULT IN ALTER TABLE"]⟩,
        ⟨.reviewManually, v100, ["PRIMARY KEY IN TABLE VARIABLE", "UNIQUE IN TABLE VARIABLE",
          "CHECK IN TABLE VARIABLE", "DEFAULT IN TABLE VARIABLE"]⟩,
        ⟨.notSupported, v100, ["PRIMARY KEY IN TABLE TYPE", "UNIQUE IN TABLE TYPE",
          "CHECK IN TABLE TYPE", "DEFAULT IN TABLE TYPE"]⟩]
     fallback := some .reviewManually },
   { name := "Constraint options"
     group := some "Tables"
     rules :=
       [⟨.ignored, v100, ["CLUSTERED", "NONCLUSTERED", "FILLFACTOR", "PAD_INDEX"]⟩,
        ⟨.supported, v100, ["ON DELETE CASCADE", "ON UPDATE CASCADE", "ON DELETE SET NULL",
          "ON UPDATE SET NULL", "ON DELETE NO ACTION", "ON UPDATE NO ACTION"]⟩,
        ⟨.notSupported, v100, ["NOT FOR REPLICATION"]⟩]
     fallback := some .reviewManually },
   { name := "Table options"
     group := some "Tables"
     rules :=
       [⟨.ignored, v100, ["ON", "TEXTIMAGE_ON", "FILESTREAM_ON", "DATA_COMPRESSION"]⟩,
        ⟨.notSupported, v100, ["MEMORY_OPTIMIZED", "SYSTEM_VERSIONING", "LEDGER"]⟩]
     fallback := some .reviewManually },
   { name := "CREATE TABLE"
     group := some "Tables"
     items := some ["CREATE TABLE", "CREATE TABLE #TMP", "CREATE TABLE ##TMP"]
     rules :=
       [⟨.supported, v100, ["CREATE TABLE"]⟩,
        ⟨.rewritten, v100, ["CREATE TABLE #TMP"]⟩,
        ⟨.notSupported, v100, ["CREATE TABLE ##TMP"]⟩] },
   { name := "ALTER TABLE"
     group := some "Tables"
     rules :=
       [⟨.supported, v100, ["ADD", "DROP COLUMN", "DROP CONSTRAINT", "ALTER COLUMN",
          "WITH CHECK"]⟩,
        ⟨.reviewSemantics, v100, ["WITH NOCHECK", "NOCHECK CONSTRAINT", "CHECK CONSTRAINT"]⟩,
        ⟨.rewritten, v100, ["MULTIPLE ACTIONS"]⟩,
        ⟨.notSupported, v100, ["SWITCH", "ENABLE TRIGGER", "DISABLE TRIGGER", "SET"]⟩]
     fallback := some .reviewManually },
   { name := "Views"
     group := some "Views"
     items := some ["CREATE VIEW", "WITH CHECK OPTION"]
     rules :=
       [⟨.supported, v100, ["CREATE VIEW", "WITH CHECK OPTION"]⟩] },
   { name := "View options"
     group := some "Views"
     rules :=
       [⟨.ignored, v100, ["VIEW_METADATA"]⟩,
        ⟨.reviewManually, v100, ["SCHEMABINDING"]⟩,
        ⟨.notSupported, v100, ["ENCRYPTION"]⟩]
     fallback := some .reviewManually },
   { name := "Procedures"
     group := some "Routines"
     items := some ["CREATE PROCEDURE", "NUMBERED PROCEDURE"]
     rules :=
       [⟨.supported, v100, ["CREATE PROCEDURE"]⟩,
        ⟨.notSupported, v100, ["NUMBERED PROCEDURE"]⟩] },
   { name := "Procedure options"
     group := some "Routines"
     rules :=
       [⟨.ignored, v100, ["RECOMPILE"]⟩,
        ⟨.notSupported, v100, ["ENCRYPTION", "EXECUTE AS", "NATIVE_COMPILATION"]⟩]
     fallback := some .reviewManually },
   { name := "Parameters"
     group := some "Routines"
     items := some ["OUTPUT PARAMETER", "TABLE-VALUED PARAMETER", "PARAMETER DEFAULT"]
     rules :=
       [⟨.supported, v100, ["PARAMETER DEFAULT"]⟩,
        ⟨.rewritten, v100, ["OUTPUT PARAMETER"]⟩,
        ⟨.notSupported, v100, ["TABLE-VALUED PARAMETER"]⟩] },
   { name := "Functions"
     group := some "Routines"
     items := some ["SCALAR FUNCTION", "INLINE TABLE-VALUED FUNCTION",
       "MULTI-STATEMENT TABLE-VALUED FUNCTION", "CLR FUNCTION"]
     rules :=
       [⟨.supported, v100, ["SCALAR FUNCTION", "INLINE TABLE-VALUED FUNCTION"]⟩,
        ⟨.rewritten, v100, ["MULTI-STATEMENT TABLE-VALUED FUNCTION"]⟩,
        ⟨.notSupported, v100, ["CLR FUNCTION"]⟩] },
   { name := "Function options"
     group := some "Routines"
     rules :=
       [⟨.supported, v100, ["RETURNS NULL ON NULL INPUT", "CALLED ON NULL INPUT"]⟩,
        ⟨.reviewManually, v100, ["SCHEMABINDING", "INLINE"]⟩,
        ⟨.notSupported, v100, ["ENCRYPTION", "EXECUTE AS", "NATIVE_COMPILATION"]⟩]
     fallback := some .reviewManually },
   { name := "Object definitions"
     group := some "Routines"
     items := some ["ALTER VIEW", "ALTER PROCEDURE", "ALTER FUNCTION", "ALTER TRIGGER",
       "CREATE OR ALTER VIEW", "CREATE OR ALTER PROCEDURE", "CREATE OR ALTER FUNCTION",
       "CREATE OR ALTER TRIGGER"]
     rules :=
       [⟨.rewritten, v100, ["*"]⟩] },
   { name := "Triggers"
     group := some "Triggers"
     items := some ["INSTEAD OF TRIGGER", "AFTER TRIGGER", "MULTI-EVENT TRIGGER",
       "DDL TRIGGER (DATABASE)", "DDL TRIGGER (SERVER)", "LOGON TRIGGER",
       "INSERTED/DELETED IN MULTI-EVENT TRIGGER"]
     rules :=
       [⟨.supported, v100, ["AFTER TRIGGER"]⟩,
        ⟨.rewritten, v100, ["INSTEAD OF TRIGGER", "MULTI-EVENT TRIGGER"]⟩,
        ⟨.reviewSemantics, v100, ["INSERTED/DELETED IN MULTI-EVENT TRIGGER"]⟩,
        ⟨.notSupported, v100, ["DDL TRIGGER (DATABASE)", "DDL TRIGGER (SERVER)",
          "LOGON TRIGGER"]⟩] },
   { name := "Trigger options"
     group := some "Triggers"
     rules :=
       [⟨.ignored, v100, ["NOT FOR REPLICATION", "APPEND"]⟩,
        ⟨.notSupported, v100, ["ENCRYPTION", "EXECUTE AS"]⟩]
     fallback := some .reviewManually },
   { name := "Indexes"
     group := some "Indexes"
     items := some ["INDEX", "UNIQUE INDEX", "CLUSTERED INDEX", "INCLUDED COLUMNS",
       "FILTERED INDEX", "CLUSTERED COLUMNSTORE INDEX", "NONCLUSTERED COLUMNSTORE INDEX"]
     rules :=
       [⟨.supported, v100, ["INDEX", "UNIQUE INDEX", "FILTERED INDEX"]⟩,
        ⟨.reviewPerformance, v100, ["CLUSTERED INDEX"]⟩,
        ⟨.rewritten, v100, ["INCLUDED COLUMNS"]⟩,
        ⟨.notSupported, v100, ["CLUSTERED COLUMNSTORE INDEX", "NONCLUSTERED COLUMNSTORE INDEX"]⟩] },
   { name := "Index options"
     group := some "Indexes"
     rules :=
       [⟨.ignored, v100, ["ONLINE", "FILLFACTOR", "PAD_INDEX", "SORT_IN_TEMPDB",
          "STATISTICS_NORECOMPUTE", "ALLOW_ROW_LOCKS", "ALLOW_PAGE_LOCKS", "DATA_COMPRESSION",
          "MAXDOP", "DROP_EXISTING"]⟩,
        ⟨.reviewSemantics, v100, ["IGNORE_DUP_KEY"]⟩]
     fallback := some .reviewManually },
   { name := "CREATE other"
     group := some "Other objects"
     rules :=
       [⟨.supported, v100, ["SCHEMA", "SEQUENCE"]⟩,
        ⟨.rewritten, v100, ["SYNONYM"]⟩,
        ⟨.notSupported, v100, ["PARTITION FUNCTION", "PARTITION SCHEME", "ASSEMBLY",
          "FULLTEXT INDEX", "FULLTEXT CATALOG", "XML SCHEMA COLLECTION", "SERVICE", "QUEUE",
          "CONTRACT", "MESSAGE TYPE", "ROUTE", "ENDPOINT"]⟩,
        ⟨.objectCountOnly, v100, ["LOGIN", "USER", "ROLE", "CERTIFICATE", "SYMMETRIC KEY"]⟩]
     fallback := some .reviewManually },
   { name := "DROP"
     group := some "Other objects"
     rules :=
       [⟨.supported, v100, ["TABLE", "VIEW", "PROCEDURE", "FUNCTION", "TRIGGER", "INDEX",
          "SCHEMA", "SEQUENCE", "TYPE", "IF EXISTS"]⟩]
     fallback := some .reviewManually }]

def procedural : List Section :=
  [{ name := "Variables"
     group := some "Procedural"
     items := some ["DECLARE WITH INITIALIZER", "TABLE VARIABLE"]
     rules :=
       [⟨.supported, v100, ["DECLARE WITH INITIALIZER"]⟩,
        ⟨.rewritten, v100, ["TABLE VARIABLE"]⟩] },
   { name := "Cursors"
     group := some "Cursors"
     items := some ["DECLARE CURSOR", "CURSOR VARIABLE", "OPEN", "CLOSE", "DEALLOCATE",
       "FETCH"]
     rules :=
       [⟨.supported, v100, ["DECLARE CURSOR", "OPEN", "CLOSE", "FETCH"]⟩,
        ⟨.ignored, v100, ["DEALLOCATE"]⟩,
        ⟨.notSupported, v100, ["CURSOR VARIABLE"]⟩] },
   { name := "Cursor options"
     group := some "Cursors"
     rules :=
       [⟨.supported, v100, ["LOCAL", "FORWARD_ONLY", "READ_ONLY", "FAST_FORWARD", "STATIC"]⟩,
        ⟨.reviewSemantics, v100, ["GLOBAL", "SCROLL", "KEYSET", "DYNAMIC", "INSENSITIVE"]⟩,
        ⟨.notSupported, v100, ["SCROLL_LOCKS", "OPTIMISTIC", "FOR UPDATE", "TYPE_WARNING"]⟩]
     fallback := some .reviewManually },
   { name := "FETCH orientation"
     group := some "Cursors"
     rules :=
       [⟨.supported, v100, ["NEXT"]⟩,
        ⟨.reviewPerformance, v100, ["PRIOR", "FIRST", "LAST", "ABSOLUTE", "RELATIVE"]⟩]
     fallback := some .reviewManually },
   { name := "SET options"
     group := some "Session"
     rules :=
       [⟨.ignored, v100, ["NOCOUNT", "ANSI_NULLS", "ANSI_PADDING", "ANSI_WARNINGS",
          "ARITHABORT", "CONCAT_NULL_YIELDS_NULL", "NUMERIC_ROUNDABORT", "QUOTED_IDENTIFIER",
          "STATISTICS IO", "STATISTICS TIME", "STATISTICS XML", "STATISTICS PROFILE",
          "SHOWPLAN_XML"]⟩,
        ⟨.supported, v100, ["XACT_ABORT", "LOCK_TIMEOUT", "TRANSACTION ISOLATION LEVEL"]⟩,
        ⟨.reviewSemantics, v100, ["DATEFORMAT", "DATEFIRST", "LANGUAGE", "ROWCOUNT",
          "TEXTSIZE", "ANSI_NULL_DFLT_ON", "ANSI_NULL_DFLT_OFF", "IMPLICIT_TRANSACTIONS"]⟩,
        ⟨.notSupported, v100, ["IDENTITY_INSERT", "FMTONLY", "NOEXEC", "PARSEONLY",
          "CONTEXT_INFO", "FORCEPLAN", "DEADLOCK_PRIORITY"]⟩,
        ⟨.rewritten, v100, ["MULTIPLE OPTIONS"]⟩]
     fallback := some .reviewManually },
   { name := "SET options:TRANSACTION ISOLATION LEVEL:arg1"
     rules :=
       [⟨.supported, v100, ["READ COMMITTED", "REPEATABLE READ", "SERIALIZABLE"]⟩,
        ⟨.reviewSemantics, v100, ["READ UNCOMMITTED", "SNAPSHOT"]⟩]
     fallback := some .reviewManually },
   { name := "Quoted identifier"
     group := some "Session"
     items := some ["EFFECTIVE NEXT BATCH", "DOUBLE-QUOTED STRING LITERAL"]
     rules :=
       [⟨.reviewSemantics, v100, ["EFFECTIVE NEXT BATCH"]⟩,
        ⟨.rewritten, v100, ["DOUBLE-QUOTED STRING LITERAL"]⟩] },
   { name := "Control flow"
     group := some "Procedural"
     items := some ["IF", "WHILE", "BREAK", "CONTINUE", "GOTO", "LABEL", "RETURN",
       "RETURN VALUE"]
     rules :=
       [⟨.supported, v100, ["IF", "WHILE", "BREAK", "CONTINUE", "RETURN"]⟩,
        ⟨.rewritten, v100, ["RETURN VALUE"]⟩,
        ⟨.notSupported, v100, ["GOTO", "LABEL"]⟩] },
   { name := "Error handling"
     group := some "Error handling"
     items := some ["TRY..CATCH", "RAISERROR", "RAISERROR LEGACY SYNTAX", "THROW",
       "THROW RE-RAISE"]
     rules :=
       [⟨.supported, v100, ["THROW RE-RAISE"]⟩,
        ⟨.rewritten, v100, ["TRY..CATCH", "RAISERROR", "THROW"]⟩,
        ⟨.notSupported, v100, ["RAISERROR LEGACY SYNTAX"]⟩] },
   { name := "RAISERROR options"
     group := some "Error handling"
     rules :=
       [⟨.ignored, v100, ["NOWAIT"]⟩,
        ⟨.notSupported, v100, ["LOG", "SETERROR"]⟩]
     fallback := some .reviewManually },
   { name := "WAITFOR"
     group := some "Procedural"
     rules :=
       [⟨.rewritten, v100, ["DELAY"]⟩,
        ⟨.notSupported, v100, ["TIME", "RECEIVE", "GET CONVERSATION GROUP"]⟩]
     fallback := some .notSupported },
   { name := "Transactions"
     group := some "Transactions"
     rules :=
       [⟨.supported, v100, ["BEGIN TRANSACTION", "COMMIT", "COMMIT TRANSACTION", "ROLLBACK",
          "ROLLBACK TRANSACTION", "COMMIT WORK", "ROLLBACK WORK"]⟩,
        ⟨.reviewSemantics, v100, ["SAVE TRANSACTION", "ROLLBACK TO SAVEPOINT"]⟩,
        ⟨.notSupported, v100, ["BEGIN DISTRIBUTED TRANSACTION"]⟩]
     fallback := some .reviewManually },
   { name := "Dynamic SQL"
     group := some "Dynamic SQL"
     items := some ["EXECUTE STRING", "EXECUTE @PROCEDURE VARIABLE", "SP_EXECUTESQL"]
     rules :=
       [⟨.reviewManually, v100, ["EXECUTE STRING", "SP_EXECUTESQL"]⟩,
        ⟨.notSupported, v100, ["EXECUTE @PROCEDURE VARIABLE"]⟩] },
   { name := "System stored procedures"
     group := some "Environment"
     rules :=
       [⟨.rewritten, v100, ["SP_RENAME", "SP_ADDEXTENDEDPROPERTY", "SP_GETAPPLOCK",
          "SP_RELEASEAPPLOCK"]⟩,
        ⟨.ignored, v100, ["SP_RECOMPILE", "SP_REFRESHVIEW", "SP_UPDATESTATS"]⟩]
     fallback := some .notSupported },
   { name := "Procedure calls"
     group := some "Routines"
     items := some ["EXECUTE PROCEDURE", "OUTPUT ARGUMENT"]
     rules :=
       [⟨.supported, v100, ["EXECUTE PROCEDURE"]⟩,
        ⟨.rewritten, v100, ["OUTPUT ARGUMENT"]⟩] },
   { name := "EXECUTE options"
     group := some "Routines"
     rules :=
       [⟨.reviewManually, v100, ["WITH RECOMPILE"]⟩,
        ⟨.notSupported, v100, ["AT", "AS LOGIN", "AS USER", "WITH RESULT SETS"]⟩]
     fallback := some .reviewManually },
   { name := "Miscellaneous statements"
     group := some "Other statements"
     rules :=
       [⟨.supported, v100, ["USE"]⟩,
        ⟨.rewritten, v100, ["PRINT"]⟩,
        ⟨.notSupported, v100, ["DBCC", "BACKUP", "RESTORE", "BULK INSERT", "CHECKPOINT",
          "KILL", "SHUTDOWN", "RECONFIGURE", "READTEXT", "WRITETEXT", "UPDATETEXT", "SETUSER",
          "REVERT", "EXECUTE AS"]⟩,
        ⟨.ignored, v100, ["UPDATE STATISTICS"]⟩]
     fallback := some .reviewManually },
   { name := "Permissions"
     group := some "Security"
     rules :=
       [⟨.objectCountOnly, v100, ["*"]⟩] },
   { name := "Parse errors"
     group := some "Parse errors"
     items := some ["UNPARSED STATEMENT"]
     rules :=
       [⟨.reviewManually, v100, ["UNPARSED STATEMENT"]⟩] }]

def expressions : List Section :=
  [{ name := "System variables"
     group := some "Expressions"
     rules :=
       [⟨.supported, v100, ["@@ROWCOUNT", "@@TRANCOUNT"]⟩,
        ⟨.rewritten, v100, ["@@IDENTITY", "@@ERROR", "@@FETCH_STATUS", "@@SPID", "@@VERSION",
          "@@SERVERNAME", "@@PROCID"]⟩,
        ⟨.notSupported, v100, ["@@DBTS", "@@PACK_RECEIVED", "@@CPU_BUSY", "@@TEXTSIZE",
          "@@NESTLEVEL"]⟩]
     fallback := some .reviewManually },
   { name := "Built-in functions"
     group := some "Built-in functions"
     items := some ["CAST", "CONVERT", "TRY_CAST", "TRY_CONVERT", "PARSE", "TRY_PARSE", "ANY",
       "SOME", "ALL", "COALESCE", "ISNULL", "NULLIF", "IIF", "CHOOSE", "LEAST", "GREATEST",
       "COUNT", "COUNT_BIG", "SUM", "AVG", "MIN", "MAX", "STDEV", "STDEVP", "VAR", "VARP",
       "STRING_AGG", "GROUPING", "GROUPING_ID", "CHECKSUM_AGG", "APPROX_COUNT_DISTINCT",
       "ROW_NUMBER", "RANK", "DENSE_RANK", "NTILE", "LAG", "LEAD", "FIRST_VALUE",
       "LAST_VALUE", "CUME_DIST", "PERCENT_RANK", "PERCENTILE_CONT", "PERCENTILE_DISC",
       "GETDATE", "GETUTCDATE", "SYSDATETIME", "SYSUTCDATETIME", "SYSDATETIMEOFFSET",
       "DATEADD", "DATEDIFF", "DATEDIFF_BIG", "DATEPART", "DATENAME", "DATEFROMPARTS",
       "DATETIMEFROMPARTS", "DATETIME2FROMPARTS", "TIMEFROMPARTS", "DATETRUNC", "EOMONTH",
       "YEAR", "MONTH", "DAY", "ISDATE", "SWITCHOFFSET", "TODATETIMEOFFSET", "LEN",
       "DATALENGTH", "LEFT", "RIGHT", "SUBSTRING", "CHARINDEX", "PATINDEX", "REPLACE",
       "REPLICATE", "REVERSE", "STUFF", "UPPER", "LOWER", "LTRIM", "RTRIM", "TRIM", "CONCAT",
       "CONCAT_WS", "FORMAT", "QUOTENAME", "SPACE", "STR", "CHAR", "NCHAR", "ASCII",
       "UNICODE", "SOUNDEX", "DIFFERENCE", "STRING_ESCAPE", "TRANSLATE", "FORMATMESSAGE",
       "ABS", "CEILING", "FLOOR", "ROUND", "POWER", "SQRT", "SQUARE", "EXP", "LOG", "LOG10",
       "SIGN", "PI", "RAND", "SIN", "COS", "TAN", "COT", "ATAN", "ATN2", "ASIN", "ACOS",
       "DEGREES", "RADIANS", "ISNUMERIC", "NEWID", "NEWSEQUENTIALID", "CHECKSUM",
       "BINARY_CHECKSUM", "HASHBYTES", "COMPRESS", "DECOMPRESS", "OBJECT_ID", "OBJECT_NAME",
       "OBJECT_SCHEMA_NAME", "SCHEMA_NAME", "SCHEMA_ID", "DB_ID", "DB_NAME", "USER_NAME",
       "SUSER_SNAME", "SUSER_NAME", "HOST_NAME", "APP_NAME", "COL_LENGTH", "COL_NAME",
       "COLUMNPROPERTY", "OBJECTPROPERTY", "TYPE_NAME", "TYPE_ID", "SCOPE_IDENTITY",
       "IDENT_CURRENT", "IDENTITY", "ERROR_NUMBER", "ERROR_MESSAGE", "ERROR_SEVERITY",
       "ERROR_STATE", "ERROR_LINE", "ERROR_PROCEDURE", "XACT_STATE", "CURSOR_STATUS",
       "SESSION_CONTEXT", "CONTEXT_INFO", "UPDATE", "COLUMNS_UPDATED", "TRIGGER_NESTLEVEL",
       "EVENTDATA", "JSON_VALUE", "JSON_QUERY", "JSON_MODIFY", "ISJSON", "JSON_OBJECT",
       "JSON_ARRAY", "ODBC ESCAPE"]
     rules :=
       [⟨.supported, v100, ["CAST", "CONVERT", "COALESCE", "NULLIF", "LEAST", "GREATEST",
          "COUNT", "SUM", "AVG", "MIN", "MAX", "STRING_AGG", "GROUPING", "ROW_NUMBER", "RANK",
          "DENSE_RANK", "NTILE", "LAG", "LEAD", "FIRST_VALUE", "LAST_VALUE", "CUME_DIST",
          "PERCENT_RANK", "PERCENTILE_CONT", "PERCENTILE_DISC", "DATEPART", "DATEADD",
          "DATEDIFF", "DATEFROMPARTS", "YEAR", "MONTH", "DAY", "LEFT", "RIGHT", "SUBSTRING",
          "REPLACE", "REVERSE", "UPPER", "LOWER", "LTRIM", "RTRIM", "TRIM", "CONCAT",
          "CONCAT_WS", "ASCII", "CHAR", "ABS", "CEILING", "FLOOR", "ROUND", "POWER", "SQRT",
          "EXP", "LOG", "LOG10", "SIGN", "PI", "RAND", "SIN", "COS", "TAN", "COT", "ATAN",
          "ASIN", "ACOS", "DEGREES", "RADIANS", "NEWID", "ERROR_NUMBER", "ERROR_MESSAGE",
          "JSON_VALUE", "JSON_QUERY", "ANY", "SOME", "ALL", "SYSDATETIME", "SYSUTCDATETIME",
          "SYSDATETIMEOFFSET"]⟩,
        ⟨.rewritten, v100, ["ISNULL", "IIF", "CHOOSE", "COUNT_BIG", "STDEV", "STDEVP", "VAR",
          "VARP", "GETDATE", "GETUTCDATE", "DATENAME", "DATEDIFF_BIG", "EOMONTH",
          "DATETIMEFROMPARTS", "DATETIME2FROMPARTS", "TIMEFROMPARTS", "LEN", "DATALENGTH",
          "CHARINDEX", "REPLICATE", "STUFF", "SPACE", "STR", "NCHAR", "UNICODE", "SQUARE",
          "ATN2", "TRY_CAST", "TRY_CONVERT", "SCOPE_IDENTITY", "OBJECT_ID", "DB_NAME",
          "SCHEMA_NAME", "USER_NAME", "SUSER_SNAME", "HOST_NAME", "APP_NAME",
          "ERROR_SEVERITY", "ERROR_STATE", "ERROR_LINE", "ERROR_PROCEDURE", "XACT_STATE",
          "ISNUMERIC", "ISDATE", "QUOTENAME", "FORMATMESSAGE", "ISJSON", "JSON_MODIFY",
          "JSON_OBJECT", "JSON_ARRAY"]⟩,
        ⟨.supported, v110, ["DATETRUNC", "TRANSLATE"]⟩,
        ⟨.reviewSemantics, v100, ["FORMAT", "PARSE", "TRY_PARSE", "SWITCHOFFSET",
          "TODATETIMEOFFSET", "PATINDEX", "SOUNDEX", "DIFFERENCE", "STRING_ESCAPE",
          "HASHBYTES", "CHECKSUM", "BINARY_CHECKSUM", "CHECKSUM_AGG", "APPROX_COUNT_DISTINCT",
          "GROUPING_ID"]⟩,
        ⟨.notSupported, v100, ["NEWSEQUENTIALID", "COMPRESS", "DECOMPRESS", "OBJECT_NAME",
          "OBJECT_SCHEMA_NAME", "SCHEMA_ID", "DB_ID", "SUSER_NAME", "COL_LENGTH", "COL_NAME",
          "COLUMNPROPERTY", "OBJECTPROPERTY", "TYPE_NAME", "TYPE_ID", "IDENT_CURRENT",
          "IDENTITY", "CURSOR_STATUS", "SESSION_CONTEXT", "CONTEXT_INFO", "UPDATE",
          "COLUMNS_UPDATED", "TRIGGER_NESTLEVEL", "EVENTDATA", "ODBC ESCAPE"]⟩,
        ⟨.reviewManually, v100, ["DATETRUNC", "TRANSLATE"]⟩] },
   { name := "Built-in functions:DATEPART:arg1"
     rules :=
       [⟨.supported, v100, ["YEAR", "YY", "YYYY", "QUARTER", "QQ", "Q", "MONTH", "MM", "M",
          "DAYOFYEAR", "DY", "Y", "DAY", "DD", "D", "WEEK", "WK", "WW", "WEEKDAY", "DW",
          "HOUR", "HH", "MINUTE", "MI", "N", "SECOND", "SS", "S", "MILLISECOND", "MS"]⟩,
        ⟨.reviewSemantics, v100, ["ISO_WEEK", "ISOWK", "ISOWW", "MICROSECOND", "MCS"]⟩,
        ⟨.notSupported, v100, ["NANOSECOND", "NS", "TZOFFSET", "TZ"]⟩]
     fallback := some .reviewManually },
   { name := "Built-in functions:DATENAME:arg1"
     rules :=
       [⟨.rewritten, v100, ["YEAR", "YY", "YYYY", "QUARTER", "QQ", "Q", "MONTH", "MM", "M",
          "DAY", "DD", "D", "WEEKDAY", "DW", "HOUR", "HH", "MINUTE", "MI", "N", "SECOND",
          "SS", "S"]⟩,
        ⟨.notSupported, v100, ["NANOSECOND", "NS", "TZOFFSET", "TZ", "ISO_WEEK", "ISOWK",
          "ISOWW"]⟩]
     fallback := some .reviewManually },
   { name := "Built-in functions:DATEADD:arg1"
     rules :=
       [⟨.supported, v100, ["YEAR", "YY", "YYYY", "QUARTER", "QQ", "Q", "MONTH", "MM", "M",
          "DAYOFYEAR", "DY", "Y", "DAY", "DD", "D", "WEEK", "WK", "WW", "WEEKDAY", "DW",
          "HOUR", "HH", "MINUTE", "MI", "N", "SECOND", "SS", "S", "MILLISECOND", "MS",
          "MICROSECOND", "MCS"]⟩,
        ⟨.notSupported, v100, ["NANOSECOND", "NS"]⟩]
     fallback := some .reviewManually },
   { name := "Built-in functions:DATEDIFF:arg1"
     rules :=
       [⟨.supported, v100, ["YEAR", "YY", "YYYY", "MONTH", "MM", "M", "DAY", "DD", "D",
          "HOUR", "HH", "MINUTE", "MI", "N", "SECOND", "SS", "S"]⟩,
        ⟨.reviewSemantics, v100, ["QUARTER", "QQ", "Q", "WEEK", "WK", "WW", "DAYOFYEAR", "DY",
          "Y", "MILLISECOND", "MS", "MICROSECOND", "MCS"]⟩,
        ⟨.notSupported, v100, ["NANOSECOND", "NS"]⟩]
     fallback := some .reviewManually },
   { name := "Built-in functions:CONVERT:arg3"
     rules :=
       [⟨.supported, v100, ["0", "100", "101", "102", "103", "104", "105", "110", "111",
          "112", "120", "121", "126", "127"]⟩,
        ⟨.reviewSemantics, v100, ["1", "2", "3", "4", "5", "10", "11", "12", "20", "21", "23",
          "108", "114"]⟩]
     fallback := some .reviewSemantics },
   { name := "Functions in computed column"
     group := some "Tables"
     items := some ["GETDATE", "GETUTCDATE", "SYSDATETIME", "SYSUTCDATETIME",
       "SYSDATETIMEOFFSET", "NEWID", "RAND", "CURRENT_TIMESTAMP", "USER_NAME", "SUSER_SNAME",
       "HOST_NAME", "APP_NAME"]
     rules :=
       [⟨.notSupported, v100, ["*"]⟩]
     fallback := some .supported },
   { name := "User-defined functions"
     group := some "Routines"
     items := some ["SCALAR UDF CALL", "TABLE UDF CALL"]
     rules :=
       [⟨.supported, v100, ["SCALAR UDF CALL", "TABLE UDF CALL"]⟩] },
   { name := "Table functions"
     group := some "Built-in functions"
     items := some ["OPENQUERY", "OPENROWSET", "OPENDATASOURCE", "OPENXML", "OPENJSON",
       "STRING_SPLIT", "GENERATE_SERIES", "CONTAINSTABLE", "FREETEXTTABLE", "CHANGETABLE",
       "PREDICT"]
     rules :=
       [⟨.rewritten, v100, ["OPENJSON", "STRING_SPLIT"]⟩,
        ⟨.supported, v110, ["GENERATE_SERIES"]⟩,
        ⟨.notSupported, v100, ["OPENQUERY", "OPENROWSET", "OPENDATASOURCE", "OPENXML",
          "CONTAINSTABLE", "FREETEXTTABLE", "CHANGETABLE", "PREDICT", "GENERATE_SERIES"]⟩] },
   { name := "XML methods"
     group := some "XML"
     rules :=
       [⟨.reviewManually, v100, ["VALUE", "QUERY", "EXIST"]⟩,
        ⟨.notSupported, v100, ["NODES", "MODIFY"]⟩]
     fallback := some .reviewManually },
   { name := "Window functions"
     group := some "Expressions"
     items := some ["OVER", "OVER WITH ORDER BY", "ROWS FRAME", "RANGE FRAME"]
     rules :=
       [⟨.supported, v100, ["OVER", "OVER WITH ORDER BY", "ROWS FRAME"]⟩,
        ⟨.reviewSemantics, v100, ["RANGE FRAME"]⟩] },
   { name := "Operators"
     group := some "Expressions"
     items := some ["STRING CONCATENATION", "DATE ARITHMETIC", "BITWISE &", "BITWISE |",
       "BITWISE ^", "BITWISE ~", "!=", "!<", "!>", "= NULL COMPARISON"]
     rules :=
       [⟨.supported, v100, ["!=", "BITWISE &", "BITWISE |", "BITWISE ~"]⟩,
        ⟨.rewritten, v100, ["STRING CONCATENATION", "DATE ARITHMETIC", "BITWISE ^", "!<", "!>"]⟩,
        ⟨.notSupported, v100, ["= NULL COMPARISON"]⟩] },
   { name := "Collations"
     group := some "Expressions"
     fallback := some .reviewSemantics },
   { name := "Sequences"
     group := some "Expressions"
     items := some ["NEXT VALUE FOR"]
     rules :=
       [⟨.rewritten, v100, ["NEXT VALUE FOR"]⟩] }]

def environment : List Section :=
  [{ name := "Cross-database references"
     group := some "Names"
     items := some ["THREE-PART NAME", "THREE-PART NAME TO CURRENT DATABASE"]
     rules :=
       [⟨.notSupported, v100, ["THREE-PART NAME"]⟩,
        ⟨.rewritten, v100, ["THREE-PART NAME TO CURRENT DATABASE"]⟩] },
   { name := "Remote object references"
     group := some "Names"
     items := some ["FOUR-PART NAME"]
     rules :=
       [⟨.notSupported, v100, ["FOUR-PART NAME"]⟩] },
   { name := "Error codes"
     group := some "Error handling"
     rules :=
       [⟨.rewritten, v100, ["0", "547", "1205", "2601", "2627", "8152", "515"]⟩]
     fallback := some .reviewManually },
   { name := "Catalog views"
     group := some "Environment"
     rules :=
       [⟨.rewritten, v100, ["INFORMATION_SCHEMA.TABLES", "INFORMATION_SCHEMA.COLUMNS",
          "INFORMATION_SCHEMA.ROUTINES", "INFORMATION_SCHEMA.VIEWS"]⟩]
     fallback := some .notSupported },
   { name := "SQLCMD directives"
     group := some "Environment"
     rules :=
       [⟨.ignored, v100, [":ON ERROR", ":SETVAR"]⟩,
        ⟨.reviewManually, v100, [":R", "GO <COUNT>"]⟩]
     fallback := some .notSupported }]

end Portability.Matrix.Default

namespace Portability

open Matrix.Default in
def Matrix.default : Matrix where
  origin := "<embedded>"
  versions := [v100, v110, v200]
  sections :=
    queries ++
    dataModification ++
    definitions ++
    procedural ++
    expressions ++
    environment

end Portability
