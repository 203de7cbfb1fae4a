import Portability.Run

/-! The words of a command line. -/
namespace Portability

inductive Command where
  /-- Analyse scripts; the records go to a file if one is named. -/
  | analyze (request : Request) (output? : Option String)
  /-- List the versions of a matrix. -/
  | versions (matrixPath? : Option String)
  deriving Repr

namespace Command

def usage : String :=
  "Usage: analyze <INPUTS>... [-o FILE] [-t VERSION] [-a NAME] [--database NAME] " ++
    "[--schema NAME] [--quoted-identifier true|false] [-m FILE] [--overrides FILE] [-v]\n" ++
    "       versions [-m FILE]"

/-- A long option with its value behind an equals sign, as two words. -/
def splitOption (word : String) : List String :=
  let name := word.toList.takeWhile (· ≠ '=')
  match word.toList.drop name.length with
  | _ :: value =>
    if "--".toList.isPrefixOf name then [String.ofList name, String.ofList value] else [word]
  | [] => [word]

/-- The request and the output with the words of an analysis taken up. -/
def parseAnalyze (request : Request) (output? : Option String) :
    List String → Except String Command
  | [] => if request.inputs.isEmpty then .error usage else .ok (.analyze request output?)
  | "-v" :: rest | "--verbose" :: rest => parseAnalyze request output? rest
  | "-o" :: path :: rest | "--output" :: path :: rest => parseAnalyze request (some path) rest
  | "-t" :: text :: rest | "--target-version" :: text :: rest =>
    parseAnalyze { request with version := some text } output? rest
  | "-a" :: name :: rest | "--application" :: name :: rest =>
    parseAnalyze { request with application := name } output? rest
  | "--database" :: name :: rest => parseAnalyze { request with database := name } output? rest
  | "--schema" :: name :: rest => parseAnalyze { request with schema := name } output? rest
  | "--quoted-identifier" :: "true" :: rest =>
    parseAnalyze { request with quotedIdentifier := true } output? rest
  | "--quoted-identifier" :: "false" :: rest =>
    parseAnalyze { request with quotedIdentifier := false } output? rest
  | "-m" :: path :: rest | "--matrix" :: path :: rest =>
    parseAnalyze { request with matrixPath? := some path } output? rest
  | "--overrides" :: path :: rest =>
    parseAnalyze { request with overridesPath? := some path } output? rest
  | word :: rest =>
    if word.toList.head? == some '-' then .error usage
    else parseAnalyze { request with inputs := request.inputs ++ [word] } output? rest

def parse (words : List String) : Except String Command :=
  match words.flatMap splitOption with
  | "analyze" :: rest => parseAnalyze { inputs := [] } none rest
  | ["versions"] => .ok (.versions none)
  | ["versions", "-m", path] | ["versions", "--matrix", path] => .ok (.versions (some path))
  | _ => .error usage

end Command

/-- The versions of a matrix, one per line, with the one that is assumed marked. -/
def Matrix.versionLines (m : Matrix) : List String :=
  m.versions.map fun v =>
    if m.defaultVersion?.any (·.same v) then v.text ++ " (default)" else v.text

end Portability
