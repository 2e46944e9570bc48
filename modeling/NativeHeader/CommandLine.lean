import NativeHeader.Arguments.Line
import NativeHeader.Formatter
import NativeHeader.Search
import NativeHeader.Workspace

/-!
# The command line

A run searches for schema files, merges them, generates the header, formats it if that is asked
for, and writes it to the standard output.  Nothing is written before the header is complete.

A type without a counterpart is a mistake in the schema: it is reported, and the run ends with exit
code 1.  Every other fault leaves the run as it is.
-/

namespace NativeHeader

namespace CommandLine

/-- The search that the arguments ask for.  It begins in the working directory. -/
def search (w : Workspace) (a : Arguments) : Search where
  root := w.path
  paths := a.paths
  excludes := a.excludes
  recursive := a.recursive
  edition := w.edition

/-- The schema files that the arguments ask for; there must be one. -/
def schemaPaths (w : Workspace) (a : Arguments) : Except Fault (List String) :=
  match (search w a).files w.files with
  | [] => .error (.noSchemaFiles a.paths)
  | found => .ok found

/-- Writes a text on the standard output.  One that this does not take is not begun. -/
def write (w : Workspace) (name text : String) : Traced Unit :=
  if w.takes text then do
    Traced.act (.write text)
    Traced.report (.wrote name)
  else Traced.of (.error .outputRefused)

/-- Writes a generated file. -/
def writeFile (w : Workspace) (formatter : Formatter) (a : Arguments) (file : String × String) :
    Traced Unit := do
  let text ← if a.format then formatter.format file.2 else pure file.2
  write w file.1 text

/-- Finds, merges, generates and writes. -/
def produce (w : Workspace) (formatter : Formatter) (a : Arguments) : Traced Unit := do
  let paths ← Traced.of (schemaPaths w a)
  Traced.report (.matched paths.length)
  let schema ← w.loadSchema paths
  let files ← schema.generate (Arguments.shownName a.libraryName)
    (Arguments.shownName a.moduleSpecName)
  files.entries.forM (writeFile w formatter a)

/-- The exit code of a run in which something went wrong, if it ends with one. -/
def recover (t : Traced Unit) : Traced Nat :=
  match t.result with
  | .ok () => { actions := t.actions, result := .ok 0 }
  | .error (.unsupportedType context typeName) =>
    let reason := ((Fault.unsupportedType context typeName).message).getD ""
    { actions := t.actions ++ [.report (.failed reason)], result := .ok 1 }
  | .error fault => { actions := t.actions, result := .error fault }

/-- A whole run: what it does, and its exit code or the fault that ended it. -/
def run (w : Workspace) (formatter : Formatter) (a : Arguments) : Traced Nat := do
  Traced.report (.started w.path)
  recover (produce w formatter a)

/-- The reports of a run that are shown: details only if the run is verbose. -/
def shownLog (verbose : Bool) (log : List Event) : List Event :=
  log.filter fun event => verbose || !event.isDetail

end CommandLine

end NativeHeader
