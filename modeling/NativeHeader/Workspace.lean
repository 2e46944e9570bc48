import NativeHeader.Document.Reader
import NativeHeader.Edition
import NativeHeader.FileTree
import NativeHeader.Header
import NativeHeader.Schema.Load
import NativeHeader.Utf8

/-!
# Workspaces and the schemas in them

A workspace is where the program runs: the files that can be reached, and the directory among them
in which paths are used.  Schema files are read from it and merged into one schema.

Merging puts the source files of all schema files into one object, each under the path of its schema
file and its own name, so two schema files that describe the same source file both keep their
modules.  Every schema file is read before anything of their content is loaded.
-/

namespace NativeHeader

open NativeHeader.Path (Name)

/-- Where the program runs. -/
structure Workspace where
  /-- The names that lead from the top of the files to the working directory. -/
  home : List Name
  /-- All files that can be reached. -/
  files : FileTree
  /-- The edition whose rules are followed. -/
  edition : Edition
  /-- Whether the standard output takes a text; its encoding may lack characters of it. -/
  takes : String → Bool := fun _ => true

namespace Workspace

/-! ## Reading files -/

/-- The path of the working directory. -/
def path (w : Workspace) : String := String.ofList ('/' :: ['/'].intercalate w.home)

/-- What is found under a path that is used in the working directory.  The empty path leads
nowhere. -/
def find (w : Workspace) (path : String) : Except Fault FileTree :=
  if path.isEmpty then .error .nothingAtPath
  else w.files.find (Path.resolve w.path.toList path.toList)

/-- The bytes of the file under a path. -/
def read (w : Workspace) (path : String) : Except Fault (List UInt8) := do
  match ← w.find path with
  | .file content => return content
  | .directory _ => throw .directoryAtPath

/-- The document in the file under a path. -/
def readDocument (w : Workspace) (path : String) : Except Fault Document := do
  Document.read (← Utf8.decode (← w.read path))

/-! ## Merging schema files -/

/-- The name under which a source file of a schema file is merged. -/
def mergedName (path source : String) : String := path ++ ":" ++ source

/-- The source files of a schema document, each under its merged name. -/
def sourcesOf (path : String) (raw : Document) : Except Fault (List (String × Document)) := do
  let sources ← (← raw.field "modules").1.entries
  return sources.map fun entry => (mergedName path entry.1, entry.2.1)

/-- The document that describes the given source files. -/
def mergedDocument (sources : List (String × Document)) : Document :=
  .object [("modules", .object sources)]

/-- Reads one schema file. -/
def readSources (w : Workspace) (path : String) : Traced (List (String × Document)) := do
  let sources ← Traced.of (w.readDocument path >>= sourcesOf path)
  Traced.report (.loaded path)
  return sources

/-- The schema that the files under the given paths describe together. -/
def loadSchema (w : Workspace) (paths : List String) : Traced Schema := do
  let sources ← paths.mapM w.readSources
  Traced.of (Schema.load (mergedDocument sources.flatten))

end Workspace

end NativeHeader
