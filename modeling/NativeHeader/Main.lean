import NativeHeader.CommandLine

/-!
# The program

Reads what lies below the working directory, runs the command line on it, and shows what the run
did: the header on the standard output, the reports on the standard error.
-/

namespace NativeHeader

/-- Reads a directory entry with everything below it.  Links are not followed. -/
partial def readEntry (entry : IO.FS.DirEntry) : IO (List (Path.Name × FileTree)) := do
  let name := entry.fileName.toList
  match (← entry.path.symlinkMetadata).type with
  | .dir =>
    let below ← (← entry.path.readDir).toList.mapM readEntry
    return [(name, .directory below.flatten)]
  | .file => return [(name, .file (← IO.FS.readBinFile entry.path).toList)]
  | _ => return []

/-- The edition whose rules the program follows. -/
def followedEdition : Edition := .newer

/-- Reads the working directory, and nothing of what lies outside. -/
def readWorkspace : IO Workspace := do
  let directory ← IO.currentDir
  let home := (Path.names directory.toString.toList).filter (· ≠ [])
  let entries ← (← directory.readDir).toList.mapM readEntry
  let below := FileTree.directory entries.flatten
  return { home := home, files := .insert below home (.directory []), edition := followedEdition }

/-- Shows what a run did, and gives its exit code. -/
def display (verbose : Bool) (t : Traced Nat) : IO UInt32 := do
  for event in CommandLine.shownLog verbose t.log do
    IO.eprintln (event.level.name ++ ": " ++ event.message)
  IO.print t.output
  match t.result with
  | .ok code => return code.toUInt32
  | .error fault =>
    IO.eprintln (fault.message.getD "The schema could not be read.")
    return 1

end NativeHeader

/-- Runs the command line.  It has no formatter at hand. -/
def main (words : List String) : IO UInt32 := do
  match NativeHeader.Request.ofWords NativeHeader.followedEdition words with
  | .help =>
    IO.println "Generate a C++ interface header for native-module schemas."
    return 0
  | .misuse =>
    IO.eprintln "The arguments make no sense."
    return 2
  | .run arguments =>
    let workspace ← NativeHeader.readWorkspace
    NativeHeader.display arguments.verbose
      (NativeHeader.CommandLine.run workspace (fun _ => .missing) arguments)
