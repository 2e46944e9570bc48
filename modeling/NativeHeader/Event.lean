import NativeHeader.Fault

/-!
# Events that are logged

Everything the generator reports while it runs, by what happened, with the level and the text of
each report.
-/

namespace NativeHeader

/-- How important a report is. -/
inductive Level where
  | debug
  | info
  | warning
  | error
  deriving DecidableEq

namespace Level

/-- The name of a level. -/
def name : Level → String
  | debug => "DEBUG"
  | info => "INFO"
  | warning => "WARNING"
  | error => "ERROR"

end Level

/-- How a program ends that does not succeed. -/
inductive Failure where
  /-- With an exit code that stands for a failure. -/
  | exited (code : Nat) (unsuccessful : code ≠ 0)
  /-- By a signal, which the system may have a name for. -/
  | killed (signal : Nat) (name : Option String)
  deriving DecidableEq

namespace Failure

/-- The end of a sentence on a command that failed. -/
def predicate : Failure → String
  | exited code _ => "returned non-zero exit status " ++ toString code ++ "."
  | killed signal (some name) =>
    "died with <Signals." ++ name ++ ": " ++ toString signal ++ ">."
  | killed signal none => "died with unknown signal " ++ toString signal ++ "."

end Failure

/-- Something worth a report. -/
inductive Event where
  /-- The program begins in a directory. -/
  | started (directory : String)
  /-- So many schema files were matched. -/
  | matched (files : Nat)
  /-- A schema file was read. -/
  | loaded (path : String)
  /-- The header of a library begins. -/
  | headerBegun (file library moduleSpec : String) (modules : Nat)
  /-- The class of a module begins. -/
  | moduleBegun (name : String) (methods : Nat)
  /-- The header was written. -/
  | wrote (file : String)
  /-- The formatter is not installed. -/
  | formatterMissing
  /-- The formatter, called by this command, failed. -/
  | formatterFailed (command : List String) (failure : Failure)
  /-- What the formatter had to say. -/
  | formatterComplained (text : String)
  /-- A type has no counterpart, so there is no header. -/
  | failed (reason : String)
  deriving DecidableEq

namespace Event

/-- The level of a report. -/
def level : Event → Level
  | started _ => .info
  | matched _ => .info
  | loaded _ => .debug
  | headerBegun .. => .debug
  | moduleBegun .. => .debug
  | wrote _ => .info
  | formatterMissing => .warning
  | formatterFailed .. => .error
  | formatterComplained _ => .error
  | failed _ => .error

/-- The text of a report. -/
def message : Event → String
  | started directory => "Working from root directory: " ++ directory
  | matched files => "Generating header from " ++ toString files ++ " schema file(s)."
  | loaded path => "Loaded schema '" ++ path ++ "'."
  | headerBegun file library moduleSpec modules =>
    "Generating '" ++ file ++ "' for library '" ++ library ++ "' (" ++ moduleSpec ++ ") with "
      ++ toString modules ++ " native module(s)."
  | moduleBegun name methods =>
    "Generating interface for module '" ++ name ++ "' (" ++ toString methods ++ " method(s))."
  | wrote file => "Wrote '" ++ file ++ "' to stdout."
  | formatterMissing =>
    "clang-format not found, skipping formatting of the generated header"
  | formatterFailed command failure =>
    "clang-format failed: Command '" ++ Quoted.listText command ++ "' " ++ failure.predicate
  | formatterComplained text => "Stderr: " ++ text
  | failed reason => "Header generation failed: " ++ reason

/-- Whether a report is made only when the program is asked to be verbose. -/
def isDetail (event : Event) : Bool := event.level = .debug

end Event

end NativeHeader
