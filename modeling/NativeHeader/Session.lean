import NativeHeader.Document.Reader
import NativeHeader.Header
import NativeHeader.Schema.Load

/-!
# Sessions

A session keeps a map of modules, each under a key of its own choice, over a row of steps.  A step
changes the map or asks something about it; a step that fails leaves the map as it is.
-/

namespace NativeHeader

namespace Session

/-- The modules at hand, by key. -/
abbrev Modules := OrderedMap ModuleSpec

/-- A step of a session. -/
inductive Step where
  /-- Puts all modules of the schema that a text describes. -/
  | load (text : String)
  /-- Puts a module that a text describes under a key. -/
  | register (key name text : String)
  /-- Removes the module under a key. -/
  | remove (key : String)
  /-- Asks for the class of a module, under another name if one is given. -/
  | classText (key : String) (name : Option String)
  /-- Asks for the declaration of a method of one module, with the aliases of another. -/
  | declaration (key : String) (index : Nat) (aliasesOf : String)
  /-- Asks for the C++ type of a type expression that a text describes, with the aliases of a
  module. -/
  | cxxType (text aliasesOf context : String)
  /-- Asks for the header of all modules. -/
  | header

/-- The answer to a step. -/
inductive Answer where
  /-- The modules after the step. -/
  | modules (modules : Modules)
  /-- A generated text. -/
  | text (text : String)
  /-- A resolved type expression and its C++ type. -/
  | type (resolved : TypeExpr) (type : CxxType)

/-- The module under a key. -/
def find (modules : Modules) (key : String) : Except Fault ModuleSpec :=
  match modules.get? key with
  | some spec => .ok spec
  | none => .error (.missingKey key)

/-- A method of a module. -/
def method (spec : ModuleSpec) (index : Nat) : Except Fault Method :=
  match spec.methods[index]? with
  | some method => .ok method
  | none => .error .noSuchMethod

/-- The modules after a step, and its answer. -/
def perform (modules : Modules) : Step → Except Fault (Modules × Answer)
  | .load text => do
    let schema ← Schema.load (← Document.read text.toList)
    let after := modules.putAll schema.flatten
    return (after, .modules after)
  | .register key name text => do
    let spec ← ModuleSpec.load name (← Document.read text.toList)
    let after := modules.put key spec
    return (after, .modules after)
  | .remove key => do
    let _ ← find modules key
    let after := modules.erase key
    return (after, .modules after)
  | .classText key name => do
    let spec ← find modules key
    return (modules, .text (← (spec.classText (name.getD "")).result))
  | .declaration key index aliasesOf => do
    let method ← method (← find modules key) index
    let owner ← find modules aliasesOf
    return (modules, .text (← method.declaration owner.aliases))
  | .cxxType text aliasesOf context => do
    let expr ← TypeExpr.load (← Document.read text.toList)
    let owner ← find modules aliasesOf
    let resolved ← expr.resolve owner.aliases
    return (modules, .type resolved (← expr.cxxType owner.aliases context))
  | .header => do return (modules, .text (← (headerText modules).result))

/-- One step: what it answers, and the modules after it. -/
def step (modules : Modules) (s : Step) : Modules × Except Fault Answer :=
  match perform modules s with
  | .ok (after, answer) => (after, .ok answer)
  | .error fault => (modules, .error fault)

/-- The answers to a row of steps, and the modules after them. -/
def run : Modules → List Step → Modules × List (Except Fault Answer)
  | modules, [] => (modules, [])
  | modules, s :: rest =>
    let (after, answer) := step modules s
    let (last, answers) := run after rest
    (last, answer :: answers)

end Session

end NativeHeader
