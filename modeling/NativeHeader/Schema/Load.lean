import NativeHeader.Document.Access
import NativeHeader.Schema

/-!
# Loading a schema from a document

Each part of a schema is read from the value that stands for it, field by field in a fixed order.
Nothing is validated beforehand, so the first access that fails gives the fault of the whole load.
-/

namespace NativeHeader

open Document

/-- Loads a type expression. -/
def TypeExpr.load (raw : Document) : Except Fault TypeExpr := do
  let element ← raw.optionalField "elementType"
  let tag ← raw.field "type"
  let name ← raw.optionalField "name"
  let properties ← (← raw.optionalRecords "properties").mapM fun item => do
    let name ← item.1.field "name"
    let shape ← item.1.field "typeAnnotation"
    let type ← TypeExpr.load shape.1
    let optional ← item.1.optionalField "optional"
    return { name := name.1, type, optional := (optional.map (·.1)).getD (.bool false) }
  let elementType ← match element with
    | some part => if part.1.isBlank then pure none else some <$> TypeExpr.load part.1
    | none => pure none
  return { tag := tag.1, name := (name.map (·.1)).getD .null, properties, elementType }
termination_by sizeOf raw
decreasing_by
  · exact Nat.lt_trans shape.2 item.2
  · exact part.2

/-- Loads a parameter of a method. -/
def Parameter.load (raw : Document) : Except Fault Parameter := do
  let name ← raw.field "name"
  let type ← TypeExpr.load (← raw.field "typeAnnotation").1
  return { name := name.1, type }

/-- Loads a method: its function type holds both the parameters and the result. -/
def Method.load (raw : Document) : Except Fault Method := do
  let function ← raw.field "typeAnnotation"
  let name ← raw.field "name"
  let items ← (← function.1.field "params").1.records
  let parameters ← items.mapM fun item => Parameter.load item.1
  let returns ← TypeExpr.load (← function.1.field "returnTypeAnnotation").1
  return { name := name.1, parameters, returns }

/-- Loads a table of type aliases. -/
def AliasTable.load (raw : Document) : Except Fault AliasTable := do
  let aliases ← (← raw.entries).mapM fun entry => return (entry.1, ← TypeExpr.load entry.2.1)
  return .ofList aliases

/-- Loads a native module. -/
def ModuleSpec.load (name : String) (raw : Document) : Except Fault ModuleSpec := do
  let aliases ← match ← raw.optionalField "aliases" with
    | some part => AliasTable.load part.1
    | none => pure .empty
  let methods ← (← (← raw.field "properties").1.records).mapM fun item => Method.load item.1
  return { name, aliases, methods }

/-- Loads what one source file declares: nothing, or an object of native modules. -/
def Schema.loadFile (raw : Document) : Except Fault (Option (OrderedMap ModuleSpec)) := do
  match ← raw.optionalField "nativeModules" with
  | none => return none
  | some ⟨.null, _⟩ => return none
  | some part =>
    let modules ← (← part.1.entries).mapM fun entry =>
      return (entry.1, ← ModuleSpec.load entry.1 entry.2.1)
    return some (.ofList modules)

/-- Loads a schema. -/
def Schema.load (raw : Document) : Except Fault Schema := do
  let files ← (← (← raw.field "modules").1.entries).mapM fun entry =>
    return (entry.1, ← Schema.loadFile entry.2.1)
  return { modules := .ofList files }

end NativeHeader
