import NativeHeader.Template
import NativeHeader.Traced
import NativeHeader.TypeMapping

/-!
# The header

The header of a schema declares one abstract class for each native module, with one pure virtual
method for each method of the module.  It is built from three nested templates: a declaration, a
class with its declarations, and the file with its classes.

In a declaration the type of the result is found first, then those of the parameters in order, and
only then the name of the method is looked at.  The first fault ends the header.
-/

namespace NativeHeader

/-! ## Templates -/

/-- The template of a method's declaration. -/
def declarationTemplate : Template := .ofText
  "virtual ::_RETURN_VALUE_:: ::_PROPERTY_NAME_::(::_ARGS_::) = 0;"

/-- The template of a module's class. -/
def classTemplate : Template := .ofText "
class JSI_EXPORT Native::_MODULE_NAME_::CxxSpecJSI : public TurboModule \x7b
protected:
  Native::_MODULE_NAME_::CxxSpecJSI(std::shared_ptr<CallInvoker> jsInvoker);

public:
::_MODULE_PROPERTIES_::

\x7d;"

/-- The template of the whole file. -/
def fileTemplate : Template := .ofText "
/**
 * Copyright (c) Facebook, Inc. and its affiliates.
 *
 * This source code is licensed under the MIT license found in the
 * LICENSE file in the root directory of this source tree.
 */

#pragma once

#include <ReactCommon/TurboModule.h>

namespace facebook \x7b
namespace react \x7b
::_MODULES_::

\x7d // namespace react
\x7d // namespace facebook
"

/-- The name of the generated file. -/
def outputFileName : String := "NativeModules.h"

/-! ## Places -/

/-- How a message names a parameter of a method. -/
def parameterContext (parameter method : Document) : String :=
  "param \"" ++ parameter.text ++ "\" in " ++ method.text

/-- How a message names the result of a method. -/
def returnContext (method : Document) : String := "return type of " ++ method.text

/-! ## Declarations, classes, and the file -/

/-- The declaration of a parameter of the named method. -/
def Parameter.declaration (aliases : AliasTable) (method : Document) (p : Parameter) :
    Except Fault String := do
  let type ← p.type.cxxType aliases (parameterContext p.name method)
  return type.parameter p.name.text

/-- The declaration of a method, in a module with the given aliases. -/
def Method.declaration (aliases : AliasTable) (m : Method) : Except Fault String := do
  let returns ← m.returns.cxxType aliases (returnContext m.name)
  let parameters ← m.parameters.mapM (Parameter.declaration aliases m.name)
  declarationTemplate.render
    [("return_value", .string returns.name), ("property_name", m.name),
      ("args", .string (", ".intercalate (CxxType.runtimeParameter :: parameters)))]

namespace ModuleSpec

/-- The name of a module's class: the given one, or the module's own if that says nothing. -/
def nameOr (spec : ModuleSpec) (name : String) : String :=
  if name.isEmpty then spec.name else name

/-- The class of a module, under the given name. -/
def classText (spec : ModuleSpec) (name : String) : Traced String := do
  let name := spec.nameOr name
  Traced.report (.moduleBegun name spec.methods.length)
  Traced.of do
    let declarations ← spec.methods.mapM (Method.declaration spec.aliases)
    classTemplate.render
      [("module_name", .string name),
        ("module_properties", .string ("\n".intercalate declarations))]

end ModuleSpec

/-- The header that declares the given modules, each under its key. -/
def headerText (modules : OrderedMap ModuleSpec) : Traced String := do
  let classes ← modules.entries.mapM fun entry => entry.2.classText entry.1
  Traced.of (fileTemplate.render [("modules", .string ("\n".intercalate classes))])

/-- The files generated for a schema: a single one, the header.  The names of the library and of the
module specification only appear in the log. -/
def Schema.generate (schema : Schema) (library moduleSpec : String) :
    Traced (OrderedMap String) := do
  let modules := schema.flatten
  Traced.report (.headerBegun outputFileName library moduleSpec modules.size)
  let text ← headerText modules
  return OrderedMap.empty.put outputFileName text

end NativeHeader
