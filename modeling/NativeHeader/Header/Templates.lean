import NativeHeader.Naming
import NativeHeader.Template

/-! The fixed texts of a header, with slots for what varies.

The templates are public so that their texts can be looked at and filled with
other values; the functions beside them fill them for a given module. -/
namespace NativeHeader

namespace Templates

open Text

/-- The whole header: the protocols of all modules, then their classes. -/
def document : Template := ⟨[
  .text (unlines [
    "",
    "/**",
    " * Copyright (c) Facebook, Inc. and its affiliates.",
    " *",
    " * This source code is licensed under the MIT license found in the",
    " * LICENSE file in the root directory of this source tree.",
    " *",
    " * "]),
  .slot "generated_marker",
  .text (unlines [
    " by codegen project: native_module_codegen",
    " */",
    "",
    "#ifndef __cplusplus",
    "#error This file must be compiled as Obj-C++. If you are importing it, " ++
      "you must change your file extension to .mm.",
    "#endif",
    "",
    "#import <vector>",
    "",
    "#import <Foundation/Foundation.h>",
    "",
    "#import <folly/Optional.h>",
    "",
    "#import <RCTRequired/RCTRequired.h>",
    "#import <RCTTypeSafety/RCTConvertHelpers.h>",
    "#import <RCTTypeSafety/RCTTypedModuleConstants.h>",
    "",
    "#import <React/RCTBridgeModule.h>",
    "#import <React/RCTCxxConvert.h>",
    "#import <React/RCTManagedPointer.h>",
    "",
    "#import <ReactCommon/RCTTurboModule.h>",
    "",
    ""]),
  .slot "protocols",
  .text (unlines [
    "",
    "",
    "namespace facebook \x7b",
    "  namespace react \x7b",
    ""]),
  .slot "modules",
  .text (unlines [
    "",
    "  \x7d // namespace react",
    "\x7d // namespace facebook",
    ""])]⟩

/-- The structs of a module and its protocol. -/
def protocol : Template := ⟨[
  .slot "structs",
  .text (unlines ["", "", "@protocol "]),
  .slot "native_module_name",
  .text (unlines ["Spec <RCTBridgeModule, RCTTurboModule>", ""]),
  .slot "methods",
  .text (unlines ["", "@end", ""])]⟩

/-- The class of a module. -/
def moduleClass : Template := ⟨[
  .text (unlines ["    /**", "    * ObjC++ class for module '"]),
  .slot "module_name",
  .text (unlines ["'", "    */", "    class JSI_EXPORT "]),
  .slot "native_module_name",
  .text (unlines ["SpecJSI : public ObjCTurboModule \x7b", "    public:", "      "]),
  .slot "native_module_name",
  .text (unlines ["SpecJSI(const ObjCTurboModule::InitParams &params);", "    \x7d;"])]⟩

/-- The two accessors of the constants of a module. -/
def constants : Template := ⟨[
  .text "- (facebook::react::ModuleConstants<JS::",
  .slot "native_module_name",
  .text (unlines [
    "::Constants::Builder>)constantsToExport;",
    "- (facebook::react::ModuleConstants<JS::"]),
  .slot "native_module_name",
  .text "::Constants::Builder>)getConstants;"]⟩

end Templates

/-- What marks a text as generated. -/
def generatedMarker : String := "@generated"

/-- The header around the protocols and the classes of the modules. -/
def documentText (protocols modules : String) : String :=
  Templates.document.fill fun
    | "generated_marker" => generatedMarker
    | "protocols" => protocols
    | "modules" => modules
    | _ => ""

/-- The protocol of a module, after its structs. -/
def protocolText (module structs methods : String) : String :=
  Templates.protocol.fill fun
    | "structs" => structs
    | "native_module_name" => Naming.nativeModule module
    | "methods" => methods
    | _ => ""

/-- The class of a module. -/
def classText (module : String) : String :=
  Templates.moduleClass.fill fun
    | "module_name" => module
    | "native_module_name" => Naming.nativeModule module
    | _ => ""

/-- The accessors of the constants of a module. -/
def accessorsText (module : String) : String :=
  Templates.constants.fill fun
    | "native_module_name" => Naming.nativeModule module
    | _ => ""

end NativeHeader
