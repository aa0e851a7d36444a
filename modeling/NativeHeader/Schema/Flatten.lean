import NativeHeader.Fault

/-! All modules of a schema in one list.

Components are visited in the order of their names, so the order in which they are
given does not show; inside a component the modules keep their order. Two modules
must not have the same name. -/
namespace NativeHeader

/-- A module and the component that declares it. -/
structure Owned where
  owner : String
  module : Module

namespace Schema

/-- The components in the order of their names. -/
def sortedComponents (s : Schema) : List Component :=
  s.components.mergeSort fun a b => decide (a.name ≤ b.name)

/-- The modules of a component with their owner. -/
def ownedBy (c : Component) : List Owned := (c.modules?.getD []).map (⟨c.name, ·⟩)

/-- Every module, component by component. -/
def owned (s : Schema) : List Owned := s.sortedComponents.flatMap ownedBy

/-- The first module whose name was met before, after the module that had the name. -/
def repetition? : (met : List Owned) → List Owned → Option (Owned × Owned)
  | _, [] => none
  | met, o :: rest =>
    match met.find? fun m => m.module.name = o.module.name with
    | some first => some (first, o)
    | none => repetition? (o :: met) rest

/-- All modules, if no two have the same name. -/
def nativeModules (s : Schema) : Except Fault (List Module) :=
  match repetition? [] s.owned with
  | some (first, second) =>
    .error (.shape (.repeatedModule second.module.name first.owner second.owner))
  | none => .ok (s.owned.map (·.module))

end Schema

end NativeHeader
