import Telemetry.Error

/-!
The namespace of a table store: a text that is fixed once and then stands before the name of
every table. The empty namespace changes no name.
-/

namespace Telemetry.Storage

/-- A namespace that may not be fixed yet. -/
structure Namespace where
  fixed : Option String := none
  deriving DecidableEq

namespace Namespace

/-- Fixes the namespace; a fixed one can only be fixed to the same text again. -/
def fix (space : Namespace) (text : String) : Except Error Namespace :=
  match space.fixed with
  | none => .ok ⟨some text⟩
  | some current =>
      if current = text then .ok space
      else .error (.configurationConflict (.namespaceFixed current text))

/-- The text that stands before table names. -/
def qualifier? (space : Namespace) : Option String :=
  space.fixed.filter (· ≠ "")

/-- The name under which the store keeps a table. -/
def qualify (space : Namespace) (table : String) : String :=
  match space.qualifier? with
  | some text => text ++ "_" ++ table
  | none => table

end Namespace

end Telemetry.Storage
