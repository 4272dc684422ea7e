import Sema.Diagnostic.Kind
import Sema.Position

/-! # Diagnostics -/

namespace Sema

/-- One complaint about a program. -/
structure Diagnostic where
  pos : Pos
  message : String
  kind : Option DiagnosticKind := none
  deriving DecidableEq, Repr

namespace Diagnostic

def text? (d : Diagnostic) : Option String :=
  return (← d.pos.text?) ++ " ***ERROR*** " ++ d.message

/-- A diagnostic of the kind, in the kind's own words. -/
def ofKind (kind : DiagnosticKind) (pos : Pos) : Diagnostic := ⟨pos, kind.message, some kind⟩

end Diagnostic

end Sema
