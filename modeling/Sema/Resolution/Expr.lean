import Sema.Resolution.Resolver

/-! # Names in expressions -/

namespace Sema

open Resolver

/-- A field is selected from an access path only. -/
def requirePath (base : Node) : Resolver Unit :=
  match base.pathEnd? with
  | some _ => return
  | none => stop (.unexpected .accessBase base)

/-- Binds a field selected from a base whose own names are bound. -/
def bindFieldOf (base : Node) (field : Ident) : Resolver Ident :=
  match base.pathEnd? with
  | some owner => bindField owner field
  | none => return field

mutual

/-- Binds the names of an expression, from left to right. -/
def resolveExpr : Node → Resolver Node
  | .lit value pos => return .lit value pos
  | .ident id => return .ident (← bindUse id)
  | .dot base field => do
    requirePath base
    let base ← resolveExpr base
    return .dot base (← bindFieldOf base field)
  | .assign target value => return .assign (← resolveExpr target) (← resolveExpr value)
  | .call callee args => return .call (← bindUse callee) (← resolveExprs args)
  | .unary op operand => return .unary op (← resolveExpr operand)
  | .binary op left right => return .binary op (← resolveExpr left) (← resolveExpr right)
  | node => reject .expression node

def resolveExprs : List Node → Resolver (List Node)
  | [] => return []
  | e :: es => return (← resolveExpr e) :: (← resolveExprs es)

end

end Sema
