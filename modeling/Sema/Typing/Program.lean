import Sema.Typing.Stmt

/-! # Types of declarations and programs

While the body of a function is checked, the type it should return is in force. It gives way to the
one before it when the function has been checked, and stays in force if a fault ends the check.
-/

namespace Sema

open Check

/-- The type a function should return: by its symbol, or as written if it has none of a function. -/
def returnType? (type : Node) (id : Ident) : Option Ty :=
  match id.symbol with
  | some (.function _ result) => some (Ty.ofName result)
  | _ => type.typeName?.map Ty.ofName

/-- A function that returns something has a return among the statements of its body. Returns deeper
inside do not count. -/
def checkFunction (result : Ty) (id : Ident) (stmts : List Node) : Check Ty := do
  let body ← checkStmts (some result) stmts
  if result ≠ .void ∧ ¬ stmts.any Node.isReturn then blame .missingReturn id.pos
  else return body

/-- A check, and the return type in force after it. -/
structure DeclCheck where
  check : Check Ty
  expected : Option Ty

def checkDecl (expected : Option Ty) : Node → DeclCheck
  | .fnDecl type id _ _ stmts =>
    match returnType? type id with
    | none => ⟨stop .missingPart, expected⟩
    | some result =>
      let check := checkFunction result id stmts
      match check.outcome with
      | .ok _ => ⟨check, expected⟩
      | .error _ => ⟨check, some result⟩
  | .varDecl _ _ | .formalDecl _ _ | .structDecl _ _ => ⟨return .success, expected⟩
  | node => ⟨stop (.unexpected .declaration node), expected⟩

def checkDecls (expected : Option Ty) : List Node → DeclCheck
  | [] => ⟨return .success, expected⟩
  | d :: ds =>
    let first := checkDecl expected d
    match first.check.outcome with
    | .error _ => first
    | .ok t =>
      let rest := checkDecls first.expected ds
      ⟨do let _ ← first.check
          return .all [t, ← rest.check], rest.expected⟩

/-- A program passes if nothing is reported about it. A call keeps its type when an argument does not
fit, so the results of the declarations alone would not tell. -/
def checkProgram (expected : Option Ty) (program : Program) : DeclCheck :=
  let decls := checkDecls expected program
  ⟨⟨decls.check.reports, decls.check.outcome.map fun t =>
    if decls.check.reports.isEmpty then t else .error⟩, decls.expected⟩

end Sema
