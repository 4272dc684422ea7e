import Sema.Typing.Expr

/-! # Types of statements -/

namespace Sema

open Check

/-- The outcome of a statement that is an expression. -/
def checkEffect (t : Ty) : Check Ty := return if t.isError then .error else .success

def checkStep (pos : Pos) (t : Ty) : Check Ty :=
  if t.isError then return .error
  else if t = .int then return .success
  else blame .arithmetic pos

/-- The complaint about reading into something of the type, if there is one. -/
def readBan? : Ty → Option DiagnosticKind
  | .function _ _ => some .readOfFunction
  | .structName _ => some .readOfStructName
  | .structVar _ => some .readOfStructVariable
  | _ => none

/-- The complaint about writing something of the type, if there is one. -/
def writeBan? : Ty → Option DiagnosticKind
  | .function _ _ => some .writeOfFunction
  | .structName _ => some .writeOfStructName
  | .structVar _ => some .writeOfStructVariable
  | .void => some .writeOfVoid
  | _ => none

def checkTransfer (ban? : Ty → Option DiagnosticKind) (pos : Pos) (t : Ty) : Check Ty :=
  if t.isError then return .error
  else match ban? t with
    | some kind => blame kind pos
    | none => return .success

inductive Conditional where
  | ifThen | whileLoop

def Conditional.text : Conditional → String
  | .ifThen => "an if"
  | .whileLoop => "a while"

def checkCondition (c : Conditional) (pos : Pos) (t : Ty) : Check Ty :=
  if t.isError then return .error
  else if t = .bool then return .success
  else blameFor .nonBoolCondition pos ("Non-bool expression used as " ++ c.text ++ " condition")

/-- A return without a value needs a function that is declared void. -/
def checkBareReturn (expected : Option Ty) (pos : Pos) : Check Ty :=
  if expected = some .void then return .success else blame .missingReturnValue pos

/-- A value returned from a void function is blamed even if it is an error itself. -/
def checkReturn (expected : Option Ty) (pos : Pos) (t : Ty) : Check Ty :=
  if expected = some .void then blame .returnValueFromVoid pos
  else if t.isError then return .error
  else if expected = some t then return .success
  else blame .badReturnValue pos

mutual

/-- Checks a statement of a function that should return `expected`. Without an expected type nothing
can be returned. -/
def checkStmt (expected : Option Ty) : Node → Check Ty
  | .assignStmt e => do checkEffect (← checkExpr e)
  | .stepStmt _ e => do checkStep e.pos (← checkExpr e)
  | .readStmt e => do checkTransfer readBan? e.pos (← checkExpr e)
  | .writeStmt e => do checkTransfer writeBan? e.pos (← checkExpr e)
  | .ifStmt cond _ stmts => do
    let c ← checkCondition .ifThen cond.pos (← checkExpr cond)
    let body ← checkStmts expected stmts
    return .all [c, body]
  | .ifElseStmt cond _ thenStmts _ elseStmts => do
    let c ← checkCondition .ifThen cond.pos (← checkExpr cond)
    let thenBody ← checkStmts expected thenStmts
    let elseBody ← checkStmts expected elseStmts
    return .all [c, thenBody, elseBody]
  | .whileStmt cond _ stmts => do
    let c ← checkCondition .whileLoop cond.pos (← checkExpr cond)
    let body ← checkStmts expected stmts
    return .all [c, body]
  | .callStmt e => do checkEffect (← checkExpr e)
  | .returnStmt .missing pos => checkBareReturn expected pos
  | .returnStmt value _ => do checkReturn expected value.pos (← checkExpr value)
  | node => stop (.unexpected .statement node)

def checkStmts (expected : Option Ty) : List Node → Check Ty
  | [] => return .success
  | s :: ss => do
    let t ← checkStmt expected s
    let rest ← checkStmts expected ss
    return .all [t, rest]

end

end Sema
