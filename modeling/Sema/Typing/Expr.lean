import Sema.Typing.Operator

/-! # Types of expressions

Names are bound by now. An operand of the error type has been blamed already, and what is built on
it is an error without another complaint.
-/

namespace Sema

open Check

/-- Whether an operand of type `t` passes the rule; it is blamed if it does not. -/
def checkOperand (rule : OperandRule) (pos : Pos) (t : Ty) : Check Bool :=
  if t.isError then return false
  else if t = rule.required then return true
  else do
    let _ ← blame rule.kind pos
    return false

def checkUnary (op : String) (pos : Pos) (t : Ty) : Check Ty :=
  if t.isError then return .error
  else match unaryRule? op with
    | none => stop (.breach (.unknownUnary op) pos)
    | some rule => if t = rule.required then return rule.result else blame rule.kind pos

/-- Of two operands that cannot be compared the left one is blamed. -/
def checkEquality (leftPos rightPos : Pos) (left right : Ty) : Check Ty :=
  if left.isError || right.isError then return .error
  else match left.comparisonBan?, right.comparisonBan? with
    | some words, _ => blameFor .equalityOperandBanned leftPos words
    | none, some words => blameFor .equalityOperandBanned rightPos words
    | none, none => if left = right then return .bool else blame .equalityMismatch leftPos

def checkAssign (pos : Pos) (target value : Ty) : Check Ty :=
  if target.isError || value.isError then return .error
  else match target with
    | .function _ _ => blameFor .invalidAssignmentTarget pos "Function assignment"
    | .structName _ => blameFor .invalidAssignmentTarget pos "Struct name assignment"
    | _ => if target = value then return target else blame .assignmentMismatch pos

/-- Blames each argument that does not fit its parameter. -/
def checkArgs : List (Pos × Ty) → List Ty → Check Unit
  | (pos, actual) :: args, formal :: formals => do
    if !actual.compatible formal then report (.ofKind .argumentMismatch pos)
    checkArgs args formals
  | _, _ => return

/-- A call of a function has the function's result type, whether or not its arguments fit. Function
types that come from symbols always have one. -/
def checkCall (pos : Pos) (callee : Ty) (args : List (Pos × Ty)) : Check Ty :=
  match callee with
  | .error => return .error
  | .function formals result => do
    if args.length = formals.length then checkArgs args formals
    else report (.ofKind .arityMismatch pos)
    return result.getD .unspecified
  | _ => blame .callOfNonFunction pos

mutual

def checkExpr : Node → Check Ty
  | .lit (.int _) _ => return .int
  | .lit (.string _) _ => return .string
  | .lit (.bool _) _ => return .bool
  | .ident id => ofExcept id.type
  | .dot _ field => ofExcept field.type
  | .assign target value => do
    let t ← checkExpr target
    let v ← checkExpr value
    checkAssign target.pos t v
  | .call callee args => do
    let f ← ofExcept callee.type
    let ts ← checkExprs args
    checkCall callee.pos f ((args.map Node.pos).zip ts)
  | .unary op operand => do
    let t ← checkExpr operand
    checkUnary op operand.pos t
  | .binary op left right =>
    match binaryRule? op with
    | none => stop (.breach (.unknownBinary op) left.pos)
    | some .equality => do
      let l ← checkExpr left
      let r ← checkExpr right
      checkEquality left.pos right.pos l r
    | some (.uniform rule) => do
      let l ← checkExpr left
      let leftFits ← checkOperand rule left.pos l
      let r ← checkExpr right
      let rightFits ← checkOperand rule right.pos r
      return if leftFits && rightFits then rule.result else .error
  | node => stop (.unexpected .expression node)

def checkExprs : List Node → Check (List Ty)
  | [] => return []
  | e :: es => return (← checkExpr e) :: (← checkExprs es)

end

end Sema
