import Sema.Tree.Node

/-!
# Trees with a hole

An expression, a statement or a function with one expression left out, outside of any field access.
-/

namespace Sema

/-- What a tree is taken for. -/
inductive Part where
  | expr | stmt | decl

/-- One layer around a hole: from the part that fills the hole to the part that comes out. -/
inductive Frame : Part → Part → Type
  | assignTarget (value : Node) : Frame .expr .expr
  | assignValue (target : Node) : Frame .expr .expr
  | argument (callee : Ident) (before after : List Node) : Frame .expr .expr
  | unary (op : String) : Frame .expr .expr
  | binaryLeft (op : String) (right : Node) : Frame .expr .expr
  | binaryRight (op : String) (left : Node) : Frame .expr .expr
  | assignStmt : Frame .expr .stmt
  | callStmt : Frame .expr .stmt
  | stepStmt (op : StepOp) : Frame .expr .stmt
  | readStmt : Frame .expr .stmt
  | writeStmt : Frame .expr .stmt
  | returnStmt (pos : Pos) : Frame .expr .stmt
  | ifCond (decls stmts : List Node) : Frame .expr .stmt
  | ifElseCond (ds ss ds' ss' : List Node) : Frame .expr .stmt
  | whileCond (decls stmts : List Node) : Frame .expr .stmt
  | ifBody (cond : Node) (decls before after : List Node) : Frame .stmt .stmt
  | thenBody (cond : Node) (ds before after ds' ss' : List Node) : Frame .stmt .stmt
  | elseBody (cond : Node) (ds ss ds' before after : List Node) : Frame .stmt .stmt
  | whileBody (cond : Node) (decls before after : List Node) : Frame .stmt .stmt
  | functionBody (type : Node) (id : Ident) (formals decls before after : List Node) :
      Frame .stmt .decl

def Frame.plug {q p : Part} : Frame q p → Node → Node
  | .assignTarget value, n => .assign n value
  | .assignValue target, n => .assign target n
  | .argument callee before after, n => .call callee (before ++ n :: after)
  | .unary op, n => .unary op n
  | .binaryLeft op right, n => .binary op n right
  | .binaryRight op left, n => .binary op left n
  | .assignStmt, n => .assignStmt n
  | .callStmt, n => .callStmt n
  | .stepStmt op, n => .stepStmt op n
  | .readStmt, n => .readStmt n
  | .writeStmt, n => .writeStmt n
  | .returnStmt pos, n => .returnStmt n pos
  | .ifCond decls stmts, n => .ifStmt n decls stmts
  | .ifElseCond ds ss ds' ss', n => .ifElseStmt n ds ss ds' ss'
  | .whileCond decls stmts, n => .whileStmt n decls stmts
  | .ifBody cond decls before after, n => .ifStmt cond decls (before ++ n :: after)
  | .thenBody cond ds before after ds' ss', n => .ifElseStmt cond ds (before ++ n :: after) ds' ss'
  | .elseBody cond ds ss ds' before after, n => .ifElseStmt cond ds ss ds' (before ++ n :: after)
  | .whileBody cond decls before after, n => .whileStmt cond decls (before ++ n :: after)
  | .functionBody type id formals decls before after, n =>
    .fnDecl type id formals decls (before ++ n :: after)

/-- A part with a hole for an expression. -/
inductive Context : Part → Type
  | hole : Context .expr
  | within {q p : Part} (F : Frame q p) (K : Context q) : Context p

def Context.plug {p : Part} : Context p → Node → Node
  | .hole, n => n
  | .within F K, n => F.plug (K.plug n)

/-- The two nodes are blamed at one position, and are both returns or neither. -/
structure Node.Alike (n m : Node) : Prop where
  pos_eq : n.pos = m.pos
  isReturn_eq : n.isReturn = m.isReturn

theorem Frame.plug_ne_missing {q p : Part} (F : Frame q p) (n : Node) : F.plug n ≠ .missing := by
  cases F <;> simp [plug]

theorem Frame.plug_alike {q p : Part} (F : Frame q p) {n m : Node} (h : n.Alike m) :
    (F.plug n).Alike (F.plug m) := by
  cases F <;> exact ⟨by simp [plug, Node.pos, h.pos_eq], rfl⟩

theorem Context.plug_ne_missing {p : Part} (K : Context p) {n : Node} (h : n ≠ .missing) :
    K.plug n ≠ .missing := by
  cases K with
  | hole => exact h
  | within F K => exact F.plug_ne_missing _

theorem Context.plug_alike {p : Part} (K : Context p) {n m : Node} (h : n.Alike m) :
    (K.plug n).Alike (K.plug m) := by
  induction K with
  | hole => exact h
  | within F K ih => exact F.plug_alike ih

end Sema
