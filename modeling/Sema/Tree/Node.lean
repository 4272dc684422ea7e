import Sema.Position
import Sema.Symbol

/-! # Syntax trees

One type for everything that can stand in a tree. A tree may be ill formed in any way: each slot for
a type, a declaration, a statement or an expression can hold any node, and operators are any text.
Only identifier slots and lists are fixed.
-/

namespace Sema

/-- An identifier and the symbol that name analysis has given it, if any. -/
structure Ident where
  name : String
  pos : Pos
  symbol : Option Symbol := none

inductive Literal where
  | int (value : Int)
  /-- the lexeme as written, quotes included -/
  | string (lexeme : String)
  | bool (value : Bool)
  deriving DecidableEq, Repr

inductive PrimType where
  | int | bool | void
  deriving DecidableEq, Repr

inductive StepOp where
  | inc | dec
  deriving DecidableEq, Repr

inductive Node where
  | lit (value : Literal) (pos : Pos)
  | ident (id : Ident)
  | dot (base : Node) (field : Ident)
  | assign (target value : Node)
  | call (callee : Ident) (args : List Node)
  | unary (op : String) (operand : Node)
  | binary (op : String) (left right : Node)
  | primType (type : PrimType)
  | structType (id : Ident)
  | varDecl (type : Node) (id : Ident)
  | formalDecl (type : Node) (id : Ident)
  | fnDecl (type : Node) (id : Ident) (formals decls stmts : List Node)
  | structDecl (id : Ident) (decls : List Node)
  | assignStmt (assign : Node)
  | stepStmt (op : StepOp) (operand : Node)
  | readStmt (target : Node)
  | writeStmt (value : Node)
  | ifStmt (cond : Node) (decls stmts : List Node)
  | ifElseStmt (cond : Node) (thenDecls thenStmts elseDecls elseStmts : List Node)
  | whileStmt (cond : Node) (decls stmts : List Node)
  | callStmt (call : Node)
  /-- a return without a value has `missing` for it -/
  | returnStmt (value : Node) (pos : Pos)
  /-- a thing that is no node at all -/
  | foreign
  /-- nothing where a node should be -/
  | missing

/-- A program is the list of its top-level declarations. -/
abbrev Program := List Node

def PrimType.text : PrimType → String
  | .int => "int"
  | .bool => "bool"
  | .void => "void"

namespace Node

/-- What a message calls the node. -/
def label : Node → String
  | .lit (.int _) _ => "IntLiteral"
  | .lit (.string _) _ => "StringLiteral"
  | .lit (.bool _) _ => "BoolLiteral"
  | .ident _ => "Identifier"
  | .dot _ _ => "DotAccessExpr"
  | .assign _ _ => "AssignExpr"
  | .call _ _ => "CallExpr"
  | .unary _ _ => "UnaryExpr"
  | .binary _ _ _ => "BinaryExpr"
  | .primType .int => "IntTypeExpr"
  | .primType .bool => "BoolTypeExpr"
  | .primType .void => "VoidTypeExpr"
  | .structType _ => "StructTypeExpr"
  | .varDecl _ _ => "VarDecl"
  | .formalDecl _ _ => "FormalDecl"
  | .fnDecl _ _ _ _ _ => "FnDecl"
  | .structDecl _ _ => "StructDecl"
  | .assignStmt _ => "AssignStmt"
  | .stepStmt .inc _ => "PostIncStmt"
  | .stepStmt .dec _ => "PostDecStmt"
  | .readStmt _ => "ReadStmt"
  | .writeStmt _ => "WriteStmt"
  | .ifStmt _ _ _ => "IfStmt"
  | .ifElseStmt _ _ _ _ _ => "IfElseStmt"
  | .whileStmt _ _ _ => "WhileStmt"
  | .callStmt _ => "CallStmt"
  | .returnStmt _ _ => "ReturnStmt"
  | .foreign => "object"
  | .missing => "NoneType"

/-- The position a diagnostic about the node is given: that of the leaf it starts with. -/
def pos : Node → Pos
  | .lit _ p => p
  | .ident id => id.pos
  | .dot base _ => base.pos
  | .assign target _ => target.pos
  | .call callee _ => callee.pos
  | .unary _ operand => operand.pos
  | .binary _ left _ => left.pos
  | _ => .origin

/-- The name of the type that a type node denotes. -/
def typeName? : Node → Option String
  | .primType t => some t.text
  | .structType id => some id.name
  | _ => none

/-- The type and the name that a node declares together. -/
def typed? : Node → Option (Node × Ident)
  | .varDecl t id => some (t, id)
  | .formalDecl t id => some (t, id)
  | .fnDecl t id _ _ _ => some (t, id)
  | _ => none

/-- The identifier that an access path ends in. A path is a plain identifier or a dot access. -/
def pathEnd? : Node → Option Ident
  | .ident id => some id
  | .dot _ field => some field
  | _ => none

def isReturn : Node → Bool
  | .returnStmt _ _ => true
  | _ => false

/-- The type names of a parameter list, if every entry declares something of a type. -/
def typeNames? (formals : List Node) : Option (List String) :=
  formals.mapM fun f => f.typed?.bind (·.1.typeName?)

end Node

end Sema
