import Sema.Resolution.Expr

/-! # Names in declarations and statements

Functions and structs are declared in the global scope only, which is told by the number of open
scopes there. The parameters of a function share a scope with the declarations of its body. A struct
is declared after its fields, so it has no field of its own type.
-/

namespace Sema

open Resolver

/-- Declares a variable, a field or a parameter of the given type. -/
def declareStorage (type : Node) (id : Ident) : Resolver (Node × Ident) :=
  match type with
  | .primType .void => do
    report .badVoidType id.pos
    return (type, id)
  | .primType prim => return (type, ← declare id (.var prim.text))
  | .structType name => do
    match ← bindStruct name with
    | (name, some d) => return (.structType name, ← declare id (.structVar d.name))
    | (name, none) => return (.structType name, id)
  | node => do
    stop (.unexpected .type node)
    return (type, id)

/-- Binds the struct a function returns. Any other result type has no names. -/
def resolveResultType : Node → Resolver Node
  | .structType name => return .structType (← bindStruct name).1
  | type => return type

/-- Declares a function by the types it is written with. -/
def declareFunction (type : Node) (id : Ident) (formals : List Node) : Resolver Ident :=
  match Node.typeNames? formals, type.typeName? with
  | some params, some result => declare id (.function params result)
  | _, _ => do
    stop .missingPart
    return id

/-- Stops with the fault unless exactly `depth` scopes are open. -/
def requireDepth (depth : Nat) (fault : Fault) : Resolver Unit :=
  unlessStopped () fun s =>
    if s.table.depth = depth then ⟨(), s, []⟩ else ⟨(), { s with fault := some fault }, []⟩

mutual

def resolveDecl (global : Nat) : Node → Resolver Node
  | .varDecl type id => do
    let (type, id) ← declareStorage type id
    return .varDecl type id
  | .formalDecl type id => do
    let (type, id) ← declareStorage type id
    return .formalDecl type id
  | .fnDecl type id formals decls stmts => do
    requireDepth global (.breach (.functionNotGlobal id.name) id.pos)
    let type ← resolveResultType type
    let id ← declareFunction type id formals
    inScope do
      let formals ← resolveDecls global formals
      let decls ← resolveDecls global decls
      let stmts ← resolveStmts global stmts
      return .fnDecl type id formals decls stmts
  | .structDecl id decls => do
    requireDepth global (.breach (.structNotGlobal id.name) id.pos)
    openScope
    let decls ← resolveDecls global decls
    let fields ← closeScope
    let id ← declare id (.structDecl id.name (some (.ofScope fields)))
    return .structDecl id decls
  | node => reject .declaration node

def resolveDecls (global : Nat) : List Node → Resolver (List Node)
  | [] => return []
  | d :: ds => return (← resolveDecl global d) :: (← resolveDecls global ds)

def resolveStmt (global : Nat) : Node → Resolver Node
  | .assignStmt e => return .assignStmt (← resolveExpr e)
  | .stepStmt op e => return .stepStmt op (← resolveExpr e)
  | .readStmt e => return .readStmt (← resolveExpr e)
  | .writeStmt e => return .writeStmt (← resolveExpr e)
  | .ifStmt cond decls stmts => do
    let cond ← resolveExpr cond
    inScope do
      let decls ← resolveDecls global decls
      let stmts ← resolveStmts global stmts
      return .ifStmt cond decls stmts
  | .ifElseStmt cond thenDecls thenStmts elseDecls elseStmts => do
    let cond ← resolveExpr cond
    let (thenDecls, thenStmts) ← inScope do
      return (← resolveDecls global thenDecls, ← resolveStmts global thenStmts)
    let (elseDecls, elseStmts) ← inScope do
      return (← resolveDecls global elseDecls, ← resolveStmts global elseStmts)
    return .ifElseStmt cond thenDecls thenStmts elseDecls elseStmts
  | .whileStmt cond decls stmts => do
    let cond ← resolveExpr cond
    inScope do
      let decls ← resolveDecls global decls
      let stmts ← resolveStmts global stmts
      return .whileStmt cond decls stmts
  | .callStmt e => return .callStmt (← resolveExpr e)
  | .returnStmt .missing pos => return .returnStmt .missing pos
  | .returnStmt value pos => return .returnStmt (← resolveExpr value) pos
  | node => reject .statement node

def resolveStmts (global : Nat) : List Node → Resolver (List Node)
  | [] => return []
  | s :: ss => return (← resolveStmt global s) :: (← resolveStmts global ss)

end

/-- Binds the names of a program in a new scope on top of the given ones. That scope is its global
one, and it is closed again unless a fault stops the analysis. -/
def resolveProgram (program : Program) (table : SymbolTable) : Resolved Program :=
  inScope (resolveDecls (table.depth + 1) program) ⟨table, none⟩

end Sema
