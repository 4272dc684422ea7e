import Sema.Proofs.Tree.Parts
import Sema.Resolution.Decl

/-!
# Steps that come to an identifier

Name analysis comes to each identifier of a tree in one step, if it comes to it at all. The steps
are listed in the order in which the identifiers are written, which is not always the order in which
they are taken.
-/

namespace Sema

open Resolver

/-- What an identifier stands in a tree for. A field belongs to the end of the path that it is
selected from. -/
inductive Role where
  | declared
  | used
  | struct
  | field (owner : Option Ident)

structure Occurrence where
  role : Role
  ident : Ident

namespace Node

mutual

/-- The identifiers of a tree as they are written, with their roles. -/
def occurrences : Node → List Occurrence
  | .ident id => [⟨.used, id⟩]
  | .dot base field => base.occurrences ++ [⟨.field base.pathEnd?, field⟩]
  | .assign target value => target.occurrences ++ value.occurrences
  | .call callee args => ⟨.used, callee⟩ :: occurrencesAll args
  | .unary _ operand => operand.occurrences
  | .binary _ left right => left.occurrences ++ right.occurrences
  | .structType id => [⟨.struct, id⟩]
  | .varDecl type id => type.occurrences ++ [⟨.declared, id⟩]
  | .formalDecl type id => type.occurrences ++ [⟨.declared, id⟩]
  | .fnDecl type id formals decls stmts =>
    type.occurrences ++ ⟨.declared, id⟩ ::
      (occurrencesAll formals ++ occurrencesAll decls ++ occurrencesAll stmts)
  | .structDecl id decls => ⟨.declared, id⟩ :: occurrencesAll decls
  | .assignStmt e => e.occurrences
  | .stepStmt _ e => e.occurrences
  | .readStmt e => e.occurrences
  | .writeStmt e => e.occurrences
  | .ifStmt cond decls stmts =>
    cond.occurrences ++ occurrencesAll decls ++ occurrencesAll stmts
  | .ifElseStmt cond ds ss ds' ss' =>
    cond.occurrences ++ occurrencesAll ds ++ occurrencesAll ss ++ occurrencesAll ds' ++
      occurrencesAll ss'
  | .whileStmt cond decls stmts =>
    cond.occurrences ++ occurrencesAll decls ++ occurrencesAll stmts
  | .callStmt e => e.occurrences
  | .returnStmt value _ => value.occurrences
  | .lit _ _ | .primType _ | .foreign | .missing => []

def occurrencesAll : List Node → List Occurrence
  | [] => []
  | n :: ns => n.occurrences ++ occurrencesAll ns

end

mutual

theorem occurrences_idents (n : Node) : n.occurrences.map Occurrence.ident = n.idents := by
  cases n <;>
    simp [occurrences, idents, occurrences_idents, occurrencesAll_idents]

theorem occurrencesAll_idents (ns : List Node) :
    (occurrencesAll ns).map Occurrence.ident = identsAll ns := by
  cases ns <;> simp [occurrencesAll, identsAll, occurrences_idents, occurrencesAll_idents]

end

end Node

/-- An identifier of a tree, with the stages before and after the step of the analysis that comes to
it. The analysis does not come to what is inside a node that it rejects. -/
structure Visit where
  ident : Ident
  step : Option (Stage × Stage)

namespace Visit

def never (id : Ident) : Visit := ⟨id, none⟩

def byStep {α : Type} (m : Resolver α) (s : Stage) (id : Ident) : Visit :=
  ⟨id, some (s, (m s).stage)⟩

end Visit

namespace Node

/-- The only name in a type that a step comes to is that of a struct. -/
def visitsType {α : Type} (m : Resolver α) (s : Stage) : Node → List Visit
  | .structType name => [.byStep m s name]
  | type => type.idents.map .never

mutual

/-- The identifiers of an expression as they are written, with the steps that come to them when the
expression is resolved from the given stage on. -/
def visitsExpr : Node → Stage → List Visit
  | .ident id, s => [.byStep (bindUse id) s id]
  | .dot base field, s =>
    let s := (requirePath base s).stage
    let left := resolveExpr base s
    visitsExpr base s ++ [.byStep (bindFieldOf left.value field) left.stage field]
  | .assign target value, s => visitsExpr target s ++ visitsExpr value (resolveExpr target s).stage
  | .call callee args, s =>
    .byStep (bindUse callee) s callee :: visitsExprs args (bindUse callee s).stage
  | .unary _ operand, s => visitsExpr operand s
  | .binary _ left right, s => visitsExpr left s ++ visitsExpr right (resolveExpr left s).stage
  | node, _ => node.idents.map .never

def visitsExprs : List Node → Stage → List Visit
  | [], _ => []
  | e :: es, s => visitsExpr e s ++ visitsExprs es (resolveExpr e s).stage

end

mutual

def visitsDecl (global : Nat) : Node → Stage → List Visit
  | .varDecl type id, s | .formalDecl type id, s =>
    visitsType (declareStorage type id) s type ++ [.byStep (declareStorage type id) s id]
  | .fnDecl type id formals decls stmts, s =>
    let s := (requireDepth global (.breach (.functionNotGlobal id.name) id.pos) s).stage
    let result := resolveResultType type s
    let named := declareFunction result.value id formals result.stage
    let params := resolveDecls global formals (openScope named.stage).stage
    visitsType (resolveResultType type) s type ++
      .byStep (declareFunction result.value id formals) result.stage id ::
        (visitsDecls global formals (openScope named.stage).stage ++
          visitsDecls global decls params.stage ++
          visitsStmts global stmts (resolveDecls global decls params.stage).stage)
  | .structDecl id decls, s =>
    -- the name of a struct is written before its fields, and declared after them
    let s := (requireDepth global (.breach (.structNotGlobal id.name) id.pos) s).stage
    let fields := closeScope (resolveDecls global decls (openScope s).stage).stage
    .byStep (declare id (.structDecl id.name (some (.ofScope fields.value)))) fields.stage id ::
      visitsDecls global decls (openScope s).stage
  | node, _ => node.idents.map .never

def visitsDecls (global : Nat) : List Node → Stage → List Visit
  | [], _ => []
  | d :: ds, s => visitsDecl global d s ++ visitsDecls global ds (resolveDecl global d s).stage

def visitsStmt (global : Nat) : Node → Stage → List Visit
  | .assignStmt e, s => visitsExpr e s
  | .stepStmt _ e, s => visitsExpr e s
  | .readStmt e, s => visitsExpr e s
  | .writeStmt e, s => visitsExpr e s
  | .ifStmt cond decls stmts, s | .whileStmt cond decls stmts, s =>
    let inner := (openScope (resolveExpr cond s).stage).stage
    visitsExpr cond s ++ visitsDecls global decls inner ++
      visitsStmts global stmts (resolveDecls global decls inner).stage
  | .ifElseStmt cond ds ss ds' ss', s =>
    let inner := (openScope (resolveExpr cond s).stage).stage
    let body := resolveDecls global ds inner
    let inner' := (openScope (closeScope (resolveStmts global ss body.stage).stage).stage).stage
    visitsExpr cond s ++ visitsDecls global ds inner ++ visitsStmts global ss body.stage ++
      visitsDecls global ds' inner' ++
      visitsStmts global ss' (resolveDecls global ds' inner').stage
  | .callStmt e, s => visitsExpr e s
  | .returnStmt value _, s => visitsExpr value s
  | node, _ => node.idents.map .never

def visitsStmts (global : Nat) : List Node → Stage → List Visit
  | [], _ => []
  | n :: ns, s => visitsStmt global n s ++ visitsStmts global ns (resolveStmt global n s).stage

end

end Node

/-- The identifiers of a program with the steps that come to them, when its names are analysed on
the given scopes. -/
def visitsOf (program : Program) (table : SymbolTable) : List Visit :=
  Node.visitsDecls (table.depth + 1) program (openScope ⟨table, none⟩).stage

section Idents

private theorem map_never (ids : List Ident) : (ids.map Visit.never).map Visit.ident = ids := by
  rw [List.map_map]
  exact List.map_id ids

namespace Node

theorem visitsType_idents {α : Type} (m : Resolver α) (s : Stage) (type : Node) :
    (visitsType m s type).map Visit.ident = type.idents := by
  cases type with
  | structType name => rfl
  | _ => exact map_never _

mutual

theorem visitsExpr_idents (e : Node) (s : Stage) : (visitsExpr e s).map Visit.ident = e.idents := by
  cases e with
  | ident | dot | assign | call | unary | binary =>
    simp [visitsExpr, idents, Visit.byStep, visitsExpr_idents, visitsExprs_idents]
  | _ => exact map_never _

theorem visitsExprs_idents (es : List Node) (s : Stage) :
    (visitsExprs es s).map Visit.ident = identsAll es := by
  cases es <;> simp [visitsExprs, identsAll, visitsExpr_idents, visitsExprs_idents]

end

mutual

theorem visitsDecl_idents (global : Nat) (d : Node) (s : Stage) :
    (visitsDecl global d s).map Visit.ident = d.idents := by
  cases d with
  | varDecl | formalDecl | fnDecl | structDecl =>
    simp [visitsDecl, idents, Visit.byStep, visitsType_idents, visitsDecls_idents,
      visitsStmts_idents]
  | _ => exact map_never _

theorem visitsDecls_idents (global : Nat) (ds : List Node) (s : Stage) :
    (visitsDecls global ds s).map Visit.ident = identsAll ds := by
  cases ds <;> simp [visitsDecls, identsAll, visitsDecl_idents, visitsDecls_idents]

theorem visitsStmt_idents (global : Nat) (n : Node) (s : Stage) :
    (visitsStmt global n s).map Visit.ident = n.idents := by
  cases n with
  | assignStmt | stepStmt | readStmt | writeStmt | ifStmt | ifElseStmt | whileStmt | callStmt
  | returnStmt =>
    simp [visitsStmt, idents, visitsExpr_idents, visitsDecls_idents, visitsStmts_idents]
  | _ => exact map_never _

theorem visitsStmts_idents (global : Nat) (ns : List Node) (s : Stage) :
    (visitsStmts global ns s).map Visit.ident = identsAll ns := by
  cases ns <;> simp [visitsStmts, identsAll, visitsStmt_idents, visitsStmts_idents]

end

end Node

end Idents

end Sema
