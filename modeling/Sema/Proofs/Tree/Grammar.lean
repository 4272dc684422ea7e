import Sema.Proofs.Tree.Parts

/-!
# Trees that conform to the grammar

Every slot holds a node of its family and every declaration has a name. Operators may be any text,
and a statement may consist of any expression.
-/

namespace Sema

namespace Node

def isType : Node → Bool
  | .primType _ | .structType _ => true
  | _ => false

mutual

/-- A field is selected from an identifier or from another selection. -/
def isExpr : Node → Bool
  | .lit _ _ | .ident _ => true
  | .dot base _ => base.pathEnd?.isSome && base.isExpr
  | .assign target value => target.isExpr && value.isExpr
  | .call _ args => areExprs args
  | .unary _ operand => operand.isExpr
  | .binary _ left right => left.isExpr && right.isExpr
  | _ => false

def areExprs : List Node → Bool
  | [] => true
  | e :: es => e.isExpr && areExprs es

end

def isVarDecl : Node → Bool
  | .varDecl type id => type.isType && id.name != ""
  | _ => false

def isFormalDecl : Node → Bool
  | .formalDecl type id => type.isType && id.name != ""
  | _ => false

mutual

def isStmt : Node → Bool
  | .assignStmt e | .stepStmt _ e | .readStmt e | .writeStmt e | .callStmt e => e.isExpr
  | .ifStmt cond decls stmts | .whileStmt cond decls stmts =>
    cond.isExpr && decls.all isVarDecl && areStmts stmts
  | .ifElseStmt cond ds ss ds' ss' =>
    cond.isExpr && ds.all isVarDecl && areStmts ss && ds'.all isVarDecl && areStmts ss'
  | .returnStmt .missing _ => true
  | .returnStmt value _ => value.isExpr
  | _ => false

def areStmts : List Node → Bool
  | [] => true
  | s :: ss => s.isStmt && areStmts ss

end

def isTopDecl : Node → Bool
  | .varDecl type id => type.isType && id.name != ""
  | .fnDecl type id formals decls stmts =>
    type.isType && id.name != "" && formals.all isFormalDecl && decls.all isVarDecl &&
      areStmts stmts
  | .structDecl id decls => id.name != "" && decls.all isVarDecl
  | _ => false

theorem areExprs_iff {es : List Node} : areExprs es = true ↔ ∀ e ∈ es, e.isExpr = true := by
  induction es with
  | nil => simp [areExprs]
  | cons e es ih => simp [areExprs, ih]

theorem areStmts_iff {ss : List Node} : areStmts ss = true ↔ ∀ s ∈ ss, s.isStmt = true := by
  induction ss with
  | nil => simp [areStmts]
  | cons s ss ih => simp [areStmts, ih]

theorem isExpr_child {e m : Node} (h : e.isExpr = true) (hm : m ∈ e.children) :
    m.isExpr = true := by
  cases e with
  | call callee args => exact areExprs_iff.mp h m hm
  | dot | assign | unary | binary =>
    simp only [isExpr, children, Bool.and_eq_true, List.mem_cons, List.not_mem_nil, or_false] at h hm
    grind
  | lit | ident => cases hm
  | _ => cases h

theorem isStmt_return {value : Node} {pos : Pos} (h : value ≠ .missing) :
    (Node.returnStmt value pos).isStmt = value.isExpr := by
  rw [isStmt]
  exact h

theorem typeName?_of_isType {type : Node} (h : type.isType = true) :
    ∃ name, type.typeName? = some name := by
  cases type with
  | primType prim => exact ⟨prim.text, rfl⟩
  | structType id => exact ⟨id.name, rfl⟩
  | _ => cases h

theorem map_eq_of_typeNames? {α : Type} {f : Node → α} {g : String → α} {formals : List Node}
    {params : List String} (h : typeNames? formals = some params)
    (hformals : ∀ p ∈ formals, ∀ name, p.typed?.bind (·.1.typeName?) = some name → f p = g name) :
    formals.map f = params.map g := by
  induction formals generalizing params with
  | nil =>
    cases h
    rfl
  | cons p formals ih =>
    rw [typeNames?, List.mapM_cons] at h
    simp only [Option.bind_eq_bind, Option.bind_eq_some_iff, Option.pure_def] at h
    obtain ⟨name, hname, names, hnames, h⟩ := h
    cases h
    rw [List.forall_mem_cons] at hformals
    rw [List.map_cons, List.map_cons, hformals.1 name (Option.bind_eq_some_iff.mpr hname),
      ih hnames hformals.2]

end Node

def conforms (program : Program) : Bool := program.all Node.isTopDecl

end Sema
