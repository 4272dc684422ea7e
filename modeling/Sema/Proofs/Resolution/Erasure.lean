import Sema.Proofs.Tree.Erasure
import Sema.Proofs.Resolution.Returns

/-!
# Name analysis writes nothing but symbols

Whether it returns or is stopped, and wherever it starts, the analysis leaves a tree that is the
same as before up to symbols.
-/

namespace Sema

open Resolver

section Steps

variable (s : Stage)

@[simp] theorem bindUse_erase (id : Ident) : (bindUse id s).value.erase = id.erase := by
  obtain ⟨t, _ | why⟩ := s
  · rw [bindUse, unlessStopped_none]
    split <;> rfl
  · rfl

@[simp] theorem bindStruct_erase (id : Ident) : (bindStruct id s).value.1.erase = id.erase := by
  obtain ⟨t, _ | why⟩ := s
  · rw [bindStruct, unlessStopped_none]
    split <;> rfl
  · rfl

@[simp] theorem declare_erase (id : Ident) (symbol : Symbol) :
    (declare id symbol s).value.erase = id.erase := by
  obtain ⟨t, _ | why⟩ := s
  · rw [declare, unlessStopped_none]
    split <;> rfl
  · rfl

@[simp] theorem bindField_erase (owner field : Ident) :
    (bindField owner field s).value.erase = field.erase := by
  obtain ⟨t, _ | why⟩ := s
  · rw [bindField, unlessStopped_none]
    split
    · rfl
    · split
      · rfl
      · split <;> rfl
    · rfl
  · rfl

@[simp] theorem bindFieldOf_erase (base : Node) (field : Ident) :
    (bindFieldOf base field s).value.erase = field.erase := by
  unfold bindFieldOf
  cases base.pathEnd? with
  | none => rfl
  | some owner => exact bindField_erase s owner field

@[simp] theorem resolveResultType_erase (type : Node) :
    (resolveResultType type s).value.erase = type.erase := by
  cases type with
  | structType name => simp [resolveResultType, Node.relabel]
  | _ => rfl

@[simp] theorem declareFunction_erase (type : Node) (id : Ident) (formals : List Node) :
    (declareFunction type id formals s).value.erase = id.erase := by
  cases hparams : Node.typeNames? formals with
  | none => simp [declareFunction, hparams]
  | some params =>
    cases hresult : type.typeName? with
    | none => simp [declareFunction, hparams, hresult]
    | some result => simp [declareFunction, hparams, hresult]

theorem declareStorage_erase (type : Node) (id : Ident) :
    (declareStorage type id s).value.1.erase = type.erase ∧
      (declareStorage type id s).value.2.erase = id.erase := by
  cases type with
  | primType prim => cases prim <;> simp [declareStorage]
  | structType name =>
    have hname := bindStruct_erase s name
    simp only [declareStorage, bind_apply]
    generalize bindStruct name s = bound at hname ⊢
    obtain ⟨⟨name', _ | d⟩, s', rs⟩ := bound
    · exact ⟨congrArg Node.structType hname, rfl⟩
    · exact ⟨congrArg Node.structType hname, declare_erase s' id _⟩
  | _ => exact ⟨rfl, rfl⟩

@[simp] theorem reject_value (slot : Slot) (node : Node) : (reject slot node s).value = node := rfl

@[simp] theorem inScope_value {α : Type} (body : Resolver α) :
    (inScope body s).value = (body (openScope s).stage).value := rfl

end Steps

mutual

theorem resolveExpr_erase (e : Node) (s : Stage) : (resolveExpr e s).value.erase = e.erase := by
  cases e with
  | ident id => simp [resolveExpr, Node.relabel]
  | dot base field => simp [resolveExpr, Node.relabel, resolveExpr_erase base]
  | assign target value =>
    simp [resolveExpr, Node.relabel, resolveExpr_erase target, resolveExpr_erase value]
  | call callee args => simp [resolveExpr, Node.relabel, resolveExprs_erase args]
  | unary op operand => simp [resolveExpr, Node.relabel, resolveExpr_erase operand]
  | binary op left right =>
    simp [resolveExpr, Node.relabel, resolveExpr_erase left, resolveExpr_erase right]
  | _ => rfl

theorem resolveExprs_erase (es : List Node) (s : Stage) :
    Node.eraseAll (resolveExprs es s).value = Node.eraseAll es := by
  cases es with
  | nil => rfl
  | cons e es =>
    simp [resolveExprs, Node.relabelAll, resolveExpr_erase e, resolveExprs_erase es]

end

mutual

theorem resolveDecl_erase (global : Nat) (d : Node) (s : Stage) :
    (resolveDecl global d s).value.erase = d.erase := by
  cases d with
  | varDecl type id => simp [resolveDecl, Node.relabel, declareStorage_erase s type id]
  | formalDecl type id => simp [resolveDecl, Node.relabel, declareStorage_erase s type id]
  | fnDecl type id formals decls stmts =>
    simp [resolveDecl, Node.relabel, resolveDecls_erase global formals,
      resolveDecls_erase global decls, resolveStmts_erase global stmts]
  | structDecl id decls => simp [resolveDecl, Node.relabel, resolveDecls_erase global decls]
  | _ => rfl

theorem resolveDecls_erase (global : Nat) (ds : List Node) (s : Stage) :
    Node.eraseAll (resolveDecls global ds s).value = Node.eraseAll ds := by
  cases ds with
  | nil => rfl
  | cons d ds =>
    simp [resolveDecls, Node.relabelAll, resolveDecl_erase global d, resolveDecls_erase global ds]

theorem resolveStmt_erase (global : Nat) (n : Node) (s : Stage) :
    (resolveStmt global n s).value.erase = n.erase := by
  cases n with
  | assignStmt e | stepStmt op e | readStmt e | writeStmt e | callStmt e =>
    simp [resolveStmt, Node.relabel, resolveExpr_erase e]
  | ifStmt cond decls stmts | whileStmt cond decls stmts =>
    simp [resolveStmt, Node.relabel, resolveExpr_erase cond, resolveDecls_erase global decls,
      resolveStmts_erase global stmts]
  | ifElseStmt cond ds ss ds' ss' =>
    simp [resolveStmt, Node.relabel, resolveExpr_erase cond, resolveDecls_erase global ds,
      resolveStmts_erase global ss, resolveDecls_erase global ds', resolveStmts_erase global ss']
  | returnStmt value pos =>
    by_cases hvalue : value = .missing
    · subst hvalue
      rfl
    · rw [resolveStmt_return hvalue]
      simp [Node.relabel, resolveExpr_erase value]
  | _ => rfl

theorem resolveStmts_erase (global : Nat) (ss : List Node) (s : Stage) :
    Node.eraseAll (resolveStmts global ss s).value = Node.eraseAll ss := by
  cases ss with
  | nil => rfl
  | cons n ss =>
    simp [resolveStmts, Node.relabelAll, resolveStmt_erase global n, resolveStmts_erase global ss]

end

/-- The program stays as it was written. -/
theorem resolveProgram_erase (program : Program) (table : SymbolTable) :
    Node.eraseAll (resolveProgram program table).value = Node.eraseAll program :=
  resolveDecls_erase _ program _

end Sema
