import Sema.Proofs.Resolution.Returns
import Sema.Proofs.Tree.Parts

/-!
# The stages of an analysis

Name analysis with a record of the stages it passes through, one for each step it takes. The steps
are those of the analysis itself, and so is the outcome.
-/

namespace Sema

open Resolver

/-- A part of name analysis with the stages that its steps lead to, in order. It ends on the last of
them, and no step leads away from the stage at which a fault has stopped the analysis. -/
structure Traced (α : Type) where
  run : Resolver α
  stages : Stage → List Stage
  ends : ∀ s, (stages s).getLastD s = (run s).stage
  halts : ∀ t why, ∀ s ∈ stages ⟨t, some why⟩, s = ⟨t, some why⟩

namespace Traced

variable {α β : Type}

private theorem getLastD_append (as bs : List Stage) (s : Stage) :
    (as ++ bs).getLastD s = bs.getLastD (as.getLastD s) := by
  simp only [List.getLastD_eq_getLast?, List.getLast?_append]
  cases bs.getLast? <;> simp

instance (m : Traced α) : Inert m.run where
  stage_eq t why := by
    rw [← m.ends]
    cases hlast : (m.stages ⟨t, some why⟩).getLast? with
    | none => rw [List.getLastD_eq_getLast?, hlast, Option.getD_none]
    | some s =>
      rw [List.getLastD_eq_getLast?, hlast, Option.getD_some]
      exact m.halts t why s (List.mem_of_getLast? hlast)

instance : Monad Traced where
  pure a := ⟨pure a, fun _ => [], fun _ => rfl, by simp⟩
  bind m f :=
    { run := m.run >>= fun a => (f a).run
      stages := fun s => m.stages s ++ (f (m.run s).value).stages (m.run s).stage
      ends := by
        intro s
        rw [getLastD_append, m.ends, (f _).ends, bind_apply]
      halts := by
        intro t why s hs
        rcases List.mem_append.mp hs with hs | hs
        · exact m.halts t why s hs
        · rw [Inert.stage_eq (m := m.run) t why] at hs
          exact (f _).halts t why s hs }

/-- A step that leads from one stage to the next. -/
def step (m : Resolver α) [Inert m] : Traced α where
  run := m
  stages s := [(m s).stage]
  ends _ := rfl
  halts t why := by simp [Inert.stage_eq]

def inScope (body : Traced α) : Traced α := do
  step openScope
  let a ← body
  let _ ← step closeScope
  return a

@[simp] theorem run_pure (a : α) : (pure a : Traced α).run = pure a := rfl

@[simp] theorem run_bind (m : Traced α) (f : α → Traced β) :
    (m >>= f).run = m.run >>= fun a => (f a).run := rfl

@[simp] theorem run_step (m : Resolver α) [Inert m] : (step m).run = m := rfl

@[simp] theorem run_inScope (body : Traced α) : body.inScope.run = Resolver.inScope body.run := rfl

end Traced

open Traced (step)

mutual

def traceExpr : Node → Traced Node
  | .lit value pos => return .lit value pos
  | .ident id => return .ident (← step (bindUse id))
  | .dot base field => do
    step (requirePath base)
    let base ← traceExpr base
    return .dot base (← step (bindFieldOf base field))
  | .assign target value => return .assign (← traceExpr target) (← traceExpr value)
  | .call callee args => return .call (← step (bindUse callee)) (← traceExprs args)
  | .unary op operand => return .unary op (← traceExpr operand)
  | .binary op left right => return .binary op (← traceExpr left) (← traceExpr right)
  | node => step (reject .expression node)

def traceExprs : List Node → Traced (List Node)
  | [] => return []
  | e :: es => return (← traceExpr e) :: (← traceExprs es)

end

mutual

def traceDecl (global : Nat) : Node → Traced Node
  | .varDecl type id => do
    let (type, id) ← step (declareStorage type id)
    return .varDecl type id
  | .formalDecl type id => do
    let (type, id) ← step (declareStorage type id)
    return .formalDecl type id
  | .fnDecl type id formals decls stmts => do
    step (requireDepth global (.breach (.functionNotGlobal id.name) id.pos))
    let type ← step (resolveResultType type)
    let id ← step (declareFunction type id formals)
    Traced.inScope do
      let formals ← traceDecls global formals
      let decls ← traceDecls global decls
      let stmts ← traceStmts global stmts
      return .fnDecl type id formals decls stmts
  | .structDecl id decls => do
    step (requireDepth global (.breach (.structNotGlobal id.name) id.pos))
    step openScope
    let decls ← traceDecls global decls
    let fields ← step closeScope
    let id ← step (declare id (.structDecl id.name (some (.ofScope fields))))
    return .structDecl id decls
  | node => step (reject .declaration node)

def traceDecls (global : Nat) : List Node → Traced (List Node)
  | [] => return []
  | d :: ds => return (← traceDecl global d) :: (← traceDecls global ds)

def traceStmt (global : Nat) : Node → Traced Node
  | .assignStmt e => return .assignStmt (← traceExpr e)
  | .stepStmt op e => return .stepStmt op (← traceExpr e)
  | .readStmt e => return .readStmt (← traceExpr e)
  | .writeStmt e => return .writeStmt (← traceExpr e)
  | .ifStmt cond decls stmts => do
    let cond ← traceExpr cond
    Traced.inScope do
      let decls ← traceDecls global decls
      let stmts ← traceStmts global stmts
      return .ifStmt cond decls stmts
  | .ifElseStmt cond thenDecls thenStmts elseDecls elseStmts => do
    let cond ← traceExpr cond
    let (thenDecls, thenStmts) ← Traced.inScope do
      return (← traceDecls global thenDecls, ← traceStmts global thenStmts)
    let (elseDecls, elseStmts) ← Traced.inScope do
      return (← traceDecls global elseDecls, ← traceStmts global elseStmts)
    return .ifElseStmt cond thenDecls thenStmts elseDecls elseStmts
  | .whileStmt cond decls stmts => do
    let cond ← traceExpr cond
    Traced.inScope do
      let decls ← traceDecls global decls
      let stmts ← traceStmts global stmts
      return .whileStmt cond decls stmts
  | .callStmt e => return .callStmt (← traceExpr e)
  | .returnStmt .missing pos => return .returnStmt .missing pos
  | .returnStmt value pos => return .returnStmt (← traceExpr value) pos
  | node => step (reject .statement node)

def traceStmts (global : Nat) : List Node → Traced (List Node)
  | [] => return []
  | s :: ss => return (← traceStmt global s) :: (← traceStmts global ss)

end

/-- The steps over the node are those of its analysis, whatever the node is taken for. -/
structure IsTraced (global : Nat) (n : Node) : Prop where
  expr : (traceExpr n).run = resolveExpr n
  stmt : (traceStmt global n).run = resolveStmt global n
  decl : (traceDecl global n).run = resolveDecl global n

section IsTraced

variable {global : Nat}

private theorem run_exprs {es : List Node} (ih : ∀ e ∈ es, IsTraced global e) :
    (traceExprs es).run = resolveExprs es := by
  induction es with
  | nil => rfl
  | cons e es ihes =>
    rw [List.forall_mem_cons] at ih
    simp only [traceExprs, resolveExprs, Traced.run_bind, Traced.run_pure, ih.1.expr, ihes ih.2]

private theorem run_stmts {ss : List Node} (ih : ∀ s ∈ ss, IsTraced global s) :
    (traceStmts global ss).run = resolveStmts global ss := by
  induction ss with
  | nil => rfl
  | cons s ss ihss =>
    rw [List.forall_mem_cons] at ih
    simp only [traceStmts, resolveStmts, Traced.run_bind, Traced.run_pure, ih.1.stmt, ihss ih.2]

private theorem run_decls {ds : List Node} (ih : ∀ d ∈ ds, IsTraced global d) :
    (traceDecls global ds).run = resolveDecls global ds := by
  induction ds with
  | nil => rfl
  | cons d ds ihds =>
    rw [List.forall_mem_cons] at ih
    simp only [traceDecls, resolveDecls, Traced.run_bind, Traced.run_pure, ih.1.decl, ihds ih.2]

private theorem run_expr (e : Node) (ih : ∀ m ∈ e.children, IsTraced global m) :
    (traceExpr e).run = resolveExpr e := by
  cases e with
  | call callee args =>
    have hargs : ∀ m ∈ args, IsTraced global m := ih
    simp only [traceExpr, resolveExpr, Traced.run_bind, Traced.run_pure, Traced.run_step,
      run_exprs hargs]
  | dot base field =>
    have hbase := (ih base (by simp [Node.children])).expr
    simp only [traceExpr, resolveExpr, Traced.run_bind, Traced.run_pure, Traced.run_step, hbase]
  | assign e e' | binary op e e' =>
    have he := (ih e (by simp [Node.children])).expr
    have he' := (ih e' (by simp [Node.children])).expr
    simp only [traceExpr, resolveExpr, Traced.run_bind, Traced.run_pure, he, he']
  | unary op e =>
    have he := (ih e (by simp [Node.children])).expr
    simp only [traceExpr, resolveExpr, Traced.run_bind, Traced.run_pure, he]
  | _ => rfl

theorem traceStmt_return {value : Node} {pos : Pos} (h : value ≠ .missing) :
    traceStmt global (.returnStmt value pos) =
      (do return .returnStmt (← traceExpr value) pos) := by
  rw [traceStmt]
  exact h

private theorem run_stmt (n : Node) (ih : ∀ m ∈ n.children, IsTraced global m) :
    (traceStmt global n).run = resolveStmt global n := by
  cases n with
  | assignStmt e | stepStmt op e | readStmt e | writeStmt e | callStmt e =>
    have he := (ih e (by simp [Node.children])).expr
    simp only [traceStmt, resolveStmt, Traced.run_bind, Traced.run_pure, he]
  | ifStmt cond decls stmts | whileStmt cond decls stmts =>
    simp only [Node.children, List.forall_mem_cons, List.forall_mem_append] at ih
    obtain ⟨ihcond, ihdecls, ihstmts⟩ := ih
    simp only [traceStmt, resolveStmt, Traced.run_bind, Traced.run_pure, Traced.run_inScope,
      ihcond.expr, run_decls ihdecls, run_stmts ihstmts]
  | ifElseStmt cond ds ss ds' ss' =>
    simp only [Node.children, List.forall_mem_cons, List.forall_mem_append] at ih
    obtain ⟨ihcond, ihds, ihss, ihds', ihss'⟩ := ih
    simp only [traceStmt, resolveStmt, Traced.run_bind, Traced.run_pure, Traced.run_inScope,
      ihcond.expr, run_decls ihds, run_stmts ihss, run_decls ihds', run_stmts ihss']
  | returnStmt value pos =>
    by_cases hvalue : value = .missing
    · subst hvalue
      rfl
    · have he := (ih value (by simp [Node.children])).expr
      rw [traceStmt_return hvalue, resolveStmt_return hvalue]
      simp only [Traced.run_bind, Traced.run_pure, he]
  | _ => rfl

private theorem run_decl (d : Node) (ih : ∀ m ∈ d.children, IsTraced global m) :
    (traceDecl global d).run = resolveDecl global d := by
  cases d with
  | fnDecl type id formals decls stmts =>
    simp only [Node.children, List.forall_mem_cons, List.forall_mem_append] at ih
    obtain ⟨-, ihformals, ihdecls, ihstmts⟩ := ih
    simp only [traceDecl, resolveDecl, Traced.run_bind, Traced.run_pure, Traced.run_step,
      Traced.run_inScope, run_decls ihformals, run_decls ihdecls, run_stmts ihstmts]
  | structDecl id decls =>
    have hdecls : ∀ m ∈ decls, IsTraced global m := ih
    simp only [traceDecl, resolveDecl, Traced.run_bind, Traced.run_pure, Traced.run_step,
      run_decls hdecls]
  | _ => rfl

theorem isTraced (global : Nat) (n : Node) : IsTraced global n := by
  induction n using Node.induct with
  | step n ih => exact ⟨run_expr n ih, run_stmt n ih, run_decl n ih⟩

@[simp] theorem run_traceExpr (e : Node) : (traceExpr e).run = resolveExpr e :=
  (isTraced 0 e).expr

@[simp] theorem run_traceExprs (es : List Node) : (traceExprs es).run = resolveExprs es :=
  run_exprs fun e _ => isTraced 0 e

@[simp] theorem run_traceDecls (ds : List Node) :
    (traceDecls global ds).run = resolveDecls global ds :=
  run_decls fun d _ => isTraced global d

@[simp] theorem run_traceStmts (ss : List Node) :
    (traceStmts global ss).run = resolveStmts global ss :=
  run_stmts fun s _ => isTraced global s

end IsTraced

/-- Every stage of the analysis of a program on the given scopes, the one it starts from among
them. -/
def stagesOf (program : Program) (table : SymbolTable) : List Stage :=
  ⟨table, none⟩ :: (Traced.inScope (traceDecls (table.depth + 1) program)).stages ⟨table, none⟩

theorem getLast?_stagesOf (program : Program) (table : SymbolTable) :
    (stagesOf program table).getLast? = some (resolveProgram program table).stage := by
  rw [stagesOf, List.getLast?_cons, ← List.getLastD_eq_getLast?, Traced.ends, Traced.run_inScope,
    run_traceDecls]
  rfl

end Sema
