import Sema.Diagnostic.Basic
import Sema.Fault

/-! # Steps of name analysis

A step takes the open scopes to new ones, yields a value and reports diagnostics. A fault stops the
analysis for good: from then on every step leaves everything as it is. What was bound, declared and
reported before the fault stays, and so does every scope that was open.

A tree is followed however deep it is: what the depth of recursion is limited to where the analysis
runs is left out, here and in all that walks over trees.
-/

namespace Sema

/-- How far name analysis has come: the open scopes, and the fault that stopped it, if one did. -/
structure Stage where
  table : SymbolTable
  fault : Option Fault := none

structure Resolved (α : Type) where
  value : α
  stage : Stage
  reports : List Diagnostic := []

def Resolver (α : Type) : Type := Stage → Resolved α

namespace Resolver

variable {α β : Type}

instance : Monad Resolver where
  pure a := fun s => ⟨a, s, []⟩
  bind m f := fun s =>
    let first := m s
    let rest := f first.value first.stage
    ⟨rest.value, rest.stage, first.reports ++ rest.reports⟩

@[simp] theorem pure_apply (a : α) (s : Stage) : (pure a : Resolver α) s = ⟨a, s, []⟩ := rfl

@[simp] theorem bind_apply (m : Resolver α) (f : α → Resolver β) (s : Stage) :
    (m >>= f) s = ⟨(f (m s).value (m s).stage).value, (f (m s).value (m s).stage).stage,
      (m s).reports ++ (f (m s).value (m s).stage).reports⟩ := rfl

@[simp] theorem map_apply (f : α → β) (m : Resolver α) (s : Stage) :
    (f <$> m) s = ⟨f (m s).value, (m s).stage, (m s).reports⟩ :=
  congrArg (Resolved.mk (f (m s).value) (m s).stage) (List.append_nil _)

instance : LawfulMonad Resolver := LawfulMonad.mk' Resolver
  (fun m => funext fun s => congrArg (Resolved.mk (m s).value (m s).stage) (List.append_nil _))
  (by intro α β a f; funext s; simp)
  (by intro α β γ m f g; funext s; simp)

/-- Leaves the step out, with `idle` for its value, once a fault has stopped the analysis. -/
def unlessStopped (idle : α) (step : Stage → Resolved α) : Resolver α := fun s =>
  match s.fault with
  | some _ => ⟨idle, s, []⟩
  | none => step s

@[simp] theorem unlessStopped_some (idle : α) (step : Stage → Resolved α) (t : SymbolTable)
    (why : Fault) : unlessStopped idle step ⟨t, some why⟩ = ⟨idle, ⟨t, some why⟩, []⟩ := rfl

@[simp] theorem unlessStopped_none (idle : α) (step : Stage → Resolved α) (t : SymbolTable) :
    unlessStopped idle step ⟨t, none⟩ = step ⟨t, none⟩ := rfl

def stop (fault : Fault) : Resolver Unit :=
  unlessStopped () fun s => ⟨(), { s with fault := some fault }, []⟩

def report (kind : DiagnosticKind) (pos : Pos) : Resolver Unit :=
  unlessStopped () fun s => ⟨(), s, [.ofKind kind pos]⟩

def openScope : Resolver Unit :=
  unlessStopped () fun s => ⟨(), { s with table := s.table.enterScope }, []⟩

/-- Leaves the innermost scope and yields what was declared in it. -/
def closeScope : Resolver Scope :=
  unlessStopped [] fun s =>
    match s.table.exitScope with
    | .ok (scope, table) => ⟨scope, { s with table := table }, []⟩
    | .error why => ⟨[], { s with fault := some (.table why) }, []⟩

def inScope (body : Resolver α) : Resolver α := do
  openScope
  let a ← body
  let _ ← closeScope
  return a

/-- Finds a node in a place for something else. -/
def reject (slot : Slot) (node : Node) : Resolver Node := do
  stop (.unexpected slot node)
  return node

/-- Declares the name in the innermost scope and binds it to the symbol, unless it is taken. -/
def declare (id : Ident) (symbol : Symbol) : Resolver Ident :=
  unlessStopped id fun s =>
    match s.table.declare id.name (some symbol) with
    | .ok table => ⟨{ id with symbol := some symbol }, { s with table := table }, []⟩
    | .error (.duplicate _) => ⟨id, s, [.ofKind .multiplyDeclared id.pos]⟩
    | .error why => ⟨id, { s with fault := some (.table why) }, []⟩

/-- Binds a use to what its name stands for. A use of an unknown name keeps the symbol it has. -/
def bindUse (id : Ident) : Resolver Ident :=
  unlessStopped id fun s =>
    match s.table.lookupLexical id.name with
    | .ok (some symbol) => ⟨{ id with symbol := some symbol }, s, []⟩
    | .ok none => ⟨id, s, [.ofKind .undeclared id.pos]⟩
    | .error why => ⟨id, { s with fault := some (.table why) }, []⟩

/-- Binds the name in a struct type to that struct, and yields the struct if there is one. -/
def bindStruct (id : Ident) : Resolver (Ident × Option StructDef) :=
  unlessStopped (id, none) fun s =>
    match s.table.resolveStruct id.name with
    | some d => ⟨({ id with symbol := some d.symbol }, some d), s, []⟩
    | none => ⟨(id, none), s, [.ofKind .undefinedStructType id.pos]⟩

/-- Binds a field by the layout of the struct that `owner`, the identifier before it, is a variable
of. An owner without a symbol has been blamed already. -/
def bindField (owner field : Ident) : Resolver Ident :=
  unlessStopped field fun s =>
    match owner.symbol with
    | none => ⟨field, s, []⟩
    | some (.structVar struct) =>
      match s.table.resolveStruct struct with
      | none => ⟨field, { s with fault := some (.breach (.structNotInScope struct) field.pos) }, []⟩
      | some d =>
        match d.field field.name with
        | .ok (some symbol) => ⟨{ field with symbol := some symbol }, s, []⟩
        | .ok none => ⟨field, s, [.ofKind .invalidStructField field.pos]⟩
        | .error why => ⟨field, { s with fault := some why }, []⟩
    | some _ => ⟨field, s, [.ofKind .dotAccessOfNonStruct owner.pos]⟩

end Resolver

end Sema
