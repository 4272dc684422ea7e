import Mathlib.Logic.Function.Basic
import Sema.Fault
import Sema.Proofs.Tree.Relabel

/-!
# Renaming

Names of a program are told apart by equality only, but for the names of the scalar types and the
blank name. A renaming keeps these and takes different names to different ones. It acts on all that
holds names: symbols, scopes, trees and faults.
-/

namespace Sema

structure Renaming where
  apply : String → String
  injective : Function.Injective apply
  apply_text : ∀ prim : PrimType, apply prim.text = prim.text
  apply_blank : apply "" = ""

instance : CoeFun Renaming fun _ => String → String := ⟨Renaming.apply⟩

namespace Renaming

variable (r : Renaming)

@[simp] theorem apply_inj {name name' : String} : r name = r name' ↔ name = name' :=
  r.injective.eq_iff

@[simp] theorem apply_eq_blank {name : String} : r name = "" ↔ name = "" := by
  rw [← r.apply_blank, apply_inj, r.apply_blank]

theorem apply_eq_text {name : String} (prim : PrimType) :
    r name = prim.text ↔ name = prim.text := by
  rw [← r.apply_text, apply_inj, r.apply_text]

end Renaming

attribute [simp] Renaming.apply_text

mutual

def Symbol.rename (r : Renaming) : Symbol → Symbol
  | .var type => .var (r type)
  | .function params result => .function (params.map r) (r result)
  | .structDecl name none => .structDecl (r name) none
  | .structDecl name (some ⟨scopes⟩) => .structDecl (r name) (some ⟨Symbol.renameScopes r scopes⟩)
  | .structVar struct => .structVar (r struct)
  | .unknown type => .unknown (r type)

def Symbol.renameScopes (r : Renaming) : List Scope → List Scope
  | [] => []
  | scope :: rest => Symbol.renameScope r scope :: Symbol.renameScopes r rest

def Symbol.renameScope (r : Renaming) : Scope → Scope
  | [] => []
  | (name, none) :: entries => (r name, none) :: Symbol.renameScope r entries
  | (name, some s) :: entries => (r name, some (s.rename r)) :: Symbol.renameScope r entries

end

def Scope.rename (r : Renaming) (scope : Scope) : Scope :=
  scope.map fun entry => (r entry.1, entry.2.map (Symbol.rename r))

def SymbolTable.rename (r : Renaming) (t : SymbolTable) : SymbolTable :=
  ⟨t.scopes.map (Scope.rename r)⟩

def StructDef.rename (r : Renaming) (d : StructDef) : StructDef :=
  ⟨r d.name, d.fields.map (SymbolTable.rename r)⟩

section Symbols

variable (r : Renaming)

theorem Symbol.renameScope_eq (scope : Scope) :
    Symbol.renameScope r scope = Scope.rename r scope := by
  induction scope with
  | nil => rfl
  | cons entry scope ih =>
    obtain ⟨name, _ | s⟩ := entry <;> rw [Symbol.renameScope, ih] <;> rfl

theorem Symbol.rename_structDecl (name : String) (fields : Option SymbolTable) :
    (Symbol.structDecl name fields).rename r =
      .structDecl (r name) (fields.map (SymbolTable.rename r)) := by
  have hscopes (scopes : List Scope) :
      Symbol.renameScopes r scopes = scopes.map (Scope.rename r) := by
    induction scopes with
    | nil => rfl
    | cons scope rest ih => rw [Symbol.renameScopes, ih, Symbol.renameScope_eq, List.map_cons]
  obtain _ | ⟨scopes⟩ := fields
  · rw [Symbol.rename, Option.map_none]
  · rw [Symbol.rename, hscopes]
    rfl

theorem StructDef.symbol_rename (d : StructDef) : (d.rename r).symbol = d.symbol.rename r :=
  (Symbol.rename_structDecl r d.name d.fields).symm

theorem Symbol.structDef?_rename (s : Symbol) :
    (s.rename r).structDef? = s.structDef?.map (StructDef.rename r) := by
  cases s with
  | structDecl name fields =>
    rw [Symbol.rename_structDecl]
    rfl
  | _ =>
    rw [Symbol.rename]
    rfl

theorem Scope.lookup_rename (scope : Scope) (name : String) :
    (Scope.rename r scope).lookup (r name) =
      (scope.lookup name).map (Option.map (Symbol.rename r)) := by
  induction scope with
  | nil => rfl
  | cons entry scope ih =>
    have hsame : (r name == r entry.1) = (name == entry.1) := by
      rw [Bool.eq_iff_iff, beq_iff_eq, beq_iff_eq, r.apply_inj]
    rw [Scope.rename, List.map_cons, List.lookup_cons, List.lookup_cons, hsame]
    cases name == entry.1 with
    | true => rfl
    | false => exact ih

theorem Scope.rename_snoc (scope : Scope) (name : String) (s : Symbol) :
    Scope.rename r (scope ++ [(name, some s)]) =
      Scope.rename r scope ++ [(r name, some (s.rename r))] := by
  simp [Scope.rename]

theorem SymbolTable.structIn?_rename (scope : Scope) (name : String) :
    SymbolTable.structIn? (r name) (Scope.rename r scope) =
      (SymbolTable.structIn? name scope).map (StructDef.rename r) := by
  rw [SymbolTable.structIn?, SymbolTable.structIn?, Scope.lookup_rename]
  obtain _ | _ | s := scope.lookup name
  · rfl
  · rfl
  · exact Symbol.structDef?_rename r s

theorem SymbolTable.resolveStruct_rename (t : SymbolTable) (name : String) :
    (t.rename r).resolveStruct (r name) = (t.resolveStruct name).map (StructDef.rename r) := by
  obtain ⟨scopes⟩ := t
  unfold SymbolTable.resolveStruct SymbolTable.rename
  induction scopes with
  | nil => rfl
  | cons scope rest ih =>
    rw [List.map_cons, List.findSome?_cons, List.findSome?_cons, SymbolTable.structIn?_rename, ih]
    cases SymbolTable.structIn? name scope <;> rfl

theorem SymbolTable.lookupLexical_rename (t : SymbolTable) (name : String) :
    (t.rename r).lookupLexical (r name) =
      (t.lookupLexical name).map (Option.map (Symbol.rename r)) := by
  have hfind (scopes : List Scope) :
      ((scopes.map (Scope.rename r)).findSome? (·.lookup (r name))) =
        (scopes.findSome? (·.lookup name)).map (Option.map (Symbol.rename r)) := by
    induction scopes with
    | nil => rfl
    | cons scope rest ih =>
      rw [List.map_cons, List.findSome?_cons, List.findSome?_cons, Scope.lookup_rename, ih]
      cases scope.lookup name <;> rfl
  obtain ⟨_ | ⟨scope, rest⟩⟩ := t
  · rfl
  · have hfound := hfind (scope :: rest)
    simp only [SymbolTable.lookupLexical, SymbolTable.rename, List.map_cons, List.isEmpty_cons,
      Bool.false_eq_true, if_false] at hfound ⊢
    rw [hfound]
    generalize List.findSome? _ (scope :: rest) = found
    obtain _ | _ | s := found <;> rfl

theorem StructDef.field_rename (d : StructDef) (name : String) :
    (d.rename r).field (r name) = (d.field name).map (Option.map (Symbol.rename r)) := by
  obtain ⟨struct, _ | ⟨_ | ⟨scope, rest⟩⟩⟩ := d
  · rfl
  · rfl
  · have hlookup := Scope.lookup_rename r scope name
    simp only [StructDef.rename, StructDef.field, SymbolTable.rename, Option.map_some,
      SymbolTable.lookupLocal, List.map_cons, hlookup]
    obtain _ | _ | s := scope.lookup name <;> rfl

@[simp] theorem SymbolTable.depth_rename (t : SymbolTable) :
    ScopeStack.depth (t.rename r) = t.depth :=
  List.length_map ..

end Symbols

def TableFault.rename (r : Renaming) : TableFault → TableFault
  | .duplicate name => .duplicate (r name)
  | why => why

def Breach.rename (r : Renaming) : Breach → Breach
  | .functionNotGlobal name => .functionNotGlobal (r name)
  | .structNotGlobal name => .structNotGlobal (r name)
  | .structNotInScope name => .structNotInScope (r name)
  | what => what

def Fault.rename (r : Renaming) : Fault → Fault
  | .breach what pos => .breach (what.rename r) pos
  | .table why => .table (why.rename r)
  | fault => fault

private theorem mapError_ok {ε ε' α : Type} (f : ε → ε') (a : α) :
    (Except.ok a).mapError f = .ok a := rfl

private theorem mapError_error {ε ε' α : Type} (f : ε → ε') (why : ε) :
    (Except.error why : Except ε α).mapError f = .error (f why) := rfl

theorem SymbolTable.declare_rename (r : Renaming) (t : SymbolTable) (name : String) (s : Symbol) :
    (t.rename r).declare (r name) (some (s.rename r)) =
      ((t.declare name (some s)).map (SymbolTable.rename r)).mapError (TableFault.rename r) := by
  by_cases hname : name = ""
  · simp [SymbolTable.declare, hname, r.apply_blank, Except.map, mapError_error, TableFault.rename]
  · obtain ⟨_ | ⟨scope, rest⟩⟩ := t
    · simp [SymbolTable.declare, hname, SymbolTable.rename, Except.map, mapError_error,
        TableFault.rename]
    · have hlookup := Scope.lookup_rename r scope name
      cases hfound : scope.lookup name with
      | none =>
        rw [hfound] at hlookup
        simp [SymbolTable.declare, hname, SymbolTable.rename, hfound, hlookup, Except.map,
          mapError_ok, Scope.rename_snoc]
      | some entry =>
        rw [hfound] at hlookup
        simp [SymbolTable.declare, hname, SymbolTable.rename, hfound, hlookup, Except.map,
          mapError_error, TableFault.rename]

/-- The identifier with its name and its symbol renamed. -/
def Ident.rename (r : Renaming) (id : Ident) : Ident :=
  { id with name := r id.name, symbol := id.symbol.map (Symbol.rename r) }

namespace Node

abbrev rename (r : Renaming) : Node → Node := relabel (Ident.rename r) (Ident.rename r) id

abbrev renameAll (r : Renaming) : List Node → List Node :=
  relabelAll (Ident.rename r) (Ident.rename r) id

variable (r : Renaming)

@[simp] theorem pos_rename (n : Node) : (n.rename r).pos = n.pos := by
  have huse (id : Ident) : (id.rename r).pos = id.pos := rfl
  exact pos_relabel huse n

@[simp] theorem typeName?_rename (n : Node) : (n.rename r).typeName? = n.typeName?.map r :=
  typeName?_relabel r.apply_text (fun _ => rfl) n

@[simp] theorem typeNames?_renameAll (formals : List Node) :
    typeNames? (renameAll r formals) = (typeNames? formals).map (List.map r) :=
  typeNames?_relabelAll r.apply_text (fun _ => rfl) formals

end Node

end Sema
