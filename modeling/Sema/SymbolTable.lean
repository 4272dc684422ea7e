import Sema.Symbol

/-! # Symbol tables

Declaring, leaving and looking up. An operation that fails says why and hands back no table, so a
failed operation changes nothing.
-/

namespace Sema

/-- The operations that need an open scope. -/
inductive TableOp where
  | exitScope | declare | lookupLocal | lookupLexical
  deriving DecidableEq, Repr

def TableOp.text : TableOp → String
  | .exitScope => "exit_scope"
  | .declare => "declare"
  | .lookupLocal => "lookup_local"
  | .lookupLexical => "lookup_lexical"

inductive TableFault where
  | noOpenScope (op : TableOp)
  | duplicate (name : String)
  /-- a declaration without a name or without a symbol -/
  | incomplete
  deriving DecidableEq, Repr

def TableFault.message : TableFault → String
  | .noOpenScope op => op.text ++ " on a symbol table with no open scope"
  | .duplicate name => "'" ++ name ++ "' is already declared in this scope"
  | .incomplete => "declare() needs a name and a symbol"

/-- A struct declaration as a table holds it. -/
structure StructDef where
  name : String
  fields : Option SymbolTable

def StructDef.symbol (d : StructDef) : Symbol := .structDecl d.name d.fields

def Symbol.structDef? : Symbol → Option StructDef
  | .structDecl n fields => some ⟨n, fields⟩
  | _ => none

/-- Keeps the first place of a repeated name and its last symbol. -/
def Scope.insert (scope : Scope) (name : String) (symbol : Option Symbol) : Scope :=
  if scope.any (·.1 == name) then
    scope.map fun e => if e.1 == name then (name, symbol) else e
  else scope ++ [(name, symbol)]

def Scope.ofList (entries : List (String × Option Symbol)) : Scope :=
  entries.foldl (fun scope e => Scope.insert scope e.1 e.2) []

def Scope.text (scope : Scope) : String :=
  "\x7b" ++ ", ".intercalate (scope.map fun e => e.1 ++ "=" ++ (e.2.elim "None" Symbol.text)) ++ "\x7d"

namespace ScopeStack

variable {σ : Type}

def empty : ScopeStack σ := ⟨[]⟩

def ofScope (scope : List (String × σ)) : ScopeStack σ := ⟨[scope]⟩

def depth (t : ScopeStack σ) : Nat := t.scopes.length

def enterScope (t : ScopeStack σ) : ScopeStack σ := ⟨[] :: t.scopes⟩

/-- The innermost scope and what remains without it. -/
def exitScope (t : ScopeStack σ) : Except TableFault (List (String × σ) × ScopeStack σ) :=
  match t.scopes with
  | [] => .error (.noOpenScope .exitScope)
  | scope :: rest => .ok (scope, ⟨rest⟩)

@[simp] theorem depth_enterScope (t : ScopeStack σ) : t.enterScope.depth = t.depth + 1 := rfl

@[simp] theorem exitScope_enterScope (t : ScopeStack σ) :
    t.enterScope.exitScope = .ok ([], t) := rfl

end ScopeStack

namespace SymbolTable

def declare (t : SymbolTable) (name : String) (symbol : Option Symbol) :
    Except TableFault SymbolTable :=
  if name = "" ∨ symbol.isNone then .error .incomplete
  else match t.scopes with
    | [] => .error (.noOpenScope .declare)
    | scope :: rest =>
      if (scope.lookup name).isSome then .error (.duplicate name)
      else .ok ⟨(scope ++ [(name, symbol)]) :: rest⟩

def lookupLocal (t : SymbolTable) (name : String) : Except TableFault (Option Symbol) :=
  match t.scopes with
  | [] => .error (.noOpenScope .lookupLocal)
  | scope :: _ => .ok (scope.lookup name).join

/-- The innermost scope that has the name decides, even if it has it without a symbol. -/
def lookupLexical (t : SymbolTable) (name : String) : Except TableFault (Option Symbol) :=
  if t.scopes.isEmpty then .error (.noOpenScope .lookupLexical)
  else .ok (t.scopes.findSome? (·.lookup name)).join

/-- The struct a scope declares under the name, if that is what the name stands for there. -/
def structIn? (name : String) (scope : Scope) : Option StructDef :=
  (scope.lookup name).join.bind Symbol.structDef?

/-- The innermost struct of that name. Other entries of the name are passed over, so a variable that
shadows a struct's name does not hide its layout. -/
def resolveStruct (t : SymbolTable) (name : String) : Option StructDef :=
  t.scopes.findSome? (structIn? name)

/-- Every scope on a line of its own, innermost first. -/
def dump (t : SymbolTable) : String :=
  "\n".intercalate ("=== Sym Table ===" :: t.scopes.map Scope.text)

def summary (t : SymbolTable) : String := "SymbolTable(depth=" ++ toString t.depth ++ ")"

end SymbolTable

end Sema
