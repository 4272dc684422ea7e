/-! # Symbols

What a declared name stands for. A struct keeps its fields in a stack of scopes of its own, so
symbols and scopes are defined together.
-/

namespace Sema

/-- Nested scopes, innermost first. A scope lists its names in the order they were declared. -/
structure ScopeStack (σ : Type) where
  scopes : List (List (String × σ))

inductive Symbol where
  /-- a variable of the named scalar type -/
  | var (type : String)
  | function (params : List String) (result : String)
  /-- a struct's name, with its fields if they are known -/
  | structDecl (name : String) (fields : Option (ScopeStack (Option Symbol)))
  /-- a variable whose layout is that of the named struct -/
  | structVar (struct : String)
  /-- a symbol of no kind that the analysis knows -/
  | unknown (type : String)

/-- One scope. A name may be present without a symbol. -/
abbrev Scope := List (String × Option Symbol)

abbrev SymbolTable := ScopeStack (Option Symbol)

namespace Symbol

/-- The signature printed behind a use of the symbol. -/
def text : Symbol → String
  | .var t => t
  | .function ps r => ",".intercalate ps ++ "->" ++ r
  | .structDecl n _ => n
  | .structVar s => s
  | .unknown t => t

/-- Same kind and same parts. Two structs are the same only if neither has a table of fields:
tables are told apart even when their contents agree. -/
def same : Symbol → Symbol → Bool
  | .var t, .var u => t == u
  | .function ps r, .function qs s => ps == qs && r == s
  | .structDecl n none, .structDecl m none => n == m
  | .structVar s, .structVar t => s == t
  | .unknown t, .unknown u => t == u
  | _, _ => false

end Symbol

end Sema
