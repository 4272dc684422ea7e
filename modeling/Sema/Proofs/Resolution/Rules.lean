import Sema.Resolution.Decl

/-!
# The rules of name analysis

What an analysis that returns has done, as rules on the open scopes, the tree before and after, and
the reports. The rules leave out faults: a tree on which the analysis stops has no derivation.
-/

namespace Sema

open Resolver

/-- A use is bound to what its name stands for, or blamed. -/
inductive UseBinds (t : SymbolTable) (id : Ident) : Ident → List Diagnostic → Prop
  | known {s : Symbol} (h : t.lookupLexical id.name = .ok (some s)) :
      UseBinds t id { id with symbol := some s } []
  | unknown (h : t.lookupLexical id.name = .ok none) :
      UseBinds t id id [.ofKind .undeclared id.pos]

/-- The name in a struct type is bound to that struct, or blamed. -/
inductive StructBinds (t : SymbolTable) (id : Ident) :
    Ident → Option StructDef → List Diagnostic → Prop
  | known {d : StructDef} (h : t.resolveStruct id.name = some d) :
      StructBinds t id { id with symbol := some d.symbol } (some d) []
  | unknown (h : t.resolveStruct id.name = none) :
      StructBinds t id id none [.ofKind .undefinedStructType id.pos]

/-- A field is looked up in the layout of the struct that `owner` is a variable of. -/
inductive FieldBinds (t : SymbolTable) (owner field : Ident) : Ident → List Diagnostic → Prop
  | unbound (h : owner.symbol = none) : FieldBinds t owner field field []
  | known {struct : String} {d : StructDef} {s : Symbol}
      (h : owner.symbol = some (.structVar struct)) (hd : t.resolveStruct struct = some d)
      (hs : d.field field.name = .ok (some s)) :
      FieldBinds t owner field { field with symbol := some s } []
  | unknown {struct : String} {d : StructDef} (h : owner.symbol = some (.structVar struct))
      (hd : t.resolveStruct struct = some d) (hs : d.field field.name = .ok none) :
      FieldBinds t owner field field [.ofKind .invalidStructField field.pos]
  | nonStruct {s : Symbol} (h : owner.symbol = some s) (hs : ∀ struct, s ≠ .structVar struct) :
      FieldBinds t owner field field [.ofKind .dotAccessOfNonStruct owner.pos]

/-- A name is declared in the innermost scope unless that scope has it. -/
inductive Declares (t : SymbolTable) (id : Ident) (s : Symbol) :
    SymbolTable → Ident → List Diagnostic → Prop
  | fresh {t' : SymbolTable} (h : t.declare id.name (some s) = .ok t') :
      Declares t id s t' { id with symbol := some s } []
  | taken {name : String} (h : t.declare id.name (some s) = .error (.duplicate name)) :
      Declares t id s t id [.ofKind .multiplyDeclared id.pos]

/-- A variable, a field or a parameter is declared with the symbol its type asks for. -/
inductive StorageDeclares (t : SymbolTable) (id : Ident) :
    Node → SymbolTable → Node → Ident → List Diagnostic → Prop
  | void : StorageDeclares t id (.primType .void) t (.primType .void) id
      [.ofKind .badVoidType id.pos]
  | scalar {prim : PrimType} {t' : SymbolTable} {id' : Ident} {rs : List Diagnostic}
      (hprim : prim ≠ .void) (h : Declares t id (.var prim.text) t' id' rs) :
      StorageDeclares t id (.primType prim) t' (.primType prim) id' rs
  | struct {name name' id' : Ident} {d : StructDef} {t' : SymbolTable} {rs₁ rs₂ : List Diagnostic}
      (hname : StructBinds t name name' (some d) rs₁)
      (h : Declares t id (.structVar d.name) t' id' rs₂) :
      StorageDeclares t id (.structType name) t' (.structType name') id' (rs₁ ++ rs₂)
  | undefined {name name' : Ident} {rs : List Diagnostic}
      (hname : StructBinds t name name' none rs) :
      StorageDeclares t id (.structType name) t (.structType name') id rs

/-- The result type of a function is bound if it is a struct. -/
inductive ResultBinds (t : SymbolTable) : Node → Node → List Diagnostic → Prop
  | struct {name name' : Ident} {d : Option StructDef} {rs : List Diagnostic}
      (h : StructBinds t name name' d rs) : ResultBinds t (.structType name) (.structType name') rs
  | other {type : Node} (h : ∀ name, type ≠ .structType name) : ResultBinds t type type []

/-- What name analysis goes through: expressions, statements or declarations. -/
inductive Phrase where
  | exprs | stmts | decls
  deriving DecidableEq

/-- Expressions and statements leave the open scopes as they are. A block has a scope of its own on
top of them, and the declarations of a list fill the innermost scope. -/
inductive Resolves (global : Nat) :
    Phrase → SymbolTable → List Node → SymbolTable → List Node → List Diagnostic → Prop
  | nil {p : Phrase} {t : SymbolTable} : Resolves global p t [] t [] []
  | cons {p : Phrase} {t t₁ t₂ : SymbolTable} {n n' : Node} {ns ns' : List Node}
      {rs₁ rs₂ : List Diagnostic} (hhead : Resolves global p t [n] t₁ [n'] rs₁)
      (htail : Resolves global p t₁ ns t₂ ns' rs₂) :
      Resolves global p t (n :: ns) t₂ (n' :: ns') (rs₁ ++ rs₂)
  | lit {t : SymbolTable} {value : Literal} {pos : Pos} :
      Resolves global .exprs t [.lit value pos] t [.lit value pos] []
  | ident {t : SymbolTable} {id id' : Ident} {rs : List Diagnostic} (h : UseBinds t id id' rs) :
      Resolves global .exprs t [.ident id] t [.ident id'] rs
  | dot {t : SymbolTable} {base base' : Node} {owner' field field' : Ident}
      {rs₁ rs₂ : List Diagnostic} (hpath : base.pathEnd?.isSome = true)
      (hbase : Resolves global .exprs t [base] t [base'] rs₁)
      (howner : base'.pathEnd? = some owner') (hfield : FieldBinds t owner' field field' rs₂) :
      Resolves global .exprs t [.dot base field] t [.dot base' field'] (rs₁ ++ rs₂)
  | assign {t : SymbolTable} {target target' value value' : Node} {rs : List Diagnostic}
      (h : Resolves global .exprs t [target, value] t [target', value'] rs) :
      Resolves global .exprs t [.assign target value] t [.assign target' value'] rs
  | call {t : SymbolTable} {callee callee' : Ident} {args args' : List Node}
      {rs₁ rs₂ : List Diagnostic} (hcallee : UseBinds t callee callee' rs₁)
      (hargs : Resolves global .exprs t args t args' rs₂) :
      Resolves global .exprs t [.call callee args] t [.call callee' args'] (rs₁ ++ rs₂)
  | unary {t : SymbolTable} {op : String} {e e' : Node} {rs : List Diagnostic}
      (h : Resolves global .exprs t [e] t [e'] rs) :
      Resolves global .exprs t [.unary op e] t [.unary op e'] rs
  | binary {t : SymbolTable} {op : String} {l l' r r' : Node} {rs : List Diagnostic}
      (h : Resolves global .exprs t [l, r] t [l', r'] rs) :
      Resolves global .exprs t [.binary op l r] t [.binary op l' r'] rs
  | assignStmt {t : SymbolTable} {e e' : Node} {rs : List Diagnostic}
      (h : Resolves global .exprs t [e] t [e'] rs) :
      Resolves global .stmts t [.assignStmt e] t [.assignStmt e'] rs
  | stepStmt {t : SymbolTable} {op : StepOp} {e e' : Node} {rs : List Diagnostic}
      (h : Resolves global .exprs t [e] t [e'] rs) :
      Resolves global .stmts t [.stepStmt op e] t [.stepStmt op e'] rs
  | readStmt {t : SymbolTable} {e e' : Node} {rs : List Diagnostic}
      (h : Resolves global .exprs t [e] t [e'] rs) :
      Resolves global .stmts t [.readStmt e] t [.readStmt e'] rs
  | writeStmt {t : SymbolTable} {e e' : Node} {rs : List Diagnostic}
      (h : Resolves global .exprs t [e] t [e'] rs) :
      Resolves global .stmts t [.writeStmt e] t [.writeStmt e'] rs
  | callStmt {t : SymbolTable} {e e' : Node} {rs : List Diagnostic}
      (h : Resolves global .exprs t [e] t [e'] rs) :
      Resolves global .stmts t [.callStmt e] t [.callStmt e'] rs
  | bareReturn {t : SymbolTable} {pos : Pos} :
      Resolves global .stmts t [.returnStmt .missing pos] t [.returnStmt .missing pos] []
  | returnStmt {t : SymbolTable} {e e' : Node} {pos : Pos} {rs : List Diagnostic}
      (h : Resolves global .exprs t [e] t [e'] rs) :
      Resolves global .stmts t [.returnStmt e pos] t [.returnStmt e' pos] rs
  | ifStmt {t : SymbolTable} {scope : Scope} {cond cond' : Node} {ds ds' ss ss' : List Node}
      {rs₁ rs₂ rs₃ : List Diagnostic} (hcond : Resolves global .exprs t [cond] t [cond'] rs₁)
      (hdecls : Resolves global .decls t.enterScope ds ⟨scope :: t.scopes⟩ ds' rs₂)
      (hstmts : Resolves global .stmts ⟨scope :: t.scopes⟩ ss ⟨scope :: t.scopes⟩ ss' rs₃) :
      Resolves global .stmts t [.ifStmt cond ds ss] t [.ifStmt cond' ds' ss']
        (rs₁ ++ (rs₂ ++ rs₃))
  | ifElseStmt {t : SymbolTable} {thenScope elseScope : Scope} {cond cond' : Node}
      {ds ds' ss ss' es es' fs fs' : List Node} {rs₁ rs₂ rs₃ rs₄ rs₅ : List Diagnostic}
      (hcond : Resolves global .exprs t [cond] t [cond'] rs₁)
      (hdecls : Resolves global .decls t.enterScope ds ⟨thenScope :: t.scopes⟩ ds' rs₂)
      (hstmts : Resolves global .stmts ⟨thenScope :: t.scopes⟩ ss ⟨thenScope :: t.scopes⟩ ss' rs₃)
      (hdecls' : Resolves global .decls t.enterScope es ⟨elseScope :: t.scopes⟩ es' rs₄)
      (hstmts' :
        Resolves global .stmts ⟨elseScope :: t.scopes⟩ fs ⟨elseScope :: t.scopes⟩ fs' rs₅) :
      Resolves global .stmts t [.ifElseStmt cond ds ss es fs] t [.ifElseStmt cond' ds' ss' es' fs']
        (rs₁ ++ ((rs₂ ++ rs₃) ++ (rs₄ ++ rs₅)))
  | whileStmt {t : SymbolTable} {scope : Scope} {cond cond' : Node} {ds ds' ss ss' : List Node}
      {rs₁ rs₂ rs₃ : List Diagnostic} (hcond : Resolves global .exprs t [cond] t [cond'] rs₁)
      (hdecls : Resolves global .decls t.enterScope ds ⟨scope :: t.scopes⟩ ds' rs₂)
      (hstmts : Resolves global .stmts ⟨scope :: t.scopes⟩ ss ⟨scope :: t.scopes⟩ ss' rs₃) :
      Resolves global .stmts t [.whileStmt cond ds ss] t [.whileStmt cond' ds' ss']
        (rs₁ ++ (rs₂ ++ rs₃))
  | varDecl {t t' : SymbolTable} {type type' : Node} {id id' : Ident} {rs : List Diagnostic}
      (h : StorageDeclares t id type t' type' id' rs) :
      Resolves global .decls t [.varDecl type id] t' [.varDecl type' id'] rs
  | formalDecl {t t' : SymbolTable} {type type' : Node} {id id' : Ident} {rs : List Diagnostic}
      (h : StorageDeclares t id type t' type' id' rs) :
      Resolves global .decls t [.formalDecl type id] t' [.formalDecl type' id'] rs
  | fnDecl {t t₁ t₂ : SymbolTable} {scope : Scope} {type type' : Node} {id id' : Ident}
      {formals formals' decls decls' stmts stmts' : List Node} {params : List String}
      {result : String} {rs₁ rs₂ rs₃ rs₄ rs₅ : List Diagnostic} (hdepth : t.depth = global)
      (htype : ResultBinds t type type' rs₁) (hparams : Node.typeNames? formals = some params)
      (hresult : type'.typeName? = some result)
      (hid : Declares t id (.function params result) t₁ id' rs₂)
      (hformals : Resolves global .decls t₁.enterScope formals t₂ formals' rs₃)
      (hdecls : Resolves global .decls t₂ decls ⟨scope :: t₁.scopes⟩ decls' rs₄)
      (hstmts : Resolves global .stmts ⟨scope :: t₁.scopes⟩ stmts ⟨scope :: t₁.scopes⟩ stmts' rs₅) :
      Resolves global .decls t [.fnDecl type id formals decls stmts]
        t₁ [.fnDecl type' id' formals' decls' stmts'] (rs₁ ++ (rs₂ ++ (rs₃ ++ (rs₄ ++ rs₅))))
  | structDecl {t t' : SymbolTable} {fields : Scope} {id id' : Ident} {decls decls' : List Node}
      {rs₁ rs₂ : List Diagnostic} (hdepth : t.depth = global)
      (hdecls : Resolves global .decls t.enterScope decls ⟨fields :: t.scopes⟩ decls' rs₁)
      (hid : Declares t id (.structDecl id.name (some (.ofScope fields))) t' id' rs₂) :
      Resolves global .decls t [.structDecl id decls] t' [.structDecl id' decls'] (rs₁ ++ rs₂)

end Sema
