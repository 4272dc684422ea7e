import Sema.Typing.Program

/-!
# The type system

Which expressions have a type, which statements a function of a given result type may contain, and
which declarations are well typed. The rules know nothing of diagnostics, of their order or of the
error type.
-/

namespace Sema

/-- The identifier is bound and its symbol has the type. -/
def Ident.Denotes (id : Ident) (t : Ty) : Prop :=
  ∃ s, id.symbol = some s ∧ s.type = .ok t

namespace Ty

def IsFunction (t : Ty) : Prop := ∃ params result, t = .function params result

def IsStructName (t : Ty) : Prop := ∃ name, t = .structName name

def IsStructVar (t : Ty) : Prop := ∃ name, t = .structVar name

/-- Values of the type can be told equal or different. -/
def Comparable (t : Ty) : Prop := t ≠ .void ∧ ¬ t.IsFunction ∧ ¬ t.IsStructName

/-- Something of the type can be assigned to. -/
def Assignable (t : Ty) : Prop := ¬ t.IsFunction ∧ ¬ t.IsStructName

def Readable (t : Ty) : Prop := ¬ t.IsFunction ∧ ¬ t.IsStructName ∧ ¬ t.IsStructVar

def Writable (t : Ty) : Prop := t.Readable ∧ t ≠ .void

end Ty

inductive HasType : Node → Ty → Prop
  | int (value : Int) (pos : Pos) : HasType (.lit (.int value) pos) .int
  | string (lexeme : String) (pos : Pos) : HasType (.lit (.string lexeme) pos) .string
  | bool (value : Bool) (pos : Pos) : HasType (.lit (.bool value) pos) .bool
  | ident {id : Ident} {t : Ty} (h : id.Denotes t) : HasType (.ident id) t
  | dot {base : Node} {field : Ident} {t : Ty} (h : field.Denotes t) : HasType (.dot base field) t
  | negation {e : Node} (he : HasType e .int) : HasType (.unary "-" e) .int
  | complement {e : Node} (he : HasType e .bool) : HasType (.unary "!" e) .bool
  | arithmetic {op : String} {l r : Node} (hop : op ∈ arithmeticOps) (hl : HasType l .int)
      (hr : HasType r .int) : HasType (.binary op l r) .int
  | logical {op : String} {l r : Node} (hop : op ∈ logicalOps) (hl : HasType l .bool)
      (hr : HasType r .bool) : HasType (.binary op l r) .bool
  | relational {op : String} {l r : Node} (hop : op ∈ relationalOps) (hl : HasType l .int)
      (hr : HasType r .int) : HasType (.binary op l r) .bool
  | equality {op : String} {l r : Node} {t : Ty} (hop : op ∈ equalityOps) (hl : HasType l t)
      (hr : HasType r t) (ht : t.Comparable) : HasType (.binary op l r) .bool
  | assign {target value : Node} {t : Ty} (htarget : HasType target t) (hvalue : HasType value t)
      (ht : t.Assignable) : HasType (.assign target value) t
  /-- the arguments have the types of the parameters, one by one -/
  | call {callee : Ident} {args : List Node} {params : List Ty} {result : Ty}
      (hcallee : callee.Denotes (.function params (some result)))
      (hlen : args.length = params.length)
      (hargs : ∀ p ∈ args.zip params, HasType p.1 p.2) : HasType (.call callee args) result

/-- The statement may stand in a function of the given result type. -/
inductive StmtTyped (result : Ty) : Node → Prop
  | assign {e : Node} {t : Ty} (he : HasType e t) : StmtTyped result (.assignStmt e)
  | call {e : Node} {t : Ty} (he : HasType e t) : StmtTyped result (.callStmt e)
  | step {op : StepOp} {e : Node} (he : HasType e .int) : StmtTyped result (.stepStmt op e)
  | read {e : Node} {t : Ty} (he : HasType e t) (ht : t.Readable) : StmtTyped result (.readStmt e)
  | write {e : Node} {t : Ty} (he : HasType e t) (ht : t.Writable) :
      StmtTyped result (.writeStmt e)
  | ifThen {cond : Node} {decls stmts : List Node} (hcond : HasType cond .bool)
      (hstmts : ∀ s ∈ stmts, StmtTyped result s) : StmtTyped result (.ifStmt cond decls stmts)
  | ifElse {cond : Node} {ds ss ds' ss' : List Node} (hcond : HasType cond .bool)
      (hthen : ∀ s ∈ ss, StmtTyped result s) (helse : ∀ s ∈ ss', StmtTyped result s) :
      StmtTyped result (.ifElseStmt cond ds ss ds' ss')
  | whileLoop {cond : Node} {decls stmts : List Node} (hcond : HasType cond .bool)
      (hstmts : ∀ s ∈ stmts, StmtTyped result s) : StmtTyped result (.whileStmt cond decls stmts)
  | bareReturn {pos : Pos} (hvoid : result = .void) : StmtTyped result (.returnStmt .missing pos)
  | valueReturn {value : Node} {pos : Pos} (hvalue : HasType value result)
      (hvoid : result ≠ .void) : StmtTyped result (.returnStmt value pos)

/-- A function is well typed if its body is, for the result type it is written with, and if it has a
return among the statements of its body unless that type is void. -/
inductive DeclTyped : Node → Prop
  | var {type : Node} {id : Ident} : DeclTyped (.varDecl type id)
  | formal {type : Node} {id : Ident} : DeclTyped (.formalDecl type id)
  | struct {id : Ident} {decls : List Node} : DeclTyped (.structDecl id decls)
  | function {type : Node} {id : Ident} {formals decls stmts : List Node} {name : String}
      (htype : type.typeName? = some name)
      (hstmts : ∀ s ∈ stmts, StmtTyped (Ty.ofName name) s)
      (hreturn : Ty.ofName name = .void ∨ ∃ s ∈ stmts, s.isReturn = true) :
      DeclTyped (.fnDecl type id formals decls stmts)

def ProgramTyped (program : Program) : Prop := ∀ d ∈ program, DeclTyped d

end Sema
