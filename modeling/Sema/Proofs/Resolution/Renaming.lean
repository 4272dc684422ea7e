import Sema.Proofs.Resolution.Returns
import Sema.Proofs.Tree.Renaming

/-!
# Name analysis commutes with renaming

Analysing a renamed tree on renamed scopes does what analysing the tree on the scopes does, renamed:
it comes to the renamed tree and the renamed scopes, with the same complaints.
-/

namespace Sema

open Resolver

def Stage.rename (r : Renaming) (s : Stage) : Stage :=
  ⟨s.table.rename r, s.fault.map (Fault.rename r)⟩

section Commutes

variable {r : Renaming} {α β γ δ : Type}

/-- On renamed scopes `m'` does what `m` does, with its value carried over by `φ`. -/
def Commutes (r : Renaming) (φ : α → β) (m : Resolver α) (m' : Resolver β) : Prop :=
  ∀ s, m' (s.rename r) = ⟨φ (m s).value, (m s).stage.rename r, (m s).reports⟩

theorem commutes_pure {φ : α → β} (a : α) : Commutes r φ (pure a) (pure (φ a)) :=
  fun _ => rfl

theorem Commutes.bind {φ : α → β} {ψ : γ → δ} {m : Resolver α} {m' : Resolver β}
    {f : α → Resolver γ} {f' : β → Resolver δ} (hm : Commutes r φ m m')
    (hf : ∀ a, Commutes r ψ (f a) (f' (φ a))) : Commutes r ψ (m >>= f) (m' >>= f') := by
  intro s
  rw [bind_apply, bind_apply, hm s]
  simp only [hf (m s).value (m s).stage]

/-- A stopped analysis stays where it is, so only the scopes have to be looked at. -/
theorem commutes_unlessStopped {φ : α → β} {idle : α} {step : Stage → Resolved α}
    {step' : Stage → Resolved β}
    (h : ∀ t : SymbolTable, step' ⟨t.rename r, none⟩ =
      ⟨φ (step ⟨t, none⟩).value, (step ⟨t, none⟩).stage.rename r, (step ⟨t, none⟩).reports⟩) :
    Commutes r φ (unlessStopped idle step) (unlessStopped (φ idle) step') := by
  intro s
  obtain ⟨t, _ | why⟩ := s
  · exact h t
  · rfl

end Commutes

section Steps

variable (r : Renaming)

theorem commutes_stop (fault : Fault) : Commutes r id (stop fault) (stop (fault.rename r)) :=
  commutes_unlessStopped fun _ => rfl

theorem commutes_report (kind : DiagnosticKind) (pos : Pos) :
    Commutes r id (report kind pos) (report kind pos) :=
  commutes_unlessStopped fun _ => rfl

theorem commutes_openScope : Commutes r id openScope openScope :=
  commutes_unlessStopped fun _ => rfl

theorem commutes_closeScope : Commutes r (Scope.rename r) closeScope closeScope := by
  refine commutes_unlessStopped fun t => ?_
  obtain ⟨_ | ⟨scope, rest⟩⟩ := t <;> rfl

variable {r} in
theorem Commutes.inScope {α β : Type} {φ : α → β} {body : Resolver α} {body' : Resolver β}
    (h : Commutes r φ body body') : Commutes r φ (inScope body) (inScope body') :=
  (commutes_openScope r).bind fun _ => h.bind fun a =>
    (commutes_closeScope r).bind fun _ => commutes_pure a

theorem commutes_requireDepth (depth : Nat) (fault : Fault) :
    Commutes r id (requireDepth depth fault) (requireDepth depth (fault.rename r)) := by
  refine commutes_unlessStopped fun t => ?_
  simp only [SymbolTable.depth_rename]
  by_cases hdepth : t.depth = depth
  · rw [if_pos hdepth, if_pos hdepth]
    rfl
  · rw [if_neg hdepth, if_neg hdepth]
    rfl

theorem commutes_unexpected (slot : Slot) (n : Node) :
    Commutes r id (stop (.unexpected slot n)) (stop (.unexpected slot (n.rename r))) := by
  have hfault : Fault.unexpected slot (n.rename r) = (Fault.unexpected slot n).rename r := by
    rw [Fault.unexpected, Node.label_relabel, Node.pos_rename]
    rfl
  rw [hfault]
  exact commutes_stop r _

theorem commutes_reject (slot : Slot) (n : Node) :
    Commutes r (Node.rename r) (reject slot n) (reject slot (n.rename r)) :=
  (commutes_unexpected r slot n).bind fun _ => commutes_pure n

theorem commutes_declare (id : Ident) (s : Symbol) :
    Commutes r (Ident.rename r) (declare id s) (declare (id.rename r) (s.rename r)) := by
  refine commutes_unlessStopped fun t => ?_
  have hdeclare := SymbolTable.declare_rename r t id.name s
  simp only [Ident.rename, hdeclare]
  cases t.declare id.name (some s) with
  | ok t' => rfl
  | error why => cases why <;> rfl

theorem commutes_bindUse (id : Ident) :
    Commutes r (Ident.rename r) (bindUse id) (bindUse (id.rename r)) := by
  refine commutes_unlessStopped fun t => ?_
  have hlookup := SymbolTable.lookupLexical_rename r t id.name
  simp only [Ident.rename, hlookup]
  rcases hfound : t.lookupLexical id.name with why | _ | s
  · -- the only fault of a lookup is that there is no scope
    rw [SymbolTable.lookupLexical] at hfound
    split at hfound
    · cases hfound
      rfl
    · cases hfound
  · rfl
  · rfl

theorem commutes_bindStruct (id : Ident) :
    Commutes r (Prod.map (Ident.rename r) (Option.map (StructDef.rename r))) (bindStruct id)
      (bindStruct (id.rename r)) := by
  refine commutes_unlessStopped fun t => ?_
  have hstruct := SymbolTable.resolveStruct_rename r t id.name
  simp only [Ident.rename, hstruct]
  cases t.resolveStruct id.name with
  | none => rfl
  | some d =>
    simp only [Option.map_some, StructDef.symbol_rename]
    rfl

private theorem StructDef.field_error {d : StructDef} {name : String} {why : Fault}
    (h : d.field name = .error why) : why.rename r = why := by
  obtain ⟨struct, _ | ⟨_ | ⟨scope, rest⟩⟩⟩ := d <;> cases h <;> rfl

theorem commutes_bindField (owner field : Ident) :
    Commutes r (Ident.rename r) (bindField owner field)
      (bindField (owner.rename r) (field.rename r)) := by
  refine commutes_unlessStopped fun t => ?_
  obtain ⟨name, pos, symbol⟩ := owner
  cases symbol with
  | none => rfl
  | some s =>
    cases s with
    | structVar struct =>
      have hstruct := SymbolTable.resolveStruct_rename r t struct
      simp only [Ident.rename, Option.map_some, Symbol.rename, hstruct]
      cases t.resolveStruct struct with
      | none => rfl
      | some d =>
        simp only [Option.map_some, StructDef.field_rename]
        rcases hfield : d.field field.name with why | _ | s
        · simp only [Except.map, Stage.rename, Option.map_some, StructDef.field_error r hfield]
        · rfl
        · rfl
    | structDecl struct fields =>
      simp only [Ident.rename, Option.map_some, Symbol.rename_structDecl]
      rfl
    | _ =>
      simp only [Ident.rename, Option.map_some, Symbol.rename]
      rfl

theorem commutes_requirePath (base : Node) :
    Commutes r id (requirePath base) (requirePath (base.rename r)) := by
  have hpath : (base.rename r).pathEnd? = base.pathEnd?.map (Ident.rename r) :=
    Node.pathEnd?_relabel base
  rw [requirePath, requirePath, hpath]
  cases base.pathEnd? with
  | none => exact commutes_unexpected r .accessBase base
  | some owner => exact commutes_pure ()

theorem commutes_bindFieldOf (base : Node) (field : Ident) :
    Commutes r (Ident.rename r) (bindFieldOf base field)
      (bindFieldOf (base.rename r) (field.rename r)) := by
  have hpath : (base.rename r).pathEnd? = base.pathEnd?.map (Ident.rename r) :=
    Node.pathEnd?_relabel base
  rw [bindFieldOf, bindFieldOf, hpath]
  cases base.pathEnd? with
  | none => exact commutes_pure field
  | some owner => exact commutes_bindField r owner field

theorem commutes_resolveResultType (type : Node) :
    Commutes r (Node.rename r) (resolveResultType type) (resolveResultType (type.rename r)) := by
  cases type with
  | structType name => exact (commutes_bindStruct r name).bind fun _ => commutes_pure _
  | _ => exact commutes_pure _

theorem commutes_declareFunction (type : Node) (id : Ident) (formals : List Node) :
    Commutes r (Ident.rename r) (declareFunction type id formals)
      (declareFunction (type.rename r) (id.rename r) (Node.renameAll r formals)) := by
  rw [declareFunction, declareFunction, Node.typeNames?_renameAll, Node.typeName?_rename]
  cases Node.typeNames? formals with
  | none => exact (commutes_stop r _).bind fun _ => commutes_pure id
  | some params =>
    cases type.typeName? with
    | none => exact (commutes_stop r _).bind fun _ => commutes_pure id
    | some result => exact commutes_declare r id (.function params result)

theorem commutes_declareStorage (type : Node) (id : Ident) :
    Commutes r (Prod.map (Node.rename r) (Ident.rename r)) (declareStorage type id)
      (declareStorage (type.rename r) (id.rename r)) := by
  cases type with
  | primType prim =>
    have hscalar := commutes_declare r id (.var prim.text)
    rw [Symbol.rename, r.apply_text] at hscalar
    cases prim with
    | void => exact (commutes_report r _ _).bind fun _ => commutes_pure _
    | int | bool => exact hscalar.bind fun _ => commutes_pure _
  | structType name =>
    refine (commutes_bindStruct r name).bind fun bound => ?_
    obtain ⟨name', _ | d⟩ := bound
    · exact commutes_pure _
    · exact (commutes_declare r id (.structVar d.name)).bind fun _ => commutes_pure _
  | _ => exact (commutes_unexpected r .type _).bind fun _ => commutes_pure (_, id)

end Steps

/-- Analysis of the node commutes with renaming, whatever the node is taken for. -/
structure NodeCommutes (r : Renaming) (global : Nat) (n : Node) : Prop where
  expr : Commutes r (Node.rename r) (resolveExpr n) (resolveExpr (n.rename r))
  stmt : Commutes r (Node.rename r) (resolveStmt global n) (resolveStmt global (n.rename r))
  decl : Commutes r (Node.rename r) (resolveDecl global n) (resolveDecl global (n.rename r))

section Traversals

variable {r : Renaming} {global : Nat}

private theorem commutes_exprs {es : List Node} (ih : ∀ e ∈ es, NodeCommutes r global e) :
    Commutes r (Node.renameAll r) (resolveExprs es) (resolveExprs (Node.renameAll r es)) := by
  induction es with
  | nil => exact commutes_pure []
  | cons e es ihes =>
    rw [List.forall_mem_cons] at ih
    exact ih.1.expr.bind fun e' => (ihes ih.2).bind fun es' => commutes_pure (e' :: es')

private theorem commutes_stmts {ss : List Node} (ih : ∀ s ∈ ss, NodeCommutes r global s) :
    Commutes r (Node.renameAll r) (resolveStmts global ss)
      (resolveStmts global (Node.renameAll r ss)) := by
  induction ss with
  | nil => exact commutes_pure []
  | cons s ss ihss =>
    rw [List.forall_mem_cons] at ih
    exact ih.1.stmt.bind fun s' => (ihss ih.2).bind fun ss' => commutes_pure (s' :: ss')

private theorem commutes_decls {ds : List Node} (ih : ∀ d ∈ ds, NodeCommutes r global d) :
    Commutes r (Node.renameAll r) (resolveDecls global ds)
      (resolveDecls global (Node.renameAll r ds)) := by
  induction ds with
  | nil => exact commutes_pure []
  | cons d ds ihds =>
    rw [List.forall_mem_cons] at ih
    exact ih.1.decl.bind fun d' => (ihds ih.2).bind fun ds' => commutes_pure (d' :: ds')

private theorem commutes_expr (e : Node) (ih : ∀ m ∈ e.children, NodeCommutes r global m) :
    Commutes r (Node.rename r) (resolveExpr e) (resolveExpr (e.rename r)) := by
  cases e with
  | lit value pos => exact commutes_pure _
  | ident id => exact (commutes_bindUse r id).bind fun id' => commutes_pure (Node.ident id')
  | dot base field =>
    have hbase := (ih base (by simp [Node.children])).expr
    exact (commutes_requirePath r base).bind fun _ => hbase.bind fun base' =>
      (commutes_bindFieldOf r base' field).bind fun field' => commutes_pure (Node.dot base' field')
  | assign target value =>
    have htarget := (ih target (by simp [Node.children])).expr
    have hvalue := (ih value (by simp [Node.children])).expr
    exact htarget.bind fun target' => hvalue.bind fun value' =>
      commutes_pure (Node.assign target' value')
  | call callee args =>
    exact (commutes_bindUse r callee).bind fun callee' => (commutes_exprs ih).bind fun args' =>
      commutes_pure (Node.call callee' args')
  | unary op operand =>
    have hoperand := (ih operand (by simp [Node.children])).expr
    exact hoperand.bind fun operand' => commutes_pure (Node.unary op operand')
  | binary op left right =>
    have hleft := (ih left (by simp [Node.children])).expr
    have hright := (ih right (by simp [Node.children])).expr
    exact hleft.bind fun left' => hright.bind fun right' =>
      commutes_pure (Node.binary op left' right')
  | _ => exact commutes_reject r .expression _

private theorem commutes_block {γ : Type} {φ : γ → γ} {ds ss : List Node}
    {build build' : List Node → List Node → γ}
    (hbuild : ∀ ds ss, build' (Node.renameAll r ds) (Node.renameAll r ss) = φ (build ds ss))
    (ihds : ∀ d ∈ ds, NodeCommutes r global d) (ihss : ∀ s ∈ ss, NodeCommutes r global s) :
    Commutes r φ
      (inScope do
        let ds ← resolveDecls global ds
        let ss ← resolveStmts global ss
        return build ds ss)
      (inScope do
        let ds ← resolveDecls global (Node.renameAll r ds)
        let ss ← resolveStmts global (Node.renameAll r ss)
        return build' ds ss) := by
  refine Commutes.inScope ((commutes_decls ihds).bind fun ds' =>
    (commutes_stmts ihss).bind fun ss' => ?_)
  rw [hbuild]
  exact commutes_pure _

private theorem commutes_stmt (n : Node) (ih : ∀ m ∈ n.children, NodeCommutes r global m) :
    Commutes r (Node.rename r) (resolveStmt global n) (resolveStmt global (n.rename r)) := by
  cases n with
  | assignStmt e | stepStmt op e | readStmt e | writeStmt e | callStmt e =>
    have he := (ih e (by simp [Node.children])).expr
    exact he.bind fun _ => commutes_pure _
  | ifStmt cond ds ss | whileStmt cond ds ss =>
    simp only [Node.children, List.forall_mem_cons, List.forall_mem_append] at ih
    exact ih.1.expr.bind fun _ => commutes_block (fun _ _ => rfl) ih.2.1 ih.2.2
  | ifElseStmt cond ds ss ds' ss' =>
    simp only [Node.children, List.forall_mem_cons, List.forall_mem_append] at ih
    obtain ⟨ihcond, ihds, ihss, ihds', ihss'⟩ := ih
    have hboth : ∀ ds ss : List Node, (Node.renameAll r ds, Node.renameAll r ss) =
        Prod.map (Node.renameAll r) (Node.renameAll r) (ds, ss) := fun _ _ => rfl
    exact ihcond.expr.bind fun _ => (commutes_block hboth ihds ihss).bind fun _ =>
      (commutes_block hboth ihds' ihss').bind fun _ => commutes_pure _
  | returnStmt value pos =>
    by_cases hvalue : value = .missing
    · subst hvalue
      exact commutes_pure _
    · have he := (ih value (by simp [Node.children])).expr
      have hvalue' : value.rename r ≠ .missing := mt Node.eq_missing_of_relabel hvalue
      have hrename : (Node.returnStmt value pos).rename r = .returnStmt (value.rename r) pos := rfl
      rw [hrename, resolveStmt_return hvalue, resolveStmt_return hvalue']
      exact he.bind fun _ => commutes_pure _
  | _ => exact commutes_reject r .statement _

private theorem commutes_decl (d : Node) (ih : ∀ m ∈ d.children, NodeCommutes r global m) :
    Commutes r (Node.rename r) (resolveDecl global d) (resolveDecl global (d.rename r)) := by
  cases d with
  | varDecl type id | formalDecl type id =>
    exact (commutes_declareStorage r type id).bind fun _ => commutes_pure _
  | fnDecl type id formals decls stmts =>
    simp only [Node.children, List.forall_mem_cons, List.forall_mem_append] at ih
    obtain ⟨-, ihformals, ihdecls, ihstmts⟩ := ih
    exact (commutes_requireDepth r global _).bind fun _ =>
      (commutes_resolveResultType r type).bind fun type' =>
        (commutes_declareFunction r type' id formals).bind fun id' =>
          ((commutes_decls ihformals).bind fun formals' =>
            (commutes_decls ihdecls).bind fun decls' => (commutes_stmts ihstmts).bind fun stmts' =>
              commutes_pure (Node.fnDecl type' id' formals' decls' stmts')).inScope
  | structDecl id decls =>
    have hdeclare (fields : Scope) :=
      commutes_declare r id (.structDecl id.name (some (.ofScope fields)))
    simp only [Symbol.rename_structDecl] at hdeclare
    exact (commutes_requireDepth r global _).bind fun _ => (commutes_openScope r).bind fun _ =>
      (commutes_decls ih).bind fun _ => (commutes_closeScope r).bind fun fields =>
        (hdeclare fields).bind fun _ => commutes_pure _
  | _ => exact commutes_reject r .declaration _

theorem nodeCommutes (r : Renaming) (global : Nat) (n : Node) : NodeCommutes r global n := by
  induction n using Node.induct with
  | step n ih => exact ⟨commutes_expr n ih, commutes_stmt n ih, commutes_decl n ih⟩

end Traversals

/-- The names of a renamed program are bound to the renamed symbols, with the same complaints. -/
theorem resolveProgram_rename (r : Renaming) (program : Program) :
    resolveProgram (Node.renameAll r program) .empty =
      ⟨Node.renameAll r (resolveProgram program .empty).value,
        (resolveProgram program .empty).stage.rename r, (resolveProgram program .empty).reports⟩ :=
  (commutes_decls fun d _ => nodeCommutes r _ d).inScope ⟨.empty, none⟩

end Sema
