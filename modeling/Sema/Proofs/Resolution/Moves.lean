import Mathlib.Data.List.Chain
import Sema.Proofs.Resolution.Layout
import Sema.Proofs.Resolution.Runs
import Sema.Proofs.Resolution.Trace

/-!
# Moves of name analysis

From one stage of the analysis of a program to the next, at most one scope is opened or closed or
one name declared, and what is declared fits the scopes it is declared in.
-/

namespace Sema

open Resolver

/-- The scope that was opened first. -/
def SymbolTable.outermost (t : SymbolTable) : Scope := t.scopes.getLastD []

theorem Laid.outermost_eq {t : SymbolTable} {inner : List Scope} {g : Scope} (h : Laid t inner g) :
    t.outermost = g := by
  rw [SymbolTable.outermost, h.scopes_eq, List.getLastD_eq_getLast?, List.getLast?_concat,
    Option.getD_some]

/-- The symbol may be declared under the name in the innermost scope of the table. -/
def SymbolTable.Admits (t : SymbolTable) (name : String) (s : Symbol) : Prop :=
  s.IsStorage t.outermost ∨ t.depth = 1 ∧ s.IsGlobal t.outermost name

/-- What one step does to the scopes. The outermost one stays open. -/
inductive Moves : SymbolTable → SymbolTable → Prop
  | stay {t : SymbolTable} : Moves t t
  | enter {t : SymbolTable} : Moves t t.enterScope
  | leave {scope : Scope} {rest : List Scope} (h : rest ≠ []) : Moves ⟨scope :: rest⟩ ⟨rest⟩
  | declare {t t' : SymbolTable} {name : String} {s : Symbol} (hs : t.Admits name s)
      (h : t.declare name (some s) = .ok t') : Moves t t'

namespace Moves

variable {t t' : SymbolTable}

theorem isLaid (h : Moves t t') (ht : t.IsLaid) : t'.IsLaid := by
  obtain ⟨inner, g, hlaid⟩ := ht
  cases h with
  | stay => exact ⟨inner, g, hlaid⟩
  | enter => exact ⟨[] :: inner, g, hlaid.enterScope⟩
  | @leave scope rest hrest =>
    have hscopes := hlaid.scopes_eq
    cases inner with
    | nil =>
      cases hscopes
      exact absurd rfl hrest
    | cons _ inner =>
      cases hscopes
      exact ⟨inner, g, rfl, hlaid.outermost, fun s hs => hlaid.within s (List.mem_cons_of_mem _ hs)⟩
  | @declare _ _ name s hs hdeclare =>
    rw [SymbolTable.Admits, hlaid.outermost_eq] at hs
    rcases hs with hs | ⟨hdepth, hs⟩
    · exact hlaid.declare_storage hs hdeclare
    · obtain rfl := hlaid.of_depth hdepth
      obtain ⟨g', hlaid'⟩ := hlaid.declare_global hs hdeclare
      exact ⟨[], g', hlaid'⟩

/-- The outermost scope is only ever added to, at its end. -/
theorem outermost_grows (h : Moves t t') : t.outermost <+: t'.outermost := by
  cases h with
  | stay => exact List.prefix_refl _
  | enter =>
    obtain ⟨scopes⟩ := t
    cases scopes <;> exact List.prefix_refl _
  | @leave scope rest hrest =>
    obtain ⟨top, rest, rfl⟩ := List.exists_cons_of_ne_nil hrest
    exact List.prefix_refl _
  | declare _ hdeclare =>
    obtain ⟨-, scope, rest, hscopes, -, rfl⟩ := SymbolTable.declare_eq_ok.mp hdeclare
    rw [SymbolTable.outermost, hscopes]
    cases rest with
    | nil => exact List.prefix_append _ _
    | cons top rest => exact List.prefix_refl _

end Moves

section Steps

variable (s : Stage)

@[simp] theorem bindUse_table (id : Ident) : (bindUse id s).stage.table = s.table := by
  obtain ⟨t, _ | why⟩ := s
  · rw [bindUse, unlessStopped_none]
    split <;> rfl
  · rfl

@[simp] theorem bindStruct_table (id : Ident) : (bindStruct id s).stage.table = s.table := by
  obtain ⟨t, _ | why⟩ := s
  · rw [bindStruct, unlessStopped_none]
    split <;> rfl
  · rfl

@[simp] theorem bindField_table (owner field : Ident) :
    (bindField owner field s).stage.table = s.table := by
  obtain ⟨t, _ | why⟩ := s
  · rw [bindField, unlessStopped_none]
    split
    · rfl
    · split
      · rfl
      · split <;> rfl
    · rfl
  · rfl

@[simp] theorem requireDepth_table (depth : Nat) (fault : Fault) :
    (requireDepth depth fault s).stage.table = s.table := by
  obtain ⟨t, _ | why⟩ := s
  · rw [requireDepth, unlessStopped_none]
    split <;> rfl
  · rfl

@[simp] theorem stop_table (fault : Fault) : (stop fault s).stage.table = s.table := by
  obtain ⟨t, _ | why⟩ := s <;> rfl

@[simp] theorem requirePath_table (base : Node) : (requirePath base s).stage.table = s.table := by
  unfold requirePath
  cases base.pathEnd? <;> simp

@[simp] theorem bindFieldOf_table (base : Node) (field : Ident) :
    (bindFieldOf base field s).stage.table = s.table := by
  unfold bindFieldOf
  cases base.pathEnd? <;> simp

@[simp] theorem resolveResultType_table (type : Node) :
    (resolveResultType type s).stage.table = s.table := by
  unfold resolveResultType
  split <;> simp

@[simp] theorem reject_table (slot : Slot) (node : Node) :
    (reject slot node s).stage.table = s.table := by
  simp [reject]

end Steps

section Declarations

variable {t : SymbolTable}

theorem declare_moves {id : Ident} {s : Symbol} (hs : t.Admits id.name s) :
    Moves t (declare id s ⟨t, none⟩).stage.table := by
  rw [declare, unlessStopped_none]
  split
  · rename_i t' hdeclare
    exact .declare hs hdeclare
  · exact .stay
  · exact .stay

theorem declareFunction_moves (type : Node) (id : Ident) (formals : List Node)
    (hdepth : t.depth = 1) : Moves t (declareFunction type id formals ⟨t, none⟩).stage.table := by
  cases hparams : Node.typeNames? formals with
  | none =>
    rw [declareFunction, hparams]
    exact .stay
  | some params =>
    cases hresult : type.typeName? with
    | none =>
      rw [declareFunction, hparams, hresult]
      exact .stay
    | some result =>
      rw [declareFunction, hparams, hresult]
      exact declare_moves (.inr ⟨hdepth, trivial⟩)

theorem declareStorage_moves {type : Node} {id : Ident} (ht : t.IsLaid) :
    Moves t (declareStorage type id ⟨t, none⟩).stage.table := by
  cases type with
  | primType prim =>
    cases prim with
    | void => exact .stay
    | int => exact declare_moves (.inl (.inl rfl))
    | bool => exact declare_moves (.inl (.inr rfl))
  | structType name =>
    cases hd : t.resolveStruct name.name with
    | none =>
      simp only [declareStorage, bind_apply, bindStruct, unlessStopped_none, hd, pure_apply]
      exact .stay
    | some d =>
      -- the struct that was found is one of the outermost scope, under its own name
      obtain ⟨inner, g, hlaid⟩ := ht
      obtain ⟨hname, -⟩ := hlaid.structDef hd
      have hs : (Symbol.structVar d.name).IsStorage t.outermost := by
        rw [hlaid.outermost_eq, Symbol.IsStorage, hname, ← hlaid.resolveStruct, hd]
        rfl
      simp only [declareStorage, bind_apply, bindStruct, unlessStopped_none, hd, pure_apply]
      exact declare_moves (.inl hs)
  | _ => exact .stay

end Declarations

namespace Traced

variable {α β : Type} {t : SymbolTable}

/-- Started on these scopes, the part passes from stage to stage by moves. -/
def GoesByMoves (m : Traced α) (t : SymbolTable) : Prop :=
  (⟨t, none⟩ :: m.stages ⟨t, none⟩).IsChain fun s s' => Moves s.table s'.table

private theorem isChain_halted (m : Traced α) (t : SymbolTable) (why : Fault) :
    (⟨t, some why⟩ :: m.stages ⟨t, some why⟩).IsChain fun s s' => Moves s.table s'.table := by
  rw [List.eq_replicate_of_mem (m.halts t why), ← List.replicate_succ]
  exact List.isChain_replicate_of_rel _ .stay

private theorem isChain_continued {R : Stage → Stage → Prop} {s : Stage} {l l' : List Stage}
    (h : (s :: l).IsChain R) (h' : (l.getLastD s :: l').IsChain R) :
    (s :: (l ++ l')).IsChain R := by
  induction l generalizing s with
  | nil => exact h'
  | cons b l ih =>
    rw [List.isChain_cons_cons] at h
    rw [List.getLastD_cons] at h'
    exact List.isChain_cons_cons.mpr ⟨h.1, ih h.2 h'⟩

theorem goesByMoves_pure (a : α) : (pure a : Traced α).GoesByMoves t :=
  List.isChain_singleton _

theorem goesByMoves_step {m : Resolver α} [Inert m] (h : Moves t (m ⟨t, none⟩).stage.table) :
    (step m).GoesByMoves t :=
  List.isChain_pair.mpr h

theorem goesByMoves_still {m : Resolver α} [Inert m] (h : (m ⟨t, none⟩).stage.table = t) :
    (step m).GoesByMoves t := by
  apply goesByMoves_step
  rw [h]
  exact .stay

theorem GoesByMoves.bind {m : Traced α} {f : α → Traced β} (hm : m.GoesByMoves t)
    (hf : ∀ a t' rs, Returns m.run t a t' rs → (f a).GoesByMoves t') :
    (m >>= f).GoesByMoves t := by
  apply isChain_continued hm
  rw [m.ends]
  rcases hrun : m.run ⟨t, none⟩ with ⟨a, ⟨t', _ | why⟩, rs⟩
  · exact hf a t' rs hrun
  · -- the first part was stopped, so the rest never leaves that stage
    exact isChain_halted (f a) t' why

theorem GoesByMoves.isLaid_of_mem {m : Traced α} (h : m.GoesByMoves t) (ht : t.IsLaid) :
    ∀ s ∈ m.stages ⟨t, none⟩, s.table.IsLaid :=
  List.IsChain.cons_induction (fun s => s.table.IsLaid) _ h (fun _ _ hmove => hmove.isLaid) ht

/-- Where the part returns, the scopes are laid out if they were. -/
theorem GoesByMoves.isLaid {m : Traced α} (h : m.GoesByMoves t) (ht : t.IsLaid) {a : α}
    {t' : SymbolTable} {rs : List Diagnostic} (hreturns : Returns m.run t a t' rs) :
    t'.IsLaid := by
  have hend := m.ends ⟨t, none⟩
  rw [hreturns, List.getLastD_eq_getLast?] at hend
  cases hlast : (m.stages ⟨t, none⟩).getLast? with
  | none =>
    rw [hlast] at hend
    cases hend
    exact ht
  | some s =>
    rw [hlast] at hend
    cases hend
    exact h.isLaid_of_mem ht _ (List.mem_of_getLast? hlast)

/-- A scope of its own, opened on scopes that are laid out and closed where the part returns. -/
theorem GoesByMoves.inScope {body : Traced α} (ht : t.IsLaid)
    (hbody : body.GoesByMoves t.enterScope)
    (hopen : ∀ a t' rs, Returns body.run t.enterScope a t' rs →
      ∃ scope : Scope, t' = ⟨scope :: t.scopes⟩) : body.inScope.GoesByMoves t := by
  apply (goesByMoves_step .enter).bind
  intro _ t₁ rs₁ hreturns
  obtain ⟨rfl, -⟩ := returns_openScope.mp hreturns
  apply hbody.bind
  intro a t₂ rs₂ hreturns
  obtain ⟨scope, rfl⟩ := hopen a t₂ rs₂ hreturns
  obtain ⟨inner, g, hlaid⟩ := ht
  exact (goesByMoves_step (.leave hlaid.scopes_ne_nil)).bind fun _ _ _ _ => goesByMoves_pure a

end Traced

/-- The analysis of the node goes by moves, whatever the node is taken for. -/
structure GoesByMoves (n : Node) : Prop where
  expr : ∀ t, (traceExpr n).GoesByMoves t
  stmt : ∀ t, t.IsLaid → (traceStmt 1 n).GoesByMoves t
  decl : ∀ t, t.IsLaid → (traceDecl 1 n).GoesByMoves t

section Traversals

variable {t : SymbolTable}

private theorem goesByMoves_exprs {es : List Node} (ih : ∀ e ∈ es, GoesByMoves e)
    (t : SymbolTable) : (traceExprs es).GoesByMoves t := by
  induction es generalizing t with
  | nil => exact Traced.goesByMoves_pure _
  | cons e es ihes =>
    rw [List.forall_mem_cons] at ih
    apply (ih.1.expr t).bind
    intro e' t₁ _ _
    exact (ihes ih.2 t₁).bind fun _ _ _ _ => Traced.goesByMoves_pure _

private theorem goesByMoves_stmts {ss : List Node} (ih : ∀ s ∈ ss, GoesByMoves s) (ht : t.IsLaid) :
    (traceStmts 1 ss).GoesByMoves t := by
  induction ss generalizing t with
  | nil => exact Traced.goesByMoves_pure _
  | cons s ss ihss =>
    rw [List.forall_mem_cons] at ih
    have hhead := ih.1.stmt t ht
    apply hhead.bind
    intro s' t₁ _ hreturns
    exact (ihss ih.2 (hhead.isLaid ht hreturns)).bind fun _ _ _ _ => Traced.goesByMoves_pure _

private theorem goesByMoves_decls {ds : List Node} (ih : ∀ d ∈ ds, GoesByMoves d) (ht : t.IsLaid) :
    (traceDecls 1 ds).GoesByMoves t := by
  induction ds generalizing t with
  | nil => exact Traced.goesByMoves_pure _
  | cons d ds ihds =>
    rw [List.forall_mem_cons] at ih
    have hhead := ih.1.decl t ht
    apply hhead.bind
    intro d' t₁ _ hreturns
    exact (ihds ih.2 (hhead.isLaid ht hreturns)).bind fun _ _ _ _ => Traced.goesByMoves_pure _

private theorem goesByMoves_expr (e : Node) (ih : ∀ m ∈ e.children, GoesByMoves m)
    (t : SymbolTable) : (traceExpr e).GoesByMoves t := by
  cases e with
  | lit value pos => exact Traced.goesByMoves_pure _
  | ident id =>
    exact (Traced.goesByMoves_still (by simp)).bind fun _ _ _ _ => Traced.goesByMoves_pure _
  | dot base field =>
    rw [traceExpr]
    apply (Traced.goesByMoves_still (by simp)).bind
    intro _ t₁ _ _
    apply ((ih base (by simp [Node.children])).expr t₁).bind
    intro base' t₂ _ _
    exact (Traced.goesByMoves_still (by simp)).bind fun _ _ _ _ => Traced.goesByMoves_pure _
  | assign e e' | binary op e e' =>
    rw [traceExpr]
    apply ((ih e (by simp [Node.children])).expr t).bind
    intro _ t₁ _ _
    exact ((ih e' (by simp [Node.children])).expr t₁).bind fun _ _ _ _ =>
      Traced.goesByMoves_pure _
  | call callee args =>
    rw [traceExpr]
    apply (Traced.goesByMoves_still (by simp)).bind
    intro _ t₁ _ _
    exact (goesByMoves_exprs ih t₁).bind fun _ _ _ _ => Traced.goesByMoves_pure _
  | unary op e =>
    exact ((ih e (by simp [Node.children])).expr t).bind fun _ _ _ _ => Traced.goesByMoves_pure _
  | _ => exact Traced.goesByMoves_still (by simp)

private theorem opened_of_returns {γ : Type} {build : List Node → List Node → γ} {ds ss : List Node}
    {a : γ} {t' : SymbolTable} {rs : List Diagnostic}
    (h : Returns (do
      let ds ← resolveDecls 1 ds
      let ss ← resolveStmts 1 ss
      return build ds ss) t.enterScope a t' rs) : ∃ scope : Scope, t' = ⟨scope :: t.scopes⟩ := by
  simp only [returns_bind, returns_pure] at h
  obtain ⟨ds', t₁, rs₁, _, hdecls, ⟨ss', t₂, rs₂, _, hstmts, ⟨-, rfl, -⟩, -⟩, -⟩ := h
  obtain rfl := (Resolves.of_returns_stmts hstmts).frame.1 (by simp)
  exact (Resolves.of_returns hdecls).opened

private theorem goesByMoves_block {γ : Type} (build : List Node → List Node → γ)
    {ds ss : List Node} (ihds : ∀ d ∈ ds, GoesByMoves d) (ihss : ∀ s ∈ ss, GoesByMoves s)
    (ht : t.IsLaid) :
    (Traced.inScope do
      let ds ← traceDecls 1 ds
      let ss ← traceStmts 1 ss
      return build ds ss).GoesByMoves t := by
  have hinner := ht.enterScope
  apply Traced.GoesByMoves.inScope ht
  · have hdecls := goesByMoves_decls ihds hinner
    apply hdecls.bind
    intro ds' t₁ _ hreturns
    exact (goesByMoves_stmts ihss (hdecls.isLaid hinner hreturns)).bind fun _ _ _ _ =>
      Traced.goesByMoves_pure _
  · intro a t' rs hreturns
    simp only [Traced.run_bind, Traced.run_pure, run_traceDecls, run_traceStmts] at hreturns
    exact opened_of_returns hreturns

private theorem goesByMoves_stmt (n : Node) (ih : ∀ m ∈ n.children, GoesByMoves m)
    (t : SymbolTable) (ht : t.IsLaid) : (traceStmt 1 n).GoesByMoves t := by
  cases n with
  | assignStmt e | stepStmt op e | readStmt e | writeStmt e | callStmt e =>
    exact ((ih e (by simp [Node.children])).expr t).bind fun _ _ _ _ => Traced.goesByMoves_pure _
  | returnStmt value pos =>
    by_cases hvalue : value = .missing
    · subst hvalue
      exact Traced.goesByMoves_pure _
    · rw [traceStmt_return hvalue]
      exact ((ih value (by simp [Node.children])).expr t).bind fun _ _ _ _ =>
        Traced.goesByMoves_pure _
  | ifStmt cond ds ss | whileStmt cond ds ss =>
    simp only [Node.children, List.forall_mem_cons, List.forall_mem_append] at ih
    rw [traceStmt]
    have hcond := ih.1.expr t
    apply hcond.bind
    intro cond' t₁ _ hreturns
    exact goesByMoves_block _ ih.2.1 ih.2.2 (hcond.isLaid ht hreturns)
  | ifElseStmt cond ds ss ds' ss' =>
    simp only [Node.children, List.forall_mem_cons, List.forall_mem_append] at ih
    obtain ⟨ihcond, ihds, ihss, ihds', ihss'⟩ := ih
    rw [traceStmt]
    have hcond := ihcond.expr t
    apply hcond.bind
    intro cond' t₁ _ hreturns
    have ht₁ := hcond.isLaid ht hreturns
    have hthen := goesByMoves_block Prod.mk ihds ihss ht₁
    apply hthen.bind
    rintro ⟨thenDecls, thenStmts⟩ t₂ _ hreturns
    have ht₂ := hthen.isLaid ht₁ hreturns
    exact (goesByMoves_block Prod.mk ihds' ihss' ht₂).bind fun _ _ _ _ => Traced.goesByMoves_pure _
  | _ => exact Traced.goesByMoves_still (by simp)

private theorem goesByMoves_decl (d : Node) (ih : ∀ m ∈ d.children, GoesByMoves m)
    (t : SymbolTable) (ht : t.IsLaid) : (traceDecl 1 d).GoesByMoves t := by
  cases d with
  | varDecl type id =>
    exact (Traced.goesByMoves_step (declareStorage_moves ht)).bind fun _ _ _ _ =>
      Traced.goesByMoves_pure _
  | formalDecl type id =>
    exact (Traced.goesByMoves_step (declareStorage_moves ht)).bind fun _ _ _ _ =>
      Traced.goesByMoves_pure _
  | fnDecl type id formals decls stmts =>
    simp only [Node.children, List.forall_mem_cons, List.forall_mem_append] at ih
    obtain ⟨-, ihformals, ihdecls, ihstmts⟩ := ih
    rw [traceDecl]
    apply (Traced.goesByMoves_still (by simp)).bind
    intro _ t _ hreturns
    obtain ⟨hdepth, rfl, -⟩ := returns_requireDepth.mp hreturns
    apply (Traced.goesByMoves_still (by simp)).bind
    intro type' t _ hreturns
    obtain ⟨rfl, -⟩ := returns_resolveResultType.mp hreturns
    have hid := Traced.goesByMoves_step (declareFunction_moves type' id formals hdepth)
    apply hid.bind
    intro id' t₁ _ hreturns
    have ht₁ := hid.isLaid ht hreturns
    have hinner := ht₁.enterScope
    apply Traced.GoesByMoves.inScope ht₁
    · have hformals := goesByMoves_decls ihformals hinner
      apply hformals.bind
      intro formals' t₂ _ hreturns
      have ht₂ := hformals.isLaid hinner hreturns
      have hdecls := goesByMoves_decls ihdecls ht₂
      apply hdecls.bind
      intro decls' t₃ _ hreturns
      exact (goesByMoves_stmts ihstmts (hdecls.isLaid ht₂ hreturns)).bind fun _ _ _ _ =>
        Traced.goesByMoves_pure _
    · intro a t' rs hreturns
      simp only [Traced.run_bind, Traced.run_pure, run_traceDecls, run_traceStmts, returns_bind,
        returns_pure] at hreturns
      obtain ⟨formals', t₂, _, _, hformals, h, -⟩ := hreturns
      obtain ⟨decls', t₃, _, _, hdecls, h, -⟩ := h
      obtain ⟨stmts', t₄, _, _, hstmts, ⟨-, rfl, -⟩, -⟩ := h
      obtain rfl := (Resolves.of_returns_stmts hstmts).frame.1 (by simp)
      obtain ⟨added, rfl⟩ := (Resolves.of_returns hformals).opened
      obtain ⟨added', rfl⟩ := (Resolves.of_returns hdecls).frame.2 added t₁.scopes rfl
      exact ⟨added ++ added', rfl⟩
  | structDecl id decls =>
    rw [traceDecl]
    apply (Traced.goesByMoves_still (by simp)).bind
    intro _ t _ hreturns
    obtain ⟨hdepth, rfl, -⟩ := returns_requireDepth.mp hreturns
    apply (Traced.goesByMoves_step .enter).bind
    intro _ _ _ hreturns
    obtain ⟨rfl, -⟩ := returns_openScope.mp hreturns
    have hinner := ht.enterScope
    have ihdecls : ∀ m ∈ decls, GoesByMoves m := ih
    have hdecls := goesByMoves_decls ihdecls hinner
    apply hdecls.bind
    intro decls' t₁ _ hreturns
    have ht₁ := hdecls.isLaid hinner hreturns
    rw [run_traceDecls] at hreturns
    obtain ⟨fields, rfl⟩ := (Resolves.of_returns hreturns).opened
    obtain ⟨inner, g, hlaid⟩ := ht
    obtain rfl := hlaid.of_depth hdepth
    apply (Traced.goesByMoves_step (.leave hlaid.scopes_ne_nil)).bind
    rintro fields' ⟨scopes⟩ _ hreturns
    obtain ⟨hscopes, -⟩ := returns_closeScope.mp hreturns
    cases hscopes
    have hadmits : t.Admits id.name (.structDecl id.name (some (.ofScope fields))) := by
      rw [SymbolTable.Admits, hlaid.outermost_eq]
      exact .inr ⟨hdepth, rfl, fields, rfl, hlaid.local_fields ht₁⟩
    exact (Traced.goesByMoves_step (declare_moves hadmits)).bind fun _ _ _ _ =>
      Traced.goesByMoves_pure _
  | _ => exact Traced.goesByMoves_still (by simp)

theorem goesByMoves (n : Node) : GoesByMoves n := by
  induction n using Node.induct with
  | step n ih => exact ⟨goesByMoves_expr n ih, goesByMoves_stmt n ih, goesByMoves_decl n ih⟩

theorem traceDecls_goesByMoves (ds : List Node) (ht : t.IsLaid) :
    (traceDecls 1 ds).GoesByMoves t :=
  goesByMoves_decls (fun d _ => goesByMoves d) ht

end Traversals

end Sema
