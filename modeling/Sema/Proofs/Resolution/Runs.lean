import Sema.Proofs.Resolution.Frame
import Sema.Proofs.Resolution.Returns
import Sema.Proofs.Tree.Parts

/-!
# Runs of name analysis

A run that returns is a derivation by the rules, and every derivation is a run.
-/

namespace Sema

open Resolver

/-- Every run over the node that returns is a derivation, whatever the node is taken for. -/
structure RunsByRules (global : Nat) (n : Node) : Prop where
  expr : ∀ {t n' t' rs}, Returns (resolveExpr n) t n' t' rs →
    Resolves global .exprs t [n] t' [n'] rs
  stmt : ∀ {t n' t' rs}, Returns (resolveStmt global n) t n' t' rs →
    Resolves global .stmts t [n] t' [n'] rs
  decl : ∀ {t n' t' rs}, Returns (resolveDecl global n) t n' t' rs →
    Resolves global .decls t [n] t' [n'] rs

section FromRuns

variable {global : Nat} {t t' : SymbolTable} {rs : List Diagnostic}

private theorem resolves_exprs {es es' : List Node} (ih : ∀ e ∈ es, RunsByRules global e)
    (h : Returns (resolveExprs es) t es' t' rs) : Resolves global .exprs t es t' es' rs := by
  induction es generalizing t es' rs with
  | nil =>
    rw [resolveExprs, returns_pure] at h
    obtain ⟨rfl, rfl, rfl⟩ := h
    exact .nil
  | cons e es ihes =>
    rw [List.forall_mem_cons] at ih
    simp only [resolveExprs, returns_bind, returns_pure] at h
    obtain ⟨e', t₁, rs₁, _, he, h, rfl⟩ := h
    obtain ⟨es', t₂, rs₂, _, hes, ⟨rfl, rfl, rfl⟩, rfl⟩ := h
    rw [List.append_nil]
    exact .cons (ih.1.expr he) (ihes ih.2 hes)

private theorem resolves_stmts {ss ss' : List Node} (ih : ∀ s ∈ ss, RunsByRules global s)
    (h : Returns (resolveStmts global ss) t ss' t' rs) : Resolves global .stmts t ss t' ss' rs := by
  induction ss generalizing t ss' rs with
  | nil =>
    rw [resolveStmts, returns_pure] at h
    obtain ⟨rfl, rfl, rfl⟩ := h
    exact .nil
  | cons s ss ihss =>
    rw [List.forall_mem_cons] at ih
    simp only [resolveStmts, returns_bind, returns_pure] at h
    obtain ⟨s', t₁, rs₁, _, hs, h, rfl⟩ := h
    obtain ⟨ss', t₂, rs₂, _, hss, ⟨rfl, rfl, rfl⟩, rfl⟩ := h
    rw [List.append_nil]
    exact .cons (ih.1.stmt hs) (ihss ih.2 hss)

private theorem resolves_decls {ds ds' : List Node} (ih : ∀ d ∈ ds, RunsByRules global d)
    (h : Returns (resolveDecls global ds) t ds' t' rs) : Resolves global .decls t ds t' ds' rs := by
  induction ds generalizing t ds' rs with
  | nil =>
    rw [resolveDecls, returns_pure] at h
    obtain ⟨rfl, rfl, rfl⟩ := h
    exact .nil
  | cons d ds ihds =>
    rw [List.forall_mem_cons] at ih
    simp only [resolveDecls, returns_bind, returns_pure] at h
    obtain ⟨d', t₁, rs₁, _, hd, h, rfl⟩ := h
    obtain ⟨ds', t₂, rs₂, _, hds, ⟨rfl, rfl, rfl⟩, rfl⟩ := h
    rw [List.append_nil]
    exact .cons (ih.1.decl hd) (ihds ih.2 hds)

private theorem resolves_expr (e : Node) {e' : Node} (ih : ∀ m ∈ e.children, RunsByRules global m)
    (h : Returns (resolveExpr e) t e' t' rs) : Resolves global .exprs t [e] t' [e'] rs := by
  cases e with
  | lit value pos =>
    rw [resolveExpr, returns_pure] at h
    obtain ⟨rfl, rfl, rfl⟩ := h
    exact .lit
  | ident id =>
    simp only [resolveExpr, returns_bind, returns_bindUse, returns_pure] at h
    obtain ⟨id', _, rs₁, _, ⟨rfl, hid⟩, ⟨rfl, rfl, rfl⟩, rfl⟩ := h
    rw [List.append_nil]
    exact .ident hid
  | dot base field =>
    simp only [resolveExpr, returns_bind, returns_requirePath, returns_pure] at h
    obtain ⟨_, _, _, _, ⟨hpath, rfl, rfl⟩, h, rfl⟩ := h
    obtain ⟨base', t₁, rs₁, _, hbase, h, rfl⟩ := h
    obtain ⟨field', t₂, rs₂, _, hfield, ⟨rfl, rfl, rfl⟩, rfl⟩ := h
    have hbase := (ih base (by simp [Node.children])).expr hbase
    obtain rfl := hbase.frame.1 (by simp)
    have hpath' : base'.pathEnd?.isSome = true := by
      have hsame := hbase.pathEnd
      simp only [List.map_cons, List.map_nil, List.cons.injEq, and_true] at hsame
      rw [hsame, hpath]
    obtain ⟨owner', howner⟩ := Option.isSome_iff_exists.mp hpath'
    obtain ⟨rfl, hfield⟩ := (returns_bindFieldOf howner).mp hfield
    rw [List.append_nil]
    exact .dot hpath hbase howner hfield
  | assign target value =>
    simp only [resolveExpr, returns_bind, returns_pure] at h
    obtain ⟨target', t₁, rs₁, _, htarget, h, rfl⟩ := h
    obtain ⟨value', t₂, rs₂, _, hvalue, ⟨rfl, rfl, rfl⟩, rfl⟩ := h
    have htarget := (ih target (by simp [Node.children])).expr htarget
    have hvalue := (ih value (by simp [Node.children])).expr hvalue
    obtain rfl := htarget.frame.1 (by simp)
    obtain rfl := hvalue.frame.1 (by simp)
    rw [List.append_nil]
    exact .assign (.cons htarget hvalue)
  | call callee args =>
    simp only [resolveExpr, returns_bind, returns_bindUse, returns_pure] at h
    obtain ⟨callee', _, rs₁, _, ⟨rfl, hcallee⟩, h, rfl⟩ := h
    obtain ⟨args', t₂, rs₂, _, hargs, ⟨rfl, rfl, rfl⟩, rfl⟩ := h
    have hargs := resolves_exprs ih hargs
    obtain rfl := hargs.frame.1 (by simp)
    rw [List.append_nil]
    exact .call hcallee hargs
  | unary op operand =>
    simp only [resolveExpr, returns_bind, returns_pure] at h
    obtain ⟨operand', t₁, rs₁, _, hoperand, ⟨rfl, rfl, rfl⟩, rfl⟩ := h
    have hoperand := (ih operand (by simp [Node.children])).expr hoperand
    obtain rfl := hoperand.frame.1 (by simp)
    rw [List.append_nil]
    exact .unary hoperand
  | binary op left right =>
    simp only [resolveExpr, returns_bind, returns_pure] at h
    obtain ⟨left', t₁, rs₁, _, hleft, h, rfl⟩ := h
    obtain ⟨right', t₂, rs₂, _, hright, ⟨rfl, rfl, rfl⟩, rfl⟩ := h
    have hleft := (ih left (by simp [Node.children])).expr hleft
    have hright := (ih right (by simp [Node.children])).expr hright
    obtain rfl := hleft.frame.1 (by simp)
    obtain rfl := hright.frame.1 (by simp)
    rw [List.append_nil]
    exact .binary (.cons hleft hright)
  | _ => simp [resolveExpr] at h

private theorem resolves_rebuilt {build : Node → Node} {e n' : Node} (ih : RunsByRules global e)
    (h : Returns (do return build (← resolveExpr e)) t n' t' rs) :
    ∃ e', n' = build e' ∧ t' = t ∧ Resolves global .exprs t [e] t [e'] rs := by
  simp only [returns_bind, returns_pure] at h
  obtain ⟨e', _, rs₁, _, he, ⟨rfl, rfl, rfl⟩, rfl⟩ := h
  have he := ih.expr he
  obtain rfl := he.frame.1 (by simp)
  rw [List.append_nil]
  exact ⟨e', rfl, rfl, he⟩

theorem Resolves.opened {t t₁ : SymbolTable} {ds ds' : List Node} {rs : List Diagnostic}
    (h : Resolves global .decls t.enterScope ds t₁ ds' rs) :
    ∃ added : Scope, t₁ = ⟨added :: t.scopes⟩ :=
  h.frame.2 [] t.scopes rfl

/-- The declarations of a block fill a scope of its own, which its statements leave as it is. -/
private theorem Resolves.block_frame {t t₁ t₂ : SymbolTable} {scope : Scope} {ss ss' : List Node}
    {rs : List Diagnostic} (hopen : ∃ added : Scope, t₁ = ⟨added :: t.scopes⟩)
    (hstmts : Resolves global .stmts t₁ ss ⟨scope :: t₂.scopes⟩ ss' rs) :
    t₂ = t ∧ t₁ = ⟨scope :: t.scopes⟩ := by
  obtain ⟨scopes⟩ := t
  obtain ⟨scopes₂⟩ := t₂
  obtain rfl := hstmts.frame.1 (by simp)
  obtain ⟨added, hadded⟩ := hopen
  cases hadded
  exact ⟨rfl, rfl⟩

private theorem resolves_block {γ : Type} {build : List Node → List Node → γ} {a : γ}
    {ds ss : List Node} (ihds : ∀ d ∈ ds, RunsByRules global d)
    (ihss : ∀ s ∈ ss, RunsByRules global s)
    (h : Returns (inScope do
      let ds ← resolveDecls global ds
      let ss ← resolveStmts global ss
      return build ds ss) t a t' rs) :
    ∃ scope ds' ss' rs₁ rs₂, a = build ds' ss' ∧ t' = t ∧ rs = rs₁ ++ rs₂ ∧
      Resolves global .decls t.enterScope ds ⟨scope :: t.scopes⟩ ds' rs₁ ∧
      Resolves global .stmts ⟨scope :: t.scopes⟩ ss ⟨scope :: t.scopes⟩ ss' rs₂ := by
  simp only [returns_inScope, returns_bind, returns_pure] at h
  obtain ⟨scope, ds', t₁, rs₁, _, hdecls, h, rfl⟩ := h
  obtain ⟨ss', _, rs₂, _, hstmts, ⟨rfl, rfl, rfl⟩, rfl⟩ := h
  have hdecls := resolves_decls ihds hdecls
  have hstmts := resolves_stmts ihss hstmts
  obtain ⟨rfl, rfl⟩ := Resolves.block_frame hdecls.opened hstmts
  exact ⟨scope, ds', ss', rs₁, rs₂, rfl, rfl, by simp, hdecls, hstmts⟩

private theorem resolves_stmt (s : Node) {s' : Node} (ih : ∀ m ∈ s.children, RunsByRules global m)
    (h : Returns (resolveStmt global s) t s' t' rs) :
    Resolves global .stmts t [s] t' [s'] rs := by
  cases s with
  | assignStmt e =>
    rw [resolveStmt] at h
    obtain ⟨e', rfl, rfl, he⟩ := resolves_rebuilt (ih e (by simp [Node.children])) h
    exact .assignStmt he
  | stepStmt op e =>
    rw [resolveStmt] at h
    obtain ⟨e', rfl, rfl, he⟩ := resolves_rebuilt (ih e (by simp [Node.children])) h
    exact .stepStmt he
  | readStmt e =>
    rw [resolveStmt] at h
    obtain ⟨e', rfl, rfl, he⟩ := resolves_rebuilt (ih e (by simp [Node.children])) h
    exact .readStmt he
  | writeStmt e =>
    rw [resolveStmt] at h
    obtain ⟨e', rfl, rfl, he⟩ := resolves_rebuilt (ih e (by simp [Node.children])) h
    exact .writeStmt he
  | callStmt e =>
    rw [resolveStmt] at h
    obtain ⟨e', rfl, rfl, he⟩ := resolves_rebuilt (ih e (by simp [Node.children])) h
    exact .callStmt he
  | returnStmt value pos =>
    by_cases hvalue : value = .missing
    · subst hvalue
      rw [resolveStmt, returns_pure] at h
      obtain ⟨rfl, rfl, rfl⟩ := h
      exact .bareReturn
    · rw [resolveStmt_return hvalue] at h
      obtain ⟨e', rfl, rfl, he⟩ := resolves_rebuilt (ih value (by simp [Node.children])) h
      exact .returnStmt he
  | ifStmt cond ds ss =>
    simp only [Node.children, List.forall_mem_cons, List.forall_mem_append] at ih
    rw [resolveStmt, returns_bind] at h
    obtain ⟨cond', t₁, rs₁, _, hcond, h, rfl⟩ := h
    have hcond := ih.1.expr hcond
    obtain rfl := hcond.frame.1 (by simp)
    obtain ⟨scope, ds', ss', rs₂, rs₃, rfl, rfl, rfl, hdecls, hstmts⟩ :=
      resolves_block ih.2.1 ih.2.2 h
    exact .ifStmt hcond hdecls hstmts
  | whileStmt cond ds ss =>
    simp only [Node.children, List.forall_mem_cons, List.forall_mem_append] at ih
    rw [resolveStmt, returns_bind] at h
    obtain ⟨cond', t₁, rs₁, _, hcond, h, rfl⟩ := h
    have hcond := ih.1.expr hcond
    obtain rfl := hcond.frame.1 (by simp)
    obtain ⟨scope, ds', ss', rs₂, rs₃, rfl, rfl, rfl, hdecls, hstmts⟩ :=
      resolves_block ih.2.1 ih.2.2 h
    exact .whileStmt hcond hdecls hstmts
  | ifElseStmt cond ds ss es fs =>
    simp only [Node.children, List.forall_mem_cons, List.forall_mem_append] at ih
    obtain ⟨ihcond, ihds, ihss, ihes, ihfs⟩ := ih
    rw [resolveStmt, returns_bind] at h
    obtain ⟨cond', t₁, rs₁, _, hcond, h, rfl⟩ := h
    have hcond := ihcond.expr hcond
    obtain rfl := hcond.frame.1 (by simp)
    rw [returns_bind] at h
    obtain ⟨⟨ds', ss'⟩, t₂, rs₂, _, hthen, h, rfl⟩ := h
    obtain ⟨thenScope, _, _, rs₃, rs₄, heq, rfl, rfl, hdecls, hstmts⟩ :=
      resolves_block ihds ihss hthen
    cases heq
    rw [returns_bind] at h
    obtain ⟨⟨es', fs'⟩, t₃, rs₅, _, helse, h, rfl⟩ := h
    obtain ⟨elseScope, _, _, rs₆, rs₇, heq, rfl, rfl, hdecls', hstmts'⟩ :=
      resolves_block ihes ihfs helse
    cases heq
    obtain ⟨rfl, rfl, rfl⟩ := returns_pure.mp h
    rw [List.append_nil]
    exact .ifElseStmt hcond hdecls hstmts hdecls' hstmts'
  | _ => simp [resolveStmt] at h

private theorem resolves_decl (d : Node) {d' : Node} (ih : ∀ m ∈ d.children, RunsByRules global m)
    (h : Returns (resolveDecl global d) t d' t' rs) :
    Resolves global .decls t [d] t' [d'] rs := by
  cases d with
  | varDecl type id =>
    simp only [resolveDecl, returns_bind, returns_pure] at h
    obtain ⟨⟨type', id'⟩, _, rs₁, _, h, ⟨rfl, rfl, rfl⟩, rfl⟩ := h
    rw [List.append_nil]
    exact .varDecl (returns_declareStorage.mp h)
  | formalDecl type id =>
    simp only [resolveDecl, returns_bind, returns_pure] at h
    obtain ⟨⟨type', id'⟩, _, rs₁, _, h, ⟨rfl, rfl, rfl⟩, rfl⟩ := h
    rw [List.append_nil]
    exact .formalDecl (returns_declareStorage.mp h)
  | fnDecl type id formals decls stmts =>
    simp only [Node.children, List.forall_mem_cons, List.forall_mem_append] at ih
    obtain ⟨-, ihformals, ihdecls, ihstmts⟩ := ih
    simp only [resolveDecl, returns_bind, returns_requireDepth, returns_resolveResultType,
      returns_declareFunction, returns_inScope, returns_pure] at h
    obtain ⟨_, _, _, _, ⟨hdepth, rfl, rfl⟩, h, rfl⟩ := h
    obtain ⟨type', _, rs₁, _, ⟨rfl, htype⟩, h, rfl⟩ := h
    obtain ⟨id', t₁, rs₂, _, ⟨params, result, hparams, hresult, hid⟩, h, rfl⟩ := h
    obtain ⟨scope, formals', t₂, rs₃, _, hformals, h, rfl⟩ := h
    obtain ⟨decls', t₃, rs₄, _, hdecls, h, rfl⟩ := h
    obtain ⟨stmts', _, rs₅, _, hstmts, ⟨rfl, rfl, rfl⟩, rfl⟩ := h
    have hformals := resolves_decls ihformals hformals
    have hdecls := resolves_decls ihdecls hdecls
    have hstmts := resolves_stmts ihstmts hstmts
    have hopen : ∃ added : Scope, t₃ = ⟨added :: t₁.scopes⟩ := by
      obtain ⟨added, rfl⟩ := hformals.opened
      obtain ⟨added', rfl⟩ := hdecls.frame.2 added t₁.scopes rfl
      exact ⟨added ++ added', rfl⟩
    obtain ⟨rfl, rfl⟩ := Resolves.block_frame hopen hstmts
    rw [List.append_nil]
    exact .fnDecl hdepth htype hparams hresult hid hformals hdecls hstmts
  | structDecl id decls =>
    simp only [resolveDecl, returns_bind, returns_requireDepth, returns_openScope,
      returns_closeScope, returns_declare, returns_pure] at h
    obtain ⟨_, _, _, _, ⟨hdepth, rfl, rfl⟩, h, rfl⟩ := h
    obtain ⟨_, _, _, _, ⟨rfl, rfl⟩, h, rfl⟩ := h
    obtain ⟨decls', t₁, rs₁, _, hdecls, h, rfl⟩ := h
    obtain ⟨fields, t₂, _, _, ⟨rfl, rfl⟩, h, rfl⟩ := h
    obtain ⟨id', _, rs₂, _, hid, ⟨rfl, rfl, rfl⟩, rfl⟩ := h
    have hdecls := resolves_decls ih hdecls
    obtain ⟨added, hadded⟩ := hdecls.opened
    obtain ⟨scopes⟩ := t₂
    cases hadded
    rw [List.append_nil]
    exact .structDecl hdepth hdecls hid
  | _ => simp [resolveDecl] at h

theorem runsByRules (global : Nat) (n : Node) : RunsByRules global n := by
  induction n using Node.induct with
  | step n ih => exact ⟨resolves_expr n ih, resolves_stmt n ih, resolves_decl n ih⟩

/-- A run over declarations that returns is a derivation. -/
theorem Resolves.of_returns {ds ds' : List Node}
    (h : Returns (resolveDecls global ds) t ds' t' rs) :
    Resolves global .decls t ds t' ds' rs :=
  resolves_decls (fun d _ => runsByRules global d) h

theorem Resolves.of_returns_stmts {ss ss' : List Node}
    (h : Returns (resolveStmts global ss) t ss' t' rs) :
    Resolves global .stmts t ss t' ss' rs :=
  resolves_stmts (fun s _ => runsByRules global s) h

end FromRuns

def Phrase.resolve (global : Nat) : Phrase → List Node → Resolver (List Node)
  | .exprs => resolveExprs
  | .stmts => resolveStmts global
  | .decls => resolveDecls global

section ToRuns

variable {global : Nat} {t t' : SymbolTable} {rs : List Diagnostic}

/-- The analysis of one node that is taken for part of a phrase. -/
private def Phrase.resolveOne (global : Nat) : Phrase → Node → Resolver Node
  | .exprs => resolveExpr
  | .stmts => resolveStmt global
  | .decls => resolveDecl global

private theorem returns_resolve_nil {p : Phrase} {ns' : List Node} :
    Returns (p.resolve global []) t ns' t' rs ↔ ns' = [] ∧ t' = t ∧ rs = [] := by
  cases p <;> simp [Phrase.resolve, resolveExprs, resolveStmts, resolveDecls]

private theorem returns_resolve_cons {p : Phrase} {n : Node} {ns ns' : List Node} :
    Returns (p.resolve global (n :: ns)) t ns' t' rs ↔
      ∃ n' t₁ rs₁ ns₁ rs₂, Returns (p.resolveOne global n) t n' t₁ rs₁ ∧
        Returns (p.resolve global ns) t₁ ns₁ t' rs₂ ∧ ns' = n' :: ns₁ ∧ rs = rs₁ ++ rs₂ := by
  have hcons : p.resolve global (n :: ns) =
      (do return (← p.resolveOne global n) :: (← p.resolve global ns)) := by
    cases p <;> rfl
  have hinert (ns : List Node) : Inert (p.resolve global ns) := by
    cases p <;> simp only [Phrase.resolve] <;> infer_instance
  rw [hcons]
  simp only [returns_bind, returns_pure]
  constructor
  · intro h
    obtain ⟨n', t₁, rs₁, _, hn, ⟨ns₁, _, rs₂, _, hns, ⟨rfl, rfl, rfl⟩, rfl⟩, rfl⟩ := h
    exact ⟨n', t₁, rs₁, ns₁, rs₂, hn, hns, rfl, by simp⟩
  · intro h
    obtain ⟨n', t₁, rs₁, ns₁, rs₂, hn, hns, rfl, rfl⟩ := h
    exact ⟨n', t₁, rs₁, rs₂, hn, ⟨ns₁, t', rs₂, [], hns, ⟨rfl, rfl, rfl⟩, by simp⟩, rfl⟩

private theorem returns_resolve_one {p : Phrase} {n n' : Node} :
    Returns (p.resolve global [n]) t [n'] t' rs ↔ Returns (p.resolveOne global n) t n' t' rs := by
  rw [returns_resolve_cons]
  constructor
  · intro h
    obtain ⟨n'', t₁, rs₁, ns₁, rs₂, hn, hnil, heq, rfl⟩ := h
    obtain ⟨rfl, rfl, rfl⟩ := returns_resolve_nil.mp hnil
    cases heq
    rw [List.append_nil]
    exact hn
  · intro h
    exact ⟨n', t', rs, [], [], h, returns_resolve_nil.mpr ⟨rfl, rfl, rfl⟩, rfl, by simp⟩

private theorem returns_resolve_two {p : Phrase} {n n' m m' : Node} :
    Returns (p.resolve global [n, m]) t [n', m'] t' rs ↔
      ∃ t₁ rs₁ rs₂, Returns (p.resolveOne global n) t n' t₁ rs₁ ∧
        Returns (p.resolveOne global m) t₁ m' t' rs₂ ∧ rs = rs₁ ++ rs₂ := by
  rw [returns_resolve_cons]
  constructor
  · intro h
    obtain ⟨n'', t₁, rs₁, ns₁, rs₂, hn, hm, heq, rfl⟩ := h
    cases heq
    exact ⟨t₁, rs₁, rs₂, hn, returns_resolve_one.mp hm, rfl⟩
  · intro h
    obtain ⟨t₁, rs₁, rs₂, hn, hm, rfl⟩ := h
    exact ⟨n', t₁, rs₁, [m'], rs₂, hn, returns_resolve_one.mpr hm, rfl, rfl⟩

private theorem returns_rebuilt {build : Node → Node} {e e' : Node}
    (h : Returns (Phrase.exprs.resolve global [e]) t [e'] t' rs) :
    Returns (do return build (← resolveExpr e)) t (build e') t' rs := by
  have he : Returns (resolveExpr e) t e' t' rs := returns_resolve_one.mp h
  exact returns_bind.mpr ⟨e', t', rs, [], he, returns_pure.mpr ⟨rfl, rfl, rfl⟩, by simp⟩

private theorem returns_block {γ : Type} {build : List Node → List Node → γ}
    {ds ds' ss ss' : List Node} {scope : Scope} {rs₁ rs₂ : List Diagnostic}
    (hdecls : Returns (resolveDecls global ds) t.enterScope ds' ⟨scope :: t.scopes⟩ rs₁)
    (hstmts : Returns (resolveStmts global ss) ⟨scope :: t.scopes⟩ ss' ⟨scope :: t.scopes⟩ rs₂) :
    Returns (inScope do
      let ds ← resolveDecls global ds
      let ss ← resolveStmts global ss
      return build ds ss) t (build ds' ss') t (rs₁ ++ rs₂) := by
  simp only [returns_inScope, returns_bind, returns_pure]
  exact ⟨scope, ds', _, rs₁, rs₂, hdecls, ⟨ss', _, rs₂, [], hstmts, ⟨rfl, rfl, rfl⟩, by simp⟩, rfl⟩

/-- Every derivation is a run that returns. -/
theorem Resolves.returns {p : Phrase} {ns ns' : List Node}
    (h : Resolves global p t ns t' ns' rs) : Returns (p.resolve global ns) t ns' t' rs := by
  induction h with
  | nil => exact returns_resolve_nil.mpr ⟨rfl, rfl, rfl⟩
  | @cons p t t₁ t₂ n n' ns ns' rs₁ rs₂ _ _ ihhead ihtail =>
    exact returns_resolve_cons.mpr
      ⟨n', t₁, rs₁, ns', rs₂, returns_resolve_one.mp ihhead, ihtail, rfl, rfl⟩
  | lit => exact returns_resolve_one.mpr (returns_pure.mpr ⟨rfl, rfl, rfl⟩)
  | @ident t id id' rs hid =>
    apply returns_resolve_one.mpr
    exact returns_bind.mpr ⟨id', t, rs, [], returns_bindUse.mpr ⟨rfl, hid⟩,
      returns_pure.mpr ⟨rfl, rfl, rfl⟩, by simp⟩
  | @dot t base base' owner' field field' rs₁ rs₂ hpath _ howner hfield ih =>
    apply returns_resolve_one.mpr
    have hbase : Returns (resolveExpr base) t base' t rs₁ := returns_resolve_one.mp ih
    simp only [Phrase.resolveOne, resolveExpr, returns_bind, returns_pure]
    have hbind := (returns_bindFieldOf howner).mpr ⟨rfl, hfield⟩
    exact ⟨(), t, [], rs₁ ++ rs₂, returns_requirePath.mpr ⟨hpath, rfl, rfl⟩,
      ⟨base', t, rs₁, rs₂, hbase, ⟨field', t, rs₂, [], hbind, ⟨rfl, rfl, rfl⟩, by simp⟩, rfl⟩, rfl⟩
  | assign _ ih =>
    apply returns_resolve_one.mpr
    obtain ⟨t₁, rs₁, rs₂, htarget, hvalue, rfl⟩ := returns_resolve_two.mp ih
    simp only [Phrase.resolveOne, resolveExpr, returns_bind, returns_pure]
    exact ⟨_, t₁, rs₁, rs₂, htarget, ⟨_, _, rs₂, [], hvalue, ⟨rfl, rfl, rfl⟩, by simp⟩, rfl⟩
  | @call t callee callee' args args' rs₁ rs₂ hcallee _ ih =>
    apply returns_resolve_one.mpr
    simp only [Phrase.resolveOne, resolveExpr, returns_bind, returns_pure]
    exact ⟨callee', t, rs₁, rs₂, returns_bindUse.mpr ⟨rfl, hcallee⟩,
      ⟨args', t, rs₂, [], ih, ⟨rfl, rfl, rfl⟩, by simp⟩, rfl⟩
  | unary _ ih => exact returns_resolve_one.mpr (returns_rebuilt ih)
  | binary _ ih =>
    apply returns_resolve_one.mpr
    obtain ⟨t₁, rs₁, rs₂, hleft, hright, rfl⟩ := returns_resolve_two.mp ih
    simp only [Phrase.resolveOne, resolveExpr, returns_bind, returns_pure]
    exact ⟨_, t₁, rs₁, rs₂, hleft, ⟨_, _, rs₂, [], hright, ⟨rfl, rfl, rfl⟩, by simp⟩, rfl⟩
  | assignStmt _ ih => exact returns_resolve_one.mpr (returns_rebuilt ih)
  | stepStmt _ ih => exact returns_resolve_one.mpr (returns_rebuilt ih)
  | readStmt _ ih => exact returns_resolve_one.mpr (returns_rebuilt ih)
  | writeStmt _ ih => exact returns_resolve_one.mpr (returns_rebuilt ih)
  | callStmt _ ih => exact returns_resolve_one.mpr (returns_rebuilt ih)
  | bareReturn => exact returns_resolve_one.mpr (returns_pure.mpr ⟨rfl, rfl, rfl⟩)
  | returnStmt he ih =>
    apply returns_resolve_one.mpr
    rw [Phrase.resolveOne, resolveStmt_return (he.ne_missing _ (List.mem_singleton_self _))]
    exact returns_rebuilt ih
  | @ifStmt t scope cond cond' ds ds' ss ss' rs₁ rs₂ rs₃ _ _ _ ihcond ihdecls ihstmts =>
    apply returns_resolve_one.mpr
    exact returns_bind.mpr ⟨cond', t, rs₁, rs₂ ++ rs₃, returns_resolve_one.mp ihcond,
      returns_block ihdecls ihstmts, rfl⟩
  | @ifElseStmt t _ _ cond cond' ds ds' ss ss' es es' fs fs' rs₁ rs₂ rs₃ rs₄ rs₅ _ _ _ _ _ ihcond
      ihdecls ihstmts ihdecls' ihstmts' =>
    apply returns_resolve_one.mpr
    refine returns_bind.mpr ⟨cond', t, rs₁, _, returns_resolve_one.mp ihcond, ?_, rfl⟩
    refine returns_bind.mpr ⟨(ds', ss'), t, rs₂ ++ rs₃, _, returns_block ihdecls ihstmts, ?_, rfl⟩
    exact returns_bind.mpr ⟨(es', fs'), t, rs₄ ++ rs₅, [], returns_block ihdecls' ihstmts',
      returns_pure.mpr ⟨rfl, rfl, rfl⟩, by simp⟩
  | @whileStmt t scope cond cond' ds ds' ss ss' rs₁ rs₂ rs₃ _ _ _ ihcond ihdecls ihstmts =>
    apply returns_resolve_one.mpr
    exact returns_bind.mpr ⟨cond', t, rs₁, rs₂ ++ rs₃, returns_resolve_one.mp ihcond,
      returns_block ihdecls ihstmts, rfl⟩
  | @varDecl t t' type type' id id' rs h =>
    apply returns_resolve_one.mpr
    exact returns_bind.mpr ⟨(type', id'), t', rs, [], returns_declareStorage.mpr h,
      returns_pure.mpr ⟨rfl, rfl, rfl⟩, by simp⟩
  | @formalDecl t t' type type' id id' rs h =>
    apply returns_resolve_one.mpr
    exact returns_bind.mpr ⟨(type', id'), t', rs, [], returns_declareStorage.mpr h,
      returns_pure.mpr ⟨rfl, rfl, rfl⟩, by simp⟩
  | @fnDecl t t₁ t₂ scope type type' id id' formals formals' decls decls' stmts stmts' params result
      rs₁ rs₂ rs₃ rs₄ rs₅ hdepth htype hparams hresult hid _ _ _ ihformals ihdecls ihstmts =>
    apply returns_resolve_one.mpr
    simp only [Phrase.resolveOne, resolveDecl, returns_bind, returns_requireDepth,
      returns_resolveResultType, returns_declareFunction, returns_inScope, returns_pure]
    exact ⟨(), t, [], _, ⟨hdepth, rfl, rfl⟩, ⟨type', t, rs₁, _, ⟨rfl, htype⟩,
      ⟨id', t₁, rs₂, _, ⟨params, result, hparams, hresult, hid⟩,
        ⟨scope, formals', t₂, rs₃, _, ihformals, ⟨decls', _, rs₄, _, ihdecls,
          ⟨stmts', _, rs₅, [], ihstmts, ⟨rfl, rfl, rfl⟩, by simp⟩, rfl⟩, rfl⟩, rfl⟩, rfl⟩, rfl⟩
  | @structDecl t t' fields id id' decls decls' rs₁ rs₂ hdepth _ hid ih =>
    apply returns_resolve_one.mpr
    simp only [Phrase.resolveOne, resolveDecl, returns_bind, returns_requireDepth,
      returns_openScope, returns_closeScope, returns_declare, returns_pure]
    exact ⟨(), t, [], _, ⟨hdepth, rfl, rfl⟩, ⟨(), t.enterScope, [], _, ⟨rfl, rfl⟩,
      ⟨decls', _, rs₁, rs₂, ih, ⟨fields, t, [], rs₂, ⟨rfl, rfl⟩,
        ⟨id', t', rs₂, [], hid, ⟨rfl, rfl, rfl⟩, by simp⟩, rfl⟩, rfl⟩, rfl⟩, rfl⟩

end ToRuns

theorem Resolves.of_resolveProgram {program : Program} {table : SymbolTable}
    (h : (resolveProgram program table).stage.fault = none) :
    ∃ scope, Resolves (table.depth + 1) .decls table.enterScope program ⟨scope :: table.scopes⟩
      (resolveProgram program table).value (resolveProgram program table).reports := by
  have hreturns : Returns (inScope (resolveDecls (table.depth + 1) program)) table
      (resolveProgram program table).value (resolveProgram program table).stage.table
      (resolveProgram program table).reports := by
    change resolveProgram program table = _
    rcases hr : resolveProgram program table with ⟨value, ⟨t, fault⟩, rs⟩
    rw [hr] at h
    cases h
    rfl
  obtain ⟨scope, hdecls⟩ := returns_inScope.mp hreturns
  have hresolves := Resolves.of_returns hdecls
  obtain ⟨added, ht⟩ := hresolves.opened
  rw [ht] at hresolves
  exact ⟨_, hresolves⟩

theorem Resolves.resolveProgram_eq {program program' : Program} {table : SymbolTable}
    {scope : Scope} {rs : List Diagnostic}
    (h : Resolves (table.depth + 1) .decls table.enterScope program ⟨scope :: table.scopes⟩
      program' rs) : resolveProgram program table = ⟨program', ⟨table, none⟩, rs⟩ := by
  have hreturns : Returns (inScope (resolveDecls (table.depth + 1) program)) table program'
      table rs := returns_inScope.mpr ⟨scope, h.returns⟩
  exact hreturns

end Sema
