import Sema.Proofs.Resolution.Rules

/-!
# Steps that return

Name analysis is a chain of steps, and once a fault has stopped it nothing happens any more. So a
chain returns exactly if its links return one after the other, and what a single step does when it
returns is what the rules say of it.
-/

namespace Sema

open Resolver

variable {α β : Type} {t t' : SymbolTable} {rs : List Diagnostic}

/-- Started on the scopes `t` and not stopped, the step ends on `t'`, not stopped, with this value
and these reports. -/
def Returns (m : Resolver α) (t : SymbolTable) (a : α) (t' : SymbolTable) (rs : List Diagnostic) :
    Prop :=
  m ⟨t, none⟩ = ⟨a, ⟨t', none⟩, rs⟩

/-- Once a fault has stopped the analysis, the step leaves everything as it is. -/
class Inert (m : Resolver α) : Prop where
  stage_eq : ∀ t why, (m ⟨t, some why⟩).stage = ⟨t, some why⟩

instance (a : α) : Inert (pure a : Resolver α) := ⟨fun _ _ => rfl⟩

instance (idle : α) (step : Stage → Resolved α) : Inert (unlessStopped idle step) :=
  ⟨fun _ _ => rfl⟩

instance (m : Resolver α) (f : α → Resolver β) [Inert m] [∀ a, Inert (f a)] : Inert (m >>= f) where
  stage_eq t why := by
    rw [bind_apply]
    change (f (m ⟨t, some why⟩).value (m ⟨t, some why⟩).stage).stage = _
    rw [Inert.stage_eq (m := m) t why]
    exact Inert.stage_eq t why

theorem returns_bind {m : Resolver α} {f : α → Resolver β} [∀ a, Inert (f a)] {b : β} :
    Returns (m >>= f) t b t' rs ↔
      ∃ a t₁ rs₁ rs₂, Returns m t a t₁ rs₁ ∧ Returns (f a) t₁ b t' rs₂ ∧ rs = rs₁ ++ rs₂ := by
  unfold Returns
  rw [bind_apply]
  rcases hm : m ⟨t, none⟩ with ⟨a, ⟨t₁, _ | why⟩, rs₁⟩
  · rcases hf : f a ⟨t₁, none⟩ with ⟨b', s, rs₂⟩
    constructor
    · intro h
      injection h with hb hs hrs
      subst hb hs hrs
      exact ⟨a, t₁, rs₁, rs₂, rfl, hf, rfl⟩
    · rintro ⟨a', t₁', rs₁', rs₂', h, hf', rfl⟩
      cases h
      rw [hf] at hf'
      cases hf'
      rfl
  · constructor
    · intro h
      injection h with _ hs _
      have hstopped := Inert.stage_eq (m := f a) t₁ why
      rw [hs] at hstopped
      cases hstopped
    · rintro ⟨a', t₁', rs₁', rs₂', h, -, -⟩
      cases h

@[simp] theorem returns_pure {a b : α} :
    Returns (pure a) t b t' rs ↔ b = a ∧ t' = t ∧ rs = [] := by
  simp only [Returns, pure_apply, Resolved.mk.injEq, Stage.mk.injEq, and_true]
  constructor
  · rintro ⟨rfl, rfl, rfl⟩
    exact ⟨rfl, rfl, rfl⟩
  · rintro ⟨rfl, rfl, rfl⟩
    exact ⟨rfl, rfl, rfl⟩

instance (fault : Fault) : Inert (stop fault) := inferInstanceAs (Inert (unlessStopped _ _))

instance (kind : DiagnosticKind) (pos : Pos) : Inert (report kind pos) :=
  inferInstanceAs (Inert (unlessStopped _ _))

instance : Inert openScope := inferInstanceAs (Inert (unlessStopped _ _))

instance : Inert closeScope := inferInstanceAs (Inert (unlessStopped _ _))

instance (id : Ident) (s : Symbol) : Inert (declare id s) :=
  inferInstanceAs (Inert (unlessStopped _ _))

instance (id : Ident) : Inert (bindUse id) := inferInstanceAs (Inert (unlessStopped _ _))

instance (id : Ident) : Inert (bindStruct id) := inferInstanceAs (Inert (unlessStopped _ _))

instance (owner field : Ident) : Inert (bindField owner field) :=
  inferInstanceAs (Inert (unlessStopped _ _))

instance (depth : Nat) (fault : Fault) : Inert (requireDepth depth fault) :=
  inferInstanceAs (Inert (unlessStopped _ _))

instance (m : Resolver α) [Inert m] : Inert (inScope m) := by
  unfold inScope
  infer_instance

instance (slot : Slot) (node : Node) : Inert (reject slot node) := by
  unfold reject
  infer_instance

@[simp] theorem not_returns_stop {fault : Fault} {u : Unit} : ¬ Returns (stop fault) t u t' rs := by
  simp [Returns, stop]

@[simp] theorem not_returns_reject {slot : Slot} {node node' : Node} :
    ¬ Returns (reject slot node) t node' t' rs := by
  simp only [reject, returns_bind, not_returns_stop, false_and, exists_false, not_false_eq_true]

@[simp] theorem returns_report {kind : DiagnosticKind} {pos : Pos} {u : Unit} :
    Returns (report kind pos) t u t' rs ↔ t' = t ∧ rs = [.ofKind kind pos] := by
  simp [Returns, report, eq_comm]

@[simp] theorem returns_openScope {u : Unit} :
    Returns openScope t u t' rs ↔ t' = t.enterScope ∧ rs = [] := by
  simp [Returns, openScope, eq_comm]

@[simp] theorem returns_closeScope {scope : Scope} :
    Returns closeScope t scope t' rs ↔ t = ⟨scope :: t'.scopes⟩ ∧ rs = [] := by
  obtain ⟨scopes⟩ := t
  obtain ⟨scopes'⟩ := t'
  cases scopes with
  | nil => simp [Returns, closeScope, ScopeStack.exitScope]
  | cons top rest => simp [Returns, closeScope, ScopeStack.exitScope, eq_comm, and_assoc]

@[simp] theorem returns_requireDepth {depth : Nat} {fault : Fault} {u : Unit} :
    Returns (requireDepth depth fault) t u t' rs ↔ t.depth = depth ∧ t' = t ∧ rs = [] := by
  by_cases hdepth : t.depth = depth
  · simp only [Returns, requireDepth, unlessStopped_none, hdepth, if_true, Resolved.mk.injEq,
      Stage.mk.injEq, and_true, true_and, eq_comm]
  · simp [Returns, requireDepth, hdepth]

theorem returns_inScope {m : Resolver α} [Inert m] {a : α} :
    Returns (inScope m) t a t' rs ↔
      ∃ scope, Returns m t.enterScope a ⟨scope :: t'.scopes⟩ rs := by
  simp only [inScope, returns_bind, returns_openScope, returns_closeScope, returns_pure]
  constructor
  · intro h
    obtain ⟨_, t₁, rs₁, rs₂, ⟨rfl, rfl⟩, h, rfl⟩ := h
    obtain ⟨b, t₂, rs₃, rs₄, hm, h, rfl⟩ := h
    obtain ⟨scope, t₃, rs₅, rs₆, ⟨rfl, rfl⟩, ⟨rfl, rfl, rfl⟩, rfl⟩ := h
    exact ⟨scope, by simpa using hm⟩
  · intro h
    obtain ⟨scope, hm⟩ := h
    exact ⟨(), _, [], rs, ⟨rfl, rfl⟩, ⟨a, _, rs, [], hm, ⟨scope, t', [], [], ⟨rfl, rfl⟩,
      ⟨rfl, rfl, rfl⟩, rfl⟩, by simp⟩, by simp⟩

theorem returns_declare {id id' : Ident} {s : Symbol} :
    Returns (declare id s) t id' t' rs ↔ Declares t id s t' id' rs := by
  unfold Returns declare
  rw [unlessStopped_none]
  constructor
  · intro h
    split at h
    · rename_i table htable
      cases h
      exact .fresh htable
    · rename_i name hname
      cases h
      exact .taken hname
    · cases h
  · intro h
    cases h with
    | fresh h => simp [h]
    | taken h => simp [h]

theorem returns_bindUse {id id' : Ident} :
    Returns (bindUse id) t id' t' rs ↔ t' = t ∧ UseBinds t id id' rs := by
  unfold Returns bindUse
  rw [unlessStopped_none]
  constructor
  · intro h
    split at h
    · rename_i s hs
      cases h
      exact ⟨rfl, .known hs⟩
    · rename_i hnone
      cases h
      exact ⟨rfl, .unknown hnone⟩
    · cases h
  · intro h
    obtain ⟨rfl, h⟩ := h
    cases h with
    | known h => simp [h]
    | unknown h => simp [h]

theorem returns_bindStruct {id id' : Ident} {d : Option StructDef} :
    Returns (bindStruct id) t (id', d) t' rs ↔ t' = t ∧ StructBinds t id id' d rs := by
  unfold Returns bindStruct
  rw [unlessStopped_none]
  constructor
  · intro h
    split at h
    · rename_i d' hd
      cases h
      exact ⟨rfl, .known hd⟩
    · rename_i hnone
      cases h
      exact ⟨rfl, .unknown hnone⟩
  · intro h
    obtain ⟨rfl, h⟩ := h
    cases h with
    | known h => simp [h]
    | unknown h => simp [h]

theorem returns_bindField {owner field field' : Ident} :
    Returns (bindField owner field) t field' t' rs ↔
      t' = t ∧ FieldBinds t owner field field' rs := by
  unfold Returns bindField
  rw [unlessStopped_none]
  constructor
  · intro h
    split at h
    · rename_i howner
      cases h
      exact ⟨rfl, .unbound howner⟩
    · rename_i struct howner
      split at h
      · cases h
      · rename_i d hd
        split at h
        · rename_i s hs
          cases h
          exact ⟨rfl, .known howner hd hs⟩
        · rename_i hs
          cases h
          exact ⟨rfl, .unknown howner hd hs⟩
        · cases h
    · rename_i s hs howner
      cases h
      refine ⟨rfl, .nonStruct howner ?_⟩
      intro struct heq
      exact hs struct heq
  · intro h
    obtain ⟨rfl, h⟩ := h
    cases h with
    | unbound h => simp [h]
    | known h hd hs => simp [h, hd, hs]
    | unknown h hd hs => simp [h, hd, hs]
    | @nonStruct s h hs =>
      cases s with
      | structVar struct => exact absurd rfl (hs struct)
      | _ => simp [h]

instance (base : Node) : Inert (requirePath base) := by
  unfold requirePath
  split <;> infer_instance

instance (base : Node) (field : Ident) : Inert (bindFieldOf base field) := by
  unfold bindFieldOf
  split <;> infer_instance

instance (type : Node) : Inert (resolveResultType type) := by
  unfold resolveResultType
  split <;> infer_instance

instance (type : Node) (id : Ident) (formals : List Node) :
    Inert (declareFunction type id formals) := by
  unfold declareFunction
  split <;> infer_instance

theorem inert_declareStruct (id : Ident) (x : Ident × Option StructDef) : Inert (match x with
    | (name, some d) => (do return (.structType name, ← declare id (.structVar d.name)))
    | (name, none) => (return (.structType name, id) : Resolver (Node × Ident))) := by
  obtain ⟨name, _ | d⟩ := x <;> infer_instance

instance (type : Node) (id : Ident) : Inert (declareStorage type id) := by
  have hstruct := inert_declareStruct id
  unfold declareStorage
  split <;> infer_instance

theorem returns_requirePath {base : Node} {u : Unit} :
    Returns (requirePath base) t u t' rs ↔ base.pathEnd?.isSome = true ∧ t' = t ∧ rs = [] := by
  unfold requirePath
  cases base.pathEnd? <;> simp

theorem returns_bindFieldOf {base : Node} {owner field field' : Ident}
    (howner : base.pathEnd? = some owner) :
    Returns (bindFieldOf base field) t field' t' rs ↔
      t' = t ∧ FieldBinds t owner field field' rs := by
  unfold bindFieldOf
  rw [howner]
  exact returns_bindField

theorem returns_resolveResultType {type type' : Node} :
    Returns (resolveResultType type) t type' t' rs ↔ t' = t ∧ ResultBinds t type type' rs := by
  unfold resolveResultType
  split
  · rename_i name
    simp only [returns_bind, returns_pure]
    constructor
    · intro h
      obtain ⟨⟨name', d⟩, t₁, rs₁, rs₂, h, ⟨rfl, rfl, rfl⟩, rfl⟩ := h
      obtain ⟨rfl, h⟩ := returns_bindStruct.mp h
      rw [List.append_nil]
      exact ⟨rfl, .struct h⟩
    · intro h
      obtain ⟨rfl, h⟩ := h
      cases h with
      | @struct _ name' d rs h =>
        exact ⟨(name', d), _, rs, [], returns_bindStruct.mpr ⟨rfl, h⟩, ⟨rfl, rfl, rfl⟩, by simp⟩
      | other h => exact absurd rfl (h name)
  · rename_i hother
    rw [returns_pure]
    constructor
    · intro h
      obtain ⟨rfl, rfl, rfl⟩ := h
      exact ⟨rfl, .other fun name heq => hother name heq⟩
    · intro h
      obtain ⟨rfl, h⟩ := h
      cases h with
      | struct h => exact absurd rfl (hother _)
      | other h => exact ⟨rfl, rfl, rfl⟩

theorem returns_declareFunction {type : Node} {id id' : Ident} {formals : List Node} :
    Returns (declareFunction type id formals) t id' t' rs ↔
      ∃ params result, Node.typeNames? formals = some params ∧ type.typeName? = some result ∧
        Declares t id (.function params result) t' id' rs := by
  unfold declareFunction
  split
  · rename_i params result hparams hresult
    rw [returns_declare]
    constructor
    · intro h
      exact ⟨params, result, hparams, hresult, h⟩
    · intro h
      obtain ⟨params', result', hparams', hresult', h⟩ := h
      rw [hparams] at hparams'
      rw [hresult] at hresult'
      cases hparams'
      cases hresult'
      exact h
  · rename_i hnone
    simp only [returns_bind, not_returns_stop, false_and, exists_false, false_iff, not_exists]
    intro params result h
    exact hnone params result h.1 h.2.1

private theorem returns_scalar {prim : PrimType} {type' : Node} {id id' : Ident}
    (hprim : prim ≠ .void) :
    Returns (do return (.primType prim, ← declare id (.var prim.text)) : Resolver (Node × Ident))
        t (type', id') t' rs ↔ StorageDeclares t id (.primType prim) t' type' id' rs := by
  simp only [returns_bind, returns_pure, returns_declare]
  constructor
  · intro h
    obtain ⟨id'', t₁, rs₁, rs₂, h, ⟨heq, rfl, rfl⟩, rfl⟩ := h
    cases heq
    rw [List.append_nil]
    exact .scalar hprim h
  · intro h
    cases h with
    | void => exact absurd rfl hprim
    | scalar _ h => exact ⟨id', t', rs, [], h, ⟨rfl, rfl, rfl⟩, by simp⟩

theorem returns_declareStorage {type type' : Node} {id id' : Ident} :
    Returns (declareStorage type id) t (type', id') t' rs ↔
      StorageDeclares t id type t' type' id' rs := by
  cases type with
  | primType prim =>
    cases prim with
    | void =>
      simp only [declareStorage, returns_bind, returns_report, returns_pure]
      constructor
      · intro h
        obtain ⟨_, t₁, rs₁, rs₂, ⟨rfl, rfl⟩, ⟨heq, rfl, rfl⟩, rfl⟩ := h
        cases heq
        exact .void
      · intro h
        cases h with
        | void => exact ⟨(), t, _, [], ⟨rfl, rfl⟩, ⟨rfl, rfl, rfl⟩, rfl⟩
        | scalar hprim _ => exact absurd rfl hprim
    | int => exact returns_scalar (by simp)
    | bool => exact returns_scalar (by simp)
  | structType name =>
    have hstruct := inert_declareStruct id
    simp only [declareStorage, returns_bind]
    constructor
    · intro h
      obtain ⟨⟨name', d⟩, t₁, rs₁, rs₂, hname, h, rfl⟩ := h
      obtain ⟨rfl, hname⟩ := returns_bindStruct.mp hname
      cases d with
      | none =>
        obtain ⟨heq, rfl, rfl⟩ := returns_pure.mp h
        cases heq
        rw [List.append_nil]
        exact .undefined hname
      | some d =>
        simp only [returns_bind, returns_pure, returns_declare] at h
        obtain ⟨id'', t₂, rs₃, rs₄, h, ⟨heq, rfl, rfl⟩, rfl⟩ := h
        cases heq
        rw [List.append_nil]
        exact .struct hname h
    · intro h
      cases h with
      | @struct _ name' _ d _ rs₁ rs₂ hname h =>
        refine ⟨(name', some d), t, rs₁, rs₂, returns_bindStruct.mpr ⟨rfl, hname⟩, ?_, rfl⟩
        simp only [returns_bind, returns_pure, returns_declare]
        exact ⟨id', t', rs₂, [], h, ⟨rfl, rfl, rfl⟩, by simp⟩
      | @undefined _ name' rs hname =>
        refine ⟨(name', none), t, rs, [], returns_bindStruct.mpr ⟨rfl, hname⟩, ?_, by simp⟩
        exact returns_pure.mpr ⟨rfl, rfl, rfl⟩
  | _ =>
    simp only [declareStorage, returns_bind, not_returns_stop, false_and, exists_false, false_iff]
    intro h
    cases h

mutual

theorem inert_resolveExpr (e : Node) : Inert (resolveExpr e) := by
  cases e with
  | dot base field =>
    have hbase := inert_resolveExpr base
    unfold resolveExpr
    infer_instance
  | assign target value =>
    have htarget := inert_resolveExpr target
    have hvalue := inert_resolveExpr value
    unfold resolveExpr
    infer_instance
  | call callee args =>
    have hargs := inert_resolveExprs args
    unfold resolveExpr
    infer_instance
  | unary op operand =>
    have hoperand := inert_resolveExpr operand
    unfold resolveExpr
    infer_instance
  | binary op left right =>
    have hleft := inert_resolveExpr left
    have hright := inert_resolveExpr right
    unfold resolveExpr
    infer_instance
  | _ =>
    unfold resolveExpr
    infer_instance

theorem inert_resolveExprs (es : List Node) : Inert (resolveExprs es) := by
  cases es with
  | nil =>
    unfold resolveExprs
    infer_instance
  | cons e es =>
    have hhead := inert_resolveExpr e
    have htail := inert_resolveExprs es
    unfold resolveExprs
    infer_instance

end

instance (e : Node) : Inert (resolveExpr e) := inert_resolveExpr e

instance (es : List Node) : Inert (resolveExprs es) := inert_resolveExprs es

theorem resolveStmt_return {global : Nat} {value : Node} {pos : Pos} (h : value ≠ .missing) :
    resolveStmt global (.returnStmt value pos) =
      (do return .returnStmt (← resolveExpr value) pos) := by
  rw [resolveStmt]
  exact h

mutual

theorem inert_resolveDecl (global : Nat) (d : Node) : Inert (resolveDecl global d) := by
  cases d with
  | fnDecl type id formals decls stmts =>
    have hformals := inert_resolveDecls global formals
    have hdecls := inert_resolveDecls global decls
    have hstmts := inert_resolveStmts global stmts
    unfold resolveDecl
    infer_instance
  | structDecl id decls =>
    have hdecls := inert_resolveDecls global decls
    unfold resolveDecl
    infer_instance
  | _ =>
    unfold resolveDecl
    infer_instance

theorem inert_resolveDecls (global : Nat) (ds : List Node) : Inert (resolveDecls global ds) := by
  cases ds with
  | nil =>
    unfold resolveDecls
    infer_instance
  | cons d ds =>
    have hhead := inert_resolveDecl global d
    have htail := inert_resolveDecls global ds
    unfold resolveDecls
    infer_instance

theorem inert_resolveStmt (global : Nat) (s : Node) : Inert (resolveStmt global s) := by
  cases s with
  | ifStmt cond decls stmts =>
    have hdecls := inert_resolveDecls global decls
    have hstmts := inert_resolveStmts global stmts
    unfold resolveStmt
    infer_instance
  | ifElseStmt cond ds ss ds' ss' =>
    have hdecls := inert_resolveDecls global ds
    have hstmts := inert_resolveStmts global ss
    have hdecls' := inert_resolveDecls global ds'
    have hstmts' := inert_resolveStmts global ss'
    unfold resolveStmt
    infer_instance
  | whileStmt cond decls stmts =>
    have hdecls := inert_resolveDecls global decls
    have hstmts := inert_resolveStmts global stmts
    unfold resolveStmt
    infer_instance
  | returnStmt value pos =>
    by_cases hvalue : value = .missing
    · subst hvalue
      unfold resolveStmt
      infer_instance
    · rw [resolveStmt_return hvalue]
      infer_instance
  | _ =>
    unfold resolveStmt
    infer_instance

theorem inert_resolveStmts (global : Nat) (ss : List Node) : Inert (resolveStmts global ss) := by
  cases ss with
  | nil =>
    unfold resolveStmts
    infer_instance
  | cons s ss =>
    have hhead := inert_resolveStmt global s
    have htail := inert_resolveStmts global ss
    unfold resolveStmts
    infer_instance

end

instance (global : Nat) (d : Node) : Inert (resolveDecl global d) := inert_resolveDecl global d

instance (global : Nat) (ds : List Node) : Inert (resolveDecls global ds) :=
  inert_resolveDecls global ds

instance (global : Nat) (s : Node) : Inert (resolveStmt global s) := inert_resolveStmt global s

instance (global : Nat) (ss : List Node) : Inert (resolveStmts global ss) :=
  inert_resolveStmts global ss

end Sema
