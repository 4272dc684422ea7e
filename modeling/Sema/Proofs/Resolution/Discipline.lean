import Sema.Proofs.Resolution.Moves

/-!
# Scopes are left as they were found

Name analysis works on scopes that may hold anything. What it opens it closes, and what it declares
stands at the end of the innermost scope. Where a fault stops it, the scopes it has opened stay on
top of those it was given.
-/

namespace Sema

open Resolver

/-- At most `n` names have been added at the end of the scope, all different and new to it. -/
def Scope.Grows (n : Nat) (scope scope' : Scope) : Prop :=
  ∃ added : Scope, scope' = scope ++ added ∧ added.length ≤ n ∧ (added.map Prod.fst).Nodup ∧
    ∀ name ∈ added.map Prod.fst, name ∉ scope.map Prod.fst

section Grows

variable {n k : Nat} {scope scope₁ scope₂ : Scope}

theorem Scope.Grows.refl (scope : Scope) : scope.Grows n scope :=
  ⟨[], by simp⟩

theorem Scope.Grows.eq_of_zero (h : scope.Grows 0 scope₁) : scope₁ = scope := by
  obtain ⟨added, rfl, hlength, -⟩ := h
  rw [List.eq_nil_of_length_eq_zero (Nat.le_zero.mp hlength), List.append_nil]

theorem Scope.Grows.mono (h : scope.Grows n scope₁) (hle : n ≤ k) : scope.Grows k scope₁ := by
  obtain ⟨added, hscope, hlength, hnew⟩ := h
  exact ⟨added, hscope, hlength.trans hle, hnew⟩

theorem Scope.Grows.trans (h : scope.Grows n scope₁) (h' : scope₁.Grows k scope₂) :
    scope.Grows (n + k) scope₂ := by
  obtain ⟨added, rfl, hlength, hnodup, hfresh⟩ := h
  obtain ⟨added', rfl, hlength', hnodup', hfresh'⟩ := h'
  simp only [List.map_append, List.mem_append, not_or] at hfresh'
  refine ⟨added ++ added', List.append_assoc .., ?_, ?_, ?_⟩
  · rw [List.length_append]
    omega
  · rw [List.map_append, List.nodup_append]
    refine ⟨hnodup, hnodup', ?_⟩
    rintro a ha b hb rfl
    exact (hfresh' a hb).2 ha
  · rw [List.map_append, List.forall_mem_append]
    exact ⟨hfresh, fun name hname => (hfresh' name hname).1⟩

theorem Scope.grows_snoc {name : String} (s : Option Symbol) (h : scope.lookup name = none) :
    scope.Grows 1 (scope ++ [(name, s)]) := by
  refine ⟨[(name, s)], rfl, Nat.le_refl 1, by simp, ?_⟩
  simp only [List.map_singleton, List.forall_mem_singleton, List.mem_map, not_exists, not_and]
  rintro entry hentry rfl
  simpa using List.lookup_eq_none_iff.mp h entry hentry

end Grows

/-- Every struct that can be found has a scope to look its fields up in, if it has a layout. -/
def SymbolTable.Furnished (t : SymbolTable) : Prop :=
  ∀ name d, t.resolveStruct name = some d → d.fields ≠ some .empty

section Furnished

variable {scope : Scope} {rest : List Scope}

theorem resolveStruct_cons (scope : Scope) (rest : List Scope) (name : String) :
    SymbolTable.resolveStruct ⟨scope :: rest⟩ name =
      (SymbolTable.structIn? name scope).or (SymbolTable.resolveStruct ⟨rest⟩ name) := by
  rw [SymbolTable.resolveStruct, SymbolTable.resolveStruct, List.findSome?_cons]
  cases SymbolTable.structIn? name scope <;> rfl

theorem SymbolTable.Furnished.enterScope {t : SymbolTable} (h : t.Furnished) :
    SymbolTable.Furnished t.enterScope := by
  intro name d hd
  rw [ScopeStack.enterScope, resolveStruct_cons] at hd
  exact h name d hd

/-- A struct that is declared with a scope for its fields can be found with it. -/
theorem SymbolTable.Furnished.snoc (h : SymbolTable.Furnished ⟨scope :: rest⟩) {name : String}
    {s : Symbol} (hs : ∀ d, s.structDef? = some d → d.fields ≠ some .empty) :
    SymbolTable.Furnished ⟨(scope ++ [(name, some s)]) :: rest⟩ := by
  intro name' d hd
  have hfound := h name' d
  rw [resolveStruct_cons, SymbolTable.structIn?] at hfound
  rw [resolveStruct_cons, SymbolTable.structIn?, Scope.lookup_snoc] at hd
  cases hlookup : scope.lookup name' with
  | some entry =>
    rw [hlookup, Option.some_or] at hd
    rw [hlookup] at hfound
    exact hfound hd
  | none =>
    rw [hlookup, Option.none_or] at hd
    rw [hlookup] at hfound
    by_cases hname : name' = name
    · rw [if_pos hname, Option.join_some, Option.bind_some] at hd
      cases hsymbol : s.structDef? with
      | none =>
        rw [hsymbol] at hd
        exact hfound hd
      | some d' =>
        rw [hsymbol, Option.some_or] at hd
        cases hd
        exact hs d hsymbol
    · rw [if_neg hname] at hd
      exact hfound hd

end Furnished

/-- Of the faults of a table only two come out of an analysis on the scopes `t`: that a name to be
declared is blank, and that a field is looked up in a layout without a scope. -/
def TableFaultsForeseen (t : SymbolTable) (s : Stage) : Prop :=
  ∀ why, s.fault = some (.table why) →
    why = .incomplete ∨ why = .noOpenScope .lookupLocal ∧ ¬ t.Furnished

/-- Where an analysis may end that was started on the innermost scope `scope` and on the `rest`. If
it returns, at most `n` new names have been added to the innermost scope. If a fault stops it, the
same holds of the scope that was the innermost, and the scopes left open lie on top of it. -/
structure KeepsScopes (n : Nat) (scope : Scope) (rest : List Scope) (s : Stage) : Prop where
  returned : s.fault = none → ∃ scope', scope.Grows n scope' ∧ s.table = ⟨scope' :: rest⟩
  stopped : s.fault ≠ none →
    ∃ opened scope', scope.Grows n scope' ∧ s.table = ⟨opened ++ scope' :: rest⟩
  faults : TableFaultsForeseen ⟨scope :: rest⟩ s

/-- A part of the analysis that keeps any scopes it is started on. -/
structure Disciplined {α : Type} (n : Nat) (m : Resolver α) : Prop where
  keeps : ∀ scope rest, KeepsScopes n scope rest (m ⟨⟨scope :: rest⟩, none⟩).stage
  furnishes : ∀ {t a t' rs}, Returns m t a t' rs → t.Furnished → t'.Furnished

section Disciplined

variable {α β : Type} {n k : Nat} {scope : Scope} {rest : List Scope}

theorem KeepsScopes.of_table_eq {s : Stage} (htable : s.table = ⟨scope :: rest⟩)
    (hfaults : TableFaultsForeseen ⟨scope :: rest⟩ s) : KeepsScopes n scope rest s :=
  ⟨fun _ => ⟨scope, .refl scope, htable⟩, fun _ => ⟨[], scope, .refl scope, htable⟩, hfaults⟩

theorem KeepsScopes.table_eq {s : Stage} (h : KeepsScopes 0 scope rest s)
    (hfault : s.fault = none) : s.table = ⟨scope :: rest⟩ := by
  obtain ⟨scope', hgrows, htable⟩ := h.returned hfault
  rw [htable, hgrows.eq_of_zero]

theorem KeepsScopes.mono {s : Stage} (h : KeepsScopes n scope rest s) (hle : n ≤ k) :
    KeepsScopes k scope rest s where
  returned hfault := by
    obtain ⟨scope', hgrows, htable⟩ := h.returned hfault
    exact ⟨scope', hgrows.mono hle, htable⟩
  stopped hfault := by
    obtain ⟨opened, scope', hgrows, htable⟩ := h.stopped hfault
    exact ⟨opened, scope', hgrows.mono hle, htable⟩
  faults := h.faults

/-- A part that never touches the scopes is disciplined by the faults it can meet. -/
theorem Disciplined.of_table_eq {m : Resolver α} (htable : ∀ s, (m s).stage.table = s.table)
    (hfaults : ∀ scope rest,
      TableFaultsForeseen ⟨scope :: rest⟩ (m ⟨⟨scope :: rest⟩, none⟩).stage) :
    Disciplined n m where
  keeps scope rest := .of_table_eq (htable _) (hfaults scope rest)
  furnishes := by
    intro t a t' rs hreturns hfurnished
    have hsame : t' = t := by
      have hstage := htable ⟨t, none⟩
      rwa [hreturns] at hstage
    rwa [hsame]

theorem disciplined_pure (a : α) : Disciplined n (pure a : Resolver α) :=
  .of_table_eq (fun _ => rfl) (fun _ _ _ hfault => by cases hfault)

theorem Disciplined.bind {m : Resolver α} {f : α → Resolver β} [∀ a, Inert (f a)]
    (hm : Disciplined n m) (hf : ∀ a, Disciplined k (f a)) : Disciplined (n + k) (m >>= f) where
  keeps := by
    intro scope rest
    have hfirst := hm.keeps scope rest
    have hfurnishes := @hm.furnishes ⟨scope :: rest⟩
    rw [bind_apply]
    rcases hrun : m ⟨⟨scope :: rest⟩, none⟩ with ⟨a, ⟨t, _ | why⟩, rs⟩
    · rw [hrun] at hfirst
      obtain ⟨scope₁, hgrows, rfl⟩ := hfirst.returned rfl
      have hrest := (hf a).keeps scope₁ rest
      refine ⟨fun hfault => ?_, fun hfault => ?_, fun why hfault => ?_⟩
      · obtain ⟨scope₂, hgrows', htable⟩ := hrest.returned hfault
        exact ⟨scope₂, hgrows.trans hgrows', htable⟩
      · obtain ⟨opened, scope₂, hgrows', htable⟩ := hrest.stopped hfault
        exact ⟨opened, scope₂, hgrows.trans hgrows', htable⟩
      · -- what is not furnished after the first part was not furnished before it
        rcases hrest.faults why hfault with hblank | ⟨hlookup, hbare⟩
        · exact .inl hblank
        · exact .inr ⟨hlookup, mt (hfurnishes hrun) hbare⟩
    · have hstopped : (f a ⟨t, some why⟩).stage = ⟨t, some why⟩ := Inert.stage_eq t why
      rw [hrun] at hfirst
      rw [hstopped]
      exact hfirst.mono (Nat.le_add_right n k)
  furnishes := by
    intro t b t' rs hreturns hfurnished
    obtain ⟨a, t₁, rs₁, rs₂, hfirst, hrest, -⟩ := returns_bind.mp hreturns
    exact (hf a).furnishes hrest (hm.furnishes hfirst hfurnished)

theorem Disciplined.bind_still {m : Resolver α} {f : α → Resolver β} [∀ a, Inert (f a)]
    (hm : Disciplined n m) (hf : ∀ a, Disciplined 0 (f a)) : Disciplined n (m >>= f) :=
  hm.bind hf

theorem Disciplined.still_bind {m : Resolver α} {f : α → Resolver β} [∀ a, Inert (f a)]
    (hm : Disciplined 0 m) (hf : ∀ a, Disciplined n (f a)) : Disciplined n (m >>= f) := by
  rw [← Nat.zero_add n]
  exact hm.bind hf

/-- Below the scope a part was given for its own, nothing has changed when it returns. -/
theorem Disciplined.outer_eq {body : Resolver α} (hbody : Disciplined n body) {t : SymbolTable}
    {a : α} {inner : Scope} {outer : List Scope} {rs : List Diagnostic}
    (hreturns : Returns body t.enterScope a ⟨inner :: outer⟩ rs) : outer = t.scopes := by
  have hkeeps := hbody.keeps [] t.scopes
  have hrun : body ⟨⟨[] :: t.scopes⟩, none⟩ = ⟨a, ⟨⟨inner :: outer⟩, none⟩, rs⟩ := hreturns
  rw [hrun] at hkeeps
  obtain ⟨inner', -, htable⟩ := hkeeps.returned rfl
  cases htable
  rfl

/-- A part with a scope of its own: what it declares there is gone when the scope is closed. -/
theorem Disciplined.enclosed {body : Resolver α} {f : α → Scope → Resolver β} [Inert body]
    [∀ a scope, Inert (f a scope)] (hbody : Disciplined n body)
    (hf : ∀ a scope, Disciplined k (f a scope)) :
    Disciplined k (do
      openScope
      let a ← body
      let scope ← closeScope
      f a scope) where
  keeps := by
    intro scope rest
    have hinner := hbody.keeps [] (scope :: rest)
    have hopen : (openScope ⟨⟨scope :: rest⟩, none⟩).stage = ⟨⟨[] :: scope :: rest⟩, none⟩ := rfl
    simp only [bind_apply, hopen]
    rcases hrun : body ⟨⟨[] :: scope :: rest⟩, none⟩ with ⟨a, ⟨t, _ | why⟩, rs⟩
    · rw [hrun] at hinner
      obtain ⟨inner, -, rfl⟩ := hinner.returned rfl
      exact (hf a inner).keeps scope rest
    · rw [hrun] at hinner
      obtain ⟨opened, inner, -, htable⟩ := hinner.stopped (by simp)
      have hclose : (closeScope ⟨t, some why⟩).stage = ⟨t, some why⟩ := rfl
      have hstopped (inner : Scope) : (f a inner ⟨t, some why⟩).stage = ⟨t, some why⟩ :=
        Inert.stage_eq t why
      simp only [hclose, hstopped]
      refine ⟨by simp, fun _ => ⟨opened ++ [inner], scope, .refl scope, ?_⟩, fun why' hfault => ?_⟩
      · rw [List.append_assoc]
        exact htable
      · rcases hinner.faults why' hfault with hblank | ⟨hlookup, hbare⟩
        · exact .inl hblank
        · exact .inr ⟨hlookup, mt SymbolTable.Furnished.enterScope hbare⟩
  furnishes := by
    intro t b t' rs hreturns hfurnished
    simp only [returns_bind, returns_openScope, returns_closeScope] at hreturns
    obtain ⟨_, _, _, _, ⟨rfl, -⟩, ⟨a, t₁, rs₁, _, hinner, h, -⟩, -⟩ := hreturns
    obtain ⟨inner, ⟨outer⟩, _, _, ⟨rfl, -⟩, hrest, -⟩ := h
    obtain rfl : outer = t.scopes := hbody.outer_eq hinner
    exact (hf a inner).furnishes hrest hfurnished

theorem Disciplined.inScope {body : Resolver α} [Inert body] (hbody : Disciplined n body) :
    Disciplined 0 (inScope body) :=
  hbody.enclosed fun a _ => disciplined_pure a

end Disciplined

section Steps

variable {n : Nat}

private theorem foreseen_of_ne {t : SymbolTable} {s : Stage}
    (h : ∀ why, s.fault ≠ some (.table why)) : TableFaultsForeseen t s :=
  fun why hfault => absurd hfault (h why)

theorem disciplined_report (kind : DiagnosticKind) (pos : Pos) :
    Disciplined n (report kind pos) := by
  refine .of_table_eq (fun s => ?_) fun _ _ => foreseen_of_ne fun why hfault => by cases hfault
  obtain ⟨t, _ | why⟩ := s <;> rfl

theorem disciplined_stop {fault : Fault} (h : ∀ why, fault ≠ .table why) :
    Disciplined n (stop fault) := by
  refine .of_table_eq (fun s => stop_table s fault) fun _ _ => foreseen_of_ne fun why hfault => ?_
  exact h why (Option.some.inj hfault)

theorem disciplined_reject (slot : Slot) (node : Node) : Disciplined n (reject slot node) :=
  (disciplined_stop (by simp [Fault.unexpected])).bind_still fun _ => disciplined_pure node

theorem disciplined_requireDepth (depth : Nat) {what : Breach} {pos : Pos} :
    Disciplined n (requireDepth depth (.breach what pos)) := by
  refine .of_table_eq (fun s => requireDepth_table s depth _) fun scope rest => ?_
  refine foreseen_of_ne fun why hfault => ?_
  rw [requireDepth, unlessStopped_none] at hfault
  split at hfault <;> cases hfault

theorem disciplined_bindUse (id : Ident) : Disciplined n (bindUse id) := by
  refine .of_table_eq (fun s => bindUse_table s id) fun scope rest => ?_
  refine foreseen_of_ne fun why hfault => ?_
  have hlookup : SymbolTable.lookupLexical ⟨scope :: rest⟩ id.name =
      .ok ((scope :: rest).findSome? (·.lookup id.name)).join := rfl
  rw [bindUse, unlessStopped_none] at hfault
  split at hfault
  · cases hfault
  · cases hfault
  · rename_i hno
    rw [hlookup] at hno
    cases hno

theorem disciplined_bindStruct (id : Ident) : Disciplined n (bindStruct id) := by
  refine .of_table_eq (fun s => bindStruct_table s id) fun scope rest => ?_
  refine foreseen_of_ne fun why hfault => ?_
  rw [bindStruct, unlessStopped_none] at hfault
  split at hfault <;> cases hfault

private theorem StructDef.field_eq_error {d : StructDef} {name : String} {why : TableFault}
    (h : d.field name = .error (.table why)) :
    d.fields = some .empty ∧ why = .noOpenScope .lookupLocal := by
  unfold StructDef.field at h
  cases hfields : d.fields with
  | none =>
    rw [hfields] at h
    cases h
  | some fields =>
    rw [hfields] at h
    obtain ⟨_ | ⟨scope, rest⟩⟩ := fields
    · cases h
      exact ⟨rfl, rfl⟩
    · cases h

theorem disciplined_bindField (owner field : Ident) : Disciplined n (bindField owner field) := by
  refine .of_table_eq (fun s => bindField_table s owner field) fun scope rest => ?_
  intro why hfault
  rw [bindField, unlessStopped_none] at hfault
  split at hfault
  · cases hfault
  · rename_i struct _
    split at hfault
    · cases hfault
    · rename_i d hd
      split at hfault
      · cases hfault
      · cases hfault
      · rename_i why' hfield
        cases hfault
        obtain ⟨hempty, rfl⟩ := StructDef.field_eq_error hfield
        exact .inr ⟨rfl, fun hfurnished => hfurnished struct d hd hempty⟩
  · cases hfault

theorem disciplined_declare (id : Ident) {s : Symbol}
    (hs : ∀ d, s.structDef? = some d → d.fields ≠ some .empty) : Disciplined 1 (declare id s) where
  keeps := by
    intro scope rest
    by_cases hname : id.name = ""
    · have hdeclare : SymbolTable.declare ⟨scope :: rest⟩ id.name (some s) =
          .error .incomplete := by
        simp [SymbolTable.declare, hname]
      rw [declare, unlessStopped_none]
      simp only [hdeclare]
      refine .of_table_eq rfl fun why hfault => .inl ?_
      cases hfault
      rfl
    · cases hlookup : scope.lookup id.name with
      | some entry =>
        have hdeclare : SymbolTable.declare ⟨scope :: rest⟩ id.name (some s) =
            .error (.duplicate id.name) := by
          simp [SymbolTable.declare, hname, hlookup]
        rw [declare, unlessStopped_none]
        simp only [hdeclare]
        exact .of_table_eq rfl fun why hfault => by cases hfault
      | none =>
        have hdeclare : SymbolTable.declare ⟨scope :: rest⟩ id.name (some s) =
            .ok ⟨(scope ++ [(id.name, some s)]) :: rest⟩ :=
          SymbolTable.declare_eq_ok.mpr ⟨hname, scope, rest, rfl, hlookup, rfl⟩
        rw [declare, unlessStopped_none]
        simp only [hdeclare]
        exact ⟨fun _ => ⟨_, Scope.grows_snoc (some s) hlookup, rfl⟩,
          fun hfault => absurd rfl hfault, fun why hfault => by cases hfault⟩
  furnishes := by
    intro t id' t' rs hreturns hfurnished
    cases returns_declare.mp hreturns with
    | fresh hdeclare =>
      obtain ⟨-, scope, rest, hscopes, -, rfl⟩ := SymbolTable.declare_eq_ok.mp hdeclare
      obtain ⟨scopes⟩ := t
      cases hscopes
      exact hfurnished.snoc hs
    | taken _ => exact hfurnished

theorem disciplined_requirePath (base : Node) : Disciplined n (requirePath base) := by
  unfold requirePath
  split
  · exact disciplined_pure ()
  · exact disciplined_stop (by simp [Fault.unexpected])

theorem disciplined_bindFieldOf (base : Node) (field : Ident) :
    Disciplined n (bindFieldOf base field) := by
  unfold bindFieldOf
  split
  · exact disciplined_bindField _ field
  · exact disciplined_pure field

theorem disciplined_resolveResultType (type : Node) : Disciplined n (resolveResultType type) := by
  unfold resolveResultType
  split
  · exact (disciplined_bindStruct _).bind_still fun _ => disciplined_pure _
  · exact disciplined_pure _

theorem disciplined_declareFunction (type : Node) (id : Ident) (formals : List Node) :
    Disciplined 1 (declareFunction type id formals) := by
  unfold declareFunction
  split
  · exact disciplined_declare id (by simp [Symbol.structDef?])
  · exact (disciplined_stop (by simp)).bind_still fun _ => disciplined_pure id

theorem disciplined_declareStorage (type : Node) (id : Ident) :
    Disciplined 1 (declareStorage type id) := by
  have hdeclare {s : Symbol} (hs : s.structDef? = none) : Disciplined 1 (declare id s) :=
    disciplined_declare id (by simp [hs])
  cases type with
  | primType prim =>
    cases prim with
    | void => exact (disciplined_report _ _).bind_still fun _ => disciplined_pure _
    | int | bool => exact (hdeclare rfl).bind_still fun _ => disciplined_pure _
  | structType name =>
    have hstruct := inert_declareStruct id
    refine (disciplined_bindStruct name).still_bind fun bound => ?_
    obtain ⟨name', _ | d⟩ := bound
    · exact disciplined_pure _
    · exact (hdeclare rfl).bind_still fun _ => disciplined_pure _
  | _ =>
    exact (disciplined_stop (by simp [Fault.unexpected])).bind_still fun _ => disciplined_pure _

end Steps

/-- The analysis of the node is disciplined, whatever the node is taken for. -/
structure NodeDisciplined (global : Nat) (n : Node) : Prop where
  expr : Disciplined 0 (resolveExpr n)
  stmt : Disciplined 0 (resolveStmt global n)
  decl : Disciplined 1 (resolveDecl global n)

section Traversals

variable {global : Nat}

private theorem disciplined_exprs {es : List Node} (ih : ∀ e ∈ es, NodeDisciplined global e) :
    Disciplined 0 (resolveExprs es) := by
  induction es with
  | nil => exact disciplined_pure []
  | cons e es ihes =>
    rw [List.forall_mem_cons] at ih
    exact ih.1.expr.bind_still fun _ => (ihes ih.2).bind_still fun _ => disciplined_pure _

private theorem disciplined_stmts {ss : List Node} (ih : ∀ s ∈ ss, NodeDisciplined global s) :
    Disciplined 0 (resolveStmts global ss) := by
  induction ss with
  | nil => exact disciplined_pure []
  | cons s ss ihss =>
    rw [List.forall_mem_cons] at ih
    exact ih.1.stmt.bind_still fun _ => (ihss ih.2).bind_still fun _ => disciplined_pure _

private theorem disciplined_decls {ds : List Node} (ih : ∀ d ∈ ds, NodeDisciplined global d) :
    Disciplined ds.length (resolveDecls global ds) := by
  induction ds with
  | nil => exact disciplined_pure []
  | cons d ds ihds =>
    rw [List.forall_mem_cons] at ih
    have hboth := ih.1.decl.bind fun d' => (ihds ih.2).bind_still fun ds' =>
      disciplined_pure (d' :: ds')
    rw [Nat.add_comm] at hboth
    exact hboth

private theorem disciplined_expr (e : Node) (ih : ∀ m ∈ e.children, NodeDisciplined global m) :
    Disciplined 0 (resolveExpr e) := by
  cases e with
  | lit value pos => exact disciplined_pure _
  | ident id => exact (disciplined_bindUse id).bind_still fun _ => disciplined_pure _
  | dot base field =>
    have hbase := (ih base (by simp [Node.children])).expr
    exact (disciplined_requirePath base).bind_still fun _ => hbase.bind_still fun base' =>
      (disciplined_bindFieldOf base' field).bind_still fun _ => disciplined_pure _
  | assign e e' | binary op e e' =>
    have he := (ih e (by simp [Node.children])).expr
    have he' := (ih e' (by simp [Node.children])).expr
    exact he.bind_still fun _ => he'.bind_still fun _ => disciplined_pure _
  | call callee args =>
    exact (disciplined_bindUse callee).bind_still fun _ =>
      (disciplined_exprs ih).bind_still fun _ => disciplined_pure _
  | unary op e =>
    exact (ih e (by simp [Node.children])).expr.bind_still fun _ => disciplined_pure _
  | _ => exact disciplined_reject .expression _

/-- The declarations of a block fill the scope that is closed behind it. -/
private theorem disciplined_block {γ : Type} (build : List Node → List Node → γ)
    {ds ss : List Node} (ihds : ∀ d ∈ ds, NodeDisciplined global d)
    (ihss : ∀ s ∈ ss, NodeDisciplined global s) :
    Disciplined 0 (inScope do
      let ds ← resolveDecls global ds
      let ss ← resolveStmts global ss
      return build ds ss) :=
  ((disciplined_decls ihds).bind_still fun _ =>
    (disciplined_stmts ihss).bind_still fun _ => disciplined_pure _).inScope

private theorem disciplined_stmt (n : Node) (ih : ∀ m ∈ n.children, NodeDisciplined global m) :
    Disciplined 0 (resolveStmt global n) := by
  cases n with
  | assignStmt e | stepStmt op e | readStmt e | writeStmt e | callStmt e =>
    exact (ih e (by simp [Node.children])).expr.bind_still fun _ => disciplined_pure _
  | returnStmt value pos =>
    by_cases hvalue : value = .missing
    · subst hvalue
      exact disciplined_pure _
    · rw [resolveStmt_return hvalue]
      exact (ih value (by simp [Node.children])).expr.bind_still fun _ => disciplined_pure _
  | ifStmt cond ds ss | whileStmt cond ds ss =>
    simp only [Node.children, List.forall_mem_cons, List.forall_mem_append] at ih
    exact ih.1.expr.bind_still fun _ => disciplined_block _ ih.2.1 ih.2.2
  | ifElseStmt cond ds ss ds' ss' =>
    simp only [Node.children, List.forall_mem_cons, List.forall_mem_append] at ih
    obtain ⟨ihcond, ihds, ihss, ihds', ihss'⟩ := ih
    exact ihcond.expr.bind_still fun _ => (disciplined_block _ ihds ihss).bind_still fun _ =>
      (disciplined_block _ ihds' ihss').bind_still fun _ => disciplined_pure _
  | _ => exact disciplined_reject .statement _

private theorem disciplined_decl (d : Node) (ih : ∀ m ∈ d.children, NodeDisciplined global m) :
    Disciplined 1 (resolveDecl global d) := by
  cases d with
  | varDecl type id | formalDecl type id =>
    exact (disciplined_declareStorage type id).bind_still fun _ => disciplined_pure _
  | fnDecl type id formals decls stmts =>
    simp only [Node.children, List.forall_mem_cons, List.forall_mem_append] at ih
    obtain ⟨-, ihformals, ihdecls, ihstmts⟩ := ih
    have hbody (type : Node) (id : Ident) : Disciplined 0 (inScope do
        let formals ← resolveDecls global formals
        let decls ← resolveDecls global decls
        let stmts ← resolveStmts global stmts
        return Node.fnDecl type id formals decls stmts) :=
      ((disciplined_decls ihformals).bind fun _ => (disciplined_decls ihdecls).bind_still fun _ =>
        (disciplined_stmts ihstmts).bind_still fun _ => disciplined_pure _).inScope
    -- only the name of the function is declared around its body
    exact (disciplined_requireDepth global).still_bind fun _ =>
      (disciplined_resolveResultType type).still_bind fun type' =>
        (disciplined_declareFunction type' id formals).bind_still fun id' => hbody type' id'
  | structDecl id decls =>
    have hfields := disciplined_decls ih
    have hstruct := hfields.enclosed fun decls' fields =>
      (disciplined_declare (s := .structDecl id.name (some (.ofScope fields))) id
        (by simp [Symbol.structDef?, ScopeStack.ofScope, ScopeStack.empty])).bind_still fun id' =>
          disciplined_pure (Node.structDecl id' decls')
    exact (disciplined_requireDepth global).still_bind fun _ => hstruct
  | _ => exact disciplined_reject .declaration _

theorem nodeDisciplined (global : Nat) (n : Node) : NodeDisciplined global n := by
  induction n using Node.induct with
  | step n ih => exact ⟨disciplined_expr n ih, disciplined_stmt n ih, disciplined_decl n ih⟩

theorem resolveDecls_disciplined (global : Nat) (ds : List Node) :
    Disciplined ds.length (resolveDecls global ds) :=
  disciplined_decls fun d _ => nodeDisciplined global d

end Traversals

/-- A program that is analysed to its end leaves the scopes below it exactly as they were. -/
theorem resolveProgram_table {program : Program} {t : SymbolTable}
    (h : (resolveProgram program t).stage.fault = none) :
    (resolveProgram program t).stage.table = t := by
  rcases hrun : resolveProgram program t with ⟨ds, ⟨⟨outer⟩, fault⟩, rs⟩
  rw [hrun] at h
  obtain rfl : fault = none := h
  obtain ⟨inner, hdecls⟩ := returns_inScope.mp hrun
  obtain rfl : outer = t.scopes := (resolveDecls_disciplined _ program).outer_eq hdecls
  rfl

/-- Analysis of expressions and statements leaves the scopes it is given exactly as they were, and
analysis of declarations adds at most one name for each of them to the innermost scope. Where a
fault stops it, the scopes that are left open lie on top. No name that is taken and no missing scope
is such a fault, unless a field is looked up in a struct whose given layout has no scope. -/
theorem scope_stack_discipline (global : Nat) (scope : Scope) (rest : List Scope) :
    (∀ e, KeepsScopes 0 scope rest (resolveExpr e ⟨⟨scope :: rest⟩, none⟩).stage ∧
      ((resolveExpr e ⟨⟨scope :: rest⟩, none⟩).stage.fault = none →
        (resolveExpr e ⟨⟨scope :: rest⟩, none⟩).stage.table = ⟨scope :: rest⟩)) ∧
    (∀ n, KeepsScopes 0 scope rest (resolveStmt global n ⟨⟨scope :: rest⟩, none⟩).stage ∧
      ((resolveStmt global n ⟨⟨scope :: rest⟩, none⟩).stage.fault = none →
        (resolveStmt global n ⟨⟨scope :: rest⟩, none⟩).stage.table = ⟨scope :: rest⟩)) ∧
    (∀ d, KeepsScopes 1 scope rest (resolveDecl global d ⟨⟨scope :: rest⟩, none⟩).stage) ∧
    (∀ ds, KeepsScopes ds.length scope rest
      (resolveDecls global ds ⟨⟨scope :: rest⟩, none⟩).stage) ∧
    (∀ program t, (resolveProgram program t).stage.fault = none →
      (resolveProgram program t).stage.table = t) := by
  refine ⟨fun e => ?_, fun n => ?_, fun d => ?_, fun ds => ?_, fun program t => ?_⟩
  · have hkeeps := (nodeDisciplined global e).expr.keeps scope rest
    exact ⟨hkeeps, hkeeps.table_eq⟩
  · have hkeeps := (nodeDisciplined global n).stmt.keeps scope rest
    exact ⟨hkeeps, hkeeps.table_eq⟩
  · exact (nodeDisciplined global d).decl.keeps scope rest
  · exact (resolveDecls_disciplined global ds).keeps scope rest
  · exact resolveProgram_table

/-- A struct whose layout has no scope, and a variable of it. -/
def bareStruct : SymbolTable :=
  ⟨[[("p", some (.structVar "P")), ("P", some (.structDecl "P" (some .empty)))]]⟩

/-- The names of the scope are different, and still the lack of a scope stops the analysis. -/
theorem bareStruct_field_stops :
    (∀ scope ∈ bareStruct.scopes, (scope.map Prod.fst).Nodup) ∧ bareStruct.scopes ≠ [] ∧
    (resolveExpr (.dot (.ident ⟨"p", ⟨1, 4⟩, none⟩) ⟨"a", ⟨1, 10⟩, none⟩)
      ⟨bareStruct, none⟩).stage.fault = some (.table (.noOpenScope .lookupLocal)) := by
  refine ⟨?_, by simp [bareStruct], rfl⟩
  simp [bareStruct]

end Sema
