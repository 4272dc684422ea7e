import Mathlib.Data.List.Forall2
import Sema.Proofs.Resolution.Erasure
import Sema.Proofs.Resolution.Trace
import Sema.Proofs.Resolution.Visits

/-!
# What name analysis writes

Name analysis writes symbols of identifiers and nothing else, and it takes none away. An identifier
whose symbol it has replaced got the new one from the step that came to it, which found or declared
it under the name of that identifier, in the way that suits the place where the identifier stands.
-/

namespace Sema

open Resolver

/-- Between these tables the identifier has got its symbol, by its own name and for its role. -/
inductive Occurrence.Written (t t' : SymbolTable) (id : Ident) : Occurrence → Prop
  | declared {s : Symbol} (h : t.declare id.name (some s) = .ok t') :
      Written t t' id ⟨.declared, { id with symbol := some s }⟩
  | used {s : Symbol} (h : t.lookupLexical id.name = .ok (some s)) :
      Written t t' id ⟨.used, { id with symbol := some s }⟩
  | struct {d : StructDef} (h : t.resolveStruct id.name = some d) :
      Written t t' id ⟨.struct, { id with symbol := some d.symbol }⟩
  | field {owner : Ident} {struct : String} {d : StructDef} {s : Symbol}
      (howner : owner.symbol = some (.structVar struct)) (hd : t.resolveStruct struct = some d)
      (hs : d.field id.name = .ok (some s)) :
      Written t t' id ⟨.field (some owner), { id with symbol := some s }⟩

namespace Visit

/-- The identifier is left as it was, or the step that comes to it has written its symbol. -/
def Leaves (v : Visit) (o : Occurrence) : Prop :=
  o.ident = v.ident ∨
    ∃ s s', v.step = some (s, s') ∧ s.fault = none ∧ o.Written s.table s'.table v.ident

/-- The step that comes to the identifier leads from one of the stages to the next. -/
def IsAmong (stages : List Stage) (v : Visit) : Prop :=
  ∀ s s', v.step = some (s, s') → [s, s'] <:+: stages

structure Accounted (stages : List Stage) (v : Visit) (o : Occurrence) : Prop where
  among : v.IsAmong stages
  leaves : v.Leaves o

theorem Leaves.bound {v : Visit} {o : Occurrence} (h : v.Leaves o) (hid : v.ident.Bound) :
    o.ident.Bound := by
  obtain hkept | ⟨s, s', -, -, hwritten⟩ := h
  · rw [hkept]
    exact hid
  · cases hwritten <;> rfl

section Steps

variable {α : Type} {m : Resolver α} {s : Stage} {id : Ident} {o : Occurrence}

theorem Leaves.of_step
    (h : o.ident = id ∨ s.fault = none ∧ o.Written s.table (m s).stage.table id) :
    (byStep m s id).Leaves o :=
  h.imp_right fun hwritten => ⟨s, (m s).stage, rfl, hwritten⟩

theorem Leaves.accounted {stages : List Stage} (h : (byStep m s id).Leaves o)
    (hstep : [s, (m s).stage] <:+: stages) : (byStep m s id).Accounted stages o := by
  refine ⟨fun a b hab => ?_, h⟩
  cases hab
  exact hstep

end Steps

end Visit

theorem Node.never_accounted (stages : List Stage) (n : Node) :
    List.Forall₂ (Visit.Accounted stages) (n.idents.map .never) n.occurrences := by
  rw [← n.occurrences_idents, List.map_map, List.forall₂_map_left_iff, List.forall₂_same]
  intro o _
  refine ⟨fun s s' h => ?_, .inl rfl⟩
  cases h

section Steps

variable (s : Stage)

theorem bindUse_leaves (id : Ident) :
    (Visit.byStep (bindUse id) s id).Leaves ⟨.used, (bindUse id s).value⟩ := by
  apply Visit.Leaves.of_step
  obtain ⟨t, _ | why⟩ := s
  · rw [bindUse, unlessStopped_none]
    split
    · rename_i symbol hfound
      exact .inr ⟨rfl, .used hfound⟩
    · exact .inl rfl
    · exact .inl rfl
  · exact .inl rfl

theorem bindStruct_leaves (id : Ident) :
    (Visit.byStep (bindStruct id) s id).Leaves ⟨.struct, (bindStruct id s).value.1⟩ := by
  apply Visit.Leaves.of_step
  obtain ⟨t, _ | why⟩ := s
  · rw [bindStruct, unlessStopped_none]
    split
    · rename_i d hfound
      exact .inr ⟨rfl, .struct hfound⟩
    · exact .inl rfl
  · exact .inl rfl

theorem bindField_leaves (owner field : Ident) :
    (Visit.byStep (bindField owner field) s field).Leaves
      ⟨.field (some owner), (bindField owner field s).value⟩ := by
  apply Visit.Leaves.of_step
  obtain ⟨t, _ | why⟩ := s
  · rw [bindField, unlessStopped_none]
    split
    · exact .inl rfl
    · rename_i struct howner
      split
      · exact .inl rfl
      · rename_i d hd
        split
        · rename_i symbol hfound
          exact .inr ⟨rfl, .field howner hd hfound⟩
        · exact .inl rfl
        · exact .inl rfl
    · exact .inl rfl
  · exact .inl rfl

theorem bindFieldOf_leaves (base : Node) (field : Ident) :
    (Visit.byStep (bindFieldOf base field) s field).Leaves
      ⟨.field base.pathEnd?, (bindFieldOf base field s).value⟩ := by
  rw [bindFieldOf]
  cases base.pathEnd? with
  | none => exact .inl rfl
  | some owner => exact bindField_leaves s owner field

theorem declare_leaves (id : Ident) (symbol : Symbol) :
    (Visit.byStep (declare id symbol) s id).Leaves
      ⟨.declared, (declare id symbol s).value⟩ := by
  apply Visit.Leaves.of_step
  obtain ⟨t, _ | why⟩ := s
  · rw [declare, unlessStopped_none]
    split
    · rename_i t' hdeclared
      exact .inr ⟨rfl, .declared hdeclared⟩
    · exact .inl rfl
    · exact .inl rfl
  · exact .inl rfl

theorem declareFunction_leaves (type : Node) (id : Ident) (formals : List Node) :
    (Visit.byStep (declareFunction type id formals) s id).Leaves
      ⟨.declared, (declareFunction type id formals s).value⟩ := by
  cases hparams : Node.typeNames? formals with
  | none =>
    rw [declareFunction, hparams]
    exact .inl rfl
  | some params =>
    cases hresult : type.typeName? with
    | none =>
      rw [declareFunction, hparams, hresult]
      exact .inl rfl
    | some result =>
      rw [declareFunction, hparams, hresult]
      exact declare_leaves s id _

end Steps

/-- Each identifier of the tree is what its visit has left of it, by a step between the stages. -/
def Node.Accounted (stages : List Stage) (visits : List Visit) (n : Node) : Prop :=
  List.Forall₂ (Visit.Accounted stages) visits n.occurrences

def Node.AccountedAll (stages : List Stage) (visits : List Visit) (ns : List Node) : Prop :=
  List.Forall₂ (Visit.Accounted stages) visits (occurrencesAll ns)

namespace Traced

variable {α β : Type} {stages : List Stage} {s : Stage}

/-- Where the part, from this stage on, is a stretch of the stages, it yields something with the
property. It need not come to its end there. -/
def Yields (m : Traced α) (stages : List Stage) (s : Stage) (P : α → Prop) : Prop :=
  (s :: m.stages s) <:+: stages → P (m.run s).value

theorem yields_pure {P : α → Prop} {a : α} (h : P a) : (pure a : Traced α).Yields stages s P :=
  fun _ => h

theorem yields_step {P : α → Prop} {m : Resolver α} [Inert m]
    (h : [s, (m s).stage] <:+: stages → P (m s).value) : (step m).Yields stages s P :=
  h

theorem yields_visit {m : Resolver Ident} [Inert m] {id : Ident} {role : Role}
    (h : (Visit.byStep m s id).Leaves ⟨role, (m s).value⟩) :
    (step m).Yields stages s fun id' => Visit.Accounted stages (.byStep m s id) ⟨role, id'⟩ :=
  yields_step fun hstep => h.accounted hstep

theorem yields_step_true (m : Resolver α) [Inert m] :
    (step m).Yields stages s fun _ => True :=
  fun _ => trivial

private theorem suffix_of_continued (s : Stage) (l l' : List Stage) :
    (l.getLastD s :: l') <:+ s :: (l ++ l') := by
  induction l generalizing s with
  | nil => exact List.suffix_refl _
  | cons b l ih =>
    rw [List.getLastD_cons]
    exact (ih b).trans (List.suffix_cons s _)

/-- Two stretches that follow one another are one stretch. The second is looked at from where the
analysis that the first one traces has come to. -/
theorem Yields.bind {m : Traced α} {f : α → Traced β} {r : Resolver α} {P : α → Prop}
    {Q : β → Prop} (hm : m.Yields stages s P) (hrun : m.run = r)
    (hf : P (r s).value → (f (r s).value).Yields stages (r s).stage Q) :
    (m >>= f).Yields stages s Q := by
  subst hrun
  intro hs
  have hfirst : (s :: m.stages s) <:+: stages :=
    (List.prefix_append (s :: m.stages s) _).isInfix.trans hs
  -- the rest starts from the stage on which the first part has ended
  have hrest : ((m.run s).stage :: (f (m.run s).value).stages (m.run s).stage) <:+: stages := by
    have hsuffix := suffix_of_continued s (m.stages s) ((f (m.run s).value).stages (m.run s).stage)
    rw [m.ends] at hsuffix
    exact hsuffix.isInfix.trans hs
  exact hf (hm hfirst) hrest

theorem Yields.inScope {body : Traced α} {P : α → Prop}
    (hbody : body.Yields stages (openScope s).stage P) : body.inScope.Yields stages s P := by
  refine (yields_step_true openScope).bind rfl fun _ => ?_
  refine hbody.bind rfl fun ha => ?_
  exact (yields_step_true closeScope).bind rfl fun _ => yields_pure ha

end Traced

section Types

open Traced

variable {stages : List Stage} (s : Stage)

theorem resolveResultType_yields (type : Node) : (step (resolveResultType type)).Yields stages s
    (Node.Accounted stages (Node.visitsType (resolveResultType type) s type)) := by
  refine yields_step fun h => ?_
  cases type with
  | structType name => exact .cons ((bindStruct_leaves s name).accounted h) .nil
  | _ => exact Node.never_accounted stages _

/-- One step comes to the name in a struct type and to the name declared with it. -/
theorem declareStorage_yields (type : Node) (id : Ident) :
    (step (declareStorage type id)).Yields stages s fun declared =>
      List.Forall₂ (Visit.Accounted stages)
        (Node.visitsType (declareStorage type id) s type ++
          [.byStep (declareStorage type id) s id])
        (declared.1.occurrences ++ [⟨.declared, declared.2⟩]) := by
  refine yields_step fun h => ?_
  cases type with
  | primType prim =>
    cases prim with
    | void => exact .cons (Visit.Leaves.accounted (.inl rfl) h) .nil
    | int | bool => exact .cons ((declare_leaves s id _).accounted h) .nil
  | structType name =>
    obtain ⟨t, _ | why⟩ := s
    · cases hd : t.resolveStruct name.name with
      | none =>
        have hstep : (declareStorage (.structType name) id ⟨t, none⟩).value =
            (.structType name, id) := by
          simp only [declareStorage, bind_apply, bindStruct, unlessStopped_none, hd, pure_apply]
        rw [hstep]
        exact .cons (Visit.Leaves.accounted (.inl rfl) h)
          (.cons (Visit.Leaves.accounted (.inl rfl) h) .nil)
      | some d =>
        have hstep : declareStorage (.structType name) id ⟨t, none⟩ =
            ((Node.structType { name with symbol := some d.symbol }, ·) <$>
              declare id (.structVar d.name)) ⟨t, none⟩ := by
          simp only [declareStorage, bind_apply, bindStruct, unlessStopped_none, hd, pure_apply,
            map_apply, List.nil_append, List.append_nil]
        have hvisit : Visit.byStep (declareStorage (.structType name) id) ⟨t, none⟩ id =
            .byStep (declare id (.structVar d.name)) ⟨t, none⟩ id := by
          rw [Visit.byStep, hstep]
          rfl
        have hname := Visit.Leaves.of_step (.inr ⟨rfl, .struct hd⟩) |>.accounted h
        rw [hvisit, hstep]
        rw [hstep] at h
        exact .cons hname (.cons ((declare_leaves _ id _).accounted h) .nil)
    · exact .cons (Visit.Leaves.accounted (.inl rfl) h)
        (.cons (Visit.Leaves.accounted (.inl rfl) h) .nil)
  | _ =>
    exact List.rel_append (Node.never_accounted stages _)
      (.cons (Visit.Leaves.accounted (.inl rfl) h) .nil)

end Types

/-- The steps of the analysis account for the identifiers of the node, whatever the node is taken
for. -/
structure WritesAccounted (stages : List Stage) (global : Nat) (n : Node) : Prop where
  expr (s : Stage) : (traceExpr n).Yields stages s (Node.Accounted stages (n.visitsExpr s))
  stmt (s : Stage) :
    (traceStmt global n).Yields stages s (Node.Accounted stages (n.visitsStmt global s))
  decl (s : Stage) :
    (traceDecl global n).Yields stages s (Node.Accounted stages (n.visitsDecl global s))

section Traversals

open Traced

variable {stages : List Stage} {global : Nat} (s : Stage)

private theorem exprs_accounted {es : List Node} (ih : ∀ e ∈ es, WritesAccounted stages global e) :
    (traceExprs es).Yields stages s (Node.AccountedAll stages (Node.visitsExprs es s)) := by
  induction es generalizing s with
  | nil => exact yields_pure .nil
  | cons e es ihes =>
    rw [List.forall_mem_cons] at ih
    refine (ih.1.expr s).bind (run_traceExpr e) fun he => ?_
    refine (ihes _ ih.2).bind (run_traceExprs es) fun hes => ?_
    exact yields_pure (List.rel_append he hes)

private theorem stmts_accounted {ss : List Node} (ih : ∀ s ∈ ss, WritesAccounted stages global s) :
    (traceStmts global ss).Yields stages s
      (Node.AccountedAll stages (Node.visitsStmts global ss s)) := by
  induction ss generalizing s with
  | nil => exact yields_pure .nil
  | cons n ss ihss =>
    rw [List.forall_mem_cons] at ih
    refine (ih.1.stmt s).bind (isTraced global n).stmt fun hn => ?_
    refine (ihss _ ih.2).bind (run_traceStmts ss) fun hss => ?_
    exact yields_pure (List.rel_append hn hss)

private theorem decls_accounted {ds : List Node} (ih : ∀ d ∈ ds, WritesAccounted stages global d) :
    (traceDecls global ds).Yields stages s
      (Node.AccountedAll stages (Node.visitsDecls global ds s)) := by
  induction ds generalizing s with
  | nil => exact yields_pure .nil
  | cons d ds ihds =>
    rw [List.forall_mem_cons] at ih
    refine (ih.1.decl s).bind (isTraced global d).decl fun hd => ?_
    refine (ihds _ ih.2).bind (run_traceDecls ds) fun hds => ?_
    exact yields_pure (List.rel_append hd hds)

private theorem expr_accounted (e : Node)
    (ih : ∀ m ∈ e.children, WritesAccounted stages global m) :
    (traceExpr e).Yields stages s (Node.Accounted stages (e.visitsExpr s)) := by
  cases e with
  | lit value pos => exact yields_pure .nil
  | ident id =>
    refine (yields_visit (bindUse_leaves s id)).bind rfl fun hid => ?_
    exact yields_pure (.cons hid .nil)
  | dot base field =>
    refine (yields_step_true (requirePath base)).bind rfl fun _ => ?_
    refine ((ih base (by simp [Node.children])).expr _).bind (run_traceExpr base) fun hbase => ?_
    -- the owner of the field is the end of the path as its names are bound by now
    refine (yields_visit (bindFieldOf_leaves _ _ field)).bind rfl fun hfield => ?_
    exact yields_pure (List.rel_append hbase (.cons hfield .nil))
  | assign e e' | binary op e e' =>
    refine ((ih e (by simp [Node.children])).expr s).bind (run_traceExpr e) fun he => ?_
    refine ((ih e' (by simp [Node.children])).expr _).bind (run_traceExpr e') fun he' => ?_
    exact yields_pure (List.rel_append he he')
  | call callee args =>
    refine (yields_visit (bindUse_leaves s callee)).bind rfl fun hcallee => ?_
    refine (exprs_accounted _ ih).bind (run_traceExprs args) fun hargs => ?_
    exact yields_pure (.cons hcallee hargs)
  | unary op e =>
    exact ((ih e (by simp [Node.children])).expr s).bind (run_traceExpr e) yields_pure
  | _ => exact yields_step fun _ => Node.never_accounted stages _

private theorem block_yields {γ : Type} {build : List Node → List Node → γ} {P : γ → Prop}
    {ds ss : List Node} (ihds : ∀ d ∈ ds, WritesAccounted stages global d)
    (ihss : ∀ s ∈ ss, WritesAccounted stages global s)
    (h : ∀ ds' ss',
      Node.AccountedAll stages (Node.visitsDecls global ds (openScope s).stage) ds' →
      Node.AccountedAll stages (Node.visitsStmts global ss
        (resolveDecls global ds (openScope s).stage).stage) ss' →
      P (build ds' ss')) :
    (Traced.inScope do
      let ds ← traceDecls global ds
      let ss ← traceStmts global ss
      return build ds ss).Yields stages s P := by
  apply Yields.inScope
  refine (decls_accounted _ ihds).bind (run_traceDecls ds) fun hds => ?_
  exact (stmts_accounted _ ihss).bind rfl fun hss => yields_pure (h _ _ hds hss)

private theorem stmt_accounted (n : Node)
    (ih : ∀ m ∈ n.children, WritesAccounted stages global m) :
    (traceStmt global n).Yields stages s (Node.Accounted stages (n.visitsStmt global s)) := by
  cases n with
  | assignStmt e | stepStmt op e | readStmt e | writeStmt e | callStmt e =>
    exact ((ih e (by simp [Node.children])).expr s).bind rfl yields_pure
  | returnStmt value pos =>
    by_cases hvalue : value = .missing
    · subst hvalue
      exact yields_pure .nil
    · rw [traceStmt_return hvalue]
      exact ((ih value (by simp [Node.children])).expr s).bind rfl yields_pure
  | ifStmt cond ds ss | whileStmt cond ds ss =>
    simp only [Node.children, List.forall_mem_cons, List.forall_mem_append] at ih
    refine (ih.1.expr s).bind (run_traceExpr cond) fun hcond => ?_
    refine block_yields _ ih.2.1 ih.2.2 fun ds' ss' hds hss => ?_
    exact List.rel_append (List.rel_append hcond hds) hss
  | ifElseStmt cond ds ss ds' ss' =>
    simp only [Node.children, List.forall_mem_cons, List.forall_mem_append] at ih
    obtain ⟨ihcond, ihds, ihss, ihds', ihss'⟩ := ih
    refine (ihcond.expr s).bind (run_traceExpr cond) fun hcond => ?_
    -- the declarations and statements of a branch come out as a pair
    have hbranch {ds ss : List Node} (s : Stage) (ihds : ∀ d ∈ ds, WritesAccounted stages global d)
        (ihss : ∀ s ∈ ss, WritesAccounted stages global s) :
        (Traced.inScope do
          return (← traceDecls global ds, ← traceStmts global ss)).Yields stages s fun branch =>
            Node.AccountedAll stages _ branch.1 ∧ Node.AccountedAll stages _ branch.2 :=
      block_yields s ihds ihss fun _ _ => And.intro
    refine (hbranch _ ihds ihss).bind (r := Resolver.inScope do
      return (← resolveDecls global ds, ← resolveStmts global ss))
      (by simp only [run_inScope, run_bind, run_traceDecls, run_traceStmts, run_pure])
      fun hthen => ?_
    refine (hbranch _ ihds' ihss').bind rfl fun helse => ?_
    exact yields_pure (List.rel_append (List.rel_append (List.rel_append
      (List.rel_append hcond hthen.1) hthen.2) helse.1) helse.2)
  | _ => exact yields_step fun _ => Node.never_accounted stages _

private theorem decl_accounted (d : Node)
    (ih : ∀ m ∈ d.children, WritesAccounted stages global m) :
    (traceDecl global d).Yields stages s (Node.Accounted stages (d.visitsDecl global s)) := by
  cases d with
  | varDecl type id | formalDecl type id =>
    exact (declareStorage_yields s type id).bind rfl yields_pure
  | fnDecl type id formals decls stmts =>
    simp only [Node.children, List.forall_mem_cons, List.forall_mem_append] at ih
    obtain ⟨-, ihformals, ihdecls, ihstmts⟩ := ih
    refine (yields_step_true _).bind rfl fun _ => ?_
    refine (resolveResultType_yields _ type).bind rfl fun htype => ?_
    refine (yields_visit (declareFunction_leaves _ _ id formals)).bind rfl fun hid => ?_
    apply Yields.inScope
    refine (decls_accounted _ ihformals).bind (run_traceDecls formals) fun hformals => ?_
    refine (decls_accounted _ ihdecls).bind (run_traceDecls decls) fun hdecls => ?_
    refine (stmts_accounted _ ihstmts).bind rfl fun hstmts => ?_
    exact yields_pure (List.rel_append htype
      (.cons hid (List.rel_append (List.rel_append hformals hdecls) hstmts)))
  | structDecl id decls =>
    refine (yields_step_true _).bind rfl fun _ => ?_
    refine (yields_step_true openScope).bind rfl fun _ => ?_
    refine (decls_accounted _ ih).bind (run_traceDecls decls) fun hdecls => ?_
    refine (yields_step_true closeScope).bind rfl fun _ => ?_
    refine (yields_visit (declare_leaves _ id _)).bind rfl fun hid => ?_
    exact yields_pure (.cons hid hdecls)
  | _ => exact yields_step fun _ => Node.never_accounted stages _

theorem writesAccounted (stages : List Stage) (global : Nat) (n : Node) :
    WritesAccounted stages global n := by
  induction n using Node.induct with
  | step n ih =>
    exact ⟨fun s => expr_accounted s n ih, fun s => stmt_accounted s n ih,
      fun s => decl_accounted s n ih⟩

theorem resolveProgram_accounted (program : Program) (table : SymbolTable) :
    Node.AccountedAll (stagesOf program table) (visitsOf program table)
      (resolveProgram program table).value := by
  have hyields : (Traced.inScope (traceDecls (table.depth + 1) program)).Yields
      (stagesOf program table) ⟨table, none⟩
      (Node.AccountedAll (stagesOf program table) (visitsOf program table)) :=
    (decls_accounted _ fun d _ => writesAccounted _ _ d).inScope
  have hvalue := hyields (List.infix_refl _)
  rwa [Traced.run_inScope, run_traceDecls] at hvalue

end Traversals

/-- Whether name analysis returns or is stopped, the tree is as it was but for symbols, and every
identifier with a symbol still has one. Each identifier has its own step of the run that comes to
it, or none. Its symbol is what it was, or what that step has found or declared for the identifier's
own name and its role. -/
theorem analysis_writes_only_symbols (program : Program) (table : SymbolTable) :
    Node.eraseAll (resolveProgram program table).value = Node.eraseAll program ∧
      List.Forall₂ (fun id id' => id.Bound → id'.Bound) (Node.identsAll program)
        (Node.identsAll (resolveProgram program table).value) ∧
      (visitsOf program table).map Visit.ident = Node.identsAll program ∧
      (∀ v ∈ visitsOf program table, v.IsAmong (stagesOf program table)) ∧
      List.Forall₂ Visit.Leaves (visitsOf program table)
        (Node.occurrencesAll (resolveProgram program table).value) := by
  have hidents : (visitsOf program table).map Visit.ident = Node.identsAll program :=
    Node.visitsDecls_idents _ program _
  obtain ⟨hamong, hleaves⟩ := (List.forall₂_and_left _ _).mp
    ((resolveProgram_accounted program table).imp fun _ _ h => ⟨h.among, h.leaves⟩)
  refine ⟨resolveProgram_erase program table, ?_, hidents, hamong, hleaves⟩
  rw [← hidents, ← Node.occurrencesAll_idents (resolveProgram program table).value,
    List.forall₂_map_left_iff, List.forall₂_map_right_iff]
  exact hleaves.imp fun _ _ h => h.bound

end Sema
