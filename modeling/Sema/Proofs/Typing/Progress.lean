import Sema.Proofs.Typing.Absorption
import Sema.Proofs.Typing.Agreement
import Sema.Proofs.Resolution.Symbols
import Sema.Proofs.Tree.Operators
import Sema.Proofs.Tree.Shape

/-!
# Type analysis comes to an end

Only an unknown operator stops the check of a well-shaped program, provided that no identifier is
bound to a symbol without a type; its names need not be bound. An operator of one operand is not
asked for if the operand is an error, any other is.
-/

namespace Sema

open Check

/-- The check comes to a result. -/
def Check.Ends {α : Type} (c : Check α) : Prop := ∃ a, c.outcome = .ok a

section Ends

variable {α β : Type}

theorem ends_pure (a : α) : (pure a : Check α).Ends := ⟨a, rfl⟩

theorem ends_blameFor (kind : DiagnosticKind) (pos : Pos) (message : String) :
    (blameFor kind pos message).Ends := ⟨.error, rfl⟩

theorem ends_blame (kind : DiagnosticKind) (pos : Pos) : (blame kind pos).Ends := ⟨.error, rfl⟩

theorem ends_report (d : Diagnostic) : (report d).Ends := ⟨(), rfl⟩

theorem ends_ite {p : Prop} [Decidable p] {c c' : Check α} (hc : c.Ends) (hc' : c'.Ends) :
    (if p then c else c').Ends := by
  split
  · exact hc
  · exact hc'

theorem Check.Ends.bind {c : Check α} {f : α → Check β} (hc : c.Ends) (hf : ∀ a, (f a).Ends) :
    (c >>= f).Ends := by
  obtain ⟨rs, outcome⟩ := c
  obtain ⟨a, ha⟩ := hc
  cases ha
  exact hf a

end Ends

section Steps

variable {pos pos' : Pos} {t u : Ty}

theorem checkOperand_ends (rule : OperandRule) : (checkOperand rule pos t).Ends :=
  ends_ite (ends_pure _) (ends_ite (ends_pure _)
    ((ends_blame rule.kind pos).bind fun _ => ends_pure _))

theorem checkUnary_ends {op : String} (hop : (unaryRule? op).isSome = true) :
    (checkUnary op pos t).Ends := by
  obtain ⟨rule, hrule⟩ := Option.isSome_iff_exists.mp hop
  simp only [checkUnary, hrule]
  exact ends_ite (ends_pure _) (ends_ite (ends_pure _) (ends_blame _ _))

theorem checkEquality_ends : (checkEquality pos pos' t u).Ends := by
  apply ends_ite (ends_pure _)
  split
  · exact ends_blameFor _ _ _
  · exact ends_blameFor _ _ _
  · exact ends_ite (ends_pure _) (ends_blame _ _)

theorem checkAssign_ends : (checkAssign pos t u).Ends := by
  apply ends_ite (ends_pure _)
  split
  · exact ends_blameFor _ _ _
  · exact ends_blameFor _ _ _
  · exact ends_ite (ends_pure _) (ends_blame _ _)

theorem checkCall_ends (args : List (Pos × Ty)) : (checkCall pos t args).Ends := by
  cases t with
  | error => exact ends_pure _
  | function formals result =>
    have hargs : (checkArgs args formals).Ends := by
      obtain ⟨rs, hrs⟩ := checkArgs_returns args formals
      rw [hrs]
      exact ⟨(), rfl⟩
    rw [checkCall]
    split
    · exact hargs.bind fun _ => ends_pure _
    · exact (ends_report _).bind fun _ => ends_pure _
  | _ => exact ends_blame _ _

theorem checkEffect_ends : (checkEffect t).Ends := ends_pure _

theorem checkStep_ends : (checkStep pos t).Ends :=
  ends_ite (ends_pure _) (ends_ite (ends_pure _) (ends_blame _ _))

theorem checkTransfer_ends (ban? : Ty → Option DiagnosticKind) :
    (checkTransfer ban? pos t).Ends := by
  apply ends_ite (ends_pure _)
  split
  · exact ends_blame _ _
  · exact ends_pure _

theorem checkCondition_ends (c : Conditional) : (checkCondition c pos t).Ends :=
  ends_ite (ends_pure _) (ends_ite (ends_pure _) (ends_blameFor _ _ _))

theorem checkBareReturn_ends (expected : Option Ty) : (checkBareReturn expected pos).Ends :=
  ends_ite (ends_pure _) (ends_blame _ _)

theorem checkReturn_ends (expected : Option Ty) : (checkReturn expected pos t).Ends :=
  ends_ite (ends_blame _ _) (ends_ite (ends_pure _) (ends_ite (ends_pure _) (ends_blame _ _)))

end Steps

/-- The node has an unknown operator that its check looks up, and the fault says so. -/
inductive Node.Exposes : Node → Fault → Prop
  | unary {op : String} {operand : Node} (hop : unaryRule? op = none)
      (hoperand : (checkExpr operand).outcome ≠ .ok .error) :
      Exposes (.unary op operand) (.breach (.unknownUnary op) operand.pos)
  | binary {op : String} {left right : Node} (hop : binaryRule? op = none) :
      Exposes (.binary op left right) (.breach (.unknownBinary op) left.pos)

theorem Node.Exposes.unknown {n : Node} {why : Fault} (h : n.Exposes why) :
    n.hasKnownOperator = false := by
  cases h with
  | unary hop _ => rw [hasKnownOperator, hop, Option.isSome_none]
  | binary hop => rw [hasKnownOperator, hop, Option.isSome_none]

theorem Node.not_exposes_of_known {n : Node} (h : n.hasKnownOperator = true) (why : Fault) :
    ¬ n.Exposes why := by
  intro hexposes
  rw [hexposes.unknown] at h
  cases h

theorem Node.isCompound_of_unknown {n : Node} (h : n.hasKnownOperator = false) :
    n.isCompound = true := by
  cases n with
  | unary | binary => rfl
  | _ => cases h

theorem Node.not_exposes_of_not_compound {n : Node} (h : n.isCompound = false) (why : Fault) :
    ¬ n.Exposes why := by
  intro hexposes
  rw [isCompound_of_unknown hexposes.unknown] at h
  cases h

/-- The check stops at an exposed operator of the nodes, and ends only if there is none. -/
structure Check.StopsIn {α : Type} (c : Check α) (ns : List Node) : Prop where
  fault : ∀ why, c.outcome = .error why → ∃ n ∈ ns, n.Exposes why
  quiet : c.Ends → ∀ n ∈ ns, ∀ why, ¬ n.Exposes why

section StopsIn

variable {α β : Type} {c : Check α} {f : α → Check β} {ns ms : List Node}

theorem Check.StopsIn.ends (h : c.StopsIn ns) (hquiet : ∀ n ∈ ns, ∀ why, ¬ n.Exposes why) :
    c.Ends := by
  cases hc : c.outcome with
  | ok a => exact ⟨a, hc⟩
  | error why =>
    obtain ⟨n, hn, hexposes⟩ := h.fault why hc
    exact absurd hexposes (hquiet n hn why)

theorem stopsIn_of_ends (hc : c.Ends) (hquiet : ∀ n ∈ ns, ∀ why, ¬ n.Exposes why) :
    c.StopsIn ns where
  fault why hwhy := by
    obtain ⟨a, ha⟩ := hc
    rw [ha] at hwhy
    cases hwhy
  quiet _ := hquiet

theorem stopsIn_stop {n : Node} {why : Fault} (hn : n ∈ ns) (hexposes : n.Exposes why) :
    (stop why : Check α).StopsIn ns where
  fault why' h := by
    cases h
    exact ⟨n, hn, hexposes⟩
  quiet h := by
    obtain ⟨a, ha⟩ := h
    cases ha

/-- Nodes that are exposed nowhere make no difference. -/
theorem Check.StopsIn.widen (h : c.StopsIn ns)
    (hsame : ∀ n why, n.Exposes why → (n ∈ ms ↔ n ∈ ns)) : c.StopsIn ms where
  fault why hwhy := by
    obtain ⟨n, hn, hexposes⟩ := h.fault why hwhy
    exact ⟨n, (hsame n why hexposes).mpr hn, hexposes⟩
  quiet hends n hn why hexposes :=
    h.quiet hends n ((hsame n why hexposes).mp hn) why hexposes

theorem Check.StopsIn.cons {n : Node} (h : c.StopsIn ns) (hn : n.hasKnownOperator = true) :
    c.StopsIn (n :: ns) := by
  apply h.widen
  intro m why hm
  have hne : m ≠ n := by
    rintro rfl
    exact Node.not_exposes_of_known hn why hm
  simp [hne]

theorem Check.StopsIn.bind (hc : c.StopsIn ns) (hf : ∀ a, c.outcome = .ok a → (f a).StopsIn ms) :
    (c >>= f).StopsIn (ns ++ ms) := by
  obtain ⟨rs, why | a⟩ := c
  · refine ⟨fun why' hwhy => ?_, fun hends => ?_⟩
    · cases hwhy
      obtain ⟨n, hn, hexposes⟩ := hc.fault why rfl
      exact ⟨n, List.mem_append_left ms hn, hexposes⟩
    · obtain ⟨b, hb⟩ := hends
      cases hb
  · have hfirst := hc.quiet ⟨a, rfl⟩
    have hrest := hf a rfl
    refine ⟨fun why hwhy => ?_, fun hends => ?_⟩
    · obtain ⟨n, hn, hexposes⟩ := hrest.fault why hwhy
      exact ⟨n, List.mem_append_right ns hn, hexposes⟩
    · exact List.forall_mem_append.mpr ⟨hfirst, hrest.quiet hends⟩

theorem Check.StopsIn.bind_ends (hc : c.StopsIn ns) (hf : ∀ a, (f a).Ends) :
    (c >>= f).StopsIn ns := by
  have h := hc.bind fun a _ => stopsIn_of_ends (hf a) (List.forall_mem_nil _)
  rwa [List.append_nil] at h

end StopsIn

theorem Ident.Typable.ends {id : Ident} (h : id.Typable) : (ofExcept id.type).Ends := h

private theorem checkPath_stopsIn {e : Node} (hexpr : e.isExpr = true)
    (hpath : e.pathEnd?.isSome = true) (hends : (checkExpr e).Ends) :
    (checkExpr e).StopsIn (e :: e.descendants) :=
  stopsIn_of_ends hends fun n hn =>
    Node.not_exposes_of_not_compound (Node.not_compound_of_path hexpr hpath n hn)

private theorem checkUnary_stopsIn {op : String} {operand : Node} {t : Ty}
    (ht : (checkExpr operand).outcome = .ok t) :
    (checkUnary op operand.pos t).StopsIn [.unary op operand] := by
  by_cases herror : t.isError = true
  · -- an operand that is an error hides the operator
    obtain rfl := Ty.isError_iff.mp herror
    refine stopsIn_of_ends (ends_pure _) (List.forall_mem_singleton.mpr ?_)
    rintro why ⟨-, hoperand⟩
    exact hoperand ht
  · cases hrule : unaryRule? op with
    | none =>
      have hstop : checkUnary op operand.pos t = stop (.breach (.unknownUnary op) operand.pos) := by
        simp only [checkUnary, herror, hrule, Bool.false_eq_true, if_false]
      rw [hstop]
      refine stopsIn_stop (List.mem_singleton_self _) (.unary hrule ?_)
      rw [ht]
      rintro ⟨⟩
      exact herror rfl
    | some rule =>
      refine stopsIn_of_ends (checkUnary_ends (by rw [hrule, Option.isSome_some]))
        (List.forall_mem_singleton.mpr ?_)
      rintro why ⟨hop, -⟩
      rw [hrule] at hop
      cases hop

private theorem checkExprs_stopsIn {es : List Node}
    (ih : ∀ e ∈ es, (checkExpr e).StopsIn (e :: e.descendants)) :
    (checkExprs es).StopsIn (Node.allNodes es) := by
  induction es with
  | nil => exact stopsIn_of_ends (ends_pure _) (List.forall_mem_nil _)
  | cons e es ihes =>
    rw [List.forall_mem_cons] at ih
    exact ih.1.bind fun _ _ => (ihes ih.2).bind_ends fun _ => ends_pure _

theorem checkExpr_stopsIn (e : Node) (hexpr : e.isExpr = true)
    (htypable : ∀ id ∈ e.idents, id.Typable) : (checkExpr e).StopsIn (e :: e.descendants) := by
  induction e using Node.induct with
  | step e ih =>
    have hpart (m : Node) (hm : m ∈ e.children) (hexpr : m.isExpr = true) :
        (checkExpr m).StopsIn (m :: m.descendants) :=
      ih m hm hexpr fun id hid =>
        htypable id (Node.idents_of_child (Node.mem_identsAll.mpr ⟨m, hm, hid⟩))
    cases e with
    | lit value pos =>
      have hends : (checkExpr (.lit value pos)).Ends := by
        cases value <;> exact ends_pure _
      exact stopsIn_of_ends hends
        (List.forall_mem_singleton.mpr (Node.not_exposes_of_known rfl))
    | ident id =>
      exact checkPath_stopsIn hexpr rfl (htypable id (by simp [Node.idents])).ends
    | dot base field =>
      exact checkPath_stopsIn hexpr rfl (htypable field (by simp [Node.idents])).ends
    | assign target value =>
      simp only [Node.isExpr, Bool.and_eq_true] at hexpr
      have htarget := hpart target (by simp [Node.children]) hexpr.1
      have hvalue := hpart value (by simp [Node.children]) hexpr.2
      exact (htarget.bind fun _ _ => hvalue.bind_ends fun _ => checkAssign_ends).cons rfl
    | call callee args =>
      have hcallee := (htypable callee (by simp [Node.idents])).ends
      have hargs : ∀ m ∈ args, (checkExpr m).StopsIn (m :: m.descendants) := by
        intro m hm
        exact hpart m hm (Node.areExprs_iff.mp hexpr m hm)
      exact ((stopsIn_of_ends hcallee (List.forall_mem_nil _)).bind fun _ _ =>
        (checkExprs_stopsIn hargs).bind_ends fun _ => checkCall_ends _).cons rfl
    | unary op operand =>
      have hoperand := hpart operand (by simp [Node.children]) hexpr
      apply (hoperand.bind fun _ ht => checkUnary_stopsIn ht).widen
      intro n why _
      simp only [Node.descendants, List.mem_cons, List.mem_append, List.not_mem_nil, or_false]
      exact or_comm
    | binary op left right =>
      simp only [Node.isExpr, Bool.and_eq_true] at hexpr
      have hleft := hpart left (by simp [Node.children]) hexpr.1
      have hright := hpart right (by simp [Node.children]) hexpr.2
      cases hrule : binaryRule? op with
      | none =>
        rw [checkExpr, hrule]
        exact stopsIn_stop List.mem_cons_self (.binary hrule)
      | some rule =>
        have hknown : (Node.binary op left right).hasKnownOperator = true := by
          rw [Node.hasKnownOperator, hrule, Option.isSome_some]
        rw [checkExpr, hrule]
        cases rule with
        | equality =>
          exact (hleft.bind fun _ _ => hright.bind_ends fun _ => checkEquality_ends).cons hknown
        | uniform rule =>
          refine (hleft.bind fun _ _ => ?_).cons hknown
          exact (stopsIn_of_ends (checkOperand_ends rule) (List.forall_mem_nil _)).bind fun _ _ =>
            hright.bind_ends fun _ => (checkOperand_ends rule).bind fun _ => ends_pure _
    | _ => cases hexpr

theorem Check.StopsIn.storages {α : Type} {c : Check α} {ds ns : List Node} (h : c.StopsIn ns)
    (hds : ds.all Node.isStorage = true) : c.StopsIn (Node.allNodes ds ++ ns) := by
  apply h.widen
  intro n why hn
  rw [List.mem_append, or_iff_right]
  intro hmem
  exact Node.not_exposes_of_not_compound (Node.not_compound_of_storages hds n hmem) why hn

private theorem checkStmts_stopsIn {expected : Option Ty} {ss : List Node}
    (ih : ∀ s ∈ ss, (checkStmt expected s).StopsIn (s :: s.descendants)) :
    (checkStmts expected ss).StopsIn (Node.allNodes ss) := by
  induction ss with
  | nil => exact stopsIn_of_ends (ends_pure _) (List.forall_mem_nil _)
  | cons s ss ihss =>
    rw [List.forall_mem_cons] at ih
    exact ih.1.bind fun _ _ => (ihss ih.2).bind_ends fun _ => ends_pure _

theorem checkStmt_stopsIn (expected : Option Ty) (s : Node) (hshaped : s.isShapedStmt = true)
    (htypable : ∀ id ∈ s.idents, id.Typable) :
    (checkStmt expected s).StopsIn (s :: s.descendants) := by
  induction s using Node.induct with
  | step s ih =>
    have htypables (m : Node) (hm : m ∈ s.children) : ∀ id ∈ m.idents, id.Typable := fun id hid =>
      htypable id (Node.idents_of_child (Node.mem_identsAll.mpr ⟨m, hm, hid⟩))
    have hexpr (e : Node) (he : e ∈ s.children) (hexpr : e.isExpr = true) :=
      checkExpr_stopsIn e hexpr (htypables e he)
    have hstmts (ss : List Node) (hss : ∀ m ∈ ss, m ∈ s.children)
        (hare : Node.areShapedStmts ss = true) :
        (checkStmts expected ss).StopsIn (Node.allNodes ss) := by
      apply checkStmts_stopsIn
      intro m hm
      exact ih m (hss m hm) (Node.areShapedStmts_iff.mp hare m hm) (htypables m (hss m hm))
    cases s with
    | assignStmt e | callStmt e =>
      have he := hexpr e (by simp [Node.children]) hshaped
      exact (he.bind_ends fun _ => checkEffect_ends).cons rfl
    | stepStmt op e =>
      have he := hexpr e (by simp [Node.children]) hshaped
      exact (he.bind_ends fun _ => checkStep_ends).cons rfl
    | readStmt e | writeStmt e =>
      have he := hexpr e (by simp [Node.children]) hshaped
      exact (he.bind_ends fun _ => checkTransfer_ends _).cons rfl
    | ifStmt cond ds ss | whileStmt cond ds ss =>
      simp only [Node.isShapedStmt, Bool.and_eq_true] at hshaped
      have hcond := hexpr cond (by simp [Node.children]) hshaped.1.1
      have hbody := hstmts ss (by simp +contextual [Node.children]) hshaped.2
      refine (hcond.bind fun _ _ => ?_).cons rfl
      apply Check.StopsIn.storages _ hshaped.1.2
      exact (stopsIn_of_ends (checkCondition_ends _) (List.forall_mem_nil _)).bind fun _ _ =>
        hbody.bind_ends fun _ => ends_pure _
    | ifElseStmt cond ds ss ds' ss' =>
      simp only [Node.isShapedStmt, Bool.and_eq_true] at hshaped
      obtain ⟨⟨⟨⟨hcond, hds⟩, hss⟩, hds'⟩, hss'⟩ := hshaped
      have hcond := hexpr cond (by simp [Node.children]) hcond
      have hthen := hstmts ss (by simp +contextual [Node.children]) hss
      have helse := hstmts ss' (by simp +contextual [Node.children]) hss'
      refine (hcond.bind fun _ _ => ?_).cons rfl
      apply Check.StopsIn.storages _ hds
      refine (stopsIn_of_ends (checkCondition_ends _) (List.forall_mem_nil _)).bind fun _ _ => ?_
      refine hthen.bind fun _ _ => Check.StopsIn.storages ?_ hds'
      exact helse.bind_ends fun _ => ends_pure _
    | returnStmt value pos =>
      by_cases hvalue : value = .missing
      · subst hvalue
        refine stopsIn_of_ends (checkBareReturn_ends expected) ?_
        exact List.forall_mem_cons.mpr ⟨Node.not_exposes_of_known rfl,
          List.forall_mem_singleton.mpr (Node.not_exposes_of_known rfl)⟩
      · rw [Node.isShapedStmt_return hvalue] at hshaped
        rw [checkStmt_return hvalue]
        have he := hexpr value (by simp [Node.children]) hshaped
        exact (he.bind_ends fun _ => checkReturn_ends expected).cons rfl
    | _ => cases hshaped

theorem checkDecl_stopsIn (expected : Option Ty) {d : Node} (hshaped : d.isShapedDecl = true)
    (htypable : ∀ id ∈ d.idents, id.Typable) :
    (checkDecl expected d).check.StopsIn (Node.allNodes d.body) := by
  cases d with
  | varDecl | formalDecl | structDecl => exact stopsIn_of_ends (ends_pure _) (List.forall_mem_nil _)
  | fnDecl type id formals decls stmts =>
    simp only [Node.isShapedDecl, Bool.and_eq_true] at hshaped
    obtain ⟨⟨⟨htype, -⟩, hdecls⟩, hstmts⟩ := hshaped
    obtain ⟨result, hresult⟩ : ∃ result, returnType? type id = some result := by
      obtain ⟨name, hname⟩ := Node.typeName?_of_isType htype
      unfold returnType?
      split
      · exact ⟨_, rfl⟩
      · exact ⟨Ty.ofName name, by rw [hname, Option.map_some]⟩
    have hbody : (checkStmts (some result) stmts).StopsIn (Node.allNodes stmts) := by
      apply checkStmts_stopsIn
      intro s hs
      apply checkStmt_stopsIn _ s (Node.areShapedStmts_iff.mp hstmts s hs)
      intro id hid
      apply htypable id
      simp [Node.idents, Node.mem_identsAll.mpr ⟨s, hs, hid⟩]
    rw [checkDecl_function expected formals decls stmts hresult, Node.body, Node.allNodes_append]
    apply Check.StopsIn.storages _ hdecls
    exact hbody.bind_ends fun _ => ends_ite (ends_blame _ _) (ends_pure _)
  | _ => cases hshaped

theorem checkDecls_cons_check (expected : Option Ty) (d : Node) (ds : List Node) :
    (checkDecls expected (d :: ds)).check = (do
      let t ← (checkDecl expected d).check
      let u ← (checkDecls (checkDecl expected d).expected ds).check
      return .all [t, u]) := by
  rcases hfirst : (checkDecl expected d).check with ⟨rs, why | t⟩
  · simp [checkDecls, hfirst]
  · simp [checkDecls, hfirst]

private theorem checkProgram_check (expected : Option Ty) (program : Program) :
    (checkProgram expected program).check = (do
      let t ← (checkDecls expected program).check
      return if (checkDecls expected program).check.reports.isEmpty then t else .error) := by
  rcases hdecls : (checkDecls expected program).check with ⟨rs, why | t⟩
  · simp [checkProgram, hdecls]
    rfl
  · simp [checkProgram, hdecls]
    rfl

private theorem checkDecls_stopsIn (expected : Option Ty) {ds : List Node}
    (hshaped : ∀ d ∈ ds, d.isShapedDecl = true)
    (htypable : ∀ d ∈ ds, ∀ id ∈ d.idents, id.Typable) :
    (checkDecls expected ds).check.StopsIn (Node.allNodes (ds.flatMap Node.body)) := by
  induction ds generalizing expected with
  | nil => exact stopsIn_of_ends (ends_pure _) (List.forall_mem_nil _)
  | cons d ds ih =>
    rw [List.forall_mem_cons] at hshaped htypable
    have hfirst := checkDecl_stopsIn expected hshaped.1 htypable.1
    rw [checkDecls_cons_check, List.flatMap_cons, Node.allNodes_append]
    exact hfirst.bind fun _ _ => (ih _ hshaped.2 htypable.2).bind_ends fun _ => ends_pure _

theorem checkProgram_stopsIn (expected : Option Ty) {program : Program}
    (hshaped : ∀ d ∈ program, d.isShapedDecl = true)
    (htypable : ∀ id ∈ Node.identsAll program, id.Typable) :
    (checkProgram expected program).check.StopsIn
      (Node.allNodes (program.flatMap Node.body)) := by
  have h := checkDecls_stopsIn expected hshaped fun d hd id hid =>
    htypable id (Node.mem_identsAll.mpr ⟨d, hd, hid⟩)
  rw [checkProgram_check]
  exact h.bind_ends fun _ => ends_pure _

/-- What a check reads of the node is known: its operators and the symbols of its identifiers. -/
structure Node.Checkable (n : Node) : Prop where
  proper : n.Throughout (isProper · = true)
  typable : ∀ id ∈ n.idents, id.Typable

theorem Node.Checkable.child {n m : Node} (h : n.Checkable) (hm : m ∈ n.children) :
    m.Checkable where
  proper := h.proper.child hm
  typable id hid := h.typable id (Node.idents_of_child (Node.mem_identsAll.mpr ⟨m, hm, hid⟩))

theorem Node.Checkable.not_exposes {n : Node} (h : n.Checkable) :
    ∀ m ∈ n :: n.descendants, ∀ why, ¬ m.Exposes why := fun m hm =>
  Node.not_exposes_of_known (Bool.and_eq_true_iff.mp (h.proper m hm)).1

theorem checkExpr_ends (e : Node) (hexpr : e.isExpr = true) (h : e.Checkable) :
    (checkExpr e).Ends :=
  (checkExpr_stopsIn e hexpr h.typable).ends h.not_exposes

/-- The check of a program that conforms to the grammar and can be checked comes to its end. -/
theorem checkProgram_ends (expected : Option Ty) {program : Program}
    (hgrammar : conforms program = true) (h : ∀ d ∈ program, d.Checkable) :
    (checkProgram expected program).check.Ends := by
  have hshaped := List.all_eq_true.mp (wellShaped_of_conforms hgrammar).1
  have htypable : ∀ id ∈ Node.identsAll program, id.Typable := by
    intro id hid
    obtain ⟨d, hd, hid⟩ := Node.mem_identsAll.mp hid
    exact (h d hd).typable id hid
  apply (checkProgram_stopsIn expected hshaped htypable).ends
  intro n hn
  obtain ⟨d, hd, hn⟩ := Node.mem_allNodes.mp (Node.mem_allNodes_of_body hn)
  exact (h d hd).not_exposes n (List.mem_cons.mpr hn)

end Sema
