import Sema.Proofs.Tree.Places
import Sema.Proofs.Tree.Shape
import Sema.Proofs.Typing.Agreement

/-!
# Where type analysis blames

What the check of a well-shaped tree reports is of a kind of its own and stands at a place of the
tree, also if a fault ends the check.
-/

namespace Sema

open Check

/-- The kinds of name analysis. -/
def DiagnosticKind.isNaming : DiagnosticKind → Bool
  | .multiplyDeclared | .undeclared | .badVoidType | .undefinedStructType
  | .dotAccessOfNonStruct | .invalidStructField => true
  | _ => false

/-- The check reports diagnostics of the kinds of type analysis at the given places only. -/
def Check.Within {α : Type} (c : Check α) (places : List Pos) : Prop :=
  ∀ d ∈ c.reports, d.pos ∈ places ∧ ∃ kind, d.kind = some kind ∧ kind.isNaming = false

section Within

variable {α β : Type} {places : List Pos}

theorem within_pure (a : α) : (pure a : Check α).Within places := List.forall_mem_nil _

theorem within_stop (fault : Fault) : (stop fault : Check α).Within places := List.forall_mem_nil _

theorem within_ofExcept (outcome : Except Fault α) : (ofExcept outcome).Within places :=
  List.forall_mem_nil _

theorem within_report {kind : DiagnosticKind} {pos : Pos} (hpos : pos ∈ places)
    (hkind : kind.isNaming = false) : (report (.ofKind kind pos)).Within places :=
  List.forall_mem_singleton.mpr ⟨hpos, kind, rfl, hkind⟩

theorem within_blameFor {kind : DiagnosticKind} {pos : Pos} (message : String)
    (hpos : pos ∈ places) (hkind : kind.isNaming = false) :
    (blameFor kind pos message).Within places :=
  List.forall_mem_singleton.mpr ⟨hpos, kind, rfl, hkind⟩

theorem within_blame {kind : DiagnosticKind} {pos : Pos} (hpos : pos ∈ places)
    (hkind : kind.isNaming = false) : (blame kind pos).Within places :=
  within_blameFor _ hpos hkind

theorem within_ite {p : Prop} [Decidable p] {c c' : Check α} (hc : c.Within places)
    (hc' : c'.Within places) : (if p then c else c').Within places := by
  split
  · exact hc
  · exact hc'

theorem Check.Within.bind {c : Check α} {f : α → Check β} (hc : c.Within places)
    (hf : ∀ a, (f a).Within places) : (c >>= f).Within places := by
  obtain ⟨rs, why | a⟩ := c
  · exact hc
  · exact List.forall_mem_append.mpr ⟨hc, hf a⟩

theorem Check.Within.mono {c : Check α} {places' : List Pos} (hc : c.Within places)
    (h : places ⊆ places') : c.Within places' := by
  intro d hd
  exact ⟨h (hc d hd).1, (hc d hd).2⟩

end Within

section Steps

variable {pos pos' : Pos} {t u : Ty} {places : List Pos}

theorem checkOperand_within {rule : OperandRule} (hrule : rule.kind.isNaming = false)
    (hpos : pos ∈ places) : (checkOperand rule pos t).Within places :=
  within_ite (within_pure _) (within_ite (within_pure _)
    ((within_blame hpos hrule).bind fun _ => within_pure _))

theorem checkUnary_within {op : String} (hpos : pos ∈ places) :
    (checkUnary op pos t).Within places := by
  apply within_ite (within_pure _)
  cases hrule : unaryRule? op with
  | none => exact within_stop _
  | some rule =>
    have hkind : rule.kind.isNaming = false := by
      unfold unaryRule? at hrule
      split at hrule
      · cases hrule
        rfl
      · split at hrule
        · cases hrule
          rfl
        · cases hrule
    exact within_ite (within_pure _) (within_blame hpos hkind)

theorem checkEquality_within (hpos : pos ∈ places) (hpos' : pos' ∈ places) :
    (checkEquality pos pos' t u).Within places := by
  apply within_ite (within_pure _)
  split
  · exact within_blameFor _ hpos rfl
  · exact within_blameFor _ hpos' rfl
  · exact within_ite (within_pure _) (within_blame hpos rfl)

theorem checkAssign_within (hpos : pos ∈ places) : (checkAssign pos t u).Within places := by
  apply within_ite (within_pure _)
  split
  · exact within_blameFor _ hpos rfl
  · exact within_blameFor _ hpos rfl
  · exact within_ite (within_pure _) (within_blame hpos rfl)

theorem checkArgs_within {args : List (Pos × Ty)} (hargs : ∀ arg ∈ args, arg.1 ∈ places)
    (formals : List Ty) : (checkArgs args formals).Within places := by
  induction args generalizing formals with
  | nil => exact within_pure _
  | cons arg args ih =>
    obtain ⟨pos, actual⟩ := arg
    rw [List.forall_mem_cons] at hargs
    cases formals with
    | nil => exact within_pure _
    | cons formal formals =>
      rw [checkArgs]
      have hrest := ih hargs.2 formals
      exact within_ite ((within_report hargs.1 rfl).bind fun _ => hrest) hrest

theorem checkCall_within (hpos : pos ∈ places) {args : List (Pos × Ty)}
    (hargs : ∀ arg ∈ args, arg.1 ∈ places) : (checkCall pos t args).Within places := by
  cases t with
  | error => exact within_pure _
  | function formals result =>
    rw [checkCall]
    split
    · exact (checkArgs_within hargs formals).bind fun _ => within_pure _
    · exact (within_report hpos rfl).bind fun _ => within_pure _
  | _ => exact within_blame hpos rfl

theorem checkStep_within (hpos : pos ∈ places) : (checkStep pos t).Within places :=
  within_ite (within_pure _) (within_ite (within_pure _) (within_blame hpos rfl))

theorem checkTransfer_within {ban? : Ty → Option DiagnosticKind}
    (hban : ∀ t kind, ban? t = some kind → kind.isNaming = false) (hpos : pos ∈ places) :
    (checkTransfer ban? pos t).Within places := by
  apply within_ite (within_pure _)
  split
  · exact within_blame hpos (hban _ _ ‹_›)
  · exact within_pure _

theorem readBan?_isNaming (t : Ty) (kind : DiagnosticKind) (h : readBan? t = some kind) :
    kind.isNaming = false := by
  cases t <;> cases h <;> rfl

theorem writeBan?_isNaming (t : Ty) (kind : DiagnosticKind) (h : writeBan? t = some kind) :
    kind.isNaming = false := by
  cases t <;> cases h <;> rfl

theorem checkCondition_within (c : Conditional) (hpos : pos ∈ places) :
    (checkCondition c pos t).Within places :=
  within_ite (within_pure _) (within_ite (within_pure _) (within_blameFor _ hpos rfl))

theorem checkBareReturn_within (expected : Option Ty) (hpos : pos ∈ places) :
    (checkBareReturn expected pos).Within places :=
  within_ite (within_pure _) (within_blame hpos rfl)

theorem checkReturn_within (expected : Option Ty) (hpos : pos ∈ places) :
    (checkReturn expected pos t).Within places :=
  within_ite (within_blame hpos rfl)
    (within_ite (within_pure _) (within_ite (within_pure _) (within_blame hpos rfl)))

end Steps

private theorem checkExprs_within {places : List Pos} {es : List Node}
    (ih : ∀ e ∈ es, (checkExpr e).Within places) : (checkExprs es).Within places := by
  induction es with
  | nil => exact within_pure _
  | cons e es ihes =>
    rw [List.forall_mem_cons] at ih
    exact ih.1.bind fun _ => (ihes ih.2).bind fun _ => within_pure _

theorem checkExpr_within (e : Node) (h : e.isExpr = true) :
    (checkExpr e).Within (Node.places [e]) := by
  induction e using Node.induct with
  | step e ih =>
    -- a part of the expression is blamed within the expression, and so is its position
    have hpart {m : Node} (hm : m ∈ e.children) (hexpr : m.isExpr = true) :
        (checkExpr m).Within (Node.places [e]) ∧ m.pos ∈ Node.places [e] :=
      ⟨(ih m hm hexpr).mono (Node.places_of_child hm),
        Node.places_of_child hm (Node.pos_mem_places hexpr)⟩
    cases e with
    | lit value pos => cases value <;> exact within_pure _
    | ident id | dot base field => exact within_ofExcept _
    | assign target value =>
      obtain ⟨htarget, hpos⟩ := hpart (m := target) (by simp [Node.children])
        (Bool.and_eq_true_iff.mp h).1
      obtain ⟨hvalue, -⟩ := hpart (m := value) (by simp [Node.children])
        (Bool.and_eq_true_iff.mp h).2
      exact htarget.bind fun _ => hvalue.bind fun _ => checkAssign_within hpos
    | call callee args =>
      have hexprs : ∀ arg ∈ args, arg.isExpr = true := Node.areExprs_iff.mp h
      have hcallee : callee.pos ∈ Node.places [.call callee args] :=
        Node.place_of_ident (by simp [Node.idents])
      refine (within_ofExcept _).bind fun _ => Check.Within.bind ?_ fun ts => ?_
      · exact checkExprs_within fun arg harg => (hpart harg (hexprs arg harg)).1
      · apply checkCall_within hcallee
        intro typed htyped
        obtain ⟨arg, harg, hpos⟩ := List.mem_map.mp (List.of_mem_zip htyped).1
        rw [← hpos]
        exact (hpart harg (hexprs arg harg)).2
    | unary op operand =>
      obtain ⟨hoperand, hpos⟩ := hpart (m := operand) (by simp [Node.children]) h
      exact hoperand.bind fun _ => checkUnary_within hpos
    | binary op left right =>
      obtain ⟨hleft, hpos⟩ := hpart (m := left) (by simp [Node.children])
        (Bool.and_eq_true_iff.mp h).1
      obtain ⟨hright, hpos'⟩ := hpart (m := right) (by simp [Node.children])
        (Bool.and_eq_true_iff.mp h).2
      rcases hop : binaryRule? op with _ | rule | _
      · simp only [checkExpr, hop]
        exact within_stop _
      · have hrule : rule.kind.isNaming = false := by
          rcases binaryRule?_uniform_iff.mp hop with ⟨-, rfl⟩ | ⟨-, rfl⟩ | ⟨-, rfl⟩ <;> rfl
        simp only [checkExpr, hop]
        exact hleft.bind fun _ => (checkOperand_within hrule hpos).bind fun _ =>
          hright.bind fun _ => (checkOperand_within hrule hpos').bind fun _ => within_pure _
      · simp only [checkExpr, hop]
        exact hleft.bind fun _ => hright.bind fun _ => checkEquality_within hpos hpos'
    | _ => cases h

private theorem checkStmts_within {expected : Option Ty} {places : List Pos} {ss : List Node}
    (ih : ∀ s ∈ ss, (checkStmt expected s).Within places) :
    (checkStmts expected ss).Within places := by
  induction ss with
  | nil => exact within_pure _
  | cons s ss ihss =>
    rw [List.forall_mem_cons] at ih
    exact ih.1.bind fun _ => (ihss ih.2).bind fun _ => within_pure _

theorem checkStmt_within (expected : Option Ty) (s : Node) (h : s.isShapedStmt = true) :
    (checkStmt expected s).Within (Node.places [s]) := by
  induction s using Node.induct with
  | step s ih =>
    have hpart {e : Node} (he : e ∈ s.children) (hexpr : e.isExpr = true) :
        (checkExpr e).Within (Node.places [s]) ∧ e.pos ∈ Node.places [s] :=
      ⟨(checkExpr_within e hexpr).mono (Node.places_of_child he),
        Node.places_of_child he (Node.pos_mem_places hexpr)⟩
    have hbody (ss : List Node) (hss : ∀ m ∈ ss, m ∈ s.children)
        (hshaped : Node.areShapedStmts ss = true) :
        (checkStmts expected ss).Within (Node.places [s]) := by
      apply checkStmts_within
      intro m hm
      exact (ih m (hss m hm) (Node.areShapedStmts_iff.mp hshaped m hm)).mono
        (Node.places_of_child (hss m hm))
    cases s with
    | assignStmt e | callStmt e =>
      exact (hpart (e := e) (by simp [Node.children]) h).1.bind fun _ => within_pure _
    | stepStmt op e =>
      obtain ⟨he, hpos⟩ := hpart (e := e) (by simp [Node.children]) h
      exact he.bind fun _ => checkStep_within hpos
    | readStmt e =>
      obtain ⟨he, hpos⟩ := hpart (e := e) (by simp [Node.children]) h
      exact he.bind fun _ => checkTransfer_within readBan?_isNaming hpos
    | writeStmt e =>
      obtain ⟨he, hpos⟩ := hpart (e := e) (by simp [Node.children]) h
      exact he.bind fun _ => checkTransfer_within writeBan?_isNaming hpos
    | ifStmt cond decls stmts | whileStmt cond decls stmts =>
      simp only [Node.isShapedStmt, Bool.and_eq_true] at h
      obtain ⟨hcond, hpos⟩ := hpart (e := cond) (by simp [Node.children]) h.1.1
      have hstmts := hbody stmts (by simp +contextual [Node.children]) h.2
      exact hcond.bind fun _ => (checkCondition_within _ hpos).bind fun _ =>
        hstmts.bind fun _ => within_pure _
    | ifElseStmt cond ds ss ds' ss' =>
      simp only [Node.isShapedStmt, Bool.and_eq_true] at h
      obtain ⟨⟨⟨⟨hexpr, -⟩, hthen⟩, -⟩, helse⟩ := h
      obtain ⟨hcond, hpos⟩ := hpart (e := cond) (by simp [Node.children]) hexpr
      have hss := hbody ss (by simp +contextual [Node.children]) hthen
      have hss' := hbody ss' (by simp +contextual [Node.children]) helse
      exact hcond.bind fun _ => (checkCondition_within _ hpos).bind fun _ =>
        hss.bind fun _ => hss'.bind fun _ => within_pure _
    | returnStmt value pos =>
      by_cases hvalue : value = .missing
      · subst hvalue
        exact checkBareReturn_within expected (Node.place_of_self rfl)
      · rw [Node.isShapedStmt_return hvalue] at h
        obtain ⟨hexpr, hpos⟩ := hpart (e := value) (by simp [Node.children]) h
        rw [checkStmt_return hvalue]
        exact hexpr.bind fun _ => checkReturn_within expected hpos
    | _ => cases h

theorem checkDecl_within (expected : Option Ty) {d : Node} (h : d.isShapedDecl = true) :
    (checkDecl expected d).check.Within (Node.places [d]) := by
  cases d with
  | fnDecl type id formals decls stmts =>
    simp only [Node.isShapedDecl, Bool.and_eq_true, Node.areShapedStmts_iff] at h
    cases hresult : returnType? type id with
    | none =>
      simp only [checkDecl, hresult]
      exact within_stop _
    | some result =>
      have hid : id.pos ∈ Node.places [.fnDecl type id formals decls stmts] :=
        Node.place_of_ident (by simp [Node.idents])
      have hstmts : (checkStmts (some result) stmts).Within
          (Node.places [.fnDecl type id formals decls stmts]) := by
        apply checkStmts_within
        intro s hs
        exact (checkStmt_within _ s (h.2 s hs)).mono
          (Node.places_of_child (by simp [Node.children, hs]))
      have hfunction : (checkFunction result id stmts).Within
          (Node.places [.fnDecl type id formals decls stmts]) :=
        hstmts.bind fun _ => within_ite (within_blame hid rfl) (within_pure _)
      rw [checkDecl_function _ _ _ _ hresult]
      exact hfunction
  | varDecl type id | formalDecl type id | structDecl id decls => exact within_pure _
  | _ => cases h

private theorem checkDecls_within (expected : Option Ty) {places : List Pos} {ds : List Node}
    (h : ∀ d ∈ ds, ∀ expected, (checkDecl expected d).check.Within places) :
    (checkDecls expected ds).check.Within places := by
  induction ds generalizing expected with
  | nil => exact within_pure _
  | cons d ds ih =>
    rw [List.forall_mem_cons] at h
    have hfirst := h.1 expected
    simp only [checkDecls]
    split
    · exact hfirst
    · exact hfirst.bind fun _ => (ih _ h.2).bind fun _ => within_pure _

/-- A well-shaped program is blamed at its own places, for what concerns types. -/
theorem checkProgram_within (expected : Option Ty) {program : Program}
    (h : ∀ d ∈ program, d.isShapedDecl = true) :
    (checkProgram expected program).check.Within (Node.places program) := by
  have hdecls : (checkDecls expected program).check.Within (Node.places program) := by
    apply checkDecls_within
    intro d hd expected
    exact (checkDecl_within expected (h d hd)).mono (Node.places_of_mem hd)
  exact hdecls

end Sema
