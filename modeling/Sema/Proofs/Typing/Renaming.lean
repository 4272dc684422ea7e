import Sema.Proofs.Tree.Renaming
import Sema.Proofs.Typing.Decision

/-!
# Type analysis commutes with renaming

The type of a renamed expression is the renamed type, and the complaints are the same: they quote no
names. What statements and declarations come to has no names in it at all.
-/

namespace Sema

open Check

namespace Ty

mutual

def rename (r : Renaming) : Ty → Ty
  | .structName name => .structName (r name)
  | .structVar name => .structVar (r name)
  | .function params result => .function (renameAll r params) (renameResult r result)
  | .int => .int
  | .bool => .bool
  | .void => .void
  | .string => .string
  | .error => .error
  | .success => .success
  | .unspecified => .unspecified

def renameAll (r : Renaming) : List Ty → List Ty
  | [] => []
  | t :: ts => t.rename r :: renameAll r ts

def renameResult (r : Renaming) : Option Ty → Option Ty
  | none => none
  | some t => some (t.rename r)

end

variable (r : Renaming)

mutual

@[simp] theorem rename_inj (t u : Ty) : t.rename r = u.rename r ↔ t = u := by
  cases t with
  | function params result =>
    cases u <;> simp [rename, renameAll_inj params, renameResult_inj result]
  | _ => cases u <;> simp [rename]

theorem renameAll_inj (ts us : List Ty) : renameAll r ts = renameAll r us ↔ ts = us := by
  cases ts with
  | nil => cases us <;> simp [renameAll]
  | cons t ts => cases us <;> simp [renameAll, rename_inj t, renameAll_inj ts]

theorem renameResult_inj (t u : Option Ty) : renameResult r t = renameResult r u ↔ t = u := by
  cases t with
  | none => cases u <;> simp [renameResult]
  | some t => cases u <;> simp [renameResult, rename_inj t]

end

theorem renameAll_eq_map (ts : List Ty) : renameAll r ts = ts.map (rename r) := by
  induction ts with
  | nil => rfl
  | cons t ts ih => rw [renameAll, ih, List.map_cons]

@[simp] theorem isError_rename (t : Ty) : (t.rename r).isError = t.isError := by
  cases t <;> simp [rename, isError]

@[simp] theorem comparisonBan?_rename (t : Ty) :
    (t.rename r).comparisonBan? = t.comparisonBan? := by
  cases t <;> simp [rename, comparisonBan?]

theorem ofName_rename (name : String) : ofName (r name) = (ofName name).rename r := by
  have hint : r name = "int" ↔ name = "int" := r.apply_eq_text .int
  have hbool : r name = "bool" ↔ name = "bool" := r.apply_eq_text .bool
  have hvoid : r name = "void" ↔ name = "void" := r.apply_eq_text .void
  simp only [ofName, hint, hbool, hvoid]
  split
  · rfl
  · split
    · rfl
    · split <;> rfl

end Ty

@[simp] theorem compatible_rename (r : Renaming) (t u : Ty) :
    (t.rename r).compatible (u.rename r) = t.compatible u := by
  have hsame : (t.rename r == u.rename r) = (t == u) := by
    rw [Bool.eq_iff_iff, beq_iff_eq, beq_iff_eq, Ty.rename_inj]
  rw [Ty.compatible, Ty.compatible, Ty.isError_rename, Ty.isError_rename, hsame]

section Symbols

variable (r : Renaming)

theorem Symbol.type_rename (s : Symbol) : (s.rename r).type = s.type.map (Ty.rename r) := by
  cases s with
  | structDecl name fields =>
    rw [Symbol.rename_structDecl]
    simp [Symbol.type, Except.map, Ty.rename]
  | _ =>
    simp [Symbol.rename, Symbol.type, Except.map, Ty.rename, Ty.ofName_rename, Ty.renameResult,
      Ty.renameAll_eq_map]

theorem Ident.type_rename (id : Ident) : (id.rename r).type = id.type.map (Ty.rename r) := by
  obtain ⟨name, pos, _ | s⟩ := id
  · rfl
  · exact Symbol.type_rename r s

end Symbols

section Operators

variable (r : Renaming) {rule : OperandRule}

/-- The types an operator asks for and yields have no names in them. -/
def OperandRule.Fixed (r : Renaming) (rule : OperandRule) : Prop :=
  rule.required.rename r = rule.required ∧ rule.result.rename r = rule.result

theorem unaryRule?_fixed {op : String} (h : unaryRule? op = some rule) : rule.Fixed r := by
  unfold unaryRule? at h
  split at h
  · cases h
    exact ⟨rfl, rfl⟩
  · split at h
    · cases h
      exact ⟨rfl, rfl⟩
    · cases h

theorem binaryRule?_fixed {op : String} (h : binaryRule? op = some (.uniform rule)) :
    rule.Fixed r := by
  obtain ⟨-, rfl⟩ | ⟨-, rfl⟩ | ⟨-, rfl⟩ := binaryRule?_uniform_iff.mp h <;> exact ⟨rfl, rfl⟩

variable {r} in
theorem OperandRule.Fixed.eq_required (h : rule.Fixed r) {t : Ty} :
    t.rename r = rule.required ↔ t = rule.required := by
  rw [← h.1, Ty.rename_inj, h.1]

end Operators

section Expressions

variable (r : Renaming)

@[simp] theorem map_returned {α β : Type} (f : α → β) (rs : List Diagnostic) (a : α) :
    f <$> (⟨rs, .ok a⟩ : Check α) = ⟨rs, .ok (f a)⟩ := by
  rw [map_eq_pure_bind, bind_ok, pure_def, List.append_nil]

theorem ofExcept_map {α β : Type} (f : α → β) (outcome : Except Fault α) :
    ofExcept (outcome.map f) = f <$> ofExcept outcome := by
  cases outcome <;> rfl

theorem checkOperand_rename {rule : OperandRule} (hrule : rule.Fixed r) (pos : Pos) (t : Ty) :
    checkOperand rule pos (t.rename r) = checkOperand rule pos t := by
  simp only [checkOperand, Ty.isError_rename, hrule.eq_required]

theorem checkUnary_rename (op : String) (pos : Pos) (t : Ty) :
    checkUnary op pos (t.rename r) = Ty.rename r <$> checkUnary op pos t := by
  rw [checkUnary, checkUnary, Ty.isError_rename]
  cases t.isError with
  | true => rfl
  | false =>
    cases hrule : unaryRule? op with
    | none => rfl
    | some rule =>
      have hfixed := unaryRule?_fixed r hrule
      simp only [hfixed.eq_required]
      by_cases ht : t = rule.required
      · simp [ht, hfixed.2]
      · simp [ht, blame, blameFor, Ty.rename]

theorem checkEquality_rename (leftPos rightPos : Pos) (left right : Ty) :
    checkEquality leftPos rightPos (left.rename r) (right.rename r) =
      Ty.rename r <$> checkEquality leftPos rightPos left right := by
  simp only [checkEquality, Ty.isError_rename, Ty.comparisonBan?_rename, Ty.rename_inj]
  cases left.isError || right.isError with
  | true => rfl
  | false =>
    cases left.comparisonBan? with
    | some words => rfl
    | none =>
      cases right.comparisonBan? with
      | some words => rfl
      | none => by_cases h : left = right <;> simp [h, blame, blameFor, Ty.rename]

theorem checkAssign_rename (pos : Pos) (target value : Ty) :
    checkAssign pos (target.rename r) (value.rename r) =
      Ty.rename r <$> checkAssign pos target value := by
  have hmatch :
      (if target.rename r = value.rename r then return target.rename r
        else blame .assignmentMismatch pos : Check Ty) =
      Ty.rename r <$> (if target = value then return target
        else blame .assignmentMismatch pos) := by
    by_cases h : target = value <;> simp [h, blame, blameFor, Ty.rename]
  unfold checkAssign
  rw [Ty.isError_rename, Ty.isError_rename]
  cases target.isError || value.isError with
  | true => rfl
  | false =>
    cases target with
    | function params result => rfl
    | structName name => rfl
    | _ => exact hmatch

theorem checkArgs_rename (args : List (Pos × Ty)) (formals : List Ty) :
    checkArgs (args.map (Prod.map id (Ty.rename r))) (formals.map (Ty.rename r)) =
      checkArgs args formals := by
  induction args generalizing formals with
  | nil => rfl
  | cons arg args ih =>
    cases formals with
    | nil => rfl
    | cons formal formals =>
      simp only [List.map_cons, Prod.map_fst, Prod.map_snd, id_eq, checkArgs, compatible_rename, ih]

theorem checkCall_rename (pos : Pos) (callee : Ty) (args : List (Pos × Ty)) :
    checkCall pos (callee.rename r) (args.map (Prod.map id (Ty.rename r))) =
      Ty.rename r <$> checkCall pos callee args := by
  cases callee with
  | function formals result =>
    have hresult : (Ty.renameResult r result).getD .unspecified =
        (result.getD .unspecified).rename r := by
      cases result <;> rfl
    simp only [Ty.rename, checkCall, Ty.renameAll_eq_map, List.length_map, checkArgs_rename,
      hresult]
    split <;> simp only [map_bind, map_pure]
  | _ => rfl

private theorem map_pos_renameAll (ns : List Node) :
    (Node.renameAll r ns).map Node.pos = ns.map Node.pos := by
  have hsame : Node.pos ∘ Node.rename r = Node.pos := funext fun n => Node.pos_rename r n
  simp only [Node.relabelAll_eq_map, List.map_map, hsame]

private theorem checkExprs_rename {es : List Node}
    (ih : ∀ e ∈ es, checkExpr (e.rename r) = Ty.rename r <$> checkExpr e) :
    checkExprs (Node.renameAll r es) = List.map (Ty.rename r) <$> checkExprs es := by
  induction es with
  | nil => rfl
  | cons e es ihes =>
    rw [List.forall_mem_cons] at ih
    simp only [Node.relabelAll, checkExprs, ih.1, ihes ih.2]
    simp only [bind_map_left, map_bind, map_pure, List.map_cons]

/-- The type of a renamed expression is the renamed type, with the same complaints. -/
theorem checkExpr_rename (e : Node) : checkExpr (e.rename r) = Ty.rename r <$> checkExpr e := by
  induction e using Node.induct with
  | step e ih =>
    cases e with
    | lit value pos => cases value <;> rfl
    | ident id | dot base id =>
      change ofExcept (id.rename r).type = Ty.rename r <$> ofExcept id.type
      rw [Ident.type_rename, ofExcept_map]
    | assign target value =>
      have htarget := ih target (by simp [Node.children])
      have hvalue := ih value (by simp [Node.children])
      change checkExpr (.assign (target.rename r) (value.rename r)) = _
      simp only [checkExpr, htarget, hvalue, Node.pos_rename, bind_map_left, map_bind,
        checkAssign_rename]
    | call callee args =>
      have hargs : checkExprs (Node.renameAll r args) =
          List.map (Ty.rename r) <$> checkExprs args := checkExprs_rename r ih
      have hpos : (callee.rename r).pos = callee.pos := rfl
      change checkExpr (.call (callee.rename r) (Node.renameAll r args)) = _
      simp only [checkExpr, Ident.type_rename, ofExcept_map, hargs, hpos,
        map_pos_renameAll, bind_map_left, map_bind, List.zip_map_right, checkCall_rename]
    | unary op operand =>
      have hoperand := ih operand (by simp [Node.children])
      change checkExpr (.unary op (operand.rename r)) = _
      simp only [checkExpr, hoperand, Node.pos_rename, bind_map_left, map_bind, checkUnary_rename]
    | binary op left right =>
      have hleft := ih left (by simp [Node.children])
      have hright := ih right (by simp [Node.children])
      change checkExpr (.binary op (left.rename r) (right.rename r)) = _
      rw [checkExpr, checkExpr]
      cases hrule : binaryRule? op with
      | none =>
        simp only [Node.pos_rename]
        rfl
      | some rule =>
        cases rule with
        | equality =>
          simp only [hleft, hright, Node.pos_rename, bind_map_left, map_bind, checkEquality_rename]
        | uniform rule =>
          have hfixed := binaryRule?_fixed r hrule
          have hresult (fits : Bool) : (if fits then rule.result else .error).rename r =
              if fits then rule.result else .error := by
            cases fits
            · rfl
            · exact hfixed.2
          simp only [hleft, hright, Node.pos_rename, bind_map_left, map_bind, map_pure,
            checkOperand_rename r hfixed, hresult]
    | _ =>
      change stop (Fault.unexpected _ (Node.rename r _)) = _
      rw [Fault.unexpected, Node.label_relabel, Node.pos_rename]
      rfl

end Expressions

section Statements

variable (r : Renaming)

theorem checkEffect_rename (t : Ty) : checkEffect (t.rename r) = checkEffect t := by
  rw [checkEffect, checkEffect, Ty.isError_rename]

theorem checkStep_rename (pos : Pos) (t : Ty) : checkStep pos (t.rename r) = checkStep pos t := by
  have hint : t.rename r = .int ↔ t = .int := Ty.rename_inj r t .int
  simp only [checkStep, Ty.isError_rename, hint]

theorem checkTransfer_rename {ban? : Ty → Option DiagnosticKind}
    (hban : ∀ t : Ty, ban? (t.rename r) = ban? t) (pos : Pos) (t : Ty) :
    checkTransfer ban? pos (t.rename r) = checkTransfer ban? pos t := by
  rw [checkTransfer, checkTransfer, Ty.isError_rename, hban]

theorem readBan?_rename (t : Ty) : readBan? (t.rename r) = readBan? t := by
  cases t <;> simp [Ty.rename, readBan?]

theorem writeBan?_rename (t : Ty) : writeBan? (t.rename r) = writeBan? t := by
  cases t <;> simp [Ty.rename, writeBan?]

theorem checkCondition_rename (c : Conditional) (pos : Pos) (t : Ty) :
    checkCondition c pos (t.rename r) = checkCondition c pos t := by
  have hbool : t.rename r = .bool ↔ t = .bool := Ty.rename_inj r t .bool
  simp only [checkCondition, Ty.isError_rename, hbool]

private theorem map_rename_eq (expected : Option Ty) (t : Ty) :
    expected.map (Ty.rename r) = some (t.rename r) ↔ expected = some t := by
  cases expected <;> simp

theorem checkBareReturn_rename (expected : Option Ty) (pos : Pos) :
    checkBareReturn (expected.map (Ty.rename r)) pos = checkBareReturn expected pos := by
  have hvoid : expected.map (Ty.rename r) = some .void ↔ expected = some .void :=
    map_rename_eq r expected .void
  simp only [checkBareReturn, hvoid]

theorem checkReturn_rename (expected : Option Ty) (pos : Pos) (t : Ty) :
    checkReturn (expected.map (Ty.rename r)) pos (t.rename r) = checkReturn expected pos t := by
  have hvoid : expected.map (Ty.rename r) = some .void ↔ expected = some .void :=
    map_rename_eq r expected .void
  simp only [checkReturn, hvoid, Ty.isError_rename, map_rename_eq]

private theorem checkStmts_rename {expected : Option Ty} {ss : List Node}
    (ih : ∀ s ∈ ss, checkStmt (expected.map (Ty.rename r)) (s.rename r) = checkStmt expected s) :
    checkStmts (expected.map (Ty.rename r)) (Node.renameAll r ss) = checkStmts expected ss := by
  induction ss with
  | nil => rfl
  | cons s ss ihss =>
    rw [List.forall_mem_cons] at ih
    simp only [Node.relabelAll, checkStmts, ih.1, ihss ih.2]

theorem checkStmt_rename (expected : Option Ty) (n : Node) :
    checkStmt (expected.map (Ty.rename r)) (n.rename r) = checkStmt expected n := by
  induction n using Node.induct with
  | step n ih =>
    cases n with
    | assignStmt e | callStmt e =>
      change checkExpr (e.rename r) >>= checkEffect = checkExpr e >>= checkEffect
      simp only [checkExpr_rename, bind_map_left, checkEffect_rename]
    | stepStmt op e =>
      change checkStmt _ (.stepStmt op (e.rename r)) = _
      simp only [checkStmt, checkExpr_rename, bind_map_left, checkStep_rename, Node.pos_rename]
    | readStmt e =>
      change checkStmt _ (.readStmt (e.rename r)) = _
      simp only [checkStmt, checkExpr_rename, bind_map_left, Node.pos_rename,
        checkTransfer_rename r (readBan?_rename r)]
    | writeStmt e =>
      change checkStmt _ (.writeStmt (e.rename r)) = _
      simp only [checkStmt, checkExpr_rename, bind_map_left, Node.pos_rename,
        checkTransfer_rename r (writeBan?_rename r)]
    | ifStmt cond ds ss =>
      simp only [Node.children, List.forall_mem_cons, List.forall_mem_append] at ih
      have hbody := checkStmts_rename r ih.2.2
      change checkStmt _ (.ifStmt (cond.rename r) (Node.renameAll r ds) (Node.renameAll r ss)) = _
      simp only [checkStmt, checkExpr_rename, bind_map_left, Node.pos_rename, checkCondition_rename,
        hbody]
    | whileStmt cond ds ss =>
      simp only [Node.children, List.forall_mem_cons, List.forall_mem_append] at ih
      have hbody := checkStmts_rename r ih.2.2
      change checkStmt _
        (.whileStmt (cond.rename r) (Node.renameAll r ds) (Node.renameAll r ss)) = _
      simp only [checkStmt, checkExpr_rename, bind_map_left, Node.pos_rename, checkCondition_rename,
        hbody]
    | ifElseStmt cond ds ss ds' ss' =>
      simp only [Node.children, List.forall_mem_cons, List.forall_mem_append] at ih
      obtain ⟨-, -, ihss, -, ihss'⟩ := ih
      have hthen := checkStmts_rename r ihss
      have helse := checkStmts_rename r ihss'
      change checkStmt _ (.ifElseStmt (cond.rename r) (Node.renameAll r ds) (Node.renameAll r ss)
        (Node.renameAll r ds') (Node.renameAll r ss')) = _
      simp only [checkStmt, checkExpr_rename, bind_map_left, Node.pos_rename, checkCondition_rename,
        hthen, helse]
    | returnStmt value pos =>
      by_cases hvalue : value = .missing
      · subst hvalue
        exact checkBareReturn_rename r expected pos
      · have hvalue' : value.rename r ≠ .missing := mt Node.eq_missing_of_relabel hvalue
        change checkStmt _ (.returnStmt (value.rename r) pos) = _
        rw [checkStmt_return hvalue, checkStmt_return hvalue']
        simp only [checkExpr_rename, bind_map_left, Node.pos_rename, checkReturn_rename]
    | _ =>
      change stop (Fault.unexpected _ (Node.rename r _)) = _
      rw [Fault.unexpected, Node.label_relabel, Node.pos_rename]
      rfl

end Statements

section Declarations

variable (r : Renaming)

theorem returnType?_rename (type : Node) (id : Ident) :
    returnType? (type.rename r) (id.rename r) = (returnType? type id).map (Ty.rename r) := by
  have hwritten : (type.rename r).typeName?.map Ty.ofName =
      (type.typeName?.map Ty.ofName).map (Ty.rename r) := by
    rw [Node.typeName?_rename]
    cases type.typeName? with
    | none => rfl
    | some name => exact congrArg some (Ty.ofName_rename r name)
  obtain ⟨name, pos, _ | s⟩ := id
  · exact hwritten
  · cases s with
    | function params result =>
      simp only [returnType?, Ident.rename, Option.map_some, Symbol.rename, Ty.ofName_rename]
    | structDecl struct fields =>
      simp only [returnType?, Ident.rename, Option.map_some, Symbol.rename_structDecl]
      exact hwritten
    | _ =>
      simp only [returnType?, Ident.rename, Option.map_some, Symbol.rename]
      exact hwritten

theorem checkFunction_rename (result : Ty) (id : Ident) (stmts : List Node) :
    checkFunction (result.rename r) (id.rename r) (Node.renameAll r stmts) =
      checkFunction result id stmts := by
  have hstmts : ∀ s ∈ stmts, checkStmt ((some result).map (Ty.rename r)) (s.rename r) =
      checkStmt (some result) s := fun s _ => checkStmt_rename r (some result) s
  have hbody := checkStmts_rename r hstmts
  have hreturn : (Node.renameAll r stmts).any Node.isReturn = stmts.any Node.isReturn := by
    have hsame : Node.isReturn ∘ Node.rename r = Node.isReturn :=
      funext fun s => Node.isReturn_relabel s
    simp only [Node.relabelAll_eq_map, List.any_map, hsame]
  have hvoid : result.rename r = .void ↔ result = .void := Ty.rename_inj r result .void
  rw [Option.map_some] at hbody
  simp only [checkFunction, hbody, hreturn, ne_eq, hvoid]
  rfl

theorem checkDecl_rename (expected : Option Ty) (d : Node) :
    checkDecl (expected.map (Ty.rename r)) (d.rename r) =
      ⟨(checkDecl expected d).check, (checkDecl expected d).expected.map (Ty.rename r)⟩ := by
  cases d with
  | fnDecl type id formals decls stmts =>
    change checkDecl _ (.fnDecl (type.rename r) (id.rename r) (Node.renameAll r formals)
      (Node.renameAll r decls) (Node.renameAll r stmts)) = _
    rw [checkDecl, checkDecl, returnType?_rename]
    cases returnType? type id with
    | none => rfl
    | some result =>
      simp only [Option.map_some, checkFunction_rename]
      cases (checkFunction result id stmts).outcome <;> rfl
  | varDecl _ _ | formalDecl _ _ | structDecl _ _ => rfl
  | _ =>
    change DeclCheck.mk (stop (Fault.unexpected _ (Node.rename r _))) _ = _
    rw [Fault.unexpected, Node.label_relabel, Node.pos_rename]
    rfl

theorem checkDecls_rename (expected : Option Ty) (ds : List Node) :
    checkDecls (expected.map (Ty.rename r)) (Node.renameAll r ds) =
      ⟨(checkDecls expected ds).check, (checkDecls expected ds).expected.map (Ty.rename r)⟩ := by
  induction ds generalizing expected with
  | nil => rfl
  | cons d ds ih =>
    rw [Node.renameAll, Node.relabelAll, checkDecls, checkDecls, checkDecl_rename]
    cases houtcome : (checkDecl expected d).check.outcome with
    | error why => rfl
    | ok t => simp only [ih]

/-- A renamed program comes to the same, with the same complaints. -/
theorem checkProgram_rename (expected : Option Ty) (program : Program) :
    (checkProgram (expected.map (Ty.rename r)) (Node.renameAll r program)).check =
      (checkProgram expected program).check := by
  simp only [checkProgram, checkDecls_rename]

end Declarations

end Sema
