import Sema.Proofs.Tree.Context
import Sema.Proofs.Typing.Agreement

/-!
# The error type absorbs

Whatever is built around an expression, giving it the error type takes complaints away and adds
none.
-/

namespace Sema

open Check

/-- What is done with a type complains no more about the error type than about any other, and comes
to an error or to what it would come to anyway. -/
def Absorbing (k : Ty → Check Ty) : Prop :=
  ∀ t rs r, k t = ⟨rs, .ok r⟩ →
    ∃ rs' r', k .error = ⟨rs', .ok r'⟩ ∧ rs'.Sublist rs ∧ (r' = .error ∨ r' = r)

namespace Absorbing

variable {k k' : Ty → Check Ty}

theorem of_silent (h : k .error = ⟨[], .ok .error⟩) : Absorbing k := by
  intro t rs r _
  exact ⟨[], .error, h, List.nil_sublist rs, .inl rfl⟩

theorem of_const (h : ∀ t, k .error = k t) : Absorbing k := by
  intro t rs r hk
  exact ⟨rs, r, (h t).trans hk, List.Sublist.refl rs, .inr rfl⟩

theorem bind (h : Absorbing k) (h' : Absorbing k') : Absorbing fun t => k t >>= k' := by
  intro t rs r hk
  obtain ⟨r₁, rs₁, rs₂, hfirst, hsecond, rfl⟩ := bind_eq_returned.mp hk
  obtain ⟨rs₁', r₁', hfirst', hsub, hr₁⟩ := h t rs₁ r₁ hfirst
  rcases hr₁ with rfl | rfl
  · obtain ⟨rs₂', r', hsecond', hsub', hr⟩ := h' r₁ rs₂ r hsecond
    exact ⟨rs₁' ++ rs₂', r', bind_eq_returned.mpr ⟨_, _, _, hfirst', hsecond', rfl⟩,
      hsub.append hsub', hr⟩
  · exact ⟨rs₁' ++ rs₂, r, bind_eq_returned.mpr ⟨_, _, _, hfirst', hsecond, rfl⟩,
      hsub.append (List.Sublist.refl rs₂), .inr rfl⟩

/-- Checks that come in between report what they report. -/
theorem after {β : Type} {c : Check β} {k : β → Ty → Check Ty} (h : ∀ b, Absorbing (k b)) :
    Absorbing fun t => c >>= fun b => k b t := by
  intro t rs r hk
  obtain ⟨b, rs₁, rs₂, hc, hrest, rfl⟩ := bind_eq_returned.mp hk
  obtain ⟨rs₂', r', hrest', hsub, hr⟩ := h b t rs₂ r hrest
  exact ⟨rs₁ ++ rs₂', r', bind_eq_returned.mpr ⟨_, _, _, hc, hrest', rfl⟩,
    (List.Sublist.refl rs₁).append hsub, hr⟩

end Absorbing

section Steps

variable {pos pos' : Pos} {t : Ty}

theorem absorbing_unary (op : String) : Absorbing (checkUnary op pos) := .of_silent rfl

theorem absorbing_assignTarget : Absorbing fun target => checkAssign pos target t :=
  .of_silent rfl

theorem absorbing_assignValue : Absorbing (checkAssign pos t) := by
  apply Absorbing.of_silent
  simp [checkAssign, Ty.isError]

theorem absorbing_equalityLeft : Absorbing fun left => checkEquality pos pos' left t :=
  .of_silent rfl

theorem absorbing_equalityRight : Absorbing (checkEquality pos pos' t) := by
  apply Absorbing.of_silent
  simp [checkEquality, Ty.isError]

/-- A left operand that is an error does not pass, and the right one is looked at all the same. -/
theorem absorbing_operandLeft (rule : OperandRule) (right : Check Bool) :
    Absorbing fun left => do
      let leftFits ← checkOperand rule pos left
      let rightFits ← right
      return if leftFits && rightFits then rule.result else .error := by
  intro left rs r hk
  obtain ⟨leftFits, rs₁, rs₂, hleft, hrest, rfl⟩ := bind_eq_returned.mp hk
  obtain ⟨rightFits, rs₃, rs₄, hright, hresult, rfl⟩ := bind_eq_returned.mp hrest
  cases hresult
  refine ⟨rs₃, .error, ?_, ?_, .inl rfl⟩
  · simp [checkOperand, Ty.isError, hright]
  · rw [List.append_nil]
    exact List.sublist_append_right rs₁ rs₃

theorem absorbing_operandRight (rule : OperandRule) (leftFits : Bool) :
    Absorbing fun right => do
      let rightFits ← checkOperand rule pos right
      return if leftFits && rightFits then rule.result else .error := by
  apply Absorbing.of_silent
  simp [checkOperand, Ty.isError]

theorem checkArgs_returns (args : List (Pos × Ty)) (formals : List Ty) :
    ∃ rs, checkArgs args formals = ⟨rs, .ok ()⟩ := by
  induction args generalizing formals with
  | nil => exact ⟨[], rfl⟩
  | cons arg args ih =>
    cases formals with
    | nil => exact ⟨[], rfl⟩
    | cons formal formals =>
      obtain ⟨rs, hrest⟩ := ih formals
      rw [checkArgs, hrest]
      by_cases hfits : arg.2.compatible formal = true
      · exact ⟨rs, by simp [hfits]⟩
      · exact ⟨.ofKind .argumentMismatch arg.1 :: rs, by simp [hfits, report]⟩

/-- An argument that is an error fits any parameter, and the others are judged as before. -/
theorem checkArgs_error (pos : Pos) (t : Ty) (xs ys : List (Pos × Ty)) (formals : List Ty) :
    ((checkArgs (xs ++ (pos, .error) :: ys) formals).reports).Sublist
      (checkArgs (xs ++ (pos, t) :: ys) formals).reports := by
  induction xs generalizing formals with
  | nil =>
    cases formals with
    | nil => exact List.Sublist.refl _
    | cons formal formals =>
      obtain ⟨rs, hrest⟩ := checkArgs_returns ys formals
      have herror : Ty.error.compatible formal = true := rfl
      simp only [List.nil_append, checkArgs, hrest]
      by_cases hfits : t.compatible formal = true
      · simp [hfits, herror]
      · simp [hfits, herror, report]
  | cons x xs ih =>
    cases formals with
    | nil => exact List.Sublist.refl _
    | cons formal formals =>
      have hrest := ih formals
      simp only [List.cons_append, checkArgs]
      by_cases hfits : x.2.compatible formal = true
      · simpa [hfits] using hrest
      · simpa [hfits, report] using hrest

theorem absorbing_call (callee : Ty) (xs ys : List (Pos × Ty)) :
    Absorbing fun actual => checkCall pos callee (xs ++ (pos', actual) :: ys) := by
  cases callee with
  | function formals result =>
    intro actual rs r hk
    by_cases hlen : (xs ++ (pos', actual) :: ys).length = formals.length
    · have hlen' : (xs ++ (pos', Ty.error) :: ys).length = formals.length := by
        simpa using hlen
      obtain ⟨rs₁, hargs⟩ := checkArgs_returns (xs ++ (pos', actual) :: ys) formals
      obtain ⟨rs₂, hargs'⟩ := checkArgs_returns (xs ++ (pos', .error) :: ys) formals
      have hsub := checkArgs_error pos' actual xs ys formals
      rw [hargs, hargs'] at hsub
      simp only [checkCall, if_pos hlen, hargs, bind_ok, pure_def, List.append_nil] at hk
      cases hk
      refine ⟨rs₂, _, ?_, hsub, .inr rfl⟩
      simp only [checkCall, if_pos hlen', hargs', bind_ok, pure_def, List.append_nil]
    · have hlen' : ¬ (xs ++ (pos', Ty.error) :: ys).length = formals.length := by
        simpa using hlen
      refine ⟨rs, r, ?_, List.Sublist.refl rs, .inr rfl⟩
      rw [← hk]
      simp only [checkCall, if_neg hlen, if_neg hlen']
  | _ => exact .of_const fun _ => rfl

theorem absorbing_effect : Absorbing checkEffect := .of_silent rfl

theorem absorbing_step : Absorbing (checkStep pos) := .of_silent rfl

theorem absorbing_transfer (ban? : Ty → Option DiagnosticKind) :
    Absorbing (checkTransfer ban? pos) :=
  .of_silent rfl

theorem absorbing_condition (c : Conditional) : Absorbing (checkCondition c pos) := .of_silent rfl

/-- A function without a result has no use even for an error. -/
theorem absorbing_return (expected : Option Ty) : Absorbing (checkReturn expected pos) := by
  by_cases hvoid : expected = some .void
  · apply Absorbing.of_const
    simp [checkReturn, hvoid]
  · apply Absorbing.of_silent
    simp [checkReturn, hvoid, Ty.isError]

theorem absorbing_all (before after : List Ty) :
    Absorbing fun t => return .all (before ++ t :: after) := by
  apply Absorbing.of_silent
  simp [Ty.all, Ty.isError]

end Steps

/-- The types of arguments, each with the position it is blamed at. -/
private def checkTyped (es : List Node) : Check (List (Pos × Ty)) := do
  return (es.map Node.pos).zip (← checkExprs es)

private theorem checkTyped_cons (e : Node) (es : List Node) :
    checkTyped (e :: es) = do
      let t ← checkExpr e
      let rest ← checkTyped es
      return (e.pos, t) :: rest := by
  simp [checkTyped, checkExprs]

private theorem checkTyped_middle (before after : List Node) (e : Node) :
    checkTyped (before ++ e :: after) = do
      let xs ← checkTyped before
      let t ← checkExpr e
      let ys ← checkTyped after
      return xs ++ (e.pos, t) :: ys := by
  induction before with
  | nil => simp [checkTyped, checkExprs]
  | cons b before ih => simp [checkTyped_cons, ih]

private theorem checkExpr_call (callee : Ident) (args : List Node) :
    checkExpr (.call callee args) = (do
      let f ← Check.ofExcept callee.type
      let args ← checkTyped args
      checkCall callee.pos f args) := by
  simp [checkExpr, checkTyped]

private theorem isError_all (results : List Ty) :
    (Ty.all results).isError = results.any Ty.isError := by
  cases h : results.any Ty.isError <;> simp [Ty.all, h, Ty.isError]

private theorem all_nested (t₁ t₂ t₃ t₄ : Ty) :
    Ty.all [t₁, .all [t₂, t₃, t₄]] = .all [.all [t₁, t₂], t₃, t₄] := by
  have hany : [t₁, .all [t₂, t₃, t₄]].any Ty.isError = [.all [t₁, t₂], t₃, t₄].any Ty.isError := by
    simp [isError_all, Bool.or_assoc]
  rw [Ty.all, hany, ← Ty.all]

private theorem checkStmts_middle (expected : Option Ty) (before after : List Node) (s : Node) :
    checkStmts expected (before ++ s :: after) = do
      let b ← checkStmts expected before
      let t ← checkStmt expected s
      let rest ← checkStmts expected after
      return .all [b, t, rest] := by
  induction before with
  | nil => simp [checkStmts, Ty.all, Ty.isError]
  | cons b before ih => simp [checkStmts, ih, all_nested]

/-- The type analysis of a part, where `expected` is to be returned. -/
def Part.check (expected : Option Ty) : Part → Node → Check Ty
  | .expr, n => checkExpr n
  | .stmt, n => checkStmt expected n
  | .decl, n => (checkDecl expected n).check

/-- What is to be returned inside the frame. -/
def Frame.expected {q p : Part} : Frame q p → Option Ty → Option Ty
  | .functionBody type id _ _ _ _, _ => returnType? type id
  | _, expected => expected

/-- Either the check of the whole never returns, or it makes some checks first, then that of the
part in its place, and does with the type of that part something that absorbs errors. -/
def Factors (whole part : Node → Check Ty) : Prop :=
  (∀ n, n ≠ .missing → ∀ t, (whole n).outcome ≠ .ok t) ∨
    ∃ (α : Type) (before : Check α) (k : Node → α → Ty → Check Ty),
      (∀ n a, Absorbing (k n a)) ∧ (∀ n m, n.Alike m → k n = k m) ∧
        ∀ n, n ≠ .missing → whole n = before >>= fun a => part n >>= k n a

private theorem eq_returned {α : Type} {c : Check α} {a : α} (h : c.outcome = .ok a) :
    c = ⟨c.reports, .ok a⟩ := by
  rw [← h]

namespace Factors

variable {whole part : Node → Check Ty}

theorem of_first (k : Pos → Ty → Check Ty) (habsorbing : ∀ pos, Absorbing (k pos))
    (h : ∀ n, n ≠ .missing → whole n = part n >>= k n.pos) : Factors whole part := by
  refine .inr ⟨Unit, return (), fun n _ => k n.pos, fun n _ => habsorbing n.pos, ?_, ?_⟩
  · intro n m halike
    simp only [halike.pos_eq]
  · intro n hn
    rw [h n hn, pure_bind]

theorem of_after {α : Type} (before : Check α) (k : Pos → α → Ty → Check Ty)
    (habsorbing : ∀ pos a, Absorbing (k pos a))
    (h : ∀ n, n ≠ .missing → whole n = before >>= fun a => part n >>= k n.pos a) :
    Factors whole part := by
  refine .inr ⟨α, before, fun n => k n.pos, fun n => habsorbing n.pos, ?_, h⟩
  intro n m halike
  simp only [halike.pos_eq]

theorem trans {part' : Node → Check Ty} {plug : Node → Node} (h : Factors whole part)
    (h' : Factors (fun n => part (plug n)) part') (hplug : ∀ n, n ≠ .missing → plug n ≠ .missing)
    (halike : ∀ n m, n.Alike m → (plug n).Alike (plug m)) :
    Factors (fun n => whole (plug n)) part' := by
  rcases h with hfails | ⟨α, before, k, hk, hcongr, hwhole⟩
  · exact .inl fun n hn => hfails (plug n) (hplug n hn)
  · rcases h' with hfails | ⟨α', before', k', hk', hcongr', hpart⟩
    · left
      intro n hn t ht
      have hreturned : whole (plug n) = ⟨(whole (plug n)).reports, .ok t⟩ := eq_returned ht
      rw [hwhole _ (hplug n hn)] at hreturned
      obtain ⟨a, _, _, -, hrest, -⟩ := bind_eq_returned.mp hreturned
      obtain ⟨t', _, _, hpart, -, -⟩ := bind_eq_returned.mp hrest
      exact hfails n hn t' (congrArg Check.outcome hpart)
    · refine .inr ⟨α × α', do return (← before, ← before'),
        fun n a t => k' n a.2 t >>= k (plug n) a.1, ?_, ?_, ?_⟩
      · exact fun n a => (hk' n a.2).bind (hk (plug n) a.1)
      · intro n m h
        simp only [hcongr' n m h, hcongr _ _ (halike n m h)]
      · intro n hn
        simp [hwhole (plug n) (hplug n hn), hpart n hn]

end Factors

section Frames

private theorem factors_binaryLeft (op : String) (right : Node) :
    Factors (fun n => checkExpr (.binary op n right)) checkExpr := by
  cases hrule : binaryRule? op with
  | none =>
    left
    intro n _ t ht
    simp [checkExpr, hrule, stop] at ht
  | some rule =>
    cases rule with
    | uniform rule =>
      apply Factors.of_first fun pos l => do
        let leftFits ← checkOperand rule pos l
        let rightFits ← checkExpr right >>= checkOperand rule right.pos
        return if leftFits && rightFits then rule.result else .error
      · intro pos
        exact absorbing_operandLeft rule _
      · intro n _
        simp [checkExpr, hrule]
    | equality =>
      apply Factors.of_first fun pos l => do
        let r ← checkExpr right
        checkEquality pos right.pos l r
      · intro pos
        exact .after fun r => absorbing_equalityLeft
      · intro n _
        simp [checkExpr, hrule]

private theorem factors_binaryRight (op : String) (left : Node) :
    Factors (fun n => checkExpr (.binary op left n)) checkExpr := by
  cases hrule : binaryRule? op with
  | none =>
    left
    intro n _ t ht
    simp [checkExpr, hrule, stop] at ht
  | some rule =>
    cases rule with
    | uniform rule =>
      apply Factors.of_after (checkExpr left >>= checkOperand rule left.pos) fun pos leftFits r => do
        let rightFits ← checkOperand rule pos r
        return if leftFits && rightFits then rule.result else .error
      · intro pos leftFits
        exact absorbing_operandRight rule leftFits
      · intro n _
        simp [checkExpr, hrule]
    | equality =>
      apply Factors.of_after (checkExpr left) fun pos l r => checkEquality left.pos pos l r
      · intro pos l
        exact absorbing_equalityRight
      · intro n _
        simp [checkExpr, hrule]

private theorem factors_argument (callee : Ident) (before after : List Node) :
    Factors (fun n => checkExpr (.call callee (before ++ n :: after))) checkExpr := by
  apply Factors.of_after (do return (← Check.ofExcept callee.type, ← checkTyped before))
    fun pos (f, xs) t => do
      let ys ← checkTyped after
      checkCall callee.pos f (xs ++ (pos, t) :: ys)
  · intro pos a
    exact .after fun ys => absorbing_call a.1 a.2 ys
  · intro n _
    simp [checkExpr_call, checkTyped_middle]

private theorem absorbing_block (expected : Option Ty) (b : Ty) (after : List Node) :
    Absorbing fun t => do
      let rest ← checkStmts expected after
      return .all [b, t, rest] :=
  .after fun rest => absorbing_all [b] [rest]

private theorem factors_block {expected : Option Ty} {whole : Node → Check Ty} {α : Type}
    (before after : List Node) (first : Check α) (last : α → Ty → Check Ty)
    (habsorbing : ∀ a, Absorbing (last a))
    (h : ∀ n, whole n = first >>= fun a => checkStmts expected (before ++ n :: after) >>= last a) :
    Factors whole (checkStmt expected) := by
  apply Factors.of_after (do return (← first, ← checkStmts expected before)) fun _ (a, b) t => do
    let body ← (do
      let rest ← checkStmts expected after
      return .all [b, t, rest])
    last a body
  · intro _ a
    exact (absorbing_block expected a.2 after).bind (habsorbing a.1)
  · intro n _
    simp [h, checkStmts_middle]

/-- Whether the body of a function has a return among its statements does not depend on what fills a
hole deeper inside. -/
private theorem factors_function (type : Node) (id : Ident) (formals decls before after : List Node)
    (expected : Option Ty) :
    Factors (fun n => (checkDecl expected
        (.fnDecl type id formals decls (before ++ n :: after))).check)
      (checkStmt (returnType? type id)) := by
  cases hresult : returnType? type id with
  | none =>
    left
    intro n _ t ht
    simp [checkDecl, hresult, stop] at ht
  | some result =>
    have hcheck (stmts : List Node) :
        (checkDecl expected (.fnDecl type id formals decls stmts)).check =
          checkFunction result id stmts := by
      simp only [checkDecl, hresult]
      split <;> rfl
    refine .inr ⟨Ty, checkStmts (some result) before, fun n b t => do
      let body ← (do
        let rest ← checkStmts (some result) after
        return .all [b, t, rest])
      if result ≠ .void ∧ ¬ (before ++ n :: after).any Node.isReturn then
        blame .missingReturn id.pos
      else return body, ?_, ?_, ?_⟩
    · intro n b
      apply (absorbing_block (some result) b after).bind
      by_cases hmissing : result ≠ .void ∧ ¬ (before ++ n :: after).any Node.isReturn
      · apply Absorbing.of_const
        simp only [if_pos hmissing, implies_true]
      · apply Absorbing.of_silent
        simp only [if_neg hmissing]
        rfl
    · intro n m halike
      simp only [List.any_append, List.any_cons, halike.isReturn_eq]
    · intro n _
      simp only [hcheck, checkFunction, checkStmts_middle, bind_assoc]

theorem Frame.factors {q p : Part} (F : Frame q p) (expected : Option Ty) :
    Factors (fun n => p.check expected (F.plug n)) (q.check (F.expected expected)) := by
  cases F with
  | assignTarget value =>
    apply Factors.of_first fun pos t => do
      let v ← checkExpr value
      checkAssign pos t v
    · intro pos
      exact .after fun v => absorbing_assignTarget
    · intro n _
      simp [plug, Part.check, checkExpr]
  | assignValue target =>
    apply Factors.of_after (checkExpr target) fun _ t v => checkAssign target.pos t v
    · intro _ t
      exact absorbing_assignValue
    · intro n _
      simp [plug, Part.check, checkExpr]
  | argument callee before after => exact factors_argument callee before after
  | unary op =>
    apply Factors.of_first (checkUnary op)
    · intro pos
      exact absorbing_unary op
    · intro n _
      simp [plug, Part.check, checkExpr]
  | binaryLeft op right => exact factors_binaryLeft op right
  | binaryRight op left => exact factors_binaryRight op left
  | assignStmt | callStmt =>
    apply Factors.of_first fun _ => checkEffect
    · intro _
      exact absorbing_effect
    · intro n _
      simp [plug, Part.check, checkStmt]
  | stepStmt op =>
    apply Factors.of_first checkStep
    · intro pos
      exact absorbing_step
    · intro n _
      simp [plug, Part.check, checkStmt]
  | readStmt =>
    apply Factors.of_first (checkTransfer readBan?)
    · intro pos
      exact absorbing_transfer readBan?
    · intro n _
      simp [plug, Part.check, checkStmt]
  | writeStmt =>
    apply Factors.of_first (checkTransfer writeBan?)
    · intro pos
      exact absorbing_transfer writeBan?
    · intro n _
      simp [plug, Part.check, checkStmt]
  | returnStmt pos =>
    apply Factors.of_first (checkReturn expected)
    · intro pos
      exact absorbing_return expected
    · intro n hn
      exact checkStmt_return hn
  | ifCond decls stmts =>
    apply Factors.of_first fun pos t => do
      let c ← checkCondition .ifThen pos t
      let body ← checkStmts expected stmts
      return .all [c, body]
    · intro pos
      exact (absorbing_condition .ifThen).bind (.after fun body => absorbing_all [] [body])
    · intro n _
      simp [plug, Part.check, checkStmt]
  | ifElseCond ds ss ds' ss' =>
    apply Factors.of_first fun pos t => do
      let c ← checkCondition .ifThen pos t
      let thenBody ← checkStmts expected ss
      let elseBody ← checkStmts expected ss'
      return .all [c, thenBody, elseBody]
    · intro pos
      exact (absorbing_condition .ifThen).bind
        (.after fun thenBody => .after fun elseBody => absorbing_all [] [thenBody, elseBody])
    · intro n _
      simp [plug, Part.check, checkStmt]
  | whileCond decls stmts =>
    apply Factors.of_first fun pos t => do
      let c ← checkCondition .whileLoop pos t
      let body ← checkStmts expected stmts
      return .all [c, body]
    · intro pos
      exact (absorbing_condition .whileLoop).bind (.after fun body => absorbing_all [] [body])
    · intro n _
      simp [plug, Part.check, checkStmt]
  | ifBody cond decls before after =>
    apply factors_block before after (checkExpr cond >>= checkCondition .ifThen cond.pos)
      fun c body => return .all [c, body]
    · intro c
      exact absorbing_all [c] []
    · intro n
      simp [plug, Part.check, Frame.expected, checkStmt]
  | thenBody cond ds before after ds' ss' =>
    apply factors_block before after (checkExpr cond >>= checkCondition .ifThen cond.pos)
      fun c body => do
        let elseBody ← checkStmts expected ss'
        return .all [c, body, elseBody]
    · intro c
      exact .after fun elseBody => absorbing_all [c] [elseBody]
    · intro n
      simp [plug, Part.check, Frame.expected, checkStmt]
  | elseBody cond ds ss ds' before after =>
    apply factors_block before after
      (do return (← checkExpr cond >>= checkCondition .ifThen cond.pos, ← checkStmts expected ss))
      fun a body => return .all [a.1, a.2, body]
    · intro a
      exact absorbing_all [a.1, a.2] []
    · intro n
      simp [plug, Part.check, Frame.expected, checkStmt]
  | whileBody cond decls before after =>
    apply factors_block before after (checkExpr cond >>= checkCondition .whileLoop cond.pos)
      fun c body => return .all [c, body]
    · intro c
      exact absorbing_all [c] []
    · intro n
      simp [plug, Part.check, Frame.expected, checkStmt]
  | functionBody type id formals decls before after =>
    exact factors_function type id formals decls before after expected

end Frames

theorem Context.factors {p : Part} (K : Context p) (expected : Option Ty) :
    Factors (fun n => p.check expected (K.plug n)) checkExpr := by
  induction K generalizing expected with
  | hole =>
    apply Factors.of_first fun _ t => return t
    · intro _
      exact .of_silent rfl
    · intro n _
      simp only [plug, Part.check, bind_pure]
  | within F K ih =>
    apply Factors.trans (F.factors expected) (ih (F.expected expected))
    · intro n hn
      exact K.plug_ne_missing hn
    · intro n m halike
      exact K.plug_alike halike

/-- What is reported before the hole is looked at. A thing that is no node ends the check there. -/
def Context.reportsBefore {p : Part} (K : Context p) (expected : Option Ty) : List Diagnostic :=
  (p.check expected (K.plug .foreign)).reports

private theorem isReturn_of_returned {c : Node} {rs : List Diagnostic} {t : Ty}
    (h : checkExpr c = ⟨rs, .ok t⟩) : c.isReturn = false := by
  cases c with
  | returnStmt value pos => simp [checkExpr, stop] at h
  | _ => rfl

/-- Let the type analysis of an expression, a statement or a function with `c` in it come to a type.
If an identifier without a symbol stands in the place of `c`, the analysis comes to a type as well:
to an error or to the same one. The reports are some of those that are not about `c` itself, in
their order, and if `c` has the error type they are all of them and the type is the same. -/
theorem error_type_never_cascades {p : Part} (K : Context p) (expected : Option Ty) (name : String)
    {c : Node} (hc : c ≠ .missing) {t : Ty}
    (h : (p.check expected (K.plug c)).outcome = .ok t) :
    ∃ after rs t',
      (p.check expected (K.plug c)).reports =
        K.reportsBefore expected ++ (checkExpr c).reports ++ after ∧
      p.check expected (K.plug (.ident ⟨name, c.pos, none⟩)) = ⟨rs, .ok t'⟩ ∧
      rs.Sublist (K.reportsBefore expected ++ after) ∧ (t' = .error ∨ t' = t) ∧
      ((checkExpr c).outcome = .ok .error →
        rs = K.reportsBefore expected ++ after ∧ t' = t) := by
  rcases K.factors expected with hfails | ⟨α, before, k, hk, hcongr, hcheck⟩
  · exact absurd h (hfails c hc t)
  · have hreturned := eq_returned h
    obtain ⟨a, rs₁, _, hbefore, hrest, hreports⟩ :=
      bind_eq_returned.mp ((hcheck c hc).symm.trans hreturned)
    obtain ⟨tc, rs₂, rs₃, hexpr, hlast, rfl⟩ := bind_eq_returned.mp hrest
    have hfirst : K.reportsBefore expected = rs₁ := by
      have hforeign := hcheck .foreign (by simp)
      simp only [hbefore, bind_ok, checkExpr, stop, bind_error, List.append_nil] at hforeign
      rw [Context.reportsBefore, hforeign]
    have halike : c.Alike (.ident ⟨name, c.pos, none⟩) := ⟨rfl, isReturn_of_returned hexpr⟩
    obtain ⟨rs₃', t', hlast', hsub, ht'⟩ := hk c a tc rs₃ t hlast
    refine ⟨rs₃, rs₁ ++ rs₃', t', ?_, ?_, ?_, ht', ?_⟩
    · rw [hreports, hfirst, hexpr, List.append_assoc]
    · have hident := hcheck (.ident ⟨name, c.pos, none⟩) (by simp)
      rw [← hcongr _ _ halike] at hident
      simpa [hbefore, checkExpr, Check.ofExcept, Ident.type, hlast'] using hident
    · rw [hfirst]
      exact (List.Sublist.refl rs₁).append hsub
    · intro herror
      rw [hexpr] at herror
      cases herror
      rw [hlast] at hlast'
      cases hlast'
      exact ⟨by rw [hfirst], rfl⟩

/-- A sum that is an error, as the second argument of a call that is returned. Its neighbour is
blamed, and the call keeps its type, with the sum in place and with an unknown name there. -/
theorem erroneous_argument_absorbed :
    let f : Ident := ⟨"f", ⟨1, 5⟩, some (.function ["int", "int"] "int")⟩
    let K : Context .decl := .within (.functionBody (.primType .int) f [] [] [] [])
      (.within (.returnStmt ⟨2, 3⟩) (.within (.argument f [.lit (.bool true) ⟨2, 12⟩] []) .hole))
    let c : Node := .binary "+" (.lit (.bool false) ⟨2, 18⟩) (.lit (.int 1) ⟨2, 26⟩)
    c ≠ .missing ∧ (checkExpr c).outcome = .ok .error ∧
      (Part.check none .decl (K.plug c)).outcome = .ok .success ∧
      ∃ rs, Part.check none .decl (K.plug (.ident ⟨"x", c.pos, none⟩)) = ⟨rs, .ok .success⟩ := by
  intro f K c
  have hc : c ≠ .missing := by simp [c]
  have herror : (checkExpr c).outcome = .ok .error := rfl
  have hreturned : (Part.check none .decl (K.plug c)).outcome = .ok .success := rfl
  obtain ⟨_, rs, t', -, hcheck, -, -, hsame⟩ := error_type_never_cascades K none "x" hc hreturned
  obtain ⟨-, rfl⟩ := hsame herror
  exact ⟨hc, herror, hreturned, rs, hcheck⟩

end Sema
