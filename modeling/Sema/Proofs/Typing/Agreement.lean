import Sema.Proofs.Typing.Rules
import Sema.Proofs.Tree.Parts

/-!
# The checks decide the type system

A check that reports nothing and yields a type has found a derivation, provided that every
identifier is bound: an unbound one has the error type without a complaint. A derivation is always found.
-/

namespace Sema

open Check

namespace Check

variable {α β : Type}

theorem bind_eq_returned {c : Check α} {f : α → Check β} {rs : List Diagnostic} {b : β} :
    c >>= f = ⟨rs, .ok b⟩ ↔
      ∃ a rs₁ rs₂, c = ⟨rs₁, .ok a⟩ ∧ f a = ⟨rs₂, .ok b⟩ ∧ rs = rs₁ ++ rs₂ := by
  rcases c with ⟨cs, why | a⟩
  · simp
  · constructor
    · intro h
      rw [bind_ok] at h
      injection h with hr ho
      exact ⟨a, cs, (f a).reports, rfl, by rw [← ho], hr.symm⟩
    · rintro ⟨a', rs₁, rs₂, hc, hf, rfl⟩
      cases hc
      rw [bind_ok, hf]

theorem bind_eq_silent {c : Check α} {f : α → Check β} {b : β} :
    c >>= f = ⟨[], .ok b⟩ ↔ ∃ a, c = ⟨[], .ok a⟩ ∧ f a = ⟨[], .ok b⟩ := by
  rw [bind_eq_returned]
  constructor
  · rintro ⟨a, rs₁, rs₂, hc, hf, h⟩
    obtain ⟨rfl, rfl⟩ := List.append_eq_nil_iff.mp h.symm
    exact ⟨a, hc, hf⟩
  · rintro ⟨a, hc, hf⟩
    exact ⟨a, [], [], hc, hf, rfl⟩

end Check

section Steps

variable {op : String} {pos leftPos rightPos : Pos} {rule : OperandRule} {t l r : Ty}

private theorem isError_eq_false (ht : t ≠ .error) : t.isError = false := by
  cases t <;> simp_all [Ty.isError]

theorem checkUnary_silent (ht : t ≠ .error) :
    checkUnary op pos t = ⟨[], .ok r⟩ ↔
      op = "-" ∧ t = .int ∧ r = .int ∨ op = "!" ∧ t = .bool ∧ r = .bool := by
  simp only [checkUnary, isError_eq_false ht, unaryRule?]
  by_cases hneg : op = "-"
  · subst hneg
    by_cases hint : t = .int <;> simp [hint, blame, blameFor, eq_comm]
  · by_cases hnot : op = "!"
    · subst hnot
      by_cases hbool : t = .bool <;> simp [hbool, blame, blameFor, eq_comm]
    · simp [hneg, hnot, stop]

theorem binaryRule?_uniform_iff :
    binaryRule? op = some (.uniform rule) ↔
      op ∈ arithmeticOps ∧ rule = ⟨.int, .arithmetic, .int⟩ ∨
      op ∈ logicalOps ∧ rule = ⟨.bool, .logical, .bool⟩ ∨
      op ∈ relationalOps ∧ rule = ⟨.int, .relational, .bool⟩ := by
  have hlog : op ∈ logicalOps → op ∉ arithmeticOps := by
    simp only [logicalOps, List.mem_cons, List.not_mem_nil, or_false]
    rintro (rfl | rfl) <;> decide
  have hrel : op ∈ relationalOps → op ∉ arithmeticOps ∧ op ∉ logicalOps := by
    simp only [relationalOps, List.mem_cons, List.not_mem_nil, or_false]
    rintro (rfl | rfl | rfl | rfl) <;> decide
  unfold binaryRule?
  by_cases harith : op ∈ arithmeticOps
  · have hnlog : op ∉ logicalOps := fun h => hlog h harith
    have hnrel : op ∉ relationalOps := fun h => (hrel h).1 harith
    simp [harith, hnlog, hnrel, eq_comm]
  · by_cases hlogical : op ∈ logicalOps
    · have hnrel : op ∉ relationalOps := fun h => (hrel h).2 hlogical
      simp [harith, hlogical, hnrel, eq_comm]
    · by_cases hrelational : op ∈ relationalOps
      · simp [harith, hlogical, hrelational, eq_comm]
      · by_cases heq : op ∈ equalityOps <;> simp [harith, hlogical, hrelational, heq]

theorem binaryRule?_equality_iff : binaryRule? op = some .equality ↔ op ∈ equalityOps := by
  constructor
  · intro h
    unfold binaryRule? at h
    by_cases heq : op ∈ equalityOps
    · exact heq
    · simp only [heq, if_false] at h
      split at h
      · simp at h
      · split at h
        · simp at h
        · split at h <;> simp at h
  · simp only [equalityOps, List.mem_cons, List.not_mem_nil, or_false]
    rintro (rfl | rfl) <;> rfl

theorem checkOperand_silent {fits : Bool} (ht : t ≠ .error) :
    checkOperand rule pos t = ⟨[], .ok fits⟩ ↔ t = rule.required ∧ fits = true := by
  simp only [checkOperand, isError_eq_false ht]
  by_cases hreq : t = rule.required
  · simp [hreq, eq_comm]
  · simp [hreq, blame, blameFor]

private theorem comparisonBan?_eq_none_iff : t.comparisonBan? = none ↔ t.Comparable := by
  cases t <;>
    simp [Ty.comparisonBan?, Ty.Comparable, Ty.IsFunction, Ty.IsStructName]

theorem checkEquality_silent (hl : l ≠ .error) (hr : r ≠ .error) :
    checkEquality leftPos rightPos l r = ⟨[], .ok t⟩ ↔ l = r ∧ l.Comparable ∧ t = .bool := by
  simp only [checkEquality, isError_eq_false hl, isError_eq_false hr]
  cases hleft : l.comparisonBan? with
  | some words =>
    have hban : ¬ l.Comparable := by simp [← comparisonBan?_eq_none_iff, hleft]
    simp [blameFor, hban]
  | none =>
    have hcomp : l.Comparable := comparisonBan?_eq_none_iff.mp hleft
    cases hright : r.comparisonBan? with
    | some words =>
      have hne : l ≠ r := by rintro rfl; simp [hleft] at hright
      simp [blameFor, hne]
    | none =>
      by_cases heq : l = r
      · subst heq
        simp [hcomp, eq_comm]
      · simp [heq, blame, blameFor]

theorem checkAssign_silent (hl : l ≠ .error) (hr : r ≠ .error) :
    checkAssign pos l r = ⟨[], .ok t⟩ ↔ l = r ∧ l.Assignable ∧ t = l := by
  simp only [checkAssign, isError_eq_false hl, isError_eq_false hr]
  by_cases heq : l = r
  · subst heq
    cases l <;>
      simp [blameFor, Ty.Assignable, Ty.IsFunction, Ty.IsStructName, eq_comm]
  · cases l <;> simp [heq, blame, blameFor]

theorem checkArgs_silent {args : List (Pos × Ty)} {formals : List Ty} :
    checkArgs args formals = ⟨[], .ok ()⟩ ↔
      ∀ p ∈ (args.map Prod.snd).zip formals, p.1.compatible p.2 = true := by
  induction args generalizing formals with
  | nil => simp [checkArgs]
  | cons arg args ih =>
    obtain ⟨p, actual⟩ := arg
    cases formals with
    | nil => simp [checkArgs]
    | cons formal formals =>
      by_cases hfit : actual.compatible formal = true
      · simp [checkArgs, hfit, ih]
      · simp [checkArgs, hfit, report]

theorem checkCall_silent {f : Ty} {args : List (Pos × Ty)} (hf : f ≠ .error) :
    checkCall pos f args = ⟨[], .ok t⟩ ↔
      ∃ formals result, f = .function formals result ∧ args.length = formals.length ∧
        checkArgs args formals = ⟨[], .ok ()⟩ ∧ t = result.getD .unspecified := by
  cases f with
  | function formals result =>
    by_cases hlen : args.length = formals.length
    · simp only [checkCall, hlen, if_true, bind_eq_silent, pure_def]
      constructor
      · rintro ⟨_, hargs, h⟩
        injection h with _ h
        injection h with h
        exact ⟨formals, result, rfl, hlen ▸ rfl, hargs, h.symm⟩
      · rintro ⟨_, _, ⟨⟩, _, hargs, rfl⟩
        exact ⟨(), hargs, rfl⟩
    · simp [checkCall, hlen, report]
  | error => exact absurd rfl hf
  | _ => simp [checkCall, blame, blameFor]

end Steps

theorem Ty.ofName_ne_error (name : String) : Ty.ofName name ≠ .error := by
  unfold Ty.ofName
  split
  · simp
  · split
    · simp
    · split <;> simp

theorem Symbol.type_ne_error {s : Symbol} {t : Ty} (h : s.type = .ok t) : t ≠ .error := by
  cases s <;> simp only [Symbol.type, Except.ok.injEq, reduceCtorEq] at h <;> subst h
  case var name => exact Ty.ofName_ne_error name
  all_goals simp

theorem Symbol.eq_function_of_type {s : Symbol} {params : List Ty} {result : Option Ty}
    (h : s.type = .ok (.function params result)) : ∃ names name, s = .function names name := by
  cases s with
  | function names name => exact ⟨names, name, rfl⟩
  | var name =>
    simp only [Symbol.type, Except.ok.injEq, Ty.ofName] at h
    split at h
    · simp at h
    · split at h
      · simp at h
      · split at h <;> simp at h
  | _ => simp [Symbol.type] at h

theorem Ident.Denotes.signature {id : Ident} {params : List Ty} {result : Option Ty}
    (h : id.Denotes (.function params result)) :
    (∀ p ∈ params, p ≠ .error) ∧ ∃ t, result = some t ∧ t ≠ .error := by
  obtain ⟨s, -, hs⟩ := h
  obtain ⟨names, name, rfl⟩ := Symbol.eq_function_of_type hs
  simp only [Symbol.type, Except.ok.injEq, Ty.function.injEq] at hs
  obtain ⟨rfl, rfl⟩ := hs
  refine ⟨?_, _, rfl, Ty.ofName_ne_error name⟩
  intro p hp
  obtain ⟨n, -, rfl⟩ := List.mem_map.mp hp
  exact Ty.ofName_ne_error n

theorem Ident.Denotes.ne_error {id : Ident} {t : Ty} (h : id.Denotes t) : t ≠ .error := by
  obtain ⟨s, -, hs⟩ := h
  exact Symbol.type_ne_error hs

theorem Ident.Denotes.type_eq {id : Ident} {t : Ty} (h : id.Denotes t) : id.type = .ok t := by
  obtain ⟨s, hid, hs⟩ := h
  simp [Ident.type, hid, hs]

theorem Ident.denotes_of_type {id : Ident} {t : Ty} (hb : id.Bound)
    (h : id.type = .ok t) : id.Denotes t := by
  obtain ⟨s, hs⟩ := Option.isSome_iff_exists.mp hb
  refine ⟨s, hs, ?_⟩
  simpa [Ident.type, hs] using h

theorem HasType.ne_error {e : Node} {t : Ty} (h : HasType e t) : t ≠ .error := by
  induction h with
  | ident h => exact h.ne_error
  | dot h => exact h.ne_error
  | assign _ _ _ ih => exact ih
  | call hcallee =>
    obtain ⟨-, t, ht, hne⟩ := hcallee.signature
    cases ht
    exact hne
  | _ => simp

private theorem ofExcept_eq_silent {α : Type} {outcome : Except Fault α} {a : α} :
    (Check.ofExcept outcome : Check α) = ⟨[], .ok a⟩ ↔ outcome = .ok a := by
  simp [Check.ofExcept]

theorem checkExprs_of_forall {es : List Node} {ts : List Ty} (hlen : es.length = ts.length)
    (h : ∀ p ∈ es.zip ts, checkExpr p.1 = ⟨[], .ok p.2⟩) : checkExprs es = ⟨[], .ok ts⟩ := by
  induction es generalizing ts with
  | nil =>
    cases ts with
    | nil => rfl
    | cons t ts => simp at hlen
  | cons e es ih =>
    cases ts with
    | nil => simp at hlen
    | cons t ts =>
      have he : checkExpr e = ⟨[], .ok t⟩ := h (e, t) (by simp)
      have hes : checkExprs es = ⟨[], .ok ts⟩ :=
        ih (by simpa using hlen) fun p hp => h p (by simp [hp])
      simp [checkExprs, he, hes]

private theorem checkArgs_self {ps : List Pos} {ts : List Ty} :
    checkArgs (ps.zip ts) ts = ⟨[], .ok ()⟩ := by
  induction ts generalizing ps with
  | nil => simp [checkArgs]
  | cons t ts ih =>
    cases ps with
    | nil => simp [checkArgs]
    | cons p ps => simp [checkArgs, Ty.compatible, ih]

/-- Compatible types that are no errors are equal. -/
private theorem eq_of_forall_compatible {ts us : List Ty} (hlen : ts.length = us.length)
    (hts : ∀ t ∈ ts, t ≠ .error) (hus : ∀ u ∈ us, u ≠ .error)
    (h : ∀ p ∈ ts.zip us, p.1.compatible p.2 = true) : ts = us := by
  induction ts generalizing us with
  | nil => cases us <;> simp_all
  | cons t ts ih =>
    cases us with
    | nil => simp at hlen
    | cons u us =>
      rw [List.zip_cons_cons, List.forall_mem_cons] at h
      rw [List.forall_mem_cons] at hts hus
      have hhead : t = u := by
        simpa [Ty.compatible, isError_eq_false hts.1, isError_eq_false hus.1] using h.1
      rw [hhead, ih (by simpa using hlen) hts.2 hus.2 h.2]

private theorem checkExpr_uniform {op : String} {rule : OperandRule} {l r : Node}
    (hop : binaryRule? op = some (.uniform rule)) (hreq : rule.required ≠ .error)
    (hl : checkExpr l = ⟨[], .ok rule.required⟩) (hr : checkExpr r = ⟨[], .ok rule.required⟩) :
    checkExpr (.binary op l r) = ⟨[], .ok rule.result⟩ := by
  have hfits (p : Pos) : checkOperand rule p rule.required = ⟨[], .ok true⟩ :=
    (checkOperand_silent hreq).mpr ⟨rfl, rfl⟩
  simp [checkExpr, hop, hl, hr, hfits]

/-- Whatever has a type is given that type, without a complaint. -/
theorem HasType.checkExpr_eq {e : Node} {t : Ty} (h : HasType e t) :
    checkExpr e = ⟨[], .ok t⟩ := by
  induction h with
  | int => rfl
  | string => rfl
  | bool => rfl
  | ident h => simp only [checkExpr, ofExcept_eq_silent, h.type_eq]
  | dot h => simp only [checkExpr, ofExcept_eq_silent, h.type_eq]
  | negation _ ih => simp [checkExpr, ih, checkUnary, Ty.isError, unaryRule?]
  | complement _ ih => simp [checkExpr, ih, checkUnary, Ty.isError, unaryRule?]
  | arithmetic hop _ _ ihl ihr =>
    exact checkExpr_uniform (binaryRule?_uniform_iff.mpr (.inl ⟨hop, rfl⟩)) (by simp) ihl ihr
  | logical hop _ _ ihl ihr =>
    exact checkExpr_uniform (binaryRule?_uniform_iff.mpr (.inr (.inl ⟨hop, rfl⟩))) (by simp) ihl ihr
  | relational hop _ _ ihl ihr =>
    exact checkExpr_uniform (binaryRule?_uniform_iff.mpr (.inr (.inr ⟨hop, rfl⟩))) (by simp) ihl ihr
  | @equality _ l r t hop hl _ ht ihl ihr =>
    have heq : checkEquality l.pos r.pos t t = ⟨[], .ok .bool⟩ :=
      (checkEquality_silent hl.ne_error hl.ne_error).mpr ⟨rfl, ht, rfl⟩
    simp [checkExpr, binaryRule?_equality_iff.mpr hop, ihl, ihr, heq]
  | @assign target _ t htarget _ ht iht ihv =>
    have hassign : checkAssign target.pos t t = ⟨[], .ok t⟩ :=
      (checkAssign_silent htarget.ne_error htarget.ne_error).mpr ⟨rfl, ht, rfl⟩
    simp [checkExpr, iht, ihv, hassign]
  | @call callee args params result hcallee hlen _ ih =>
    have hargs : checkExprs args = ⟨[], .ok params⟩ := checkExprs_of_forall hlen ih
    simp [checkExpr, hcallee.type_eq, Check.ofExcept, hargs, checkCall, hlen, checkArgs_self]

mutual

/-- A silent check of an expression whose identifiers are bound has found a derivation. -/
theorem HasType.of_checkExpr (e : Node) {t : Ty} (hb : ∀ id ∈ e.idents, id.Bound)
    (h : checkExpr e = ⟨[], .ok t⟩) : HasType e t := by
  cases e with
  | lit value pos =>
    cases value <;> simp only [checkExpr, pure_def, Check.mk.injEq, Except.ok.injEq] at h <;>
      obtain ⟨-, rfl⟩ := h
    · exact .int _ _
    · exact .string _ _
    · exact .bool _ _
  | ident id =>
    rw [checkExpr, ofExcept_eq_silent] at h
    exact .ident (Ident.denotes_of_type (hb id (by simp [Node.idents])) h)
  | dot base field =>
    rw [checkExpr, ofExcept_eq_silent] at h
    exact .dot (Ident.denotes_of_type (hb field (by simp [Node.idents])) h)
  | assign target value =>
    simp only [Node.idents, List.forall_mem_append] at hb
    simp only [checkExpr, bind_eq_silent] at h
    obtain ⟨l, hl, r, hr, h⟩ := h
    have htarget := HasType.of_checkExpr target hb.1 hl
    have hvalue := HasType.of_checkExpr value hb.2 hr
    obtain ⟨rfl, hassignable, rfl⟩ := (checkAssign_silent htarget.ne_error hvalue.ne_error).mp h
    exact .assign htarget hvalue hassignable
  | call callee args =>
    simp only [Node.idents, List.forall_mem_cons] at hb
    simp only [checkExpr, bind_eq_silent, ofExcept_eq_silent] at h
    obtain ⟨f, hf, ts, hts, h⟩ := h
    have hcallee := Ident.denotes_of_type hb.1 hf
    obtain ⟨hlen, hargs⟩ := HasType.of_checkExprs args hb.2 hts
    obtain ⟨formals, result, rfl, hcount, hfit, rfl⟩ := (checkCall_silent hcallee.ne_error).mp h
    obtain ⟨hformals, result, rfl, -⟩ := hcallee.signature
    have hsnd : ((args.map Node.pos).zip ts).map Prod.snd = ts :=
      List.map_snd_zip (by simp [hlen])
    rw [checkArgs_silent, hsnd] at hfit
    have hts' : ∀ t ∈ ts, t ≠ .error := by
      intro t ht
      rw [← List.map_snd_zip (show ts.length ≤ args.length by omega)] at ht
      obtain ⟨p, hp, rfl⟩ := List.mem_map.mp ht
      exact (hargs p hp).ne_error
    have hsame : ts = formals :=
      eq_of_forall_compatible (by simpa [hlen] using hcount) hts' hformals hfit
    subst hsame
    exact .call hcallee hlen hargs
  | unary op operand =>
    simp only [checkExpr, bind_eq_silent] at h
    obtain ⟨t', ht', h⟩ := h
    have hoperand := HasType.of_checkExpr operand hb ht'
    rcases (checkUnary_silent hoperand.ne_error).mp h with ⟨rfl, rfl, rfl⟩ | ⟨rfl, rfl, rfl⟩
    · exact .negation hoperand
    · exact .complement hoperand
  | binary op left right =>
    simp only [Node.idents, List.forall_mem_append] at hb
    rw [checkExpr] at h
    split at h
    · simp [stop] at h
    · rename_i hop
      simp only [bind_eq_silent] at h
      obtain ⟨l, hl, r, hr, h⟩ := h
      have hleft := HasType.of_checkExpr left hb.1 hl
      have hright := HasType.of_checkExpr right hb.2 hr
      obtain ⟨rfl, hcomp, rfl⟩ := (checkEquality_silent hleft.ne_error hright.ne_error).mp h
      exact .equality (binaryRule?_equality_iff.mp hop) hleft hright hcomp
    · rename_i rule hop
      simp only [bind_eq_silent] at h
      obtain ⟨l, hl, fl, hfl, r, hr, fr, hfr, h⟩ := h
      have hleft := HasType.of_checkExpr left hb.1 hl
      have hright := HasType.of_checkExpr right hb.2 hr
      obtain ⟨rfl, rfl⟩ := (checkOperand_silent hleft.ne_error).mp hfl
      obtain ⟨rfl, rfl⟩ := (checkOperand_silent hright.ne_error).mp hfr
      simp only [pure_def, Check.mk.injEq, Except.ok.injEq] at h
      obtain ⟨-, rfl⟩ := h
      rcases binaryRule?_uniform_iff.mp hop with ⟨hmem, rfl⟩ | ⟨hmem, rfl⟩ | ⟨hmem, rfl⟩
      · exact .arithmetic hmem hleft hright
      · exact .logical hmem hleft hright
      · exact .relational hmem hleft hright
  | _ => simp [checkExpr, stop] at h

theorem HasType.of_checkExprs (es : List Node) {ts : List Ty}
    (hb : ∀ id ∈ Node.identsAll es, id.Bound)
    (h : checkExprs es = ⟨[], .ok ts⟩) :
    es.length = ts.length ∧ ∀ p ∈ es.zip ts, HasType p.1 p.2 := by
  cases es with
  | nil =>
    simp only [checkExprs, pure_def, Check.mk.injEq, Except.ok.injEq] at h
    obtain ⟨-, rfl⟩ := h
    simp
  | cons e es =>
    simp only [Node.identsAll, List.forall_mem_append] at hb
    simp only [checkExprs, bind_eq_silent, pure_def, Check.mk.injEq, Except.ok.injEq] at h
    obtain ⟨t, he, ts', hes, -, rfl⟩ := h
    have hhead := HasType.of_checkExpr e hb.1 he
    obtain ⟨hlen, htail⟩ := HasType.of_checkExprs es hb.2 hes
    refine ⟨by simp [hlen], ?_⟩
    rw [List.zip_cons_cons, List.forall_mem_cons]
    exact ⟨hhead, htail⟩

end

section Effects

variable {pos : Pos} {t r result : Ty}

theorem checkEffect_silent (ht : t ≠ .error) : checkEffect t = ⟨[], .ok r⟩ ↔ r = .success := by
  simp [checkEffect, isError_eq_false ht, eq_comm]

theorem checkStep_silent (ht : t ≠ .error) :
    checkStep pos t = ⟨[], .ok r⟩ ↔ t = .int ∧ r = .success := by
  by_cases hint : t = .int
  · simp [checkStep, hint, Ty.isError, eq_comm]
  · simp [checkStep, isError_eq_false ht, hint, blame, blameFor]

private theorem checkTransfer_silent {ban? : Ty → Option DiagnosticKind} (ht : t ≠ .error) :
    checkTransfer ban? pos t = ⟨[], .ok r⟩ ↔ ban? t = none ∧ r = .success := by
  cases hban : ban? t <;>
    simp [checkTransfer, isError_eq_false ht, hban, blame, blameFor, eq_comm]

theorem readBan?_eq_none_iff : readBan? t = none ↔ t.Readable := by
  cases t <;>
    simp [readBan?, Ty.Readable, Ty.IsFunction, Ty.IsStructName, Ty.IsStructVar]

theorem writeBan?_eq_none_iff : writeBan? t = none ↔ t.Writable := by
  cases t <;>
    simp [writeBan?, Ty.Writable, Ty.Readable, Ty.IsFunction, Ty.IsStructName, Ty.IsStructVar]

theorem checkCondition_silent {c : Conditional} (ht : t ≠ .error) :
    checkCondition c pos t = ⟨[], .ok r⟩ ↔ t = .bool ∧ r = .success := by
  by_cases hbool : t = .bool
  · simp [checkCondition, hbool, Ty.isError, eq_comm]
  · simp [checkCondition, isError_eq_false ht, hbool, blameFor]

theorem checkBareReturn_silent :
    checkBareReturn (some result) pos = ⟨[], .ok r⟩ ↔ result = .void ∧ r = .success := by
  by_cases hvoid : result = .void <;> simp [checkBareReturn, hvoid, blame, blameFor, eq_comm]

theorem checkReturn_silent (ht : t ≠ .error) :
    checkReturn (some result) pos t = ⟨[], .ok r⟩ ↔ result ≠ .void ∧ result = t ∧ r = .success := by
  by_cases hvoid : result = .void
  · simp [checkReturn, hvoid, blame, blameFor]
  · by_cases hsame : result = t
    · subst hsame
      simp [checkReturn, hvoid, isError_eq_false ht, eq_comm]
    · simp [checkReturn, hvoid, isError_eq_false ht, hsame, blame, blameFor]

end Effects

theorem checkStmt_return {expected : Option Ty} {value : Node} {pos : Pos}
    (h : value ≠ .missing) :
    checkStmt expected (.returnStmt value pos) =
      checkExpr value >>= checkReturn expected value.pos := by
  rw [checkStmt]
  exact h

theorem checkStmts_of_forall {expected : Option Ty} {stmts : List Node}
    (h : ∀ s ∈ stmts, checkStmt expected s = ⟨[], .ok .success⟩) :
    checkStmts expected stmts = ⟨[], .ok .success⟩ := by
  induction stmts with
  | nil => rfl
  | cons s ss ih =>
    rw [List.forall_mem_cons] at h
    simp [checkStmts, h.1, ih h.2, Ty.all, Ty.isError]

theorem StmtTyped.checkStmt_eq {result : Ty} {s : Node} (h : StmtTyped result s) :
    checkStmt (some result) s = ⟨[], .ok .success⟩ := by
  induction h with
  | assign he =>
    simp [checkStmt, he.checkExpr_eq, (checkEffect_silent he.ne_error).mpr rfl]
  | call he =>
    simp [checkStmt, he.checkExpr_eq, (checkEffect_silent he.ne_error).mpr rfl]
  | step he => simp [checkStmt, he.checkExpr_eq, checkStep, Ty.isError]
  | @read e t he ht =>
    have hread : checkTransfer readBan? e.pos t = ⟨[], .ok .success⟩ :=
      (checkTransfer_silent he.ne_error).mpr ⟨readBan?_eq_none_iff.mpr ht, rfl⟩
    simp [checkStmt, he.checkExpr_eq, hread]
  | @write e t he ht =>
    have hwrite : checkTransfer writeBan? e.pos t = ⟨[], .ok .success⟩ :=
      (checkTransfer_silent he.ne_error).mpr ⟨writeBan?_eq_none_iff.mpr ht, rfl⟩
    simp [checkStmt, he.checkExpr_eq, hwrite]
  | ifThen hcond _ ih =>
    simp [checkStmt, hcond.checkExpr_eq, checkCondition, checkStmts_of_forall ih, Ty.all,
      Ty.isError]
  | ifElse hcond _ _ iht ihe =>
    simp [checkStmt, hcond.checkExpr_eq, checkCondition, checkStmts_of_forall iht,
      checkStmts_of_forall ihe, Ty.all, Ty.isError]
  | whileLoop hcond _ ih =>
    simp [checkStmt, hcond.checkExpr_eq, checkCondition, checkStmts_of_forall ih, Ty.all,
      Ty.isError]
  | bareReturn hvoid =>
    rw [checkStmt]
    exact checkBareReturn_silent.mpr ⟨hvoid, rfl⟩
  | @valueReturn value pos hvalue hvoid =>
    have hne : value ≠ .missing := by rintro rfl; cases hvalue
    have hreturn : checkReturn (some result) value.pos result = ⟨[], .ok .success⟩ :=
      (checkReturn_silent hvalue.ne_error).mpr ⟨hvoid, rfl, rfl⟩
    rw [checkStmt_return hne]
    simp [hvalue.checkExpr_eq, hreturn]

mutual

theorem StmtTyped.of_checkStmt (s : Node) {result t : Ty}
    (hb : ∀ id ∈ s.idents, id.Bound)
    (h : checkStmt (some result) s = ⟨[], .ok t⟩) : StmtTyped result s ∧ t = .success := by
  cases s with
  | assignStmt e =>
    simp only [checkStmt, bind_eq_silent] at h
    obtain ⟨t', ht', h⟩ := h
    have he := HasType.of_checkExpr e hb ht'
    exact ⟨.assign he, (checkEffect_silent he.ne_error).mp h⟩
  | callStmt e =>
    simp only [checkStmt, bind_eq_silent] at h
    obtain ⟨t', ht', h⟩ := h
    have he := HasType.of_checkExpr e hb ht'
    exact ⟨.call he, (checkEffect_silent he.ne_error).mp h⟩
  | stepStmt op e =>
    simp only [checkStmt, bind_eq_silent] at h
    obtain ⟨t', ht', h⟩ := h
    have he := HasType.of_checkExpr e hb ht'
    obtain ⟨rfl, rfl⟩ := (checkStep_silent he.ne_error).mp h
    exact ⟨.step he, rfl⟩
  | readStmt e =>
    simp only [checkStmt, bind_eq_silent] at h
    obtain ⟨t', ht', h⟩ := h
    have he := HasType.of_checkExpr e hb ht'
    obtain ⟨hban, rfl⟩ := (checkTransfer_silent he.ne_error).mp h
    exact ⟨.read he (readBan?_eq_none_iff.mp hban), rfl⟩
  | writeStmt e =>
    simp only [checkStmt, bind_eq_silent] at h
    obtain ⟨t', ht', h⟩ := h
    have he := HasType.of_checkExpr e hb ht'
    obtain ⟨hban, rfl⟩ := (checkTransfer_silent he.ne_error).mp h
    exact ⟨.write he (writeBan?_eq_none_iff.mp hban), rfl⟩
  | ifStmt cond decls stmts =>
    simp only [Node.idents, List.forall_mem_append] at hb
    simp only [checkStmt, bind_eq_silent] at h
    obtain ⟨t', ht', c, hc, body, hbody, h⟩ := h
    have hcond := HasType.of_checkExpr cond hb.1.1 ht'
    obtain ⟨rfl, rfl⟩ := (checkCondition_silent hcond.ne_error).mp hc
    obtain ⟨hstmts, rfl⟩ := StmtTyped.of_checkStmts stmts hb.2 hbody
    exact ⟨.ifThen hcond hstmts, by simpa [Ty.all, Ty.isError, eq_comm] using h⟩
  | ifElseStmt cond ds ss ds' ss' =>
    simp only [Node.idents, List.forall_mem_append] at hb
    simp only [checkStmt, bind_eq_silent] at h
    obtain ⟨t', ht', c, hc, body, hbody, body', hbody', h⟩ := h
    have hcond := HasType.of_checkExpr cond hb.1.1.1.1 ht'
    obtain ⟨rfl, rfl⟩ := (checkCondition_silent hcond.ne_error).mp hc
    obtain ⟨hthen, rfl⟩ := StmtTyped.of_checkStmts ss hb.1.1.2 hbody
    obtain ⟨helse, rfl⟩ := StmtTyped.of_checkStmts ss' hb.2 hbody'
    exact ⟨.ifElse hcond hthen helse, by simpa [Ty.all, Ty.isError, eq_comm] using h⟩
  | whileStmt cond decls stmts =>
    simp only [Node.idents, List.forall_mem_append] at hb
    simp only [checkStmt, bind_eq_silent] at h
    obtain ⟨t', ht', c, hc, body, hbody, h⟩ := h
    have hcond := HasType.of_checkExpr cond hb.1.1 ht'
    obtain ⟨rfl, rfl⟩ := (checkCondition_silent hcond.ne_error).mp hc
    obtain ⟨hstmts, rfl⟩ := StmtTyped.of_checkStmts stmts hb.2 hbody
    exact ⟨.whileLoop hcond hstmts, by simpa [Ty.all, Ty.isError, eq_comm] using h⟩
  | returnStmt value pos =>
    by_cases hmissing : value = .missing
    · subst hmissing
      rw [checkStmt] at h
      obtain ⟨hvoid, rfl⟩ := checkBareReturn_silent.mp h
      exact ⟨.bareReturn hvoid, rfl⟩
    · rw [checkStmt_return hmissing, bind_eq_silent] at h
      obtain ⟨t', ht', h⟩ := h
      have hvalue := HasType.of_checkExpr value hb ht'
      obtain ⟨hvoid, rfl, rfl⟩ := (checkReturn_silent hvalue.ne_error).mp h
      exact ⟨.valueReturn hvalue hvoid, rfl⟩
  | _ => simp [checkStmt, stop] at h

theorem StmtTyped.of_checkStmts (stmts : List Node) {result t : Ty}
    (hb : ∀ id ∈ Node.identsAll stmts, id.Bound)
    (h : checkStmts (some result) stmts = ⟨[], .ok t⟩) :
    (∀ s ∈ stmts, StmtTyped result s) ∧ t = .success := by
  cases stmts with
  | nil => simpa [checkStmts, eq_comm] using h
  | cons s ss =>
    simp only [Node.identsAll, List.forall_mem_append] at hb
    simp only [checkStmts, bind_eq_silent] at h
    obtain ⟨t₁, hs, t₂, hss, h⟩ := h
    obtain ⟨hhead, rfl⟩ := StmtTyped.of_checkStmt s hb.1 hs
    obtain ⟨htail, rfl⟩ := StmtTyped.of_checkStmts ss hb.2 hss
    refine ⟨List.forall_mem_cons.mpr ⟨hhead, htail⟩, ?_⟩
    simpa [Ty.all, Ty.isError, eq_comm] using h

end

/-- A function carries the symbol of a function whose result type is the one it is written with. -/
def Node.Signed : Node → Prop
  | .fnDecl type id _ _ _ =>
    ∃ params name, id.symbol = some (.function params name) ∧ type.typeName? = some name
  | _ => True

private theorem checkFunction_silent {result t : Ty} {id : Ident} {stmts : List Node}
    (hb : ∀ id ∈ Node.identsAll stmts, id.Bound) :
    checkFunction result id stmts = ⟨[], .ok t⟩ ↔
      (∀ s ∈ stmts, StmtTyped result s) ∧
        (result = .void ∨ ∃ s ∈ stmts, s.isReturn = true) ∧ t = .success := by
  simp only [checkFunction, bind_eq_silent]
  constructor
  · rintro ⟨body, hbody, h⟩
    obtain ⟨hstmts, rfl⟩ := StmtTyped.of_checkStmts stmts hb hbody
    split at h
    · simp [blame, blameFor] at h
    · rename_i hreturn
      simp only [pure_def, Check.mk.injEq, Except.ok.injEq] at h
      refine ⟨hstmts, ?_, h.2.symm⟩
      simpa [Classical.or_iff_not_imp_left] using hreturn
  · rintro ⟨hstmts, hreturn, rfl⟩
    refine ⟨.success, checkStmts_of_forall fun s hs => (hstmts s hs).checkStmt_eq, ?_⟩
    rw [if_neg]
    · rfl
    · rintro ⟨hvoid, hnone⟩
      rcases hreturn with hvoid' | ⟨s, hs, hret⟩
      · exact hvoid hvoid'
      · exact hnone (List.any_eq_true.mpr ⟨s, hs, hret⟩)

theorem checkDecl_silent {expected : Option Ty} {d : Node} {t : Ty}
    (hb : ∀ id ∈ d.idents, id.Bound) (hs : d.Signed) :
    (checkDecl expected d).check = ⟨[], .ok t⟩ ↔ DeclTyped d ∧ t = .success := by
  cases d with
  | fnDecl type id formals decls stmts =>
    obtain ⟨params, name, hid, htype⟩ := hs
    have hresult : returnType? type id = some (Ty.ofName name) := by simp [returnType?, hid]
    have hcheck : (checkDecl expected (.fnDecl type id formals decls stmts)).check =
        checkFunction (Ty.ofName name) id stmts := by
      simp only [checkDecl, hresult]
      split <;> rfl
    have hbody : ∀ id ∈ Node.identsAll stmts, id.Bound := by
      intro i hi
      exact hb i (by simp [Node.idents, hi])
    rw [hcheck, checkFunction_silent hbody]
    constructor
    · rintro ⟨hstmts, hreturn, rfl⟩
      exact ⟨.function htype hstmts hreturn, rfl⟩
    · rintro ⟨h, rfl⟩
      cases h with
      | function htype' hstmts hreturn =>
        obtain rfl : name = _ := Option.some.inj (htype.symm.trans htype')
        exact ⟨hstmts, hreturn, rfl⟩
  | varDecl type id =>
    simpa [checkDecl, eq_comm] using fun _ => DeclTyped.var
  | formalDecl type id =>
    simpa [checkDecl, eq_comm] using fun _ => DeclTyped.formal
  | structDecl id decls =>
    simpa [checkDecl, eq_comm] using fun _ => DeclTyped.struct
  | _ =>
    constructor
    · intro h
      simp [checkDecl, stop] at h
    · rintro ⟨h, -⟩
      cases h

/-- The check of a function is that of its body, whichever return type was in force before. -/
theorem checkDecl_function (expected : Option Ty) {type : Node} {id : Ident}
    (formals decls stmts : List Node) {result : Ty} (h : returnType? type id = some result) :
    (checkDecl expected (.fnDecl type id formals decls stmts)).check =
      checkFunction result id stmts := by
  simp only [checkDecl, h]
  split <;> rfl

/-- When the check of a declaration returns, the return type in force is the one before it. -/
theorem checkDecl_expected {expected : Option Ty} {d : Node} {t : Ty}
    (h : (checkDecl expected d).check.outcome = .ok t) :
    (checkDecl expected d).expected = expected := by
  cases d with
  | fnDecl type id formals decls stmts =>
    cases hresult : returnType? type id with
    | none => simp [checkDecl, hresult]
    | some result =>
      cases hout : (checkFunction result id stmts).outcome with
      | ok t' => simp [checkDecl, hresult, hout]
      | error why => simp [checkDecl, hresult, hout] at h
  | _ => rfl

theorem checkDecls_cons_eq_returned {expected : Option Ty} {d : Node} {ds : List Node}
    {rs : List Diagnostic} {t : Ty} :
    (checkDecls expected (d :: ds)).check = ⟨rs, .ok t⟩ ↔
      ∃ t₁ t₂ rs₁ rs₂, (checkDecl expected d).check = ⟨rs₁, .ok t₁⟩ ∧
        (checkDecls expected ds).check = ⟨rs₂, .ok t₂⟩ ∧ rs = rs₁ ++ rs₂ ∧ t = .all [t₁, t₂] := by
  cases hout : (checkDecl expected d).check.outcome with
  | error why =>
    have hne (rs₁ : List Diagnostic) (t₁ : Ty) : (checkDecl expected d).check ≠ ⟨rs₁, .ok t₁⟩ := by
      intro h
      simp [h] at hout
    simp [checkDecls, hout, hne]
  | ok t₁ =>
    have hfirst : (checkDecl expected d).check =
        ⟨(checkDecl expected d).check.reports, .ok t₁⟩ := by
      rw [← hout]
    simp only [checkDecls, hout, checkDecl_expected hout]
    rw [hfirst, bind_eq_returned]
    constructor
    · rintro ⟨_, rs₁, rs₂, h₁, h₂, rfl⟩
      rw [bind_eq_returned] at h₂
      obtain ⟨t₂, rs₃, rs₄, h₂, h₃, rfl⟩ := h₂
      simp only [pure_def, Check.mk.injEq, Except.ok.injEq] at h₃
      obtain ⟨rfl, rfl⟩ := h₃
      cases h₁
      exact ⟨t₁, t₂, _, rs₃, rfl, h₂, by simp, rfl⟩
    · rintro ⟨_, t₂, rs₁, rs₂, h₁, h₂, rfl, rfl⟩
      cases h₁
      refine ⟨t₁, _, rs₂, rfl, ?_, rfl⟩
      rw [h₂]
      simp

theorem checkDecls_silent {expected : Option Ty} {ds : List Node} {t : Ty}
    (hb : ∀ id ∈ Node.identsAll ds, id.Bound) (hs : ∀ d ∈ ds, d.Signed) :
    (checkDecls expected ds).check = ⟨[], .ok t⟩ ↔ ProgramTyped ds ∧ t = .success := by
  induction ds generalizing t with
  | nil => simp [checkDecls, ProgramTyped, eq_comm]
  | cons d ds ih =>
    simp only [Node.identsAll, List.forall_mem_append] at hb
    rw [List.forall_mem_cons] at hs
    rw [checkDecls_cons_eq_returned]
    constructor
    · rintro ⟨t₁, t₂, rs₁, rs₂, h₁, h₂, hrs, rfl⟩
      obtain ⟨rfl, rfl⟩ := List.append_eq_nil_iff.mp hrs.symm
      obtain ⟨hd, rfl⟩ := (checkDecl_silent hb.1 hs.1).mp h₁
      obtain ⟨hds, rfl⟩ := (ih hb.2 hs.2).mp h₂
      exact ⟨List.forall_mem_cons.mpr ⟨hd, hds⟩, by simp [Ty.all, Ty.isError]⟩
    · rintro ⟨h, rfl⟩
      obtain ⟨hd, hds⟩ := List.forall_mem_cons.mp h
      exact ⟨.success, .success, [], [], (checkDecl_silent hb.1 hs.1).mpr ⟨hd, rfl⟩,
        (ih hb.2 hs.2).mpr ⟨hds, rfl⟩, rfl, by simp [Ty.all, Ty.isError]⟩

/-- On a program whose identifiers are bound, silence of the whole check is well-typedness. -/
theorem checkProgram_silent {expected : Option Ty} {program : Program} {t : Ty}
    (hb : ∀ id ∈ Node.identsAll program, id.Bound)
    (hs : ∀ d ∈ program, d.Signed) :
    (checkProgram expected program).check = ⟨[], .ok t⟩ ↔ ProgramTyped program ∧ t = .success := by
  rw [← checkDecls_silent hb hs]
  rcases hdecls : (checkDecls expected program).check with ⟨rs, why | t'⟩
  · simp [checkProgram, hdecls, Except.map]
  · cases rs <;> simp [checkProgram, hdecls, Except.map]

end Sema
