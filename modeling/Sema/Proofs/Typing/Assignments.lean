import Sema.Proofs.Reanalysis
import Sema.Proofs.Typing.Calls
import Sema.Proofs.Typing.Parts
import Sema.Proofs.Verdict

/-!
# Assignments of an accepted program

The two sides of an assignment have the same type wherever it stands, and neither a function nor the
name of a struct is assigned or assigned to. Nothing is asked about void, so a side may be void: it
is a call of a function that returns nothing then, or an assignment to one, and so is the other.
-/

namespace Sema

/-- The identifier is bound to a function that returns nothing. -/
def Ident.isVoidFunction (id : Ident) : Bool :=
  match id.symbol with
  | some (.function _ result) => result == "void"
  | _ => false

/-- The expression is a call of a function that returns nothing, or an assignment to one. -/
def Node.isVoid : Node → Bool
  | .call callee _ => callee.isVoidFunction
  | .assign target _ => target.isVoid
  | _ => false

theorem Ty.ofName_eq_void_iff {name : String} : ofName name = .void ↔ name = "void" := by
  grind [ofName]

theorem Ident.Regular.not_denotes_void {id : Ident} (h : id.Regular) : ¬ id.Denotes .void := by
  rintro ⟨s, hsymbol, hs⟩
  exact (h s hsymbol).type_ne_void hs

theorem Ident.Denotes.isVoidFunction_iff {id : Ident} {params : List Ty} {result : Ty}
    (h : id.Denotes (.function params (some result))) :
    result = .void ↔ id.isVoidFunction = true := by
  obtain ⟨s, hsymbol, hs⟩ := h
  obtain ⟨names, name, rfl⟩ := Symbol.eq_function_of_type hs
  simp only [Symbol.type, Except.ok.injEq, Ty.function.injEq, Option.some.injEq] at hs
  obtain ⟨-, rfl⟩ := hs
  rw [Ident.isVoidFunction, hsymbol, Ty.ofName_eq_void_iff, beq_iff_eq]

/-- Where every variable has a value, only calls are void. -/
theorem HasType.eq_void_iff {e : Node} {t : Ty} (h : HasType e t)
    (hregular : ∀ id ∈ e.idents, id.Regular) : t = .void ↔ e.isVoid = true := by
  induction h with
  | int | string | bool => simp [Node.isVoid]
  | ident h | dot h =>
    refine iff_of_false ?_ Bool.false_ne_true
    rintro rfl
    exact (hregular _ (by simp [Node.idents])).not_denotes_void h
  | negation | complement | arithmetic | logical | relational | equality => simp [Node.isVoid]
  | assign _ _ _ ih _ =>
    rw [Node.isVoid]
    exact ih fun id hid => hregular id (by simp [Node.idents, hid])
  | call hcallee _ _ _ => exact hcallee.isVoidFunction_iff

theorem typed_of_accepted {journal : Journal} {program : Program} {v : Verdict}
    (h : (analyze journal program).outcome = .ok v) (hok : v.ok = true) :
    NamesClean program ∧ ProgramTyped (resolveProgram program .empty).value := by
  obtain ⟨hfault, ⟨-, rfl⟩ | ⟨hclean, rs, t, htypes, rfl⟩⟩ := analyze_returned journal h
  · cases hok
  · obtain rfl : rs = [] := List.isEmpty_iff.mp hok
    have hsilent := (checkProgram_silent (resolveProgram_bound hfault hclean)
      (resolveProgram_signed hfault hclean)).mp htypes
    exact ⟨⟨hfault, hclean⟩, hsilent.1⟩

/-- The sides of an assignment in an accepted program have one type, which is that of no function
and of no struct's name. It is void exactly if the target is, and exactly if the value is. -/
theorem accepted_assignments_agree {journal : Journal} {program : Program} {v : Verdict}
    (h : (analyze journal program).outcome = .ok v) (hok : v.ok = true) {target value : Node}
    (hassign : .assign target value ∈
      Node.allNodes ((analyze journal program).program.flatMap Node.body)) :
    ∃ t, checkExpr target = ⟨[], .ok t⟩ ∧ checkExpr value = ⟨[], .ok t⟩ ∧
      ¬ t.IsFunction ∧ ¬ t.IsStructName ∧
      (t = .void ↔ target.isVoid = true) ∧ (t = .void ↔ value.isVoid = true) := by
  obtain ⟨hclean, htyped⟩ := typed_of_accepted h hok
  rw [analyze_program] at hassign
  have hregular : ∀ id ∈ (Node.assign target value).idents, id.Regular := fun id hid =>
    hclean.regular id (Node.idents_of_part (Node.mem_allNodes_of_body hassign) hid)
  rw [Node.idents, List.forall_mem_append] at hregular
  obtain ⟨t, ht⟩ := htyped.parts (resolveProgram_value_shaped hclean.1) _ hassign rfl
  cases ht with
  | assign htarget hvalue hassignable =>
    exact ⟨t, htarget.checkExpr_eq, hvalue.checkExpr_eq, hassignable.1, hassignable.2,
      htarget.eq_void_iff hregular.1, hvalue.eq_void_iff hregular.2⟩

/-- A function that assigns one of its parameters to the other and the result back. -/
def structAssignProgram : Program :=
  [.structDecl ⟨"P", ⟨1, 8⟩, none⟩ [.varDecl (.primType .int) ⟨"x", ⟨1, 16⟩, none⟩],
    .fnDecl (.primType .void) ⟨"f", ⟨2, 6⟩, none⟩
      [.formalDecl (.structType ⟨"P", ⟨2, 15⟩, none⟩) ⟨"p", ⟨2, 17⟩, none⟩,
        .formalDecl (.structType ⟨"P", ⟨2, 27⟩, none⟩) ⟨"q", ⟨2, 29⟩, none⟩] []
      [.assignStmt (.assign (.ident ⟨"p", ⟨3, 3⟩, none⟩)
        (.assign (.ident ⟨"q", ⟨3, 7⟩, none⟩) (.ident ⟨"p", ⟨3, 11⟩, none⟩)))]]

theorem structAssignProgram_sides :
    let run := analyze {} structAssignProgram
    let target : Node := .ident ⟨"p", ⟨3, 3⟩, some (.structVar "P")⟩
    let value : Node := .assign (.ident ⟨"q", ⟨3, 7⟩, some (.structVar "P")⟩)
      (.ident ⟨"p", ⟨3, 11⟩, some (.structVar "P")⟩)
    (∃ v, run.outcome = .ok v ∧ v.ok = true) ∧
      .assign target value ∈ Node.allNodes (run.program.flatMap Node.body) ∧
      ∃ t, checkExpr target = ⟨[], .ok t⟩ ∧ checkExpr value = ⟨[], .ok t⟩ ∧ ¬ t.IsFunction ∧
        ¬ t.IsStructName ∧ t ≠ .void := by
  intro run target value
  have hrun : run.outcome = .ok ⟨[], true, true, some .success⟩ := rfl
  have hassign : .assign target value ∈ Node.allNodes (run.program.flatMap Node.body) :=
    List.mem_of_getElem? (i := 1) rfl
  obtain ⟨t, htarget, hvalue, hfunction, hname, hvoid, -⟩ :=
    accepted_assignments_agree hrun rfl hassign
  exact ⟨⟨_, hrun, rfl⟩, hassign, t, htarget, hvalue, hfunction, hname,
    fun ht => Bool.false_ne_true (hvoid.mp ht)⟩

/-- A function that returns nothing assigns one call of itself to another. -/
def voidAssignProgram : Program :=
  [.fnDecl (.primType .void) ⟨"f", ⟨1, 6⟩, none⟩ [] []
    [.assignStmt (.assign (.call ⟨"f", ⟨2, 3⟩, none⟩ []) (.call ⟨"f", ⟨2, 9⟩, none⟩ []))]]

/-- The program is accepted, and both sides of its assignment are void. -/
theorem voidAssignProgram_accepted :
    let run := analyze {} voidAssignProgram
    let target : Node := .call ⟨"f", ⟨2, 3⟩, some (.function [] "void")⟩ []
    let value : Node := .call ⟨"f", ⟨2, 9⟩, some (.function [] "void")⟩ []
    (∃ v, run.outcome = .ok v ∧ v.ok = true) ∧
      .assign target value ∈ Node.allNodes (run.program.flatMap Node.body) ∧
      checkExpr target = ⟨[], .ok .void⟩ ∧ checkExpr value = ⟨[], .ok .void⟩ :=
  ⟨⟨_, rfl, rfl⟩, List.mem_of_getElem? (i := 1) rfl, rfl, rfl⟩

end Sema
