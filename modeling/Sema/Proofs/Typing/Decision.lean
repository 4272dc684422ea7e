import Sema.Proofs.Resolution.Binding
import Sema.Proofs.Resolution.Runs
import Sema.Proofs.Typing.Agreement

/-!
# Type analysis decides the type system

On a program whose names were bound without a complaint, the checks of types and the rules of types
agree, for the program and for each of its parts.
-/

namespace Sema

theorem Resolves.signed {global : Nat} {p : Phrase} {t t' : SymbolTable} {ns ns' : List Node}
    {rs : List Diagnostic} (h : Resolves global p t ns t' ns' rs) (hclean : rs = []) :
    ∀ n ∈ ns', n.Signed := by
  induction h with
  | nil => simp
  | cons _ _ ihhead ihtail =>
    obtain ⟨rfl, rfl⟩ := List.append_eq_nil_iff.mp hclean
    have hhead := ihhead rfl
    rw [List.forall_mem_singleton] at hhead
    exact List.forall_mem_cons.mpr ⟨hhead, ihtail rfl⟩
  | @fnDecl t t₁ t₂ scope type type' id id' formals formals' decls decls' stmts stmts' params result
      rs₁ rs₂ rs₃ rs₄ rs₅ _ _ _ hresult hid =>
    simp only [List.append_eq_nil_iff] at hclean
    obtain ⟨-, rfl, -⟩ := hclean
    rw [List.forall_mem_singleton]
    exact ⟨params, result, hid.symbol_eq, hresult⟩
  | _ =>
    rw [List.forall_mem_singleton]
    trivial

section Clean

variable {program : Program} {table : SymbolTable}

theorem resolveProgram_bound (hfault : (resolveProgram program table).stage.fault = none)
    (hclean : (resolveProgram program table).reports = []) :
    ∀ id ∈ Node.identsAll (resolveProgram program table).value, id.Bound := by
  obtain ⟨scope, h⟩ := Resolves.of_resolveProgram hfault
  exact h.bound hclean

theorem resolveProgram_signed (hfault : (resolveProgram program table).stage.fault = none)
    (hclean : (resolveProgram program table).reports = []) :
    ∀ d ∈ (resolveProgram program table).value, d.Signed := by
  obtain ⟨scope, h⟩ := Resolves.of_resolveProgram hfault
  exact h.signed hclean

/-- Once the names of a program are bound without a complaint, its types are checked without a
complaint exactly if the rules give it, and each of its expressions has just the type that a check
without a complaint finds. The table may hold anything before the names are bound. -/
theorem type_analysis_decides_type_system
    (hfault : (resolveProgram program table).stage.fault = none)
    (hclean : (resolveProgram program table).reports = []) :
    (∀ expected, (checkProgram expected (resolveProgram program table).value).check =
        ⟨[], .ok .success⟩ ↔ ProgramTyped (resolveProgram program table).value) ∧
      ∀ e ∈ Node.allNodes (resolveProgram program table).value, ∀ t,
        checkExpr e = ⟨[], .ok t⟩ ↔ HasType e t := by
  have hbound := resolveProgram_bound hfault hclean
  constructor
  · intro expected
    rw [checkProgram_silent hbound (resolveProgram_signed hfault hclean)]
    simp
  · intro e he t
    constructor
    · intro hcheck
      apply HasType.of_checkExpr e _ hcheck
      intro id hid
      exact hbound id (Node.idents_of_part he hid)
    · intro htype
      exact htype.checkExpr_eq

end Clean

/-- A struct with a variable of it, and a function that calls itself on a field. -/
def pointProgram : Program :=
  [.structDecl ⟨"Point", ⟨1, 8⟩, none⟩ [.varDecl (.primType .int) ⟨"x", ⟨1, 20⟩, none⟩],
    .varDecl (.structType ⟨"Point", ⟨2, 1⟩, none⟩) ⟨"p", ⟨2, 7⟩, none⟩,
    .fnDecl (.primType .int) ⟨"f", ⟨3, 5⟩, none⟩
      [.formalDecl (.primType .int) ⟨"n", ⟨3, 11⟩, none⟩] []
      [.ifStmt (.binary "<" (.ident ⟨"n", ⟨4, 7⟩, none⟩) (.lit (.int 1) ⟨4, 11⟩)) []
          [.returnStmt (.dot (.ident ⟨"p", ⟨5, 12⟩, none⟩) ⟨"x", ⟨5, 14⟩, none⟩) ⟨5, 5⟩],
        .returnStmt (.call ⟨"f", ⟨6, 10⟩, none⟩
          [.binary "-" (.ident ⟨"n", ⟨6, 12⟩, none⟩)
            (.dot (.ident ⟨"p", ⟨6, 16⟩, none⟩) ⟨"x", ⟨6, 18⟩, none⟩)]) ⟨6, 3⟩]]

theorem pointProgram_typed :
    (resolveProgram pointProgram .empty).stage.fault = none ∧
      (resolveProgram pointProgram .empty).reports = [] ∧
      ProgramTyped (resolveProgram pointProgram .empty).value := by
  have hfault : (resolveProgram pointProgram .empty).stage.fault = none := rfl
  have hclean : (resolveProgram pointProgram .empty).reports = [] := rfl
  exact ⟨hfault, hclean, ((type_analysis_decides_type_system hfault hclean).1 none).mp rfl⟩

end Sema
