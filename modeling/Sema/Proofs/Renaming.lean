import Mathlib.Logic.Equiv.Basic
import Sema.Proofs.Reanalysis
import Sema.Proofs.Resolution.Renaming
import Sema.Proofs.Typing.Renaming

/-!
# Analysis commutes with renaming

How the parts of a program are called makes no difference to what is said of it.
-/

namespace Sema

section Renaming

variable (r : Renaming)

private theorem types_rename (first : Nat) (journal : Journal) (log : List LogEntry)
    (program : Program) :
    Run.types first journal log (Node.renameAll r program) =
      { Run.types first journal log program with program := Node.renameAll r program } := by
  have hcheck : (checkProgram none (Node.renameAll r program)).check =
      (checkProgram none program).check := checkProgram_rename r none program
  cases houtcome : (checkProgram none program).check.outcome with
  | error why => simp only [Run.types, hcheck, houtcome]
  | ok type =>
    by_cases hfailed : (journal.recordAll (checkProgram none program).check.reports).failed = true
    · simp only [Run.types, hcheck, houtcome, if_pos hfailed]
    · simp only [Run.types, hcheck, houtcome, if_neg hfailed]

/-- A renamed program is analysed as the program is: the analysis comes to the same verdict, if it
comes to one, with the same diagnostics and the same log, and it leaves the renamed tree with the
renamed symbols on it. -/
theorem analysis_commutes_with_renaming (journal : Journal) (program : Program) :
    (analyze journal (Node.renameAll r program)).program =
        Node.renameAll r (analyze journal program).program ∧
      (analyze journal (Node.renameAll r program)).journal = (analyze journal program).journal ∧
      (analyze journal (Node.renameAll r program)).log = (analyze journal program).log ∧
      (analyze journal (Node.renameAll r program)).outcome.toOption =
        (analyze journal program).outcome.toOption := by
  have hnames := resolveProgram_rename r program
  refine ⟨by rw [analyze_program, analyze_program, hnames], ?_⟩
  rcases hrun : resolveProgram program .empty with ⟨bound, ⟨t, _ | why⟩, rs⟩
  · rw [hrun] at hnames
    by_cases hclean : rs = []
    · simp [analyze, hrun, hnames, Stage.rename, hclean, types_rename]
    · simp [analyze, hrun, hnames, Stage.rename, hclean]
  · rw [hrun] at hnames
    simp [analyze, hrun, hnames, Stage.rename, Except.toOption]

end Renaming

/-- Exchanges the names `p` and `q`. -/
def exchange : Renaming where
  apply := Equiv.swap "p" "q"
  injective := (Equiv.swap "p" "q").injective
  apply_text prim := by cases prim <;> decide
  apply_blank := by decide

/-- A struct `p` with a field `q`, a variable `q` of it, and a wrong assignment to its field become
a struct `q` with a field `p`, a variable `p` of it, and a wrong assignment to its field. -/
theorem exchanged_program_verdict :
    let program (p q : String) : Program :=
      [.structDecl ⟨p, ⟨1, 8⟩, none⟩ [.varDecl (.primType .int) ⟨q, ⟨1, 16⟩, none⟩],
        .varDecl (.structType ⟨p, ⟨2, 1⟩, none⟩) ⟨q, ⟨2, 3⟩, none⟩,
        .fnDecl (.primType .void) ⟨"f", ⟨3, 6⟩, none⟩ [] []
          [.assignStmt (.assign (.dot (.ident ⟨q, ⟨4, 3⟩, none⟩) ⟨q, ⟨4, 5⟩, none⟩)
            (.lit (.bool true) ⟨4, 9⟩))]]
    (analyze {} (program "q" "p")).outcome.toOption =
      some ⟨[.ofKind .assignmentMismatch ⟨4, 3⟩], true, false, some .error⟩ := by
  intro program
  have hverdict : (analyze {} (program "p" "q")).outcome.toOption =
    some ⟨[.ofKind .assignmentMismatch ⟨4, 3⟩], true, false, some .error⟩ := rfl
  rw [← hverdict]
  exact (analysis_commutes_with_renaming exchange {} (program "p" "q")).2.2.2

end Sema
