import Sema.Proofs.Resolution.Progress
import Sema.Proofs.Resolution.Shape

/-!
# What stops name analysis

Mistakes in the use of names are reported, and the analysis goes on past them into every part of the
tree. Where a node stands in a slot that is not for its family the analysis stops, whatever has been
reported before.
-/

namespace Sema

/-- Name analysis stops at a fault exactly if the tree is malformed. A malformed tree stops it
whatever its names and symbols; the hypotheses let the analysis of a well-shaped one end. -/
theorem name_analysis_stops_iff_malformed {program : Program}
    (hunbound : ∀ id ∈ Node.identsAll program, id.symbol = none)
    (hnamed : ∀ n ∈ Node.allNodes program, n.isNamed = true) :
    (∃ why, (resolveProgram program .empty).stage.fault = some why) ↔
      wellShaped program = false := by
  rw [← Option.isSome_iff_exists, Option.isSome_iff_ne_none, ← Bool.not_eq_true]
  refine not_congr ⟨fun hfault => ?_, fun hshaped => ?_⟩
  · exact List.all_eq_true.mpr (resolveProgram_shaped hfault)
  · exact resolveProgram_returns_of_wellShaped hshaped hnamed hunbound

/-- A variable of type void, and a function with the name of another variable. In its body an
undeclared name is tested and an undeclared function called, with a path that leads nowhere and an
operation on a type for arguments. -/
def malformedProgram : Program :=
  [.varDecl (.primType .void) ⟨"f", ⟨1, 6⟩, none⟩,
    .varDecl (.primType .int) ⟨"g", ⟨2, 5⟩, none⟩,
    .fnDecl (.primType .void) ⟨"g", ⟨3, 6⟩, none⟩ [] []
      [.ifStmt (.ident ⟨"x", ⟨4, 7⟩, none⟩) []
        [.callStmt (.call ⟨"h", ⟨5, 5⟩, none⟩
          [.dot (.dot (.ident ⟨"g", ⟨5, 7⟩, none⟩) ⟨"a", ⟨5, 9⟩, none⟩) ⟨"b", ⟨5, 11⟩, none⟩,
            .unary "-" (.primType .int)])]]]

/-- Five mistakes are reported on the way to the malformed node, and none of them hides it. -/
theorem malformedProgram_stops :
    (∀ id ∈ Node.identsAll malformedProgram, id.symbol = none) ∧
      (∀ n ∈ Node.allNodes malformedProgram, n.isNamed = true) ∧
      (resolveProgram malformedProgram .empty).reports.length = 5 ∧
      ∃ why, (resolveProgram malformedProgram .empty).stage.fault = some why := by
  have hunbound : ∀ id ∈ Node.identsAll malformedProgram, id.symbol = none := by decide
  have hnamed : ∀ n ∈ Node.allNodes malformedProgram, n.isNamed = true := by decide
  exact ⟨hunbound, hnamed, rfl, (name_analysis_stops_iff_malformed hunbound hnamed).mpr rfl⟩

end Sema
