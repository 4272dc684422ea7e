import Sema.Proofs.Typing.Calls
import Sema.Proofs.Typing.Parts
import Sema.Proofs.Verdict

/-!
# What stops type analysis

Once the names of a program are bound without a complaint, only an unknown operator in the body of a
function can stop the check of its types. An operator of two operands is looked up before they are
checked, and always stops it. An operator of one operand is looked up after the operand, so an error
there hides it; then the program is blamed for the error at least.
-/

namespace Sema

open Check

theorem binaryRule?_eq_none_iff {op : String} :
    binaryRule? op = none ↔ op ∉ arithmeticOps ∧ op ∉ logicalOps ∧ op ∉ relationalOps ∧
      op ∉ equalityOps := by
  grind [binaryRule?]

theorem HasType.hasKnownOperator {n : Node} {t : Ty} (h : HasType n t) :
    n.hasKnownOperator = true := by
  rw [← Bool.not_eq_false]
  intro hunknown
  cases h with
  | negation he | complement he => cases hunknown
  | arithmetic hop | logical hop | relational hop | equality hop =>
    simp only [Node.hasKnownOperator, Option.isSome_eq_false_iff, Option.isNone_iff_eq_none,
      binaryRule?_eq_none_iff] at hunknown
    simp [hop] at hunknown
  | _ => cases hunknown

/-- An unknown operator is exposed unless its only operand is an error. -/
theorem Node.exposes_or_absorbed {n : Node} (h : n.hasKnownOperator = false) :
    (∃ why, n.Exposes why) ∨
      ∃ op operand, n = .unary op operand ∧ (checkExpr operand).outcome = .ok .error := by
  cases n with
  | unary op operand =>
    by_cases hoperand : (checkExpr operand).outcome = .ok .error
    · exact .inr ⟨op, operand, rfl, hoperand⟩
    · exact .inl ⟨_, .unary (by simpa [hasKnownOperator] using h) hoperand⟩
  | binary op left right => exact .inl ⟨_, .binary (by simpa [hasKnownOperator] using h)⟩
  | _ => cases h

/-- The check of a program stops exactly if an unknown operator is exposed in the body of a
function, and it stops with the fault of such an operator. An unknown operator that does not stop
the check has an operand that is an error, and the program does not pass. -/
theorem unknown_operators_stop_unless_absorbed {program : Program} (hclean : NamesClean program)
    (expected : Option Ty) :
    let bound := (resolveProgram program .empty).value
    let bodies := Node.allNodes (bound.flatMap Node.body)
    let outcome := (checkProgram expected bound).check.outcome
    ((∃ why, outcome = .error why) ↔ ∃ n ∈ bodies, ∃ why, n.Exposes why) ∧
      (∀ why, outcome = .error why → ∃ n ∈ bodies, n.Exposes why) ∧
      ∀ n ∈ bodies, n.hasKnownOperator = false → (∃ why, outcome = .error why) ∨
        outcome = .ok .error ∧
          ∃ op operand, n = .unary op operand ∧ (checkExpr operand).outcome = .ok .error := by
  intro bound bodies outcome
  have hshaped : ∀ d ∈ bound, d.isShapedDecl = true := resolveProgram_value_shaped hclean.1
  have hstops : (checkProgram expected bound).check.StopsIn bodies :=
    checkProgram_stopsIn expected hshaped hclean.typable
  have hexposed : (∃ n ∈ bodies, ∃ why, n.Exposes why) → ∃ why, outcome = .error why := by
    rintro ⟨n, hn, why, hexposes⟩
    cases houtcome : outcome with
    | error why' => exact ⟨why', rfl⟩
    | ok t => exact absurd hexposes (hstops.quiet ⟨t, houtcome⟩ n hn why)
  refine ⟨⟨?_, hexposed⟩, hstops.fault, ?_⟩
  · rintro ⟨why, hwhy⟩
    obtain ⟨n, hn, hexposes⟩ := hstops.fault why hwhy
    exact ⟨n, hn, why, hexposes⟩
  · intro n hn hunknown
    rcases Node.exposes_or_absorbed hunknown with hexposes | habsorbed
    · exact .inl (hexposed ⟨n, hn, hexposes⟩)
    · cases houtcome : outcome with
      | error why => exact .inl ⟨why, rfl⟩
      | ok t =>
        refine .inr ⟨?_, habsorbed⟩
        have hsigned := resolveProgram_signed hclean.1 hclean.2
        have ht := checkProgram_outcome hclean.bound hsigned houtcome
        by_cases hreports : (checkProgram expected bound).check.reports = []
        · -- a program that passes is well typed, so its operators are known
          have hsilent : (checkProgram expected bound).check = ⟨[], .ok t⟩ := by
            rw [← hreports, ← houtcome]
          have htyped := ((checkProgram_silent hclean.bound hsigned).mp hsilent).1
          obtain ⟨u, hu⟩ := htyped.parts hshaped n hn (Node.isCompound_of_unknown hunknown)
          rw [hu.hasKnownOperator] at hunknown
          cases hunknown
        · rw [ht, if_neg (by simpa using hreports)]

/-- A function that writes with an unknown operator twice: over an operand that is an error, and
between two numbers. -/
def strayProgram : Program :=
  [.fnDecl (.primType .void) ⟨"f", ⟨1, 6⟩, none⟩ [] []
    [.writeStmt (.unary "~" (.unary "-" (.lit (.bool true) ⟨2, 11⟩))),
      .writeStmt (.binary "%" (.lit (.int 1) ⟨3, 9⟩) (.lit (.int 2) ⟨3, 13⟩))]]

/-- The check goes on past the first of them and stops at the second. -/
theorem strayProgram_stops :
    let bound := (resolveProgram strayProgram .empty).value
    let fault : Fault := .breach (.unknownBinary "%") ⟨3, 9⟩
    NamesClean strayProgram ∧ (checkProgram none bound).check.outcome = .error fault ∧
      ∃ n ∈ Node.allNodes (bound.flatMap Node.body), n.Exposes fault := by
  have hclean : NamesClean strayProgram := ⟨rfl, rfl⟩
  exact ⟨hclean, rfl, (unknown_operators_stop_unless_absorbed hclean none).2.1 _ rfl⟩

/-- A function that writes with an unknown operator over an operand that is an error. -/
def absorbedProgram : Program :=
  [.fnDecl (.primType .void) ⟨"f", ⟨1, 6⟩, none⟩ [] []
    [.writeStmt (.unary "~" (.unary "-" (.lit (.bool true) ⟨2, 11⟩)))]]

/-- The unknown operator does not stop the check, which blames the operand and comes to its end. -/
theorem absorbedProgram_ends :
    let bound := (resolveProgram absorbedProgram .empty).value
    NamesClean absorbedProgram ∧
      (∃ n ∈ Node.allNodes (bound.flatMap Node.body), n.hasKnownOperator = false) ∧
      (checkProgram none bound).check =
        ⟨[.ofKind .arithmetic ⟨2, 11⟩], .ok .error⟩ :=
  ⟨⟨rfl, rfl⟩, ⟨_, List.mem_of_getElem? (i := 1) rfl, rfl⟩, rfl⟩

end Sema
