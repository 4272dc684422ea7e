import Mathlib.Algebra.Group.Nat.Defs
import Sema.Proofs.Places
import Sema.Proofs.Printer.Progress
import Sema.Proofs.Reanalysis
import Sema.Proofs.Resolution.Progress
import Sema.Proofs.Typing.Progress
import Sema.Proofs.Verdict

/-!
# Mistakes of a program are no faults

A program as it is read from its text is analysed to the end, whatever mistakes it has. It is
printed to the end too, unless it has a number of too many digits.
-/

namespace Sema

theorem Text.numeral?_isSome {n : Int} :
    (numeral? n).isSome = true ↔ n.natAbs < 10 ^ digitLimit := by
  rw [← Nat.length_toDigits_le_iff (by decide) (by decide), numeral?]
  split <;> simp [*]

/-- The diagnostics have texts for a listener, if there is one. -/
def Journal.CanShow (journal : Journal) (ds : List Diagnostic) : Prop :=
  journal.echo = none ∨ ∀ d ∈ ds, d.text?.isSome = true

theorem Diagnostic.isSome_text? {d : Diagnostic} (h : d.pos.text?.isSome = true) :
    d.text?.isSome = true := by
  obtain ⟨text, htext⟩ := Option.isSome_iff_exists.mp h
  rw [text?, htext]
  rfl

section Written

variable {program : Program}

/-- What name analysis leaves of a program can be checked, however many names it has blamed. -/
theorem resolveProgram_checkable (hgrammar : conforms program = true)
    (hproper : ∀ n ∈ Node.allNodes program, n.isProper = true)
    (hunbound : ∀ id ∈ Node.identsAll program, id.symbol = none) :
    ∀ d ∈ (resolveProgram program .empty).value, d.Checkable := by
  have hleft := Node.forall_isProper_of_eraseAll (resolveProgram_erase program .empty) hproper
  have htypable : ∀ id ∈ Node.identsAll (resolveProgram program .empty).value, id.Typable := by
    obtain ⟨scope, h⟩ := Resolves.of_resolveProgram (resolveProgram_returns hgrammar hunbound)
    have hregular := h.regular ⟨[], [], Laid.initial⟩ fun id hid =>
      Ident.regular_of_none (hunbound id hid)
    exact fun id hid => (hregular id hid).typable
  intro d hd
  exact ⟨Node.forall_mem_allNodes.mp hleft d hd,
    fun id hid => htypable id (Node.mem_identsAll.mpr ⟨d, hd, hid⟩)⟩

theorem resolveProgram_conforms (hgrammar : conforms program = true) (table : SymbolTable) :
    conforms (resolveProgram program table).value = true := by
  rw [← conforms_eraseAll, resolveProgram_erase, conforms_eraseAll, hgrammar]

theorem Journal.CanShow.of_places {journal : Journal}
    (h : journal.echo = none ∨ ∀ pos ∈ Node.places program, pos.text?.isSome = true)
    {ds : List Diagnostic} (hplaces : ∀ d ∈ ds, d.pos ∈ Node.places program) :
    journal.CanShow ds :=
  h.imp_right fun hall d hd => Diagnostic.isSome_text? (hall d.pos (hplaces d hd))

theorem allNodes_writable_iff (program : Program) (table : SymbolTable) :
    (∀ n ∈ Node.allNodes (resolveProgram program table).value, n.isWritable = true) ↔
      ∀ n ∈ Node.allNodes program, n.isWritable = true :=
  ⟨Node.forall_of_eraseAll Node.isWritable_erase (resolveProgram_erase program table).symm,
    Node.forall_of_eraseAll Node.isWritable_erase (resolveProgram_erase program table)⟩

/-- No fault stops the analysis of a program that conforms to the grammar, has known operators and
carries no symbols, if its places can be shown to the listener that there may be. Its types can be
checked even where its names have been blamed. What the analysis leaves of it can be printed exactly
if its numbers can be written, and having too many digits for that is the only fault. -/
theorem user_errors_are_no_faults (hgrammar : conforms program = true)
    (hproper : ∀ n ∈ Node.allNodes program, n.isProper = true)
    (hunbound : ∀ id ∈ Node.identsAll program, id.symbol = none) (journal : Journal)
    (hshown : journal.echo = none ∨ ∀ pos ∈ Node.places program, pos.text?.isSome = true) :
    (∃ verdict, (analyze journal program).outcome = .ok verdict ∧
      journal.CanShow verdict.diagnostics) ∧
    (∀ expected, ∃ type reports,
      (checkProgram expected (resolveProgram program .empty).value).check = ⟨reports, .ok type⟩ ∧
        journal.CanShow reports) ∧
    ∀ annotated,
      ((∀ n ∈ Node.allNodes program, n.isWritable = true) →
        ∃ text, (Program.print annotated (analyze journal program).program).1 = .ok text) ∧
      ((¬ ∀ n ∈ Node.allNodes program, n.isWritable = true) →
        (Program.print annotated (analyze journal program).program).1 =
          .error .tooManyDigits) := by
  have hfault := resolveProgram_returns hgrammar hunbound
  have hconforms := resolveProgram_conforms hgrammar .empty
  have hleft := Node.forall_isProper_of_eraseAll (resolveProgram_erase program .empty) hproper
  have htypes (expected : Option Ty) :=
    checkProgram_ends expected hconforms (resolveProgram_checkable hgrammar hproper hunbound)
  have hheard (expected : Option Ty) :=
    Journal.CanShow.of_places hshown fun d hd => (checkProgram_within_places hfault expected d hd).1
  refine ⟨?_, fun expected => ?_, fun annotated => ?_⟩
  · by_cases hclean : (resolveProgram program .empty).reports = []
    · obtain ⟨type, htype⟩ := htypes none
      rw [(analyze_clean journal hfault hclean rfl).1, htype]
      exact ⟨_, rfl, hheard none⟩
    · exact ⟨_, (analyze_blamed journal hfault hclean).1,
        .of_places hshown (resolveProgram_reports_at_places hfault)⟩
  · obtain ⟨type, htype⟩ := htypes expected
    exact ⟨type, _, by rw [← htype], hheard expected⟩
  · rw [analyze_program, ← allNodes_writable_iff program .empty]
    exact ⟨Program.print_of_writable annotated hconforms hleft,
      Program.print_of_not_writable annotated hconforms hleft⟩

end Written

/-- A struct declared twice and then hidden by a parameter, a field of a struct that does not exist,
a void variable, a call of a variable, and fields selected from whatever these leave unbound. -/
def faultyProgram : Program :=
  [.structDecl ⟨"P", ⟨1, 8⟩, none⟩
      [.varDecl (.primType .int) ⟨"x", ⟨1, 16⟩, none⟩,
        .varDecl (.structType ⟨"Q", ⟨1, 19⟩, none⟩) ⟨"q", ⟨1, 28⟩, none⟩],
    .structDecl ⟨"P", ⟨2, 8⟩, none⟩ [.varDecl (.primType .void) ⟨"v", ⟨2, 17⟩, none⟩],
    .fnDecl (.structType ⟨"Q", ⟨3, 8⟩, none⟩) ⟨"f", ⟨3, 10⟩, none⟩
      [.formalDecl (.structType ⟨"P", ⟨3, 19⟩, none⟩) ⟨"P", ⟨3, 21⟩, none⟩] []
      [.assignStmt (.assign
          (.dot (.dot (.ident ⟨"P", ⟨4, 3⟩, none⟩) ⟨"q", ⟨4, 5⟩, none⟩) ⟨"x", ⟨4, 7⟩, none⟩)
          (.unary "!" (.ident ⟨"y", ⟨4, 12⟩, none⟩))),
        .callStmt (.call ⟨"P", ⟨5, 3⟩, none⟩ [.ident ⟨"f", ⟨5, 5⟩, none⟩]),
        .whileStmt (.binary "==" (.ident ⟨"f", ⟨6, 10⟩, none⟩)
            (.dot (.ident ⟨"f", ⟨6, 15⟩, none⟩) ⟨"x", ⟨6, 17⟩, none⟩)) []
          [.returnStmt .missing ⟨7, 5⟩]]]

theorem faultyProgram_analyzed_to_end :
    conforms faultyProgram = true ∧
      (∀ n ∈ Node.allNodes faultyProgram, n.isProper = true) ∧
      (∀ id ∈ Node.identsAll faultyProgram, id.symbol = none) ∧
      (∃ verdict, (analyze {} faultyProgram).outcome = .ok verdict) ∧
      (∃ type reports, (checkProgram none (resolveProgram faultyProgram .empty).value).check =
        ⟨reports, .ok type⟩) ∧
      ∃ text, (Program.print true (analyze {} faultyProgram).program).1 = .ok text := by
  have hgrammar : conforms faultyProgram = true := by decide
  have hproper : ∀ n ∈ Node.allNodes faultyProgram, n.isProper = true := by decide
  have hunbound : ∀ id ∈ Node.identsAll faultyProgram, id.symbol = none := by decide
  obtain ⟨⟨verdict, hverdict, -⟩, htypes, hprint⟩ :=
    user_errors_are_no_faults hgrammar hproper hunbound {} (.inl rfl)
  obtain ⟨type, reports, htype, -⟩ := htypes none
  exact ⟨hgrammar, hproper, hunbound, ⟨verdict, hverdict⟩, ⟨type, reports, htype⟩,
    (hprint true).1 (by decide)⟩

/-- A function that writes a number. -/
def writingProgram (value : Int) : Program :=
  [.fnDecl (.primType .void) ⟨"f", ⟨1, 6⟩, none⟩ [] [] [.writeStmt (.lit (.int value) ⟨2, 11⟩)]]

/-- The least number with a digit too many: no mistake, and yet a fault when it is printed. -/
theorem long_number_not_printed :
    let program := writingProgram (10 ^ Text.digitLimit : Nat)
    conforms program = true ∧ (∀ n ∈ Node.allNodes program, n.isProper = true) ∧
      (∀ id ∈ Node.identsAll program, id.symbol = none) ∧
      (∃ verdict, (analyze {} program).outcome = .ok verdict ∧ verdict.ok = true) ∧
      ∀ annotated, (Program.print annotated (analyze {} program).program).1 =
        .error .tooManyDigits := by
  have hlong : Text.numeral? (10 ^ Text.digitLimit : Nat) = none := by
    rw [← Option.not_isSome_iff_eq_none, Text.numeral?_isSome, Int.natAbs_natCast]
    exact Nat.lt_irrefl _
  generalize ((10 ^ Text.digitLimit : Nat) : Int) = value at hlong
  refine ⟨rfl, List.all_eq_true.mp rfl, List.forall_mem_singleton.mpr rfl, ⟨_, rfl, rfl⟩,
    fun annotated => ?_⟩
  have hproper : ∀ n ∈ Node.allNodes (analyze {} (writingProgram value)).program,
      n.isProper = true := List.all_eq_true.mp rfl
  refine Program.print_of_not_writable annotated rfl hproper fun hnumbers => ?_
  have hnumber : (Text.numeral? value).isSome = true :=
    hnumbers (.lit (.int value) ⟨2, 11⟩) (List.mem_of_getElem? (i := 3) rfl)
  rw [hlong] at hnumber
  cases hnumber

end Sema
