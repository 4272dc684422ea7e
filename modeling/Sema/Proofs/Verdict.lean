import Sema.Analysis
import Sema.Proofs.Typing.Decision

/-!
# Verdicts

What an analysis says in its verdict, in the journal and in the flag of the journal is one and the
same thing.
-/

namespace Sema

/-- A program with bound names passes the checks of types exactly if they report nothing, and fails
them otherwise. -/
theorem checkProgram_outcome {expected : Option Ty} {program : Program} {t : Ty}
    (hb : ∀ id ∈ Node.identsAll program, id.Bound) (hs : ∀ d ∈ program, d.Signed)
    (h : (checkProgram expected program).check.outcome = .ok t) :
    t = if (checkProgram expected program).check.reports.isEmpty then .success else .error := by
  by_cases hreports : (checkProgram expected program).check.reports = []
  · have hsilent : (checkProgram expected program).check = ⟨[], .ok t⟩ := by
      rw [← hreports, ← h]
    obtain ⟨-, rfl⟩ := (checkProgram_silent hb hs).mp hsilent
    simp [hreports]
  · have hdecls : (checkDecls expected program).check.reports ≠ [] := hreports
    simp only [checkProgram] at h
    cases houtcome : (checkDecls expected program).check.outcome with
    | error why =>
      rw [houtcome] at h
      cases h
    | ok t' =>
      rw [houtcome] at h
      simp only [Except.map, Except.ok.injEq] at h
      simp [← h, hreports, hdecls]

section Phases

variable (journal : Journal) {program : Program}

theorem analyze_stopped {why : Fault}
    (hfault : (resolveProgram program .empty).stage.fault = some why) :
    (analyze journal program).outcome = .error why := by
  simp [analyze, hfault]

/-- Where names are blamed, types are not looked at. -/
theorem analyze_blamed (hfault : (resolveProgram program .empty).stage.fault = none)
    (hblamed : (resolveProgram program .empty).reports ≠ []) :
    (analyze journal program).outcome =
        .ok { diagnostics := (resolveProgram program .empty).reports } ∧
      (analyze journal program).journal.diagnostics =
        journal.diagnostics ++ (resolveProgram program .empty).reports ∧
      (analyze journal program).journal.failed = true := by
  simp [analyze, hfault, hblamed]

/-- Where no name is blamed, the verdict is that on the types. -/
theorem analyze_clean {types : Check Ty}
    (hfault : (resolveProgram program .empty).stage.fault = none)
    (hclean : (resolveProgram program .empty).reports = [])
    (htypes : (checkProgram none (resolveProgram program .empty).value).check = types) :
    (analyze journal program).outcome =
        types.outcome.map (fun t => { diagnostics := types.reports, namesOk := true,
                                      typesOk := types.reports.isEmpty, resultType := some t }) ∧
      (analyze journal program).journal.diagnostics = journal.diagnostics ++ types.reports ∧
      (analyze journal program).journal.failed = !types.reports.isEmpty := by
  have hrun : analyze journal program = Run.types journal.diagnostics.length
      (journal.startPhase.recordAll []).startPhase
      [.progress .namesStarted, .progress .namesPassed] (resolveProgram program .empty).value := by
    simp [analyze, hfault, hclean]
  rw [hrun]
  obtain ⟨reports, outcome⟩ := types
  cases outcome with
  | error why => simp [Run.types, htypes, Except.map]
  | ok t => cases reports <;> simp [Run.types, htypes, Except.map]

/-- A verdict is one on names if a name is blamed, and one on types otherwise. -/
theorem analyze_returned {v : Verdict} (h : (analyze journal program).outcome = .ok v) :
    (resolveProgram program .empty).stage.fault = none ∧
      ((resolveProgram program .empty).reports ≠ [] ∧
          v = { diagnostics := (resolveProgram program .empty).reports } ∨
        (resolveProgram program .empty).reports = [] ∧
          ∃ rs t, (checkProgram none (resolveProgram program .empty).value).check = ⟨rs, .ok t⟩ ∧
            v = { diagnostics := rs, namesOk := true, typesOk := rs.isEmpty,
                  resultType := some t }) := by
  cases hfault : (resolveProgram program .empty).stage.fault with
  | some why =>
    rw [analyze_stopped journal hfault] at h
    cases h
  | none =>
    refine ⟨rfl, ?_⟩
    by_cases hclean : (resolveProgram program .empty).reports = []
    · rcases htypes : (checkProgram none (resolveProgram program .empty).value).check with
        ⟨rs, why | t⟩
      · rw [(analyze_clean journal hfault hclean htypes).1] at h
        cases h
      · rw [(analyze_clean journal hfault hclean htypes).1] at h
        cases h
        exact .inr ⟨hclean, rs, t, rfl, rfl⟩
    · rw [(analyze_blamed journal hfault hclean).1] at h
      cases h
      exact .inl ⟨hclean, rfl⟩

end Phases

/-- The diagnostics of a verdict are those that the run has added to the journal, and the flag of
the journal says that it is not in favour. If names are blamed there is no word on types. Otherwise
the result type, the two flags and the absence of diagnostics say the same. -/
theorem verdict_parts_agree {journal : Journal} {program : Program} {v : Verdict}
    (h : (analyze journal program).outcome = .ok v) :
    (analyze journal program).journal.diagnostics = journal.diagnostics ++ v.diagnostics ∧
    (analyze journal program).journal.failed = !v.ok ∧
    (v.namesOk = false → v.typesOk = false ∧ v.resultType = none ∧ v.diagnostics ≠ []) ∧
    (v.namesOk = true →
      (v.resultType = some .success ∨ v.resultType = some .error) ∧
      (v.resultType = some .success ↔ v.typesOk = true) ∧
      (v.typesOk = true ↔ v.ok = true) ∧
      (v.ok = true ↔ v.diagnostics = [])) := by
  cases hfault : (resolveProgram program .empty).stage.fault with
  | some why =>
    rw [analyze_stopped journal hfault] at h
    cases h
  | none =>
    by_cases hclean : (resolveProgram program .empty).reports = []
    · obtain ⟨houtcome, hjournal, hfailed⟩ := analyze_clean journal hfault hclean rfl
      rw [houtcome] at h
      cases htypes : (checkProgram none (resolveProgram program .empty).value).check.outcome with
      | error why =>
        rw [htypes] at h
        cases h
      | ok t =>
        rw [htypes] at h
        cases h
        -- the type follows from the reports because every name is bound
        have ht := checkProgram_outcome (resolveProgram_bound hfault hclean)
          (resolveProgram_signed hfault hclean) htypes
        refine ⟨hjournal, hfailed, by simp, ?_⟩
        intro _
        cases hreports : (checkProgram none (resolveProgram program .empty).value).check.reports with
        | nil => simp [ht, hreports, Verdict.ok]
        | cons d ds => simp [ht, hreports, Verdict.ok]
    · obtain ⟨houtcome, hjournal, hfailed⟩ := analyze_blamed journal hfault hclean
      rw [houtcome] at h
      cases h
      exact ⟨hjournal, hfailed, by simp [hclean], by simp⟩

/-- A call with too many arguments keeps its type, and is found out all the same, on a journal that
has a complaint already. -/
theorem excess_argument_verdict :
    let journal : Journal := ⟨[.ofKind .undeclared ⟨9, 9⟩], true, none⟩
    let program : Program :=
      [.fnDecl (.primType .int) ⟨"f", ⟨1, 5⟩, none⟩ [] []
        [.returnStmt (.call ⟨"f", ⟨2, 10⟩, none⟩ [.lit (.bool true) ⟨2, 12⟩]) ⟨2, 3⟩]]
    let v : Verdict := ⟨[.ofKind .arityMismatch ⟨2, 10⟩], true, false, some .error⟩
    (analyze journal program).outcome = .ok v ∧
      (analyze journal program).journal.diagnostics = journal.diagnostics ++ v.diagnostics ∧
      (analyze journal program).journal.failed = !v.ok := by
  intro journal program v
  have h : (analyze journal program).outcome = .ok v := rfl
  have hagree := verdict_parts_agree h
  exact ⟨h, hagree.1, hagree.2.1⟩

end Sema
