import Sema.Proofs.Resolution.Runs
import Sema.Proofs.Sessions
import Sema.Proofs.Typing.Progress

/-!
# Lists are analyzed member by member

No statement sees what the analysis makes of another one, and no declaration is checked by what is
found about another. So the analysis of a list is put together from those of its members, and in
another order the same members are blamed for the same things.
-/

namespace Sema

open Resolver Check

section Names

variable {global : Nat} {t t' : SymbolTable} {rs : List Diagnostic}

theorem returns_resolveStmt {s s' : Node} :
    Returns (resolveStmt global s) t s' t' rs ↔
      (resolveStmt global s ⟨t, none⟩).stage.fault = none ∧
        s' = (resolveStmt global s ⟨t, none⟩).value ∧ t' = t ∧
        rs = (resolveStmt global s ⟨t, none⟩).reports := by
  constructor
  · intro h
    have hframe : t' = t := ((runsByRules global s).stmt h).frame.1 (by simp)
    rw [Returns] at h
    rw [h]
    exact ⟨rfl, rfl, hframe, rfl⟩
  · rintro ⟨hfault, rfl, rfl, rfl⟩
    rcases hrun : resolveStmt global s ⟨t', none⟩ with ⟨s', ⟨t₁, fault⟩, rs⟩
    rw [hrun] at hfault
    cases hfault
    obtain rfl : t₁ = t' := ((runsByRules global s).stmt hrun).frame.1 (by simp)
    exact hrun

/-- The statements are analyzed to the end exactly if each of them is by itself, with what is found
about it there. -/
theorem returns_resolveStmts {ss ss' : List Node} :
    Returns (resolveStmts global ss) t ss' t' rs ↔
      (∀ s ∈ ss, (resolveStmt global s ⟨t, none⟩).stage.fault = none) ∧
        ss' = (ss.map fun s => (resolveStmt global s ⟨t, none⟩).value) ∧ t' = t ∧
        rs = ss.flatMap fun s => (resolveStmt global s ⟨t, none⟩).reports := by
  induction ss generalizing ss' rs with
  | nil => simp [resolveStmts]
  | cons s ss ih =>
    simp only [resolveStmts, returns_bind, returns_pure, returns_resolveStmt]
    rw [List.forall_mem_cons, List.map_cons, List.flatMap_cons]
    constructor
    · rintro ⟨_, _, _, _, ⟨hs, rfl, rfl, rfl⟩, ⟨_, _, _, _, hss, ⟨rfl, rfl, rfl⟩, rfl⟩, rfl⟩
      obtain ⟨hrest, rfl, rfl, rfl⟩ := ih.mp hss
      exact ⟨⟨hs, hrest⟩, rfl, rfl, by rw [List.append_nil]⟩
    · rintro ⟨⟨hs, hss⟩, rfl, rfl, rfl⟩
      exact ⟨_, _, _, _, ⟨hs, rfl, rfl, rfl⟩,
        ⟨_, _, _, _, ih.mpr ⟨hss, rfl, rfl, rfl⟩, ⟨rfl, rfl, rfl⟩, (List.append_nil _).symm⟩, rfl⟩

theorem resolveStmts_ends_iff {ss : List Node} :
    (resolveStmts global ss ⟨t, none⟩).stage.fault = none ↔
      ∀ s ∈ ss, (resolveStmt global s ⟨t, none⟩).stage.fault = none := by
  constructor
  · intro hfault
    rcases hrun : resolveStmts global ss ⟨t, none⟩ with ⟨ss', ⟨t', fault⟩, rs⟩
    rw [hrun] at hfault
    cases hfault
    exact (returns_resolveStmts.mp hrun).1
  · intro hss
    have hreturns := returns_resolveStmts.mpr ⟨hss, rfl, rfl, rfl⟩
    rw [Returns] at hreturns
    rw [hreturns]

end Names

namespace Check

/-- Makes the checks one after another. The result is the error type if one of theirs is. -/
def inTurn : List (Check Ty) → Check Ty
  | [] => return .success
  | c :: cs => do return .all [← c, ← inTurn cs]

/-- The check with the error type for its result if it reports anything. -/
def strict (c : Check Ty) : Check Ty :=
  ⟨c.reports, c.outcome.map fun t => if c.reports.isEmpty then t else .error⟩

/-- The whole check and all of its parts come to a result. The parts' reports follow one another in
those of the whole, which has the error type exactly if one of the parts has it. -/
structure MadeOf (whole : Check Ty) (parts : List (Check Ty)) : Prop where
  ends : whole.Ends
  parts_end : ∀ part ∈ parts, part.Ends
  reports : whole.reports = parts.flatMap Check.reports
  error : whole.outcome = .ok .error ↔ ∃ part ∈ parts, part.outcome = .ok .error

theorem inTurn_cons_ok (rs : List Diagnostic) (t : Ty) (cs : List (Check Ty)) :
    inTurn (⟨rs, .ok t⟩ :: cs) =
      ⟨rs ++ (inTurn cs).reports, (inTurn cs).outcome.map fun u => .all [t, u]⟩ := by
  rcases hcs : inTurn cs with ⟨rs', why | u⟩ <;> simp [inTurn, hcs, Except.map]

theorem ends_of_inTurn {cs : List (Check Ty)} (h : (inTurn cs).Ends) : ∀ c ∈ cs, c.Ends := by
  induction cs with
  | nil => exact List.forall_mem_nil _
  | cons c cs ih =>
    obtain ⟨rs, why | t⟩ := c
    · obtain ⟨u, hu⟩ := h
      cases hu
    · obtain ⟨u, hu⟩ := h
      rw [inTurn_cons_ok] at hu
      have hrest : (inTurn cs).Ends := by
        cases houtcome : (inTurn cs).outcome with
        | error why => simp [houtcome, Except.map] at hu
        | ok u => exact ⟨u, houtcome⟩
      exact List.forall_mem_cons.mpr ⟨⟨t, rfl⟩, ih hrest⟩

theorem madeOf_inTurn {cs : List (Check Ty)} (h : ∀ c ∈ cs, c.Ends) : (inTurn cs).MadeOf cs := by
  induction cs with
  | nil => exact ⟨ends_pure _, h, rfl, by simp [inTurn]⟩
  | cons c cs ih =>
    obtain ⟨hc, hcs⟩ := List.forall_mem_cons.mp h
    obtain ⟨rs, outcome⟩ := c
    obtain ⟨t, rfl⟩ : ∃ t, outcome = .ok t := hc
    obtain ⟨⟨u, hu⟩, -, hreports, herror⟩ := ih hcs
    rw [hu] at herror
    rw [inTurn_cons_ok, hu, hreports]
    refine ⟨⟨_, rfl⟩, h, rfl, ?_⟩
    simp only [Except.map, Except.ok.injEq, Ty.all_eq_error_iff] at herror ⊢
    simp [herror, eq_comm]

theorem ends_strict {c : Check Ty} : c.strict.Ends ↔ c.Ends := by
  obtain ⟨rs, why | t⟩ := c <;> simp [strict, Ends, Except.map]

theorem strict_eq_error_iff {c : Check Ty} (h : c.Ends) :
    c.strict.outcome = .ok .error ↔ c.reports ≠ [] ∨ c.outcome = .ok .error := by
  obtain ⟨rs, outcome⟩ := c
  obtain ⟨t, rfl⟩ : ∃ t, outcome = .ok t := h
  cases rs <;> simp [strict, Except.map]

theorem reports_inTurn_one (c : Check Ty) : (inTurn [c]).reports = c.reports := by
  obtain ⟨rs, why | t⟩ := c <;> simp [inTurn]

theorem madeOf_strict {cs : List (Check Ty)} (h : ∀ c ∈ cs, c.Ends) :
    (inTurn cs).strict.MadeOf (cs.map fun c => (inTurn [c]).strict) := by
  have hwhole : (inTurn cs).MadeOf cs := madeOf_inTurn h
  have hone (c : Check Ty) (hc : c ∈ cs) : (inTurn [c]).MadeOf [c] :=
    madeOf_inTurn (List.forall_mem_singleton.mpr (h c hc))
  constructor
  case ends => exact ends_strict.mpr hwhole.ends
  case parts_end =>
    rw [List.forall_mem_map]
    intro c hc
    exact ends_strict.mpr (hone c hc).ends
  case reports =>
    rw [List.flatMap_map]
    simpa only [strict, reports_inTurn_one] using hwhole.reports
  case error =>
    have herror (c : Check Ty) (hc : c ∈ cs) : (inTurn [c]).strict.outcome = .ok .error ↔
        c.reports ≠ [] ∨ c.outcome = .ok .error := by
      rw [strict_eq_error_iff (hone c hc).ends, (hone c hc).error, reports_inTurn_one]
      simp
    rw [strict_eq_error_iff hwhole.ends, hwhole.reports, hwhole.error]
    constructor
    · rintro (hreports | ⟨c, hc, hcerror⟩)
      · -- what the whole reports, one of its parts reports by itself
        obtain ⟨c, hc, hcreports⟩ : ∃ c ∈ cs, c.reports ≠ [] := by
          simpa [List.flatMap_eq_nil_iff] using hreports
        exact ⟨_, List.mem_map_of_mem hc, (herror c hc).mpr (.inl hcreports)⟩
      · exact ⟨_, List.mem_map_of_mem hc, (herror c hc).mpr (.inr hcerror)⟩
    · rintro ⟨_, hpart, hcerror⟩
      obtain ⟨c, hc, rfl⟩ := List.mem_map.mp hpart
      obtain hcreports | hcerror := (herror c hc).mp hcerror
      · exact .inl fun hnil => hcreports (List.flatMap_eq_nil_iff.mp hnil c hc)
      · exact .inr ⟨c, hc, hcerror⟩

end Check

theorem checkStmts_eq_inTurn (expected : Option Ty) (ss : List Node) :
    checkStmts expected ss = inTurn (ss.map (checkStmt expected)) := by
  induction ss with
  | nil => rfl
  | cons s ss ih => rw [checkStmts, ih, List.map_cons, inTurn]

/-- The return type in force at a declaration, and the one it leaves, do not tell in its check. -/
theorem checkDecls_eq_inTurn (expected expected' : Option Ty) (ds : List Node) :
    (checkDecls expected ds).check = inTurn (ds.map fun d => (checkDecl expected' d).check) := by
  induction ds generalizing expected with
  | nil => rfl
  | cons d ds ih =>
    rw [checkDecls_cons_check, ih, List.map_cons, inTurn, checkDecl_check expected expected' d]

theorem checkProgram_eq_strict (expected expected' : Option Ty) (program : Program) :
    (checkProgram expected program).check =
      (inTurn (program.map fun d => (checkDecl expected' d).check)).strict := by
  rw [← checkDecls_eq_inTurn expected expected' program]
  rfl

/-- A statement gets the symbols and the diagnostics that it gets by itself in the same scopes or
under the same return type, and a declaration is checked as it is by itself under any return type.
This holds in every order of a list that is analyzed to its end. -/
theorem lists_analyzed_member_by_member :
    (∀ (global : Nat) (t : SymbolTable) (ss ss' : List Node),
      (resolveStmts global ss ⟨t, none⟩).stage.fault = none → ss.Perm ss' →
        (∀ s ∈ ss', (resolveStmt global s ⟨t, none⟩).stage.fault = none) ∧
          resolveStmts global ss' ⟨t, none⟩ =
            ⟨ss'.map fun s => (resolveStmt global s ⟨t, none⟩).value, ⟨t, none⟩,
              ss'.flatMap fun s => (resolveStmt global s ⟨t, none⟩).reports⟩) ∧
    (∀ (expected : Option Ty) (ss ss' : List Node),
      (checkStmts expected ss).Ends → ss.Perm ss' →
        (checkStmts expected ss').MadeOf (ss'.map (checkStmt expected))) ∧
    ∀ (expected expected' : Option Ty) (program program' : Program),
      (checkProgram expected program).check.Ends → program.Perm program' →
        (checkProgram expected program').check.MadeOf
          (program'.map fun d => (checkProgram expected' [d]).check) := by
  refine ⟨?names, ?statements, ?declarations⟩
  case names =>
    intro global t ss ss' hends hperm
    have hmembers : ∀ s ∈ ss', (resolveStmt global s ⟨t, none⟩).stage.fault = none :=
      fun s hs => resolveStmts_ends_iff.mp hends s (hperm.mem_iff.mpr hs)
    exact ⟨hmembers, returns_resolveStmts.mpr ⟨hmembers, rfl, rfl, rfl⟩⟩
  case statements =>
    intro expected ss ss' hends hperm
    rw [checkStmts_eq_inTurn] at hends ⊢
    have hmembers : ∀ c ∈ ss'.map (checkStmt expected), c.Ends :=
      fun c hc => ends_of_inTurn hends c ((hperm.map _).mem_iff.mpr hc)
    exact madeOf_inTurn hmembers
  case declarations =>
    intro expected expected' program program' hends hperm
    rw [checkProgram_eq_strict expected expected', ends_strict] at hends
    have hmembers : ∀ c ∈ program'.map fun d => (checkDecl expected' d).check, c.Ends :=
      fun c hc => ends_of_inTurn hends c ((hperm.map _).mem_iff.mpr hc)
    have halone (d : Node) : (checkProgram expected' [d]).check =
        (inTurn [(checkDecl expected' d).check]).strict :=
      checkProgram_eq_strict expected' expected' [d]
    rw [checkProgram_eq_strict expected expected']
    simpa only [halone, List.map_map, Function.comp_def] using madeOf_strict hmembers

/-- A loop over a number whose body hides that number and writes something unknown. -/
def hidingLoop : Node :=
  .whileStmt (.ident ⟨"x", ⟨2, 10⟩, some (.var "int")⟩)
    [.varDecl (.primType .bool) ⟨"x", ⟨3, 10⟩, none⟩]
    [.writeStmt (.ident ⟨"y", ⟨4, 13⟩, none⟩)]

/-- The negation of a number, assigned to something unknown. -/
def numberNegation : Node :=
  .assignStmt (.assign (.ident ⟨"z", ⟨6, 3⟩, none⟩)
    (.unary "!" (.ident ⟨"x", ⟨6, 8⟩, some (.var "int")⟩)))

/-- The function with this statement for its body. -/
def functionOf (name : String) (pos : Pos) (stmt : Node) : Node :=
  .fnDecl (.primType .int) ⟨name, pos, some (.function [] "int")⟩ [] [] [stmt]

/-- The loop is blamed for its condition and for what it writes, whether it comes first or last. -/
theorem hidingLoop_blamed_in_place :
    let t : SymbolTable := ⟨[[("x", some (.var "int"))]]⟩
    let f := functionOf "f" ⟨1, 5⟩ hidingLoop
    let g := functionOf "g" ⟨5, 5⟩ numberNegation
    (resolveStmts 1 [numberNegation, hidingLoop] ⟨t, none⟩).reports =
        [.ofKind .undeclared ⟨6, 3⟩, .ofKind .undeclared ⟨4, 13⟩] ∧
      (checkStmts (some .int) [numberNegation, hidingLoop]).reports.map Diagnostic.pos =
        [⟨6, 8⟩, ⟨2, 10⟩] ∧
      (checkProgram none [g, f]).check.outcome = .ok .error ∧
      (checkProgram none [g, f]).check.reports.map Diagnostic.pos =
        [⟨6, 8⟩, ⟨5, 5⟩, ⟨2, 10⟩, ⟨1, 5⟩] := by
  intro t f g
  obtain ⟨hnames, hstmts, hprogram⟩ := lists_analyzed_member_by_member
  have hresolved := hnames 1 t [hidingLoop, numberNegation] [numberNegation, hidingLoop] (by decide)
    (.swap ..)
  have hchecked := hstmts (some .int) [hidingLoop, numberNegation] [numberNegation, hidingLoop]
    ⟨.error, rfl⟩ (.swap ..)
  have hdecls := hprogram none (some .void) [f, g] [g, f] ⟨.error, rfl⟩ (.swap ..)
  refine ⟨?_, ?_, ?_, ?_⟩
  · rw [hresolved.2]
    decide
  · rw [hchecked.reports]
    rfl
  · exact hdecls.error.mpr ⟨_, List.mem_cons_self, rfl⟩
  · rw [hdecls.reports]
    rfl

end Sema
