import Sema.Proofs.Resolution.Shape
import Sema.Proofs.Typing.Places

/-!
# Where a program is blamed

Every diagnostic of a verdict stands at an identifier, a literal or a return of the program, and all
of them belong to one phase: to that of names if a name is blamed, else to that of types.
-/

namespace Sema

/-- The diagnostics are of the kinds of name analysis, each at one of the identifiers. -/
def NamesBlamed (rs : List Diagnostic) (ids : List Ident) : Prop :=
  ∀ d ∈ rs, ∃ id ∈ ids, ∃ kind : DiagnosticKind, kind.isNaming = true ∧ d = .ofKind kind id.pos

section NamesBlamed

variable {rs rs' : List Diagnostic} {ids ids' : List Ident}

theorem NamesBlamed.nil (ids : List Ident) : NamesBlamed [] ids := List.forall_mem_nil _

theorem NamesBlamed.one {kind : DiagnosticKind} {id : Ident} (hkind : kind.isNaming = true)
    (hid : id ∈ ids) : NamesBlamed [.ofKind kind id.pos] ids :=
  List.forall_mem_singleton.mpr ⟨id, hid, kind, hkind, rfl⟩

theorem NamesBlamed.mono (h : NamesBlamed rs ids) (hids : ids ⊆ ids') : NamesBlamed rs ids' := by
  intro d hd
  obtain ⟨id, hid, hkind⟩ := h d hd
  exact ⟨id, hids hid, hkind⟩

theorem NamesBlamed.append (h : NamesBlamed rs ids) (h' : NamesBlamed rs' ids') :
    NamesBlamed (rs ++ rs') (ids ++ ids') :=
  List.forall_mem_append.mpr
    ⟨h.mono (List.subset_append_left _ _), h'.mono (List.subset_append_right _ _)⟩

end NamesBlamed

section Steps

variable {t t' : SymbolTable} {id id' : Ident} {rs : List Diagnostic}

private theorem UseBinds.namesBlamed (h : UseBinds t id id' rs) : NamesBlamed rs [id'] := by
  cases h with
  | known _ => exact .nil _
  | unknown _ => exact .one rfl (List.mem_singleton_self _)

private theorem StructBinds.namesBlamed {d : Option StructDef} (h : StructBinds t id id' d rs) :
    NamesBlamed rs [id'] := by
  cases h with
  | known _ => exact .nil _
  | unknown _ => exact .one rfl (List.mem_singleton_self _)

private theorem FieldBinds.namesBlamed {owner : Ident} (h : FieldBinds t owner id id' rs) :
    NamesBlamed rs [owner, id'] := by
  cases h with
  | unbound _ | known _ _ _ => exact .nil _
  | unknown _ _ _ => exact .one rfl (by simp)
  | nonStruct _ _ => exact .one rfl (by simp)

private theorem Declares.namesBlamed {s : Symbol} (h : Declares t id s t' id' rs) :
    NamesBlamed rs [id'] := by
  cases h with
  | fresh _ => exact .nil _
  | taken _ => exact .one rfl (List.mem_singleton_self _)

private theorem StorageDeclares.namesBlamed {type type' : Node}
    (h : StorageDeclares t id type t' type' id' rs) : NamesBlamed rs (type'.idents ++ [id']) := by
  cases h with
  | void => exact .one rfl (by simp)
  | scalar _ h => simpa [Node.idents] using h.namesBlamed
  | struct hname h => simpa [Node.idents] using hname.namesBlamed.append h.namesBlamed
  | undefined hname => exact hname.namesBlamed.mono (by simp [Node.idents])

private theorem ResultBinds.namesBlamed {type type' : Node} (h : ResultBinds t type type' rs) :
    NamesBlamed rs type'.idents := by
  cases h with
  | struct hname => simpa [Node.idents] using hname.namesBlamed
  | other _ => exact .nil _

end Steps

theorem Resolves.namesBlamed {global : Nat} {p : Phrase} {t t' : SymbolTable}
    {ns ns' : List Node} {rs : List Diagnostic} (h : Resolves global p t ns t' ns' rs) :
    NamesBlamed rs (Node.identsAll ns') := by
  induction h with
  | nil => exact .nil _
  | cons _ _ ihhead ihtail =>
    rw [Node.identsAll_singleton] at ihhead
    exact ihhead.append ihtail
  | lit | bareReturn => exact .nil _
  | ident h => exact h.namesBlamed
  | @dot t base base' owner field field' rs₁ rs₂ _ _ howner hfield ih =>
    -- the owner is the last name of the base
    have hmem : owner ∈ base'.idents := Node.mem_idents_of_pathEnd howner
    rw [Node.identsAll_singleton] at ih ⊢
    exact (ih.append hfield.namesBlamed).mono (by simp [Node.idents, hmem])
  | call hcallee _ ih =>
    simpa [Node.idents] using hcallee.namesBlamed.append ih
  | ifStmt _ _ _ ihcond ihdecls ihstmts | whileStmt _ _ _ ihcond ihdecls ihstmts =>
    rw [Node.identsAll_singleton] at ihcond
    simpa [Node.idents] using ihcond.append (ihdecls.append ihstmts)
  | ifElseStmt _ _ _ _ _ ihcond ihdecls ihstmts ihdecls' ihstmts' =>
    rw [Node.identsAll_singleton] at ihcond
    simpa [Node.idents] using
      ihcond.append ((ihdecls.append ihstmts).append (ihdecls'.append ihstmts'))
  | varDecl h | formalDecl h => simpa [Node.idents] using h.namesBlamed
  | fnDecl _ htype _ _ hid _ _ _ ihformals ihdecls ihstmts =>
    simpa [Node.idents] using htype.namesBlamed.append
      (hid.namesBlamed.append (ihformals.append (ihdecls.append ihstmts)))
  | structDecl _ _ hid ih =>
    exact (ih.append hid.namesBlamed).mono (by simp [Node.idents])
  | _ =>
    rename_i ih
    simpa [Node.identsAll, Node.idents] using ih

theorem resolveProgram_namesBlamed {program : Program} {table : SymbolTable}
    (h : (resolveProgram program table).stage.fault = none) :
    NamesBlamed (resolveProgram program table).reports
      (Node.identsAll (resolveProgram program table).value) := by
  obtain ⟨scope, hresolves⟩ := Resolves.of_resolveProgram h
  exact hresolves.namesBlamed

theorem places_resolveProgram (program : Program) (table : SymbolTable) :
    Node.places (resolveProgram program table).value = Node.places program :=
  Node.places_of_eraseAll (resolveProgram_erase program table)

theorem resolveProgram_reports_at_places {program : Program} {table : SymbolTable}
    (h : (resolveProgram program table).stage.fault = none) :
    ∀ d ∈ (resolveProgram program table).reports, d.pos ∈ Node.places program := by
  intro d hd
  obtain ⟨id, hid, kind, -, rfl⟩ := resolveProgram_namesBlamed h d hd
  rw [← places_resolveProgram program table]
  exact Node.place_of_ident hid

/-- Types are blamed at places of the program too, once its names have been looked at. -/
theorem checkProgram_within_places {program : Program} {table : SymbolTable}
    (h : (resolveProgram program table).stage.fault = none) (expected : Option Ty) :
    (checkProgram expected (resolveProgram program table).value).check.Within
      (Node.places program) := by
  rw [← places_resolveProgram program table]
  exact checkProgram_within expected (resolveProgram_value_shaped h)

/-- Each diagnostic of a verdict stands at an identifier, a literal or a return of the program. If a
name is blamed, all are of the kinds of name analysis, and otherwise none is. -/
theorem diagnostics_point_into_program {journal : Journal} {program : Program} {v : Verdict}
    (h : (analyze journal program).outcome = .ok v) :
    (∀ d ∈ v.diagnostics, d.pos ∈ Node.places program) ∧
    (v.namesOk = false →
      ∀ d ∈ v.diagnostics, ∃ kind, d.kind = some kind ∧ kind.isNaming = true) ∧
    (v.namesOk = true →
      ∀ d ∈ v.diagnostics, ∃ kind, d.kind = some kind ∧ kind.isNaming = false) := by
  cases hfault : (resolveProgram program .empty).stage.fault with
  | some why =>
    rw [analyze_stopped journal hfault] at h
    cases h
  | none =>
    by_cases hclean : (resolveProgram program .empty).reports = []
    · rw [(analyze_clean journal hfault hclean rfl).1] at h
      cases htypes : (checkProgram none (resolveProgram program .empty).value).check.outcome with
      | error why =>
        rw [htypes] at h
        cases h
      | ok t =>
        rw [htypes] at h
        cases h
        have hwithin := checkProgram_within_places hfault none
        exact ⟨fun d hd => (hwithin d hd).1, by simp, fun _ d hd => (hwithin d hd).2⟩
    · rw [(analyze_blamed journal hfault hclean).1] at h
      cases h
      refine ⟨resolveProgram_reports_at_places hfault, ?_, by simp⟩
      intro _ d hd
      obtain ⟨id, -, kind, hkind, rfl⟩ := resolveProgram_namesBlamed hfault d hd
      exact ⟨kind, rfl, hkind⟩

/-- A parameter where a variable should be, and in the function after it a condition, a return and
an operand that are blamed for their types: at an identifier, at the return and at a literal. -/
def mistypedProgram : Program :=
  [.formalDecl (.primType .int) ⟨"x", ⟨1, 5⟩, some (.unknown "?")⟩,
    .fnDecl (.primType .int) ⟨"f", ⟨2, 5⟩, none⟩ [] []
      [.ifStmt (.ident ⟨"x", ⟨3, 7⟩, none⟩) [] [.returnStmt .missing ⟨4, 5⟩],
        .returnStmt (.binary "+" (.lit (.string "\"a\"") ⟨5, 10⟩)
          (.ident ⟨"x", ⟨5, 16⟩, none⟩)) ⟨5, 3⟩]]

theorem mistypedProgram_blamed_in_place :
    ∃ v, (analyze {} mistypedProgram).outcome = .ok v ∧ v.namesOk = true ∧
      v.diagnostics.map Diagnostic.pos = [⟨3, 7⟩, ⟨4, 5⟩, ⟨5, 10⟩] ∧
      (∀ d ∈ v.diagnostics, d.pos ∈ Node.places mistypedProgram) ∧
      ∀ d ∈ v.diagnostics, ∃ kind, d.kind = some kind ∧ kind.isNaming = false := by
  have hverdict : ∃ v, (analyze {} mistypedProgram).outcome = .ok v ∧ v.namesOk = true ∧
      v.diagnostics.map Diagnostic.pos = [⟨3, 7⟩, ⟨4, 5⟩, ⟨5, 10⟩] := ⟨_, rfl, rfl, rfl⟩
  obtain ⟨v, hv, hnames, hpos⟩ := hverdict
  obtain ⟨hplaces, -, hkinds⟩ := diagnostics_point_into_program hv
  exact ⟨v, hv, hnames, hpos, hplaces, hkinds hnames⟩

end Sema
