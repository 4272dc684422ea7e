import Sema.Proofs.Resolution.Moves

/-!
# Struct layouts throughout an analysis

A variable of a struct refers to the struct by name, and so does a field. At every stage of an
analysis the names that are referred to this way are declared, no struct is a part of itself, and
what a name refers to stays what it was.
-/

namespace Sema

/-- The symbol of a variable of a type that has values, or of a variable of a struct. -/
def Symbol.IsVariable : Symbol → Prop
  | .var type => type = "int" ∨ type = "bool"
  | .structVar _ => True
  | _ => False

def Scope.OnlyVariables (scope : Scope) : Prop := ∀ e ∈ scope, ∃ s, e.2 = some s ∧ s.IsVariable

/-- The scope has the struct under its own name. -/
def Scope.HasStruct (scope : Scope) (struct : String) : Prop :=
  ∃ fields, (struct, some (.structDecl struct fields)) ∈ scope

/-- What structs and their variables refer to is declared, once and beforehand. -/
structure LayoutsClosed (t : SymbolTable) : Prop where
  unambiguous : ∀ scope ∈ t.scopes, (scope.map Prod.fst).Nodup
  /-- functions and structs stand in the outermost scope only -/
  within : ∀ scope ∈ t.scopes.dropLast, Scope.OnlyVariables scope
  layout : ∀ name struct fields, (name, some (.structDecl struct fields)) ∈ t.outermost →
    struct = name ∧ ∃ scope, fields = some (.ofScope scope) ∧ Scope.OnlyVariables scope
  declared : ∀ scope ∈ t.scopes, ∀ name struct,
    (name, some (.structVar struct)) ∈ scope → t.outermost.HasStruct struct
  /-- the fields of a struct are of structs that were declared before it -/
  earlier : ∀ before after struct fields,
    t.outermost = before ++ (struct, some (.structDecl struct (some (.ofScope fields)))) :: after →
      ∀ field part, (field, some (.structVar part)) ∈ fields → Scope.HasStruct before part

/-- A field of the struct `whole` is of the struct `part`. -/
def SymbolTable.HasPart (t : SymbolTable) (part whole : String) : Prop :=
  ∃ fields field, (whole, some (.structDecl whole (some (.ofScope fields)))) ∈ t.outermost ∧
    (field, some (.structVar part)) ∈ fields

/-- The place of a struct among those of the outermost scope is a rank for its parts. -/
theorem LayoutsClosed.wellFounded {t : SymbolTable} (h : LayoutsClosed t) :
    WellFounded t.HasPart := by
  have hnodup : (t.outermost.map Prod.fst).Nodup := by
    obtain ⟨scopes⟩ := t
    rcases List.eq_nil_or_concat' scopes with rfl | ⟨inner, g, rfl⟩
    · exact List.nodup_nil
    · have hlast : SymbolTable.outermost ⟨inner ++ [g]⟩ = g := by simp [SymbolTable.outermost]
      rw [hlast]
      exact h.unambiguous g (by simp)
  let rank (name : String) : Nat := (t.outermost.map Prod.fst).idxOf name
  have hrank {part whole : String} (hpart : t.HasPart part whole) : rank part < rank whole := by
    obtain ⟨fields, field, hwhole, hfield⟩ := hpart
    obtain ⟨before, after, hsplit⟩ := List.append_of_mem hwhole
    obtain ⟨partFields, hmem⟩ := h.earlier before after whole fields hsplit field part hfield
    have hmem : part ∈ before.map Prod.fst := List.mem_map_of_mem hmem
    have hnames :
        t.outermost.map Prod.fst = before.map Prod.fst ++ whole :: after.map Prod.fst := by
      rw [hsplit, List.map_append, List.map_cons]
    -- `whole` has its first place right behind `before`, where `part` has its own
    have hfresh : whole ∉ before.map Prod.fst := by
      rw [hnames, List.nodup_append] at hnodup
      exact fun hold => hnodup.2.2 whole hold whole (by simp) rfl
    calc rank part = (before.map Prod.fst).idxOf part := by
          simp only [rank, hnames, List.idxOf_append_of_mem hmem]
      _ < (before.map Prod.fst).length := List.idxOf_lt_length_of_mem hmem
      _ = rank whole := by simp [rank, hnames, List.idxOf_append_of_notMem hfresh]
  exact Subrelation.wf hrank (measure rank).wf

/-- What a scope was filled with before an entry, and that the entry fits it. -/
theorem Grown.split {Fits : Scope → String → Symbol → Prop} {scope : Scope} (h : Grown Fits scope)
    {before after : Scope} {name : String} {entry : Option Symbol}
    (hsplit : scope = before ++ (name, entry) :: after) :
    Grown Fits before ∧ ∃ s, entry = some s ∧ Fits before name s := by
  induction h generalizing after with
  | nil => simp at hsplit
  | @snoc scope name' s hscope _ _ hs ih =>
    rcases List.eq_nil_or_concat' after with rfl | ⟨after, last, rfl⟩
    · obtain ⟨rfl, hlast⟩ := List.append_inj' hsplit rfl
      cases hlast
      exact ⟨hscope, s, rfl, hs⟩
    · rw [← List.cons_append, ← List.append_assoc] at hsplit
      exact ih (List.append_inj' hsplit rfl).1

section Scopes

variable {g scope : Scope}

theorem Scope.Local.isStorage_of_mem (h : Scope.Local g scope) {name : String}
    {entry : Option Symbol} (hmem : (name, entry) ∈ scope) :
    ∃ s, entry = some s ∧ s.IsStorage g := by
  obtain ⟨before, after, hsplit⟩ := List.append_of_mem hmem
  exact (Grown.split h hsplit).2

theorem Scope.Local.onlyVariables (h : Scope.Local g scope) : scope.OnlyVariables := by
  rintro ⟨name, entry⟩ hmem
  obtain ⟨s, rfl, hs⟩ := h.isStorage_of_mem hmem
  cases s with
  | var _ => exact ⟨_, rfl, hs⟩
  | structVar _ => exact ⟨_, rfl, trivial⟩
  | _ => cases hs

theorem Scope.HasStruct.append {struct : String} (h : g.HasStruct struct) (after : Scope) :
    Scope.HasStruct (g ++ after) struct := by
  obtain ⟨fields, hmem⟩ := h
  exact ⟨fields, List.mem_append_left _ hmem⟩

theorem Scope.Global.hasStruct (h : g.Global) {struct : String}
    (hs : (Symbol.structVar struct).IsStorage g) : g.HasStruct struct := by
  simp only [Symbol.IsStorage, SymbolTable.structIn?] at hs
  cases hlookup : g.lookup struct with
  | none => simp [hlookup] at hs
  | some entry =>
    obtain ⟨s, rfl, hglobal⟩ := h.lookup hlookup
    obtain ⟨before, after, hsplit, -⟩ := List.lookup_eq_some_iff.mp hlookup
    cases s with
    | structDecl name fields =>
      obtain ⟨rfl, -⟩ := hglobal
      exact ⟨fields, by simp [hsplit]⟩
    | _ => simp [hlookup, Symbol.structDef?] at hs

theorem Scope.Global.isGlobal_of_mem (h : g.Global) {name : String} {entry : Option Symbol}
    (hmem : (name, entry) ∈ g) :
    ∃ before after s, g = before ++ (name, entry) :: after ∧ Scope.Global before ∧
      entry = some s ∧ s.IsGlobal before name := by
  obtain ⟨before, after, hsplit⟩ := List.append_of_mem hmem
  obtain ⟨hbefore, s, hs, hfits⟩ := Grown.split h hsplit
  exact ⟨before, after, s, hsplit, hbefore, hs, hfits⟩

end Scopes

theorem LayoutsClosed.empty : LayoutsClosed .empty where
  unambiguous _ h := absurd h List.not_mem_nil
  within _ h := absurd h List.not_mem_nil
  layout _ _ _ h := absurd h List.not_mem_nil
  declared _ h := absurd h List.not_mem_nil
  earlier before after struct fields h := by simp [SymbolTable.outermost, ScopeStack.empty] at h

theorem Laid.layoutsClosed {t : SymbolTable} {inner : List Scope} {g : Scope} (h : Laid t inner g) :
    LayoutsClosed t where
  unambiguous := by
    intro scope hscope
    rw [h.scopes_eq, List.mem_append, List.mem_singleton] at hscope
    rcases hscope with hscope | rfl
    · exact Grown.nodup (h.within scope hscope)
    · exact Grown.nodup h.outermost
  within := by
    intro scope hscope
    rw [h.scopes_eq, List.dropLast_concat] at hscope
    exact (h.within scope hscope).onlyVariables
  layout := by
    intro name struct fields hmem
    rw [h.outermost_eq] at hmem
    obtain ⟨before, after, s, -, -, hs, hfits⟩ := h.outermost.isGlobal_of_mem hmem
    cases hs
    obtain ⟨hname, scope, hfields, hlocal⟩ := hfits
    exact ⟨hname, scope, hfields, hlocal.onlyVariables⟩
  declared := by
    intro scope hscope name struct hmem
    rw [h.scopes_eq, List.mem_append, List.mem_singleton] at hscope
    rw [h.outermost_eq]
    rcases hscope with hscope | rfl
    · obtain ⟨s, hs, hstorage⟩ := (h.within scope hscope).isStorage_of_mem hmem
      cases hs
      exact h.outermost.hasStruct hstorage
    · obtain ⟨before, after, s, hsplit, hbefore, hs, hfits⟩ := h.outermost.isGlobal_of_mem hmem
      cases hs
      rw [hsplit]
      exact (hbefore.hasStruct hfits).append _
  earlier := by
    intro before after struct fields hsplit field part hmem
    rw [h.outermost_eq] at hsplit
    obtain ⟨hbefore, s, hs, hfits⟩ := Grown.split h.outermost hsplit
    cases hs
    obtain ⟨-, scope, hfields, hlocal⟩ := hfits
    cases hfields
    obtain ⟨s, hs, hstorage⟩ := Scope.Local.isStorage_of_mem hlocal hmem
    cases hs
    exact Scope.Global.hasStruct hbefore hstorage

/-- A struct name that is resolved in `t` has the same layout in `t'`. -/
def KeepsLayouts (t t' : SymbolTable) : Prop :=
  ∀ name d, t.resolveStruct name = some d → t'.resolveStruct name = some d

theorem keepsLayouts_of_outermost_grows {t t' : SymbolTable} (ht : t.IsLaid) (ht' : t'.IsLaid)
    (hgrows : t.outermost <+: t'.outermost) : KeepsLayouts t t' := by
  intro name d hd
  obtain ⟨inner, g, hlaid⟩ := ht
  obtain ⟨inner', g', hlaid'⟩ := ht'
  rw [hlaid.outermost_eq, hlaid'.outermost_eq] at hgrows
  obtain ⟨added, rfl⟩ := hgrows
  rw [hlaid.resolveStruct, SymbolTable.structIn?] at hd
  rw [hlaid'.resolveStruct, SymbolTable.structIn?, List.lookup_append]
  cases hlookup : g.lookup name with
  | none => simp [hlookup] at hd
  | some entry =>
    rw [hlookup] at hd
    rw [Option.some_or]
    exact hd

/-- At most one scope is opened or closed, or one name declared. -/
inductive OneChange : SymbolTable → SymbolTable → Prop
  | unchanged {t : SymbolTable} : OneChange t t
  | opened {t : SymbolTable} : OneChange t t.enterScope
  | closed {t t' : SymbolTable} {scope : Scope} (h : t.exitScope = .ok (scope, t')) : OneChange t t'
  | declared {t t' : SymbolTable} {name : String} {s : Option Symbol}
      (h : t.declare name s = .ok t') : OneChange t t'

theorem Moves.oneChange {t t' : SymbolTable} (h : Moves t t') : OneChange t t' := by
  cases h with
  | stay => exact .unchanged
  | enter => exact .opened
  | leave _ => exact .closed rfl
  | declare _ hdeclare => exact .declared hdeclare

section Programs

variable (program : Program)

/-- The stages from the opening of the outermost scope up to its closing. -/
def openStages : List Stage :=
  ⟨ScopeStack.enterScope .empty, none⟩ ::
    (traceDecls 1 program).stages ⟨ScopeStack.enterScope .empty, none⟩

private theorem resolveProgram_stage : (resolveProgram program .empty).stage =
    (Resolver.closeScope
      (resolveDecls 1 program ⟨ScopeStack.enterScope .empty, none⟩).stage).stage := rfl

theorem stagesOf_empty : stagesOf program .empty =
    ⟨.empty, none⟩ :: (openStages program ++ [(resolveProgram program .empty).stage]) := by
  rw [resolveProgram_stage, ← run_traceDecls]
  rfl

theorem openStages_isChain : (openStages program).IsChain fun s s' => Moves s.table s'.table :=
  traceDecls_goesByMoves program ⟨[], [], Laid.initial⟩

theorem openStages_isLaid : ∀ s ∈ openStages program, s.table.IsLaid := by
  have hinitial : SymbolTable.IsLaid (ScopeStack.enterScope .empty) := ⟨[], [], Laid.initial⟩
  exact List.forall_mem_cons.mpr
    ⟨hinitial, (traceDecls_goesByMoves program hinitial).isLaid_of_mem hinitial⟩

theorem openStages_keep_layouts :
    (openStages program).Pairwise fun s s' => KeepsLayouts s.table s'.table := by
  have htrans : Trans (fun s s' : Stage => s.table.outermost <+: s'.table.outermost)
      (fun s s' : Stage => s.table.outermost <+: s'.table.outermost)
      (fun s s' : Stage => s.table.outermost <+: s'.table.outermost) :=
    ⟨fun h h' => h.trans h'⟩
  have hgrow := (openStages_isChain program).imp fun _ _ hmove => hmove.outermost_grows
  apply hgrow.pairwise.imp_of_mem
  intro s s' hs hs' hgrows
  exact keepsLayouts_of_outermost_grows (openStages_isLaid program s hs)
    (openStages_isLaid program s' hs') hgrows

/-- The outermost scope is closed at the end, unless a fault has stopped the analysis before. -/
theorem exists_last_openStage : ∃ s, (openStages program).getLast? = some s ∧
    ((resolveProgram program .empty).stage = s ∨
      (resolveProgram program .empty).stage = ⟨.empty, none⟩ ∧ ∃ scope, s.table = ⟨[scope]⟩) := by
  have hlast : (openStages program).getLast? =
      some (resolveDecls 1 program ⟨ScopeStack.enterScope .empty, none⟩).stage := by
    rw [openStages, List.getLast?_cons, ← List.getLastD_eq_getLast?, Traced.ends, run_traceDecls]
  refine ⟨_, hlast, ?_⟩
  rw [resolveProgram_stage]
  rcases hrun : resolveDecls 1 program ⟨ScopeStack.enterScope .empty, none⟩ with
    ⟨value, ⟨t, _ | why⟩, rs⟩
  · right
    have hreturns : Returns (resolveDecls 1 program) (ScopeStack.enterScope .empty) value t rs :=
      hrun
    obtain ⟨scope, rfl⟩ := (Resolves.of_returns hreturns).opened
    exact ⟨rfl, scope, rfl⟩
  · exact .inl rfl

theorem isLaid_of_mem_stagesOf {s : Stage} (hs : s ∈ stagesOf program .empty) :
    s.table = .empty ∨ s.table.IsLaid := by
  rw [stagesOf_empty, List.mem_cons, List.mem_append, List.mem_singleton] at hs
  rcases hs with rfl | hs | rfl
  · exact .inl rfl
  · exact .inr (openStages_isLaid program s hs)
  · obtain ⟨s, hlast, hclosed | ⟨hclosed, -⟩⟩ := exists_last_openStage program
    · rw [hclosed]
      exact .inr (openStages_isLaid program s (List.mem_of_getLast? hlast))
    · rw [hclosed]
      exact .inl rfl

theorem stagesOf_isChain :
    (stagesOf program .empty).IsChain fun s s' => OneChange s.table s'.table := by
  have hopen := (openStages_isChain program).imp fun _ _ hmove => hmove.oneChange
  rw [stagesOf_empty]
  apply List.IsChain.cons_cons .opened
  apply hopen.append (List.isChain_singleton _)
  intro s hs s' hs'
  obtain ⟨last, hlast, hclosed⟩ := exists_last_openStage program
  cases hs'
  rw [hlast] at hs
  cases hs
  rcases hclosed with hclosed | ⟨hclosed, scope, htable⟩
  · rw [hclosed]
    exact .unchanged
  · rw [hclosed, htable]
    exact .closed rfl

/-- A struct name keeps the layout it has while the outermost scope is open. -/
theorem stagesOf_keep_layouts : (stagesOf program .empty).Pairwise fun s s' =>
    0 < s'.table.depth → KeepsLayouts s.table s'.table := by
  have hopen := openStages_keep_layouts program
  rw [stagesOf_empty, List.pairwise_cons, List.pairwise_append]
  refine ⟨?_, hopen.imp ?_, List.pairwise_singleton _ _, ?_⟩
  · intro s _ _ name d hd
    cases hd
  · intro s s' hkeeps _
    exact hkeeps
  · intro s hs s' hs' hdepth
    obtain rfl := List.mem_singleton.mp hs'
    obtain ⟨last, hlast, hclosed | ⟨hclosed, -⟩⟩ := exists_last_openStage program
    · -- a fault has stopped the analysis, and the last stage is there twice
      rw [hclosed]
      obtain ⟨before, hsplit⟩ := List.getLast?_eq_some_iff.mp hlast
      rw [hsplit, List.mem_append, List.mem_singleton] at hs
      rw [hsplit, List.pairwise_append] at hopen
      rcases hs with hs | rfl
      · exact hopen.2.2 s hs last (List.mem_singleton_self last)
      · exact fun _ _ hd => hd
    · rw [hclosed] at hdepth
      exact absurd hdepth (Nat.lt_irrefl 0)

end Programs

/-- Every stage of the analysis of a program, from the empty table to where it ends or a fault stops
it, has closed layouts. No struct has itself for a part, not even indirectly, and a struct name is
resolved in the outermost scope, to the layout it had at every stage before. -/
theorem layouts_closed_throughout (program : Program) :
    ((stagesOf program .empty).head? = some ⟨.empty, none⟩ ∧
      (stagesOf program .empty).getLast? = some (resolveProgram program .empty).stage ∧
      (stagesOf program .empty).IsChain fun s s' => OneChange s.table s'.table) ∧
    (∀ s ∈ stagesOf program .empty, LayoutsClosed s.table ∧ WellFounded s.table.HasPart ∧
      ∀ name, s.table.resolveStruct name = SymbolTable.structIn? name s.table.outermost) ∧
    (stagesOf program .empty).Pairwise fun s s' =>
      0 < s'.table.depth → KeepsLayouts s.table s'.table := by
  refine ⟨⟨rfl, getLast?_stagesOf program .empty, stagesOf_isChain program⟩, ?_,
    stagesOf_keep_layouts program⟩
  intro s hs
  rcases isLaid_of_mem_stagesOf program hs with hempty | ⟨inner, g, hlaid⟩
  · have hclosed : LayoutsClosed s.table := by
      rw [hempty]
      exact LayoutsClosed.empty
    refine ⟨hclosed, hclosed.wellFounded, fun name => ?_⟩
    rw [hempty]
    rfl
  · refine ⟨hlaid.layoutsClosed, hlaid.layoutsClosed.wellFounded, fun name => ?_⟩
    rw [hlaid.outermost_eq]
    exact hlaid.resolveStruct name

-- how many scopes are open, stage by stage, for a struct with one field and a variable of it
example : (stagesOf
    [.structDecl ⟨"P", ⟨1, 8⟩, none⟩ [.varDecl (.primType .int) ⟨"x", ⟨1, 16⟩, none⟩],
      .varDecl (.structType ⟨"P", ⟨2, 8⟩, none⟩) ⟨"p", ⟨2, 10⟩, none⟩] .empty).map (·.table.depth) =
    [0, 1, 1, 2, 2, 1, 1, 1, 0] := rfl

end Sema
