import Sema.Proofs.Resolution.Progress
import Sema.Proofs.StructLayouts

/-!
# Access paths and the layouts they follow

A path starts at an identifier and selects fields from left to right. The tree of a path is nested
the other way round, with the last field outermost, so each field is bound by the symbol that the
analysis of the path before it has left behind.
-/

namespace Sema

open Resolver

/-- The path that goes on from `base` through the fields. -/
def Node.select (base : Node) (fields : List Ident) : Node := fields.foldl .dot base

/-- The outermost scope declares a struct of this name, with this layout. -/
def SymbolTable.HasLayout (t : SymbolTable) (struct : String) (layout : Scope) : Prop :=
  (struct, some (.structDecl struct (some (.ofScope layout)))) ∈ t.outermost

/-- Behind `owner`, each field is bound to its entry in the layout of the struct that the identifier
before it is a variable of. The first one for which this fails ends the path. -/
inductive FieldsFollow (t : SymbolTable) :
    Ident → List Ident → List Ident → List Diagnostic → Prop
  | arrived {owner : Ident} : FieldsFollow t owner [] [] []
  | found {owner field : Ident} {struct : String} {layout : Scope} {s : Symbol}
      {fields fields' : List Ident} {rs : List Diagnostic}
      (howner : owner.symbol = some (.structVar struct)) (hlayout : t.HasLayout struct layout)
      (hfield : layout.lookup field.name = some (some s))
      (hrest : FieldsFollow t { field with symbol := some s } fields fields' rs) :
      FieldsFollow t owner (field :: fields) ({ field with symbol := some s } :: fields') rs
  | absent {owner field : Ident} {struct : String} {layout : Scope} {fields : List Ident}
      (howner : owner.symbol = some (.structVar struct)) (hlayout : t.HasLayout struct layout)
      (hfield : layout.lookup field.name = none) :
      FieldsFollow t owner (field :: fields) (field :: fields)
        [.ofKind .invalidStructField field.pos]
  | nonStruct {owner field : Ident} {s : Symbol} {fields : List Ident}
      (howner : owner.symbol = some s) (hs : ∀ struct, s ≠ .structVar struct) :
      FieldsFollow t owner (field :: fields) (field :: fields)
        [.ofKind .dotAccessOfNonStruct owner.pos]

/-- The root of a path is bound to what its name stands for, and the fields follow it. -/
inductive PathFollows (t : SymbolTable) (root : Ident) (fields : List Ident) :
    Ident → List Ident → List Diagnostic → Prop
  | known {s : Symbol} {fields' : List Ident} {rs : List Diagnostic}
      (hroot : t.lookupLexical root.name = .ok (some s))
      (hfields : FieldsFollow t { root with symbol := some s } fields fields' rs) :
      PathFollows t root fields { root with symbol := some s } fields' rs
  | unknown (hroot : t.lookupLexical root.name = .ok none) :
      PathFollows t root fields root fields [.ofKind .undeclared root.pos]

/-- The first `n` identifiers of the list are bound and the others are as they were. Only where some
are left is there a complaint, and then there is one. -/
structure BoundUpTo (ids ids' : List Ident) (rs : List Diagnostic) (n : Nat) : Prop where
  within : n ≤ ids.length
  bound : ∀ id ∈ ids'.take n, id.Bound
  unchanged : ids'.drop n = ids.drop n
  complete : rs = [] ↔ n = ids.length
  one_complaint : rs.length ≤ 1

theorem BoundUpTo.none (id : Ident) (ids : List Ident) (d : Diagnostic) :
    BoundUpTo (id :: ids) (id :: ids) [d] 0 where
  within := Nat.zero_le _
  bound := by simp
  unchanged := rfl
  complete := by simp
  one_complaint := Nat.le_refl 1

theorem BoundUpTo.cons {ids ids' : List Ident} {rs : List Diagnostic} {n : Nat} (id : Ident)
    {id' : Ident} (hid : id'.Bound) (h : BoundUpTo ids ids' rs n) :
    BoundUpTo (id :: ids) (id' :: ids') rs (n + 1) where
  within := Nat.succ_le_succ h.within
  bound := by
    rw [List.take_succ_cons]
    exact List.forall_mem_cons.mpr ⟨hid, h.bound⟩
  unchanged := h.unchanged
  complete := by
    rw [h.complete, List.length_cons]
    omega
  one_complaint := h.one_complaint

theorem FieldsFollow.boundUpTo {t : SymbolTable} {owner : Ident} {fields fields' : List Ident}
    {rs : List Diagnostic} (h : FieldsFollow t owner fields fields' rs) :
    ∃ n, BoundUpTo fields fields' rs n := by
  induction h with
  | arrived => exact ⟨0, Nat.zero_le _, by simp, rfl, by simp, by simp⟩
  | found _ _ _ _ ih =>
    obtain ⟨n, hn⟩ := ih
    exact ⟨n + 1, hn.cons _ rfl⟩
  | absent _ _ _ | nonStruct _ _ => exact ⟨0, .none _ _ _⟩

theorem PathFollows.boundUpTo {t : SymbolTable} {root root' : Ident} {fields fields' : List Ident}
    {rs : List Diagnostic} (h : PathFollows t root fields root' fields' rs) :
    ∃ n, BoundUpTo (root :: fields) (root' :: fields') rs n := by
  cases h with
  | known _ hfields =>
    obtain ⟨n, hn⟩ := hfields.boundUpTo
    exact ⟨n + 1, hn.cons _ rfl⟩
  | unknown _ => exact ⟨0, .none _ _ _⟩

section Paths

variable {t : SymbolTable} {inner : List Scope} {g : Scope} {base base' : Node} {owner : Ident}
  {rs : List Diagnostic}

private theorem returns_dot {field field' : Ident} {rs' : List Diagnostic}
    (hpath : base.pathEnd?.isSome = true) (hbase : Returns (resolveExpr base) t base' t rs)
    (howner : base'.pathEnd? = some owner) (hfield : FieldBinds t owner field field' rs') :
    Returns (resolveExpr (.dot base field)) t (.dot base' field') t (rs ++ rs') := by
  have hbind := (returns_bindFieldOf howner).mpr ⟨rfl, hfield⟩
  simp only [resolveExpr, returns_bind, returns_pure]
  exact ⟨(), t, [], rs ++ rs', returns_requirePath.mpr ⟨hpath, rfl, rfl⟩,
    ⟨base', t, rs, rs', hbase, ⟨field', t, rs', [], hbind, ⟨rfl, rfl, rfl⟩, by simp⟩, rfl⟩, rfl⟩

private theorem returns_select_unbound (base base' : Node) {fields : List Ident}
    (hpath : base.pathEnd?.isSome = true) (hbase : Returns (resolveExpr base) t base' t rs)
    (howner : base'.pathEnd? = some owner) (hnone : owner.symbol = none)
    (hfields : ∀ id ∈ fields, id.symbol = none) :
    Returns (resolveExpr (base.select fields)) t (base'.select fields) t rs := by
  induction fields generalizing base base' owner with
  | nil => exact hbase
  | cons field fields ih =>
    rw [List.forall_mem_cons] at hfields
    have hdot : Returns (resolveExpr (.dot base field)) t (.dot base' field) t (rs ++ []) :=
      returns_dot hpath hbase howner (.unbound hnone)
    rw [List.append_nil] at hdot
    exact ih (.dot base field) (.dot base' field) rfl hdot rfl hfields.1 hfields.2

private theorem Laid.hasLayout (h : Laid t inner g) {struct : String}
    (hs : (Symbol.structVar struct).IsStorage g) :
    ∃ d layout, t.resolveStruct struct = some d ∧ t.HasLayout struct layout ∧
      Scope.Local g layout ∧ ∀ name, d.field name = .ok (layout.lookup name).join := by
  have hfound : (t.resolveStruct struct).isSome = true := by
    rw [h.resolveStruct]
    exact hs
  obtain ⟨d, hd⟩ := Option.isSome_iff_exists.mp hfound
  obtain ⟨hname, layout, hfields, hlocal⟩ := h.structDef hd
  have hmem : t.HasLayout struct layout := by
    rw [h.resolveStruct, SymbolTable.structIn?, Option.bind_eq_some_iff] at hd
    obtain ⟨s, hlookup, hdef⟩ := hd
    rw [Option.join_eq_some_iff, List.lookup_eq_some_iff] at hlookup
    obtain ⟨before, after, hsplit, -⟩ := hlookup
    cases s with
    | structDecl name fields =>
      cases hdef
      cases hname
      cases hfields
      rw [SymbolTable.HasLayout, h.outermost_eq, hsplit]
      simp
    | _ => cases hdef
  refine ⟨d, layout, hd, hmem, hlocal, ?_⟩
  intro name
  rw [StructDef.field, hfields]
  rfl

/-- From a base that is bound to a declared symbol, the analysis follows the layouts. -/
private theorem Laid.returns_select (h : Laid t inner g) (base base' : Node) {s : Symbol}
    {name : String} {fields : List Ident} (hpath : base.pathEnd?.isSome = true)
    (hbase : Returns (resolveExpr base) t base' t rs) (howner : base'.pathEnd? = some owner)
    (hs : owner.symbol = some s) (hglobal : s.IsGlobal g name)
    (hfields : ∀ id ∈ fields, id.symbol = none) :
    ∃ fields' rs', Returns (resolveExpr (base.select fields)) t (base'.select fields') t
      (rs ++ rs') ∧ FieldsFollow t owner fields fields' rs' := by
  induction fields generalizing base base' owner rs s name with
  | nil => exact ⟨[], [], by rwa [List.append_nil], .arrived⟩
  | cons field fields ih =>
    rw [List.forall_mem_cons] at hfields
    -- a field that is blamed keeps having no symbol, and the rest of the path falls silent
    have hblamed {rs' : List Diagnostic} (hfield : FieldBinds t owner field field rs') :
        Returns (resolveExpr (base.select (field :: fields))) t (base'.select (field :: fields)) t
          (rs ++ rs') :=
      returns_select_unbound (.dot base field) (.dot base' field) rfl
        (returns_dot hpath hbase howner hfield) rfl hfields.1 hfields.2
    by_cases hvariable : ∃ struct, s = .structVar struct
    · obtain ⟨struct, rfl⟩ := hvariable
      obtain ⟨d, layout, hd, hlayout, hlocal, hlookup⟩ := h.hasLayout hglobal
      cases hentry : layout.lookup field.name with
      | none =>
        have hmissing : d.field field.name = .ok none := by
          rw [hlookup, hentry]
          rfl
        exact ⟨field :: fields, _, hblamed (.unknown hs hd hmissing), .absent hs hlayout hentry⟩
      | some entry =>
        obtain ⟨s, rfl, hstorage⟩ := hlocal.lookup hentry
        have hfound : d.field field.name = .ok (some s) := by
          rw [hlookup, hentry]
          rfl
        have hdot := returns_dot hpath hbase howner (.known hs hd hfound)
        rw [List.append_nil] at hdot
        obtain ⟨fields', rs', hrun, hfollow⟩ :=
          ih _ _ rfl hdot rfl rfl (hstorage.isGlobal field.name) hfields.2
        exact ⟨{ field with symbol := some s } :: fields', rs', hrun,
          .found hs hlayout hentry hfollow⟩
    · have hother : ∀ struct, s ≠ .structVar struct := not_exists.mp hvariable
      exact ⟨field :: fields, _, hblamed (.nonStruct hs hother), .nonStruct hs hother⟩

theorem Laid.returns_path (h : Laid t inner g) {root : Ident} {fields : List Ident}
    (hunbound : ∀ id ∈ root :: fields, id.symbol = none) :
    ∃ root' fields' rs, Returns (resolveExpr (.select (.ident root) fields)) t
      (.select (.ident root') fields') t rs ∧ PathFollows t root fields root' fields' rs := by
  rw [List.forall_mem_cons] at hunbound
  obtain ⟨root', rs, hroot⟩ := h.useBinds root
  have hbase : Returns (resolveExpr (.ident root)) t (.ident root') t rs := by
    simp only [resolveExpr, returns_bind, returns_pure]
    exact ⟨root', t, rs, [], returns_bindUse.mpr ⟨rfl, hroot⟩, ⟨rfl, rfl, rfl⟩, by simp⟩
  cases hroot with
  | known hlookup =>
    obtain ⟨fields', rs', hrun, hfollow⟩ :=
      h.returns_select _ _ rfl hbase rfl rfl (h.lookupLexical hlookup) hunbound.2
    exact ⟨_, fields', rs', hrun, .known hlookup hfollow⟩
  | unknown hlookup =>
    exact ⟨root, fields, _, returns_select_unbound _ _ rfl hbase rfl hunbound.1 hunbound.2,
      .unknown hlookup⟩

end Paths

/-- At every stage of the analysis of a program at which a scope is open, from the opening of the
outermost scope to its closing, the analysis of a path returns and leaves the scopes as they are. It
binds the root to what its name stands for and each field to its entry in a declared layout, up to
the first identifier that cannot be bound. That one is blamed, or the one before it if it is no
variable of a struct, and nothing else is. -/
theorem access_paths_follow_layouts {program : Program} {s : Stage}
    (hs : s ∈ stagesOf program .empty) (hopen : 0 < s.table.depth) {root : Ident}
    {fields : List Ident} (hunbound : ∀ id ∈ root :: fields, id.symbol = none) :
    ∃ root' fields' rs,
      resolveExpr (.select (.ident root) fields) ⟨s.table, none⟩ =
        ⟨.select (.ident root') fields', ⟨s.table, none⟩, rs⟩ ∧
      PathFollows s.table root fields root' fields' rs ∧
      ∃ n, BoundUpTo (root :: fields) (root' :: fields') rs n := by
  rcases isLaid_of_mem_stagesOf program hs with hempty | ⟨inner, g, hlaid⟩
  · rw [hempty] at hopen
    exact absurd hopen (Nat.lt_irrefl 0)
  · obtain ⟨root', fields', rs, hrun, hfollows⟩ := hlaid.returns_path hunbound
    exact ⟨root', fields', rs, hrun, hfollows, hfollows.boundUpTo⟩

/-- A struct within a struct, and a function with a parameter that has the inner struct's name. -/
def nestedProgram : Program :=
  [.structDecl ⟨"In", ⟨1, 8⟩, none⟩ [.varDecl (.primType .int) ⟨"a", ⟨1, 17⟩, none⟩],
    .structDecl ⟨"Out", ⟨2, 8⟩, none⟩
      [.varDecl (.structType ⟨"In", ⟨2, 21⟩, none⟩) ⟨"i", ⟨2, 24⟩, none⟩],
    .fnDecl (.primType .void) ⟨"f", ⟨3, 6⟩, none⟩
      [.formalDecl (.structType ⟨"Out", ⟨3, 15⟩, none⟩) ⟨"o", ⟨3, 19⟩, none⟩,
        .formalDecl (.primType .int) ⟨"In", ⟨3, 26⟩, none⟩] [] []]

/-- The scopes in the body of the function. -/
def nestedScopes : SymbolTable :=
  ⟨[[("o", some (.structVar "Out")), ("In", some (.var "int"))],
    [("In", some (.structDecl "In" (some (.ofScope [("a", some (.var "int"))])))),
      ("Out", some (.structDecl "Out" (some (.ofScope [("i", some (.structVar "In"))])))),
      ("f", some (.function ["Out", "int"] "void"))]]⟩

/-- The path `o.i.a.b.c` is followed through both structs, although a variable hides the name of
one, and ends at a number. -/
theorem nested_path_ends_at_number :
    let root : Ident := ⟨"o", ⟨4, 3⟩, none⟩
    let fields : List Ident := [⟨"i", ⟨4, 5⟩, none⟩, ⟨"a", ⟨4, 7⟩, none⟩, ⟨"b", ⟨4, 9⟩, none⟩,
      ⟨"c", ⟨4, 11⟩, none⟩]
    ⟨nestedScopes, none⟩ ∈ stagesOf nestedProgram .empty ∧ 0 < nestedScopes.depth ∧
      (∀ id ∈ root :: fields, id.symbol = none) ∧
      ∃ root' fields' rs, PathFollows nestedScopes root fields root' fields' rs ∧
        rs = [.ofKind .dotAccessOfNonStruct ⟨4, 7⟩] := by
  intro root fields
  have hs : ⟨nestedScopes, none⟩ ∈ stagesOf nestedProgram .empty :=
    List.mem_of_getElem? (i := 17) rfl
  have hopen : 0 < nestedScopes.depth := by decide
  have hunbound : ∀ id ∈ root :: fields, id.symbol = none := by decide
  obtain ⟨root', fields', rs, hrun, hfollows, -⟩ := access_paths_follow_layouts hs hopen hunbound
  have hreports : (resolveExpr (.select (.ident root) fields) ⟨nestedScopes, none⟩).reports =
      [.ofKind .dotAccessOfNonStruct ⟨4, 7⟩] := rfl
  rw [hrun] at hreports
  exact ⟨hs, hopen, hunbound, root', fields', rs, hfollows, hreports⟩

end Sema
