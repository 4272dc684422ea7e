import Sema.Proofs.Resolution.Frame

/-!
# Layouts of structs

The scopes of a table that name analysis has filled. Functions and structs stand in the outermost
scope only. A struct is declared after everything its fields refer to, and whatever is a variable of
a struct refers to one that the outermost scope declares.
-/

namespace Sema

/-- The scope was filled from its front, each entry under a name it did not have, with a symbol that
fits the entries before it. -/
inductive Grown (Fits : Scope → String → Symbol → Prop) : Scope → Prop
  | nil : Grown Fits []
  | snoc {scope : Scope} {name : String} {s : Symbol} (h : Grown Fits scope) (hname : name ≠ "")
      (hfresh : scope.lookup name = none) (hs : Fits scope name s) :
      Grown Fits (scope ++ [(name, some s)])

/-- What fits a scope fits it still when a new name has been added. -/
def Stable (Fits : Scope → String → Symbol → Prop) : Prop :=
  ∀ scope name s name' s', scope.lookup name' = none → Fits scope name s →
    Fits (scope ++ [(name', some s')]) name s

theorem Scope.lookup_snoc {scope : Scope} {name name' : String} {s : Option Symbol} :
    (scope ++ [(name', s)]).lookup name =
      (scope.lookup name).or (if name = name' then some s else none) := by
  rw [List.lookup_append]
  by_cases h : name = name'
  · simp [h]
  · have hne : (name == name') = false := by simpa using h
    simp [List.lookup_cons, hne, h]

section Grown

variable {Fits : Scope → String → Symbol → Prop} {scope : Scope}

theorem Grown.fits (h : Grown Fits scope) (hstable : Stable Fits) {name : String}
    {entry : Option Symbol} (hlookup : scope.lookup name = some entry) :
    ∃ s, entry = some s ∧ Fits scope name s := by
  induction h with
  | nil => cases hlookup
  | @snoc scope name' s' _ _ hfresh hs ih =>
    rw [Scope.lookup_snoc] at hlookup
    cases hold : scope.lookup name with
    | some old =>
      rw [hold, Option.some_or] at hlookup
      cases hlookup
      obtain ⟨s, hs, hfits⟩ := ih hold
      exact ⟨s, hs, hstable _ _ _ _ _ hfresh hfits⟩
    | none =>
      rw [hold, Option.none_or] at hlookup
      by_cases hname : name = name'
      · subst hname
        rw [if_pos rfl] at hlookup
        cases hlookup
        exact ⟨s', rfl, hstable _ _ _ _ _ hfresh hs⟩
      · rw [if_neg hname] at hlookup
        cases hlookup

theorem Grown.nodup (h : Grown Fits scope) : (scope.map Prod.fst).Nodup := by
  induction h with
  | nil => exact List.nodup_nil
  | @snoc scope name s _ _ hfresh _ ih =>
    rw [List.map_append, List.nodup_append]
    refine ⟨ih, by simp, ?_⟩
    intro a ha b hb
    obtain ⟨entry, hentry, rfl⟩ := List.mem_map.mp ha
    have hne := List.lookup_eq_none_iff.mp hfresh entry hentry
    simp at hb hne
    subst hb
    exact fun heq => hne heq.symm

end Grown

/-- The symbol is one that a variable, a field or a parameter can have where `g` is the outermost
scope. -/
def Symbol.IsStorage (g : Scope) : Symbol → Prop
  | .var type => type = "int" ∨ type = "bool"
  | .structVar struct => (SymbolTable.structIn? struct g).isSome = true
  | _ => False

/-- A scope inside the outermost one, or the fields of a struct. -/
def Scope.Local (g scope : Scope) : Prop := Grown (fun _ _ s => s.IsStorage g) scope

/-- The symbol fits the outermost scope under the name. A struct has the name it stands under, and
its fields refer to what is declared before it. -/
def Symbol.IsGlobal (g : Scope) (name : String) : Symbol → Prop
  | .function _ _ => True
  | .structDecl struct fields =>
    struct = name ∧ ∃ scope, fields = some (.ofScope scope) ∧ Scope.Local g scope
  | s => s.IsStorage g

def Scope.Global (g : Scope) : Prop := Grown Symbol.IsGlobal g

theorem Symbol.IsStorage.isGlobal {g : Scope} {s : Symbol} (h : s.IsStorage g) (name : String) :
    s.IsGlobal g name := by
  cases s with
  | var _ => exact h
  | structVar _ => exact h
  | _ => cases h

private theorem Symbol.IsStorage.snoc {g : Scope} {s : Symbol} {name : String}
    {entry : Option Symbol} (h : s.IsStorage g) : s.IsStorage (g ++ [(name, entry)]) := by
  cases s with
  | var _ => exact h
  | structVar struct =>
    cases hlookup : g.lookup struct with
    | none => simp [IsStorage, SymbolTable.structIn?, hlookup] at h
    | some old =>
      simpa [IsStorage, SymbolTable.structIn?, hlookup, Scope.lookup_snoc] using h
  | _ => cases h

theorem Scope.Local.mono {g g' scope : Scope} (h : Scope.Local g scope)
    (hmono : ∀ s : Symbol, s.IsStorage g → s.IsStorage g') : Scope.Local g' scope := by
  induction h with
  | nil => exact .nil
  | snoc _ hname hfresh hs ih => exact .snoc ih hname hfresh (hmono _ hs)

theorem stable_isGlobal : Stable Symbol.IsGlobal := by
  intro g name s name' s' _ h
  cases s with
  | function _ _ => trivial
  | structDecl struct fields =>
    obtain ⟨hname, scope, hfields, hlocal⟩ := h
    exact ⟨hname, scope, hfields, hlocal.mono fun _ => Symbol.IsStorage.snoc⟩
  | var _ => exact h
  | structVar struct =>
    have hs : (Symbol.structVar struct).IsStorage g := h
    exact hs.snoc
  | unknown _ => cases h

theorem Scope.Local.lookup {g scope : Scope} (h : Scope.Local g scope) {name : String}
    {entry : Option Symbol} (hlookup : scope.lookup name = some entry) :
    ∃ s, entry = some s ∧ s.IsStorage g :=
  h.fits (fun _ _ _ _ _ _ hs => hs) hlookup

theorem Scope.Global.lookup {g : Scope} (h : g.Global) {name : String} {entry : Option Symbol}
    (hlookup : g.lookup name = some entry) : ∃ s, entry = some s ∧ s.IsGlobal g name :=
  h.fits stable_isGlobal hlookup

/-- The outermost scope of the table is `g`, and `inner` are the scopes inside it. -/
structure Laid (t : SymbolTable) (inner : List Scope) (g : Scope) : Prop where
  scopes_eq : t.scopes = inner ++ [g]
  outermost : g.Global
  within : ∀ scope ∈ inner, Scope.Local g scope

namespace Laid

variable {t t' : SymbolTable} {inner : List Scope} {g : Scope}

theorem initial : Laid (ScopeStack.enterScope .empty) [] [] :=
  ⟨rfl, .nil, by simp⟩

theorem enterScope (h : Laid t inner g) : Laid t.enterScope ([] :: inner) g where
  scopes_eq := by rw [ScopeStack.enterScope, h.scopes_eq, List.cons_append]
  outermost := h.outermost
  within := by
    intro scope hscope
    rcases List.mem_cons.mp hscope with rfl | hscope
    · exact .nil
    · exact h.within scope hscope

theorem depth_eq (h : Laid t inner g) : t.depth = inner.length + 1 := by
  rw [ScopeStack.depth, h.scopes_eq, List.length_append, List.length_singleton]

theorem scopes_ne_nil (h : Laid t inner g) : t.scopes ≠ [] := by
  rw [h.scopes_eq]
  simp

theorem lookupLexical (h : Laid t inner g) {name : String} {s : Symbol}
    (hlookup : t.lookupLexical name = .ok (some s)) : s.IsGlobal g name := by
  simp only [SymbolTable.lookupLexical, List.isEmpty_iff, h.scopes_ne_nil, if_false,
    Except.ok.injEq] at hlookup
  cases hfind : t.scopes.findSome? (·.lookup name) with
  | none =>
    rw [hfind] at hlookup
    cases hlookup
  | some entry =>
    rw [hfind] at hlookup
    obtain ⟨scope, hmem, hentry⟩ := List.exists_of_findSome?_eq_some hfind
    rw [h.scopes_eq, List.mem_append, List.mem_singleton] at hmem
    rcases hmem with hinner | rfl
    · obtain ⟨s', rfl, hs'⟩ := (h.within scope hinner).lookup hentry
      cases hlookup
      exact hs'.isGlobal name
    · obtain ⟨s', rfl, hs'⟩ := h.outermost.lookup hentry
      cases hlookup
      exact hs'

private theorem structIn?_local {scope : Scope} (hscope : Scope.Local g scope) (name : String) :
    SymbolTable.structIn? name scope = none := by
  cases hlookup : scope.lookup name with
  | none => simp [SymbolTable.structIn?, hlookup]
  | some entry =>
    obtain ⟨s, rfl, hs⟩ := hscope.lookup hlookup
    cases s with
    | structDecl _ _ => cases hs
    | _ => simp [SymbolTable.structIn?, hlookup, Symbol.structDef?]

/-- A struct is found in the outermost scope, whatever the scopes inside it declare. -/
theorem resolveStruct (h : Laid t inner g) (name : String) :
    t.resolveStruct name = SymbolTable.structIn? name g := by
  have hinner : inner.findSome? (SymbolTable.structIn? name) = none := by
    rw [List.findSome?_eq_none_iff]
    intro scope hscope
    exact structIn?_local (h.within scope hscope) name
  rw [SymbolTable.resolveStruct, h.scopes_eq, List.findSome?_append, hinner, Option.none_or]
  cases hg : SymbolTable.structIn? name g <;> simp [List.findSome?, hg]

theorem structDef (h : Laid t inner g) {name : String} {d : StructDef}
    (hd : t.resolveStruct name = some d) :
    d.name = name ∧ ∃ fields, d.fields = some (.ofScope fields) ∧ Scope.Local g fields := by
  rw [h.resolveStruct, SymbolTable.structIn?] at hd
  cases hlookup : g.lookup name with
  | none => simp [hlookup] at hd
  | some entry =>
    obtain ⟨s, rfl, hs⟩ := h.outermost.lookup hlookup
    cases s with
    | structDecl struct fields =>
      simp only [hlookup, Option.join_some, Option.bind_some, Symbol.structDef?,
        Option.some.injEq] at hd
      subst hd
      exact hs
    | _ => simp [hlookup, Symbol.structDef?] at hd

theorem field (h : Laid t inner g) {struct field : String} {d : StructDef} {s : Symbol}
    (hd : t.resolveStruct struct = some d) (hs : d.field field = .ok (some s)) :
    s.IsStorage g := by
  obtain ⟨-, fields, hfields, hlocal⟩ := h.structDef hd
  simp only [StructDef.field, hfields, SymbolTable.lookupLocal, ScopeStack.ofScope,
    Except.ok.injEq] at hs
  cases hlookup : fields.lookup field with
  | none => simp [hlookup] at hs
  | some entry =>
    obtain ⟨s', rfl, hs'⟩ := hlocal.lookup hlookup
    rw [hlookup] at hs
    cases hs
    exact hs'

theorem declare_storage (h : Laid t inner g) {name : String} {s : Symbol} (hs : s.IsStorage g)
    (hdeclare : t.declare name (some s) = .ok t') : ∃ inner' g', Laid t' inner' g' := by
  obtain ⟨hname, scope, rest, hscopes, hfresh, rfl⟩ := SymbolTable.declare_eq_ok.mp hdeclare
  rw [h.scopes_eq] at hscopes
  cases inner with
  | nil =>
    cases hscopes
    exact ⟨[], _, rfl, .snoc h.outermost hname hfresh (hs.isGlobal name), by simp⟩
  | cons scope' inner =>
    cases hscopes
    refine ⟨(scope ++ [(name, some s)]) :: inner, g, rfl, h.outermost, ?_⟩
    have hwithin := List.forall_mem_cons.mp h.within
    exact List.forall_mem_cons.mpr ⟨.snoc hwithin.1 hname hfresh hs, hwithin.2⟩

/-- Only what fits the outermost scope is declared there. -/
theorem declare_global (h : Laid t [] g) {name : String} {s : Symbol} (hs : s.IsGlobal g name)
    (hdeclare : t.declare name (some s) = .ok t') : ∃ g', Laid t' [] g' := by
  obtain ⟨hname, scope, rest, hscopes, hfresh, rfl⟩ := SymbolTable.declare_eq_ok.mp hdeclare
  rw [h.scopes_eq] at hscopes
  cases hscopes
  exact ⟨_, rfl, .snoc h.outermost hname hfresh hs, by simp⟩

end Laid

/-- The table has an outermost scope, and all its scopes are laid out as name analysis lays them. -/
def SymbolTable.IsLaid (t : SymbolTable) : Prop := ∃ inner g, Laid t inner g

theorem SymbolTable.IsLaid.enterScope {t : SymbolTable} (h : t.IsLaid) :
    SymbolTable.IsLaid t.enterScope := by
  obtain ⟨inner, g, hlaid⟩ := h
  exact ⟨[] :: inner, g, hlaid.enterScope⟩

theorem SymbolTable.IsLaid.nodup {t : SymbolTable} (h : t.IsLaid) :
    ∀ scope ∈ t.scopes, (scope.map Prod.fst).Nodup := by
  obtain ⟨inner, g, hlaid⟩ := h
  intro scope hscope
  rw [hlaid.scopes_eq] at hscope
  rcases List.mem_append.mp hscope with hinner | hg
  · exact (hlaid.within _ hinner).nodup
  · rw [List.mem_singleton.mp hg]
    exact hlaid.outermost.nodup

section Runs

variable {t t' : SymbolTable}

private theorem Declares.isLaid_storage {inner : List Scope} {g : Scope} {id id' : Ident}
    {s : Symbol} {rs : List Diagnostic} (h : Declares t id s t' id' rs) (ht : Laid t inner g)
    (hs : s.IsStorage g) : t'.IsLaid := by
  cases h with
  | fresh h => exact ht.declare_storage hs h
  | taken _ => exact ⟨inner, g, ht⟩

theorem Declares.isLaid_global {g : Scope} {id id' : Ident} {s : Symbol}
    {rs : List Diagnostic} (h : Declares t id s t' id' rs) (ht : Laid t [] g)
    (hs : s.IsGlobal g id.name) : t'.IsLaid := by
  cases h with
  | fresh h =>
    obtain ⟨g', ht'⟩ := ht.declare_global hs h
    exact ⟨[], g', ht'⟩
  | taken _ => exact ⟨[], g, ht⟩

private theorem StorageDeclares.isLaid {type type' : Node} {id id' : Ident} {rs : List Diagnostic}
    (h : StorageDeclares t id type t' type' id' rs) (ht : t.IsLaid) : t'.IsLaid := by
  obtain ⟨inner, g, hlaid⟩ := ht
  cases h with
  | void => exact ⟨inner, g, hlaid⟩
  | @scalar prim _ _ _ hprim h =>
    apply h.isLaid_storage hlaid
    cases prim with
    | int => exact .inl rfl
    | bool => exact .inr rfl
    | void => exact absurd rfl hprim
  | struct hname h =>
    apply h.isLaid_storage hlaid
    cases hname with
    | known hd =>
      obtain ⟨hname, -⟩ := hlaid.structDef hd
      rw [hlaid.resolveStruct] at hd
      simp [Symbol.IsStorage, hname, hd]
  | undefined _ => exact ⟨inner, g, hlaid⟩

theorem Laid.of_depth {inner : List Scope} {g : Scope} (h : Laid t inner g)
    (hdepth : t.depth = 1) : inner = [] := by
  have hlength := h.depth_eq
  exact List.eq_nil_of_length_eq_zero (by omega)

/-- The fields of a struct are declared in a scope of their own on top of the outermost one. -/
theorem Laid.local_fields {g fields : Scope} (h : Laid t [] g)
    (hfields : SymbolTable.IsLaid ⟨fields :: t.scopes⟩) : Scope.Local g fields := by
  obtain ⟨inner, g', hlaid⟩ := hfields
  have hscopes : [fields] ++ [g] = inner ++ [g'] := by
    rw [← hlaid.scopes_eq, h.scopes_eq]
    rfl
  obtain ⟨rfl, hg⟩ := List.append_inj' hscopes rfl
  cases hg
  exact hlaid.within fields (List.mem_singleton_self fields)

/-- What name analysis does to a table that is laid out leaves it so. -/
theorem Resolves.isLaid {p : Phrase} {ns ns' : List Node} {rs : List Diagnostic}
    (h : Resolves 1 p t ns t' ns' rs) (ht : t.IsLaid) : t'.IsLaid := by
  induction h with
  | cons _ _ ihhead ihtail => exact ihtail (ihhead ht)
  | varDecl h => exact h.isLaid ht
  | formalDecl h => exact h.isLaid ht
  | fnDecl hdepth _ _ _ hid =>
    obtain ⟨inner, g, hlaid⟩ := ht
    obtain rfl := hlaid.of_depth hdepth
    exact hid.isLaid_global hlaid trivial
  | @structDecl t t' fields id id' decls decls' rs₁ rs₂ hdepth _ hid ih =>
    obtain ⟨inner, g, hlaid⟩ := ht
    obtain rfl := hlaid.of_depth hdepth
    have hlocal := hlaid.local_fields (ih ⟨_, g, hlaid.enterScope⟩)
    exact hid.isLaid_global hlaid ⟨rfl, fields, rfl, hlocal⟩
  | _ => exact ht

theorem Resolves.outermost {g : Scope} {ds ds' : List Node} {rs : List Diagnostic}
    (h : Resolves 1 .decls t ds t' ds' rs) (ht : Laid t [] g) : ∃ g', Laid t' [] g' := by
  obtain ⟨inner', g', ht'⟩ := h.isLaid ⟨[], g, ht⟩
  obtain ⟨added, rfl⟩ := h.frame.2 g [] ht.scopes_eq
  obtain rfl := ht'.of_depth rfl
  exact ⟨g', ht'⟩

end Runs

end Sema
