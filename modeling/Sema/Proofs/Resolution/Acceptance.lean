import Sema.Proofs.Resolution.Moves
import Sema.Proofs.Resolution.Scoping
import Sema.Proofs.Resolution.Shape

/-!
# Which declarations are accepted

The scopes of a tree are the global one, one for the parameters and the body of each function, one
for each block and one for the fields of each struct. In each of them the first declaration of a
name wins, unless its type rejects it. Only a declaration that is accepted has a symbol, and only
such a one stands in the way of later ones.
-/

namespace Sema

/-- A declaration, what its scope declares before it, and what is declared globally before it. -/
structure Site where
  decl : Node
  earlier : List Ident
  globals : List Ident

/-- The declarations of one scope that follow those in `before`. -/
def sitesOf (globals : List Ident) (before : List Node) : List Node → List Site
  | [] => []
  | d :: ds => ⟨d, declared before, globals⟩ :: sitesOf globals (before ++ [d]) ds

theorem sitesOf_append (globals : List Ident) (before ds es : List Node) :
    sitesOf globals before (ds ++ es) =
      sitesOf globals before ds ++ sitesOf globals (before ++ ds) es := by
  induction ds generalizing before with
  | nil => simp [sitesOf]
  | cons d ds ih => simp [sitesOf, ih]

namespace Node

mutual

/-- The declarations in the blocks of a statement, each block from a scope of its own. -/
def blockSites (globals : List Ident) : Node → List Site
  | .ifStmt _ decls stmts | .whileStmt _ decls stmts =>
    sitesOf globals [] decls ++ blockSitesAll globals stmts
  | .ifElseStmt _ ds ss ds' ss' =>
    (sitesOf globals [] ds ++ blockSitesAll globals ss) ++
      (sitesOf globals [] ds' ++ blockSitesAll globals ss')
  | _ => []

def blockSitesAll (globals : List Ident) : List Node → List Site
  | [] => []
  | n :: ns => blockSites globals n ++ blockSitesAll globals ns

end

/-- The declarations in a top-level declaration that follows those in `before`. A function is
declared before what it contains, a struct after its fields. -/
def sites (before : List Node) (d : Node) : List Site :=
  let self : Site := ⟨d, declared before, declared before⟩
  match d with
  | .fnDecl _ _ formals decls stmts =>
    self :: (sitesOf (declared (before ++ [d])) [] (formals ++ decls) ++
      blockSitesAll (declared (before ++ [d])) stmts)
  | .structDecl _ decls => sitesOf (declared before) [] decls ++ [self]
  | _ => [self]

/-- The symbol of a variable, a parameter or a field of the type. -/
def storageSymbol? : Node → Option Symbol
  | .primType prim => some (.var prim.text)
  | .structType name => some (.structVar name.name)
  | _ => none

/-- The symbol that a declaration gives to what it declares. -/
def ownSymbol? : Node → Option Symbol
  | .varDecl type _ | .formalDecl type _ => type.storageSymbol?
  | .fnDecl type _ formals _ _ => do return .function (← typeNames? formals) (← type.typeName?)
  | .structDecl id decls =>
    some (.structDecl id.name (some (.ofScope (scopeOf (declared decls)))))
  | _ => none

theorem eq_structDecl_of_ownSymbol? {d : Node} {name : String} {fields : Option SymbolTable}
    (h : d.ownSymbol? = some (.structDecl name fields)) : ∃ id decls, d = .structDecl id decls := by
  cases d with
  | structDecl id decls => exact ⟨id, decls, rfl⟩
  | varDecl type id | formalDecl type id => cases type <;> cases h
  | fnDecl type id formals decls stmts =>
    simp only [ownSymbol?, Option.bind_eq_bind, Option.bind_eq_some_iff] at h
    obtain ⟨_, _, _, _, h⟩ := h
    cases h
  | _ => cases h

theorem eq_fnDecl_of_ownSymbol? {d : Node} {params : List String} {result : String}
    (h : d.ownSymbol? = some (.function params result)) :
    ∃ type id formals decls stmts, d = .fnDecl type id formals decls stmts ∧
      typeNames? formals = some params ∧ type.typeName? = some result := by
  cases d with
  | fnDecl type id formals decls stmts =>
    simp only [ownSymbol?, Option.bind_eq_bind, Option.bind_eq_some_iff] at h
    obtain ⟨params', hparams, result', hresult, h⟩ := h
    cases h
    exact ⟨type, id, formals, decls, stmts, rfl, hparams, hresult⟩
  | varDecl type id | formalDecl type id => cases type <;> cases h
  | _ => cases h

end Node

/-- The declarations in top-level declarations that follow those in `before`, in the order in which
they are declared. -/
def globalSites (before : List Node) : List Node → List Site
  | [] => []
  | d :: ds => d.sites before ++ globalSites (before ++ [d]) ds

section Membership

variable {ds : List Node} {d : Node}

private theorem exists_mem_sitesOf (globals : List Ident) (before : List Node) (hd : d ∈ ds) :
    ∃ s ∈ sitesOf globals before ds, s.decl = d ∧ s.globals = globals := by
  induction ds generalizing before with
  | nil => cases hd
  | cons first ds ih =>
    rcases List.mem_cons.mp hd with rfl | hd
    · exact ⟨_, List.mem_cons_self, rfl, rfl⟩
    · obtain ⟨s, hs, hsite⟩ := ih (before ++ [first]) hd
      exact ⟨s, List.mem_cons_of_mem _ hs, hsite⟩

private theorem exists_sites_subset (before : List Node) (hd : d ∈ ds) :
    ∃ earlier, (∀ n ∈ earlier, n ∈ before ++ ds) ∧ d.sites earlier ⊆ globalSites before ds := by
  induction ds generalizing before with
  | nil => cases hd
  | cons first ds ih =>
    rcases List.mem_cons.mp hd with rfl | hd
    · exact ⟨before, fun n hn => List.mem_append_left _ hn, List.subset_append_left _ _⟩
    · obtain ⟨earlier, hearlier, hsites⟩ := ih (before ++ [first]) hd
      refine ⟨earlier, ?_, fun s hs => List.mem_append_right _ (hsites hs)⟩
      simpa using hearlier

theorem exists_site_of_mem (hd : d ∈ ds) : ∃ s ∈ globalSites [] ds, s.decl = d := by
  obtain ⟨earlier, -, hsites⟩ := exists_sites_subset [] hd
  have hself : (⟨d, declared earlier, declared earlier⟩ : Site) ∈ d.sites earlier := by
    cases d <;> simp [Node.sites]
  exact ⟨_, hsites hself, rfl⟩

theorem exists_site_of_formal {type p : Node} {id : Ident} {formals decls stmts : List Node}
    (hf : .fnDecl type id formals decls stmts ∈ ds) (hp : p ∈ formals) :
    ∃ s ∈ globalSites [] ds, s.decl = p ∧
      ∃ earlier, s.globals = declared earlier ∧ ∀ d ∈ earlier, d ∈ ds := by
  obtain ⟨earlier, hearlier, hsites⟩ := exists_sites_subset [] hf
  obtain ⟨s, hs, hdecl, hglobals⟩ := exists_mem_sitesOf
    (declared (earlier ++ [.fnDecl type id formals decls stmts])) [] (List.mem_append_left decls hp)
  refine ⟨s, hsites (List.mem_cons_of_mem _ (List.mem_append_left _ hs)), hdecl, _, hglobals, ?_⟩
  exact List.forall_mem_append.mpr ⟨hearlier, List.forall_mem_singleton.mpr hf⟩

end Membership

namespace Site

/-- A declaration of the name has been accepted before in the same scope. -/
def taken (s : Site) (name : String) : Bool := (symbolIn? name s.earlier).isSome

/-- A struct of the name has been accepted before at top level. -/
def hasStruct (s : Site) (name : String) : Bool :=
  ((symbolIn? name s.globals).bind Symbol.structDef?).isSome

/-- Something can be declared with the type. -/
def hasType (s : Site) : Node → Bool
  | .primType prim => prim != .void
  | .structType name => s.hasStruct name.name
  | _ => false

def accepted (s : Site) : Bool :=
  match s.decl with
  | .varDecl type id | .formalDecl type id => s.hasType type && !s.taken id.name
  | .fnDecl _ id _ _ _ | .structDecl id _ => !s.taken id.name
  | _ => false

def repetition (s : Site) (id : Ident) : List Diagnostic :=
  if s.taken id.name then [.ofKind .multiplyDeclared id.pos] else []

def undefined (s : Site) : Node → List Diagnostic
  | .structType name =>
    if s.hasStruct name.name then [] else [.ofKind .undefinedStructType name.pos]
  | _ => []

/-- A type that nothing can be declared with is blamed, and the name only if the type is not. -/
def storageComplaints (s : Site) (id : Ident) : Node → List Diagnostic
  | .primType .void => [.ofKind .badVoidType id.pos]
  | type => if s.hasType type then s.repetition id else s.undefined type

/-- What is reported about the declaration itself. The result type of a function is blamed besides
its name. -/
def complaints (s : Site) : List Diagnostic :=
  match s.decl with
  | .varDecl type id | .formalDecl type id => s.storageComplaints id type
  | .fnDecl type id _ _ _ => s.undefined type ++ s.repetition id
  | .structDecl id _ => s.repetition id
  | _ => []

end Site

/-- The diagnostic is about a declaration or a type name. -/
def Diagnostic.isDeclaring (d : Diagnostic) : Bool :=
  d.kind == some .multiplyDeclared || d.kind == some .badVoidType ||
    d.kind == some .undefinedStructType

private theorem Site.isDeclaring_repetition (s : Site) (id : Ident) :
    ∀ d ∈ s.repetition id, d.isDeclaring = true := by
  rw [repetition]
  split <;> simp [Diagnostic.isDeclaring, Diagnostic.ofKind]

private theorem Site.isDeclaring_undefined (s : Site) (type : Node) :
    ∀ d ∈ s.undefined type, d.isDeclaring = true := by
  cases type with
  | structType name =>
    rw [undefined]
    split <;> simp [Diagnostic.isDeclaring, Diagnostic.ofKind]
  | _ => simp [undefined]

private theorem Site.isDeclaring_storageComplaints (s : Site) (id : Ident) (type : Node) :
    ∀ d ∈ s.storageComplaints id type, d.isDeclaring = true := by
  rw [storageComplaints.eq_def]
  split
  · simp [Diagnostic.isDeclaring, Diagnostic.ofKind]
  · split
    · exact s.isDeclaring_repetition id
    · exact s.isDeclaring_undefined type

theorem Site.filter_complaints (s : Site) :
    s.complaints.filter Diagnostic.isDeclaring = s.complaints := by
  rw [List.filter_eq_self, complaints.eq_def]
  split
  · exact s.isDeclaring_storageComplaints _ _
  · exact s.isDeclaring_storageComplaints _ _
  · exact List.forall_mem_append.mpr ⟨s.isDeclaring_undefined _, s.isDeclaring_repetition _⟩
  · exact s.isDeclaring_repetition _
  · simp

/-- The declarations have symbols of their own exactly if they are accepted, and what is reported
about declarations is what is due to these, in their order. -/
structure Ruled (sites : List Site) (rs : List Diagnostic) : Prop where
  symbols : ∀ s ∈ sites, ∃ id, s.decl.declared? = some id ∧ (id.Bound ↔ s.accepted = true) ∧
    (id.Bound → id.symbol = s.decl.ownSymbol?)
  reports : rs.filter Diagnostic.isDeclaring = sites.flatMap Site.complaints

namespace Ruled

variable {sites sites' : List Site} {rs rs' : List Diagnostic}

theorem of_none (h : rs.filter Diagnostic.isDeclaring = []) : Ruled [] rs where
  symbols := by simp
  reports := h

theorem append (h : Ruled sites rs) (h' : Ruled sites' rs') :
    Ruled (sites ++ sites') (rs ++ rs') where
  symbols := List.forall_mem_append.mpr ⟨h.symbols, h'.symbols⟩
  reports := by rw [List.filter_append, h.reports, h'.reports, List.flatMap_append]

theorem one {s : Site} {id : Ident} (hid : s.decl.declared? = some id)
    (hsymbol : id.symbol = if s.accepted then s.decl.ownSymbol? else none)
    (hown : s.accepted = true → s.decl.ownSymbol?.isSome = true)
    (hreports : rs = s.complaints) : Ruled [s] rs where
  symbols := by
    rw [List.forall_mem_singleton]
    refine ⟨id, hid, ?_, ?_⟩
    · rw [Ident.Bound, hsymbol]
      split
      · simp_all
      · simp_all
    · intro hbound
      rw [Ident.Bound, hsymbol] at hbound
      split at hbound
      · simp_all
      · cases hbound
  reports := by rw [hreports, s.filter_complaints, List.flatMap_singleton]

end Ruled

/-- The outermost scope of the table is that of the global identifiers. -/
structure Under (globals : List Ident) (t : SymbolTable) : Prop where
  isLaid : t.IsLaid
  outermost_eq : t.outermost = scopeOf globals

theorem Under.structIn? {globals : List Ident} {t : SymbolTable} (h : Under globals t)
    (name : String) :
    t.resolveStruct name = (symbolIn? name globals).bind Symbol.structDef? := by
  obtain ⟨inner, g, hlaid⟩ := h.isLaid
  rw [hlaid.resolveStruct, ← hlaid.outermost_eq, h.outermost_eq, SymbolTable.structIn?,
    lookup_scopeOf]
  cases symbolIn? name globals <;> rfl

section Steps

variable {t t' : SymbolTable} {id id' : Ident} {rs : List Diagnostic} {s : Site}
  {rest : List Scope}

private theorem Declares.name_eq {symbol : Symbol} (h : Declares t id symbol t' id' rs) :
    id'.name = id.name := by
  cases h <;> rfl

private theorem Declares.ruled {symbol : Symbol} (h : Declares t id symbol t' id' rs)
    (hid : id.symbol = none) (ht : t.scopes = scopeOf s.earlier :: rest) :
    id'.symbol = (if !s.taken id'.name then some symbol else none) ∧ rs = s.repetition id' := by
  have hlookup := lookup_scopeOf s.earlier id.name
  cases h with
  | fresh h =>
    obtain ⟨-, scope, rest', hscopes, hfresh, -⟩ := SymbolTable.declare_eq_ok.mp h
    rw [ht] at hscopes
    cases hscopes
    have htaken : s.taken id.name = false := by
      rw [hfresh] at hlookup
      simpa [Site.taken] using hlookup.symm
    simp [Site.repetition, htaken]
  | taken h =>
    have htaken : s.taken id.name = true := by
      simp only [SymbolTable.declare, ht] at h
      split at h
      · cases h
      · split at h
        · rename_i hsome
          simpa [Site.taken, hlookup] using hsome
        · cases h
    simp [Site.repetition, htaken, hid]

private theorem StorageDeclares.ruled {type type' : Node}
    (h : StorageDeclares t id type t' type' id' rs) (hid : id.symbol = none)
    (ht : t.scopes = scopeOf s.earlier :: rest) (hunder : Under s.globals t) :
    id'.symbol = (if s.hasType type' && !s.taken id'.name then type'.storageSymbol? else none) ∧
      rs = s.storageComplaints id' type' := by
  cases h with
  | void => exact ⟨by simp [Site.hasType, hid], rfl⟩
  | @scalar prim _ _ _ hprim h =>
    obtain ⟨hsymbol, hrs⟩ := h.ruled hid ht
    have htype : s.hasType (.primType prim) = true := by simpa [Site.hasType] using hprim
    have hcomplaints : s.storageComplaints id' (.primType prim) = s.repetition id' := by
      cases prim with
      | void => exact absurd rfl hprim
      | int | bool => rfl
    exact ⟨by simp [hsymbol, htype, Node.storageSymbol?], by rw [hrs, hcomplaints]⟩
  | @struct name name' _ d _ rs₁ rs₂ hname h =>
    obtain ⟨hsymbol, hrs⟩ := h.ruled hid ht
    cases hname with
    | known hd =>
      have hstruct : s.hasStruct name.name = true := by
        rw [Site.hasStruct, ← hunder.structIn?, hd, Option.isSome_some]
      obtain ⟨inner, g, hlaid⟩ := hunder.isLaid
      rw [(hlaid.structDef hd).1] at hsymbol
      simp [hsymbol, hrs, hstruct, Site.hasType, Site.storageComplaints, Node.storageSymbol?]
  | @undefined name name' _ hname =>
    cases hname with
    | unknown hnone =>
      have hstruct : s.hasStruct name.name = false := by
        rw [Site.hasStruct, ← hunder.structIn?, hnone, Option.isSome_none]
      simp [hid, hstruct, Site.hasType, Site.storageComplaints, Site.undefined]

private theorem UseBinds.none_declaring (h : UseBinds t id id' rs) :
    rs.filter Diagnostic.isDeclaring = [] := by
  cases h <;> rfl

private theorem FieldBinds.none_declaring {owner : Ident} (h : FieldBinds t owner id id' rs) :
    rs.filter Diagnostic.isDeclaring = [] := by
  cases h <;> rfl

private theorem ResultBinds.ruled {type type' : Node} (h : ResultBinds t type type' rs)
    (hunder : Under s.globals t) : rs = s.undefined type' := by
  cases h with
  | struct h =>
    cases h with
    | known hd => simp [Site.undefined, Site.hasStruct, ← hunder.structIn?, hd]
    | unknown hnone => simp [Site.undefined, Site.hasStruct, ← hunder.structIn?, hnone]
  | other hother =>
    cases type with
    | structType name => exact absurd rfl (hother name)
    | _ => rfl

end Steps

section Scopes

variable {globals : List Ident} {t t' : SymbolTable} {rs : List Diagnostic} {rest : List Scope}

/-- Declarations in an inner scope leave the global one as it is. -/
theorem Under.inner {ds ds' : List Node} {scope : Scope} (h : Under globals t)
    (hds : Resolves 1 .decls t ds t' ds' rs) (ht : t.scopes = scope :: rest) (hrest : rest ≠ []) :
    Under globals t' := by
  obtain ⟨added, rfl⟩ := hds.frame.2 _ _ ht
  refine ⟨hds.isLaid h.isLaid, ?_⟩
  rw [← h.outermost_eq, SymbolTable.outermost, SymbolTable.outermost, ht]
  obtain ⟨outer, rest, rfl⟩ := List.exists_cons_of_ne_nil hrest
  rfl

theorem Under.enterScope (h : Under globals t) : Under globals t.enterScope := by
  obtain ⟨inner, g, hlaid⟩ := h.isLaid
  refine ⟨⟨_, _, hlaid.enterScope⟩, ?_⟩
  rw [hlaid.enterScope.outermost_eq, ← h.outermost_eq, hlaid.outermost_eq]

private theorem StorageDeclares.ruled_site {type type' : Node} {id id' : Ident} {s : Site}
    (h : StorageDeclares t id type t' type' id' rs) (hid : id.symbol = none)
    (hs : s.decl = .varDecl type' id' ∨ s.decl = .formalDecl type' id')
    (ht : t.scopes = scopeOf s.earlier :: rest) (hunder : Under s.globals t) : Ruled [s] rs := by
  obtain ⟨hsymbol, hrs⟩ := h.ruled hid ht hunder
  have hown : s.hasType type' = true → type'.storageSymbol?.isSome = true := by
    intro htype
    cases type' with
    | primType _ | structType _ => rfl
    | _ => cases htype
  have hsite : s.decl.declared? = some id' ∧ s.decl.ownSymbol? = type'.storageSymbol? ∧
      s.accepted = (s.hasType type' && !s.taken id'.name) ∧
      s.complaints = s.storageComplaints id' type' := by
    rcases hs with hs | hs <;>
      simp [Site.accepted, Site.complaints, hs, Node.declared?, Node.ownSymbol?]
  obtain ⟨hdeclared, hsymbol', haccepted, hcomplaints⟩ := hsite
  apply Ruled.one hdeclared
  · rw [haccepted, hsymbol', hsymbol]
  · intro h
    rw [haccepted, Bool.and_eq_true] at h
    rw [hsymbol']
    exact hown h.1
  · rw [hcomplaints, hrs]

/-- The declarations of an inner scope, from the first one on that `before` does not hold. -/
private theorem Resolves.ruled_storages {p : Phrase} {ds ds' before : List Node}
    (h : Resolves 1 p t ds t' ds' rs) (hp : p = .decls) (hds : ∀ d ∈ ds, d.isStorage = true)
    (hunbound : ∀ d ∈ ds, d.Unbound) (hunder : Under globals t)
    (ht : t.scopes = scopeOf (declared before) :: rest) (hrest : rest ≠ []) :
    Ruled (sitesOf globals before ds') rs := by
  induction h generalizing before with
  | nil => exact .of_none rfl
  | @cons p t t₁ t₂ n n' ns ns' rs₁ rs₂ hhead _ ihhead ihtail =>
    subst hp
    rw [List.forall_mem_cons] at hds hunbound
    have hsite := ihhead rfl (List.forall_mem_singleton.mpr hds.1)
      (List.forall_mem_singleton.mpr hunbound.1) hunder ht
    have hscopes := hhead.mirrored rfl (List.forall_mem_singleton.mpr hunbound.1) ht
    rw [← declared_append] at hscopes
    exact hsite.append (ihtail rfl hds.2 hunbound.2 (hunder.inner hhead ht hrest) hscopes)
  | @varDecl t t' type type' id id' rs h =>
    rw [List.forall_mem_singleton] at hunbound
    exact h.ruled_site (hunbound id (by simp [Node.idents])) (.inl rfl) ht hunder
  | @formalDecl t t' type type' id id' rs h =>
    rw [List.forall_mem_singleton] at hunbound
    exact h.ruled_site (hunbound id (by simp [Node.idents])) (.inr rfl) ht hunder
  | fnDecl | structDecl =>
    rw [List.forall_mem_singleton] at hds
    cases hds
  | _ => cases hp

private theorem Resolves.ruled_block {t₁ : SymbolTable} {ds ds' : List Node}
    (h : Resolves 1 .decls t.enterScope ds t₁ ds' rs) (hunbound : ∀ d ∈ ds, d.Unbound)
    (hunder : Under globals t) :
    Ruled (sitesOf globals [] ds') rs ∧ Under globals t₁ := by
  obtain ⟨inner, g, hlaid⟩ := hunder.isLaid
  have hopen : t.enterScope.scopes = scopeOf (declared []) :: t.scopes := rfl
  have hdepth : 1 < t.enterScope.depth := by
    rw [ScopeStack.depth_enterScope, hlaid.depth_eq]
    omega
  exact ⟨h.ruled_storages rfl (h.isStorage rfl hdepth) hunbound hunder.enterScope hopen
    hlaid.scopes_ne_nil, hunder.enterScope.inner h hopen hlaid.scopes_ne_nil⟩

private theorem Resolves.none_declaring {p : Phrase} {es es' : List Node}
    (h : Resolves 1 p t es t' es' rs) (hp : p = .exprs) :
    rs.filter Diagnostic.isDeclaring = [] := by
  induction h with
  | nil | lit => rfl
  | cons _ _ ihhead ihtail => rw [List.filter_append, ihhead hp, ihtail hp, List.append_nil]
  | ident h => exact h.none_declaring
  | dot _ _ _ hfield ih => rw [List.filter_append, ih rfl, hfield.none_declaring, List.append_nil]
  | call hcallee _ ih => rw [List.filter_append, ih rfl, hcallee.none_declaring, List.append_nil]
  | assign _ ih | unary _ ih | binary _ ih => exact ih rfl
  | _ => cases hp

private theorem Resolves.ruled_stmts {p : Phrase} {ss ss' : List Node}
    (h : Resolves 1 p t ss t' ss' rs) (hp : p = .stmts) (hunbound : ∀ n ∈ ss, n.Unbound)
    (hunder : Under globals t) : Ruled (Node.blockSitesAll globals ss') rs := by
  induction h with
  | nil | bareReturn => exact .of_none rfl
  | @cons p t t₁ t₂ n n' ns ns' rs₁ rs₂ hhead _ ihhead ihtail =>
    subst hp
    obtain rfl : t₁ = t := hhead.frame.1 (by decide)
    rw [List.forall_mem_cons] at hunbound
    have hhead := ihhead rfl (List.forall_mem_singleton.mpr hunbound.1) hunder
    rw [Node.blockSitesAll, Node.blockSitesAll, List.append_nil] at hhead
    exact hhead.append (ihtail rfl hunbound.2 hunder)
  | assignStmt h | stepStmt h | readStmt h | writeStmt h | callStmt h | returnStmt h =>
    exact .of_none (h.none_declaring rfl)
  | ifStmt hcond hdecls _ _ _ ihstmts | whileStmt hcond hdecls _ _ _ ihstmts =>
    rw [List.forall_mem_singleton] at hunbound
    obtain ⟨hblock, hinner⟩ := hdecls.ruled_block
      (fun d hd => hunbound.child (by simp [Node.children, hd])) hunder
    have hstmts := ihstmts rfl (fun s hs => hunbound.child (by simp [Node.children, hs])) hinner
    have hsites := Ruled.append (.of_none (hcond.none_declaring rfl)) (hblock.append hstmts)
    simpa [Node.blockSitesAll, Node.blockSites] using hsites
  | ifElseStmt hcond hdecls _ hdecls' _ _ _ ihstmts _ ihstmts' =>
    rw [List.forall_mem_singleton] at hunbound
    obtain ⟨hblock, hinner⟩ := hdecls.ruled_block
      (fun d hd => hunbound.child (by simp [Node.children, hd])) hunder
    have hstmts := ihstmts rfl (fun s hs => hunbound.child (by simp [Node.children, hs])) hinner
    obtain ⟨hblock', hinner'⟩ := hdecls'.ruled_block
      (fun d hd => hunbound.child (by simp [Node.children, hd])) hunder
    have hstmts' := ihstmts' rfl (fun s hs => hunbound.child (by simp [Node.children, hs])) hinner'
    have hsites := Ruled.append (.of_none (hcond.none_declaring rfl))
      ((hblock.append hstmts).append (hblock'.append hstmts'))
    simpa [Node.blockSitesAll, Node.blockSites] using hsites
  | _ => cases hp

end Scopes

section Programs

variable {t t' : SymbolTable} {rs : List Diagnostic} {before : List Node}

theorem Resolves.typeNames?_eq {global : Nat} {ds ds' : List Node}
    (h : Resolves global .decls t ds t' ds' rs) : Node.typeNames? ds' = Node.typeNames? ds := by
  have herase : Node.eraseAll ds' = Node.eraseAll ds := by
    have hvalue := resolveDecls_erase global ds ⟨t, none⟩
    rwa [show resolveDecls global ds ⟨t, none⟩ = ⟨ds', ⟨t', none⟩, rs⟩ from h.returns] at hvalue
  rw [← Node.typeNames?_eraseAll, herase, Node.typeNames?_eraseAll]

theorem Under.of_scopes {globals : List Ident} (ht : t.IsLaid)
    (hscopes : t.scopes = [scopeOf globals]) : Under globals t where
  isLaid := ht
  outermost_eq := by rw [SymbolTable.outermost, hscopes]; rfl

private theorem Declares.ruled_site {id id' : Ident} {symbol : Symbol} {s : Site}
    {rest : List Scope} {rs' : List Diagnostic} (h : Declares t id symbol t' id' rs)
    (hid : id.symbol = none) (ht : t.scopes = scopeOf s.earlier :: rest)
    (hdeclared : s.decl.declared? = some id') (hown : s.decl.ownSymbol? = some symbol)
    (haccepted : s.accepted = !s.taken id'.name)
    (hcomplaints : s.complaints = rs' ++ s.repetition id') : Ruled [s] (rs' ++ rs) := by
  obtain ⟨hsymbol, hrs⟩ := h.ruled hid ht
  apply Ruled.one hdeclared
  · rw [hown, haccepted, hsymbol]
  · simp [hown]
  · rw [hcomplaints, hrs]

/-- The declarations in top-level declarations, from the first one on that `before` does not
hold. -/
private theorem Resolves.globally_ruled {p : Phrase} {ds ds' : List Node}
    (h : Resolves 1 p t ds t' ds' rs) (hp : p = .decls) (hunbound : ∀ d ∈ ds, d.Unbound)
    (ht : t.IsLaid) (hscopes : t.scopes = [scopeOf (declared before)]) :
    Ruled (globalSites before ds') rs := by
  induction h generalizing before with
  | nil => exact .of_none rfl
  | @cons p t t₁ t₂ n n' ns ns' rs₁ rs₂ hhead _ ihhead ihtail =>
    subst hp
    rw [List.forall_mem_cons] at hunbound
    have hsites := ihhead rfl (List.forall_mem_singleton.mpr hunbound.1) ht hscopes
    have hscopes' := hhead.mirrored rfl (List.forall_mem_singleton.mpr hunbound.1) hscopes
    rw [← declared_append] at hscopes'
    have htail := ihtail rfl hunbound.2 (hhead.isLaid ht) hscopes'
    simpa [globalSites] using hsites.append htail
  | @varDecl t t' type type' id id' rs h =>
    rw [List.forall_mem_singleton] at hunbound
    exact h.ruled_site (hunbound id (by simp [Node.idents])) (.inl rfl) hscopes
      (.of_scopes ht hscopes)
  | @formalDecl t t' type type' id id' rs h =>
    rw [List.forall_mem_singleton] at hunbound
    exact h.ruled_site (hunbound id (by simp [Node.idents])) (.inr rfl) hscopes
      (.of_scopes ht hscopes)
  | @structDecl t t' fields id id' decls decls' rs₁ rs₂ hdepth hdecls hid =>
    rw [List.forall_mem_singleton] at hunbound
    obtain ⟨hfields, -⟩ := hdecls.ruled_block (fun d hd => hunbound.child hd)
      (.of_scopes ht hscopes)
    have hlayout : fields = scopeOf (declared decls') := by
      have hscopes := hdecls.mirrored_block fun d hd => hunbound.child hd
      exact (List.cons.inj hscopes).1
    have hstruct : Ruled [⟨.structDecl id' decls', declared before, declared before⟩] ([] ++ rs₂) :=
      hid.ruled_site (hunbound id (by simp [Node.idents])) hscopes rfl
        (by rw [Node.ownSymbol?, hlayout, hid.name_eq]) rfl rfl
    simpa [globalSites, Node.sites] using hfields.append hstruct
  | @fnDecl t t₁ t₂ scope type type' id id' formals formals' decls decls' stmts stmts' params result
      rs₁ rs₂ rs₃ rs₄ rs₅ hdepth htype hparams hresult hid hformals hdecls hstmts =>
    have hresolves := Resolves.fnDecl hdepth htype hparams hresult hid hformals hdecls hstmts
    have hunder := Under.of_scopes ht hscopes
    have hscopes₁ := hresolves.mirrored rfl hunbound hscopes
    rw [← declared_append] at hscopes₁
    have hunder₁ := Under.of_scopes (hresolves.isLaid ht) hscopes₁
    rw [List.forall_mem_singleton] at hunbound
    have hundefined : rs₁ = Site.undefined ⟨.fnDecl type' id' formals' decls' stmts',
        declared before, declared before⟩ type' := htype.ruled hunder
    have hname : Ruled [⟨.fnDecl type' id' formals' decls' stmts', declared before,
        declared before⟩] (rs₁ ++ rs₂) := by
      apply hid.ruled_site (hunbound id (by simp [Node.idents])) hscopes rfl
      · simp [Node.ownSymbol?, hformals.typeNames?_eq, hparams, hresult]
      · rfl
      · rw [hundefined]
        rfl
    -- the parameters open the scope that the declarations of the body go on with
    have hfs : ∀ f ∈ formals, f.Unbound := fun f hf => hunbound.child (by simp [Node.children, hf])
    have hds : ∀ d ∈ decls, d.Unbound := fun d hd => hunbound.child (by simp [Node.children, hd])
    obtain ⟨hformals', hunder₂⟩ := hformals.ruled_block hfs hunder₁
    have hscopes₂ := hformals.mirrored_block hfs
    have hne : t₁.scopes ≠ [] := by simp [hscopes₁]
    have hdepth₂ : 1 < t₂.depth := by
      simp [ScopeStack.depth, hscopes₂, hscopes₁]
    have hdecls' := hdecls.ruled_storages rfl (hdecls.isStorage rfl hdepth₂) hds hunder₂ hscopes₂ hne
    have hstmts' := hstmts.ruled_stmts rfl
      (fun s hs => hunbound.child (by simp [Node.children, hs])) (hunder₂.inner hdecls hscopes₂ hne)
    have hsites := hname.append (hformals'.append (hdecls'.append hstmts'))
    simpa [globalSites, Node.sites, sitesOf_append] using hsites
  | _ => cases hp

theorem resolveProgram_ruled {program : Program}
    (hfault : (resolveProgram program .empty).stage.fault = none)
    (hunbound : ∀ id ∈ Node.identsAll program, id.symbol = none) :
    Ruled (globalSites [] (resolveProgram program .empty).value)
      (resolveProgram program .empty).reports := by
  obtain ⟨scope, h⟩ := Resolves.of_resolveProgram hfault
  apply Resolves.globally_ruled h rfl
  · intro d hd id hid
    exact hunbound id (Node.mem_identsAll.mpr ⟨d, hd, hid⟩)
  · exact ⟨[], [], Laid.initial⟩
  · rfl

end Programs

/-- The analysis of a program that conforms to the grammar and carries no symbols comes to its end
and leaves the tree as it was but for symbols. In each scope, the declarations that are accepted are
exactly those that end up with a symbol, and this symbol is their own. What is reported about
declarations is what is due to each of them, in the order in which they are declared. -/
theorem first_declaration_wins {program : Program} (hgrammar : conforms program = true)
    (hunbound : ∀ id ∈ Node.identsAll program, id.symbol = none) :
    (resolveProgram program .empty).stage.fault = none ∧
    Node.agreesAll program (resolveProgram program .empty).value = true ∧
    (∀ s ∈ globalSites [] (resolveProgram program .empty).value, ∃ id,
      s.decl.declared? = some id ∧ (id.Bound ↔ s.accepted = true) ∧
        (id.Bound → id.symbol = s.decl.ownSymbol?)) ∧
    (resolveProgram program .empty).reports.filter Diagnostic.isDeclaring =
      (globalSites [] (resolveProgram program .empty).value).flatMap Site.complaints := by
  have hfault := resolveProgram_returns hgrammar hunbound
  obtain ⟨scope, h⟩ := Resolves.of_resolveProgram hfault
  have hruled := resolveProgram_ruled hfault hunbound
  exact ⟨hfault, h.agrees, hruled.symbols, hruled.reports⟩

/-- A struct with a field twice and one of a struct that comes later, a variable that cannot have
the name of the struct, a void variable that does not keep its name from the next one, and a
function of a name that is taken, with an unknown result type. -/
def rivalProgram : Program :=
  [.structDecl ⟨"P", ⟨1, 8⟩, none⟩
      [.varDecl (.primType .int) ⟨"x", ⟨1, 16⟩, none⟩,
        .varDecl (.primType .bool) ⟨"x", ⟨1, 24⟩, none⟩,
        .varDecl (.structType ⟨"Q", ⟨1, 34⟩, none⟩) ⟨"x", ⟨1, 36⟩, none⟩],
    .varDecl (.primType .int) ⟨"P", ⟨2, 5⟩, none⟩,
    .varDecl (.primType .void) ⟨"v", ⟨3, 6⟩, none⟩,
    .varDecl (.structType ⟨"P", ⟨4, 8⟩, none⟩) ⟨"v", ⟨4, 10⟩, none⟩,
    .fnDecl (.structType ⟨"Q", ⟨5, 8⟩, none⟩) ⟨"v", ⟨5, 10⟩, none⟩
      [.formalDecl (.primType .int) ⟨"v", ⟨5, 16⟩, none⟩]
      [.varDecl (.primType .int) ⟨"v", ⟨6, 7⟩, none⟩]
      [.whileStmt (.lit (.bool true) ⟨7, 10⟩)
        [.varDecl (.structType ⟨"P", ⟨8, 12⟩, none⟩) ⟨"v", ⟨8, 14⟩, none⟩] []]]

theorem rivalProgram_first_declarations :
    conforms rivalProgram = true ∧
      (∀ id ∈ Node.identsAll rivalProgram, id.symbol = none) ∧
      (globalSites [] (resolveProgram rivalProgram .empty).value).map Site.accepted =
        [true, false, false, true, false, false, true, false, true, false, true] ∧
      (resolveProgram rivalProgram .empty).reports.filter Diagnostic.isDeclaring =
        [.ofKind .multiplyDeclared ⟨1, 24⟩, .ofKind .undefinedStructType ⟨1, 34⟩,
          .ofKind .multiplyDeclared ⟨2, 5⟩, .ofKind .badVoidType ⟨3, 6⟩,
          .ofKind .undefinedStructType ⟨5, 8⟩, .ofKind .multiplyDeclared ⟨5, 10⟩,
          .ofKind .multiplyDeclared ⟨6, 7⟩] := by
  have hgrammar : conforms rivalProgram = true := by decide
  have hunbound : ∀ id ∈ Node.identsAll rivalProgram, id.symbol = none := by decide
  obtain ⟨-, -, -, hreports⟩ := first_declaration_wins hgrammar hunbound
  exact ⟨hgrammar, hunbound, rfl, hreports⟩

end Sema
