import Sema.Proofs.Resolution.Acceptance

/-!
# Functions and what refers to them

A function's symbol is in the global scope alone. An identifier that carries one is an identifier of
the function's own name, and in the body of the function a parameter stands for itself wherever no
block declares its name anew.
-/

namespace Sema

/-- If the identifier stands for a function, that is what the scope has under its name. -/
def Ident.LinkedIn (g : Scope) (id : Ident) : Prop :=
  ∀ params result, id.symbol = some (.function params result) →
    g.lookup id.name = some (some (.function params result))

theorem Ident.linkedIn_of_none {g : Scope} {id : Ident} (h : id.symbol = none) :
    id.LinkedIn g := by
  intro params result hsymbol
  rw [h] at hsymbol
  cases hsymbol

theorem Ident.LinkedIn.mono {g g' : Scope} {id : Ident} (h : id.LinkedIn g) (hgrows : g <+: g') :
    id.LinkedIn g' := by
  intro params result hsymbol
  obtain ⟨added, rfl⟩ := hgrows
  rw [List.lookup_append, h params result hsymbol, Option.some_or]

theorem Laid.lookup_function {t : SymbolTable} {inner : List Scope} {g : Scope}
    (h : Laid t inner g) {name : String} {params : List String} {result : String}
    (hlookup : t.lookupLexical name = .ok (some (.function params result))) :
    g.lookup name = some (some (.function params result)) := by
  simp only [SymbolTable.lookupLexical, List.isEmpty_iff, h.scopes_ne_nil, if_false,
    Except.ok.injEq] at hlookup
  cases hfind : t.scopes.findSome? (·.lookup name) with
  | none =>
    rw [hfind] at hlookup
    cases hlookup
  | some entry =>
    rw [hfind, Option.join_some] at hlookup
    obtain ⟨scope, hmem, hentry⟩ := List.exists_of_findSome?_eq_some hfind
    rw [h.scopes_eq, List.mem_append, List.mem_singleton] at hmem
    rcases hmem with hinner | rfl
    · obtain ⟨s', rfl, hs'⟩ := (h.within scope hinner).lookup hentry
      cases hlookup
      cases hs'
    · rw [hentry, hlookup]

theorem Resolves.outermost_grows {global : Nat} {p : Phrase} {t t' : SymbolTable}
    {ns ns' : List Node} {rs : List Diagnostic} (h : Resolves global p t ns t' ns' rs)
    (ht : t.IsLaid) : t.outermost <+: t'.outermost := by
  obtain ⟨inner, g, hlaid⟩ := ht
  obtain ⟨scope, rest, hscopes⟩ := List.exists_cons_of_ne_nil hlaid.scopes_ne_nil
  obtain ⟨added, rfl⟩ := h.frame.2 _ _ hscopes
  rw [SymbolTable.outermost, SymbolTable.outermost, hscopes]
  cases rest with
  | nil => exact List.prefix_append _ _
  | cons outer rest => exact List.prefix_rfl

theorem SymbolTable.IsLaid.outermost_cons {t : SymbolTable} (h : t.IsLaid) (scope : Scope) :
    SymbolTable.outermost ⟨scope :: t.scopes⟩ = t.outermost := by
  obtain ⟨inner, g, hlaid⟩ := h
  obtain ⟨outer, rest, hscopes⟩ := List.exists_cons_of_ne_nil hlaid.scopes_ne_nil
  rw [SymbolTable.outermost, SymbolTable.outermost, hscopes]
  rfl

section Steps

variable {t t' : SymbolTable} {inner : List Scope} {g : Scope} {id id' : Ident}
  {rs : List Diagnostic}

private theorem UseBinds.linked (h : UseBinds t id id' rs) (ht : Laid t inner g)
    (hid : id.symbol = none) : id'.LinkedIn g := by
  cases h with
  | known h =>
    intro params result hsymbol
    cases hsymbol
    exact ht.lookup_function h
  | unknown _ => exact Ident.linkedIn_of_none hid

private theorem StructBinds.linked {d : Option StructDef} (h : StructBinds t id id' d rs)
    (hid : id.symbol = none) : id'.LinkedIn g := by
  cases h with
  | known _ =>
    intro params result hsymbol
    cases hsymbol
  | unknown _ => exact Ident.linkedIn_of_none hid

private theorem FieldBinds.linked {owner : Ident} (h : FieldBinds t owner id id' rs)
    (ht : Laid t inner g) (hid : id.symbol = none) : id'.LinkedIn g := by
  cases h with
  | known _ hd hs =>
    intro params result hsymbol
    cases hsymbol
    cases ht.field hd hs
  | unbound _ | unknown _ _ _ | nonStruct _ _ => exact Ident.linkedIn_of_none hid

private theorem Declares.linked {s : Symbol} (h : Declares t id s t' id' rs)
    (hid : id.symbol = none) (hs : ∀ params result, s ≠ .function params result) :
    id'.LinkedIn g := by
  cases h with
  | fresh _ =>
    intro params result hsymbol
    cases hsymbol
    exact absurd rfl (hs params result)
  | taken _ => exact Ident.linkedIn_of_none hid

private theorem StorageDeclares.linked {type type' : Node}
    (h : StorageDeclares t id type t' type' id' rs)
    (htype : ∀ name ∈ type.idents, name.symbol = none) (hid : id.symbol = none) :
    (∀ name ∈ type'.idents, name.LinkedIn g) ∧ id'.LinkedIn g := by
  cases h with
  | void => exact ⟨by simp [Node.idents], Ident.linkedIn_of_none hid⟩
  | scalar _ h => exact ⟨by simp [Node.idents], h.linked hid (by simp)⟩
  | struct hname h =>
    simp only [Node.idents, List.forall_mem_singleton] at htype ⊢
    exact ⟨hname.linked htype, h.linked hid (by simp)⟩
  | undefined hname =>
    simp only [Node.idents, List.forall_mem_singleton] at htype ⊢
    exact ⟨hname.linked htype, Ident.linkedIn_of_none hid⟩

private theorem ResultBinds.linked {type type' : Node} (h : ResultBinds t type type' rs)
    (htype : ∀ name ∈ type.idents, name.symbol = none) :
    ∀ name ∈ type'.idents, name.LinkedIn g := by
  cases h with
  | struct hname =>
    simp only [Node.idents, List.forall_mem_singleton] at htype ⊢
    exact hname.linked htype
  | other _ => exact fun name hname => Ident.linkedIn_of_none (htype name hname)

private theorem Declares.linked_function {params : List String} {result : String}
    (h : Declares t id (.function params result) t' id' rs) (ht : Laid t [] g)
    (hid : id.symbol = none) : id'.LinkedIn t'.outermost := by
  cases h with
  | fresh h =>
    intro params' result' hsymbol
    cases hsymbol
    obtain ⟨-, scope, rest, hscopes, hfresh, rfl⟩ := SymbolTable.declare_eq_ok.mp h
    rw [ht.scopes_eq, List.nil_append, List.cons.injEq] at hscopes
    obtain ⟨rfl, rfl⟩ := hscopes
    simp [SymbolTable.outermost, Scope.lookup_snoc, hfresh]
  | taken _ => exact Ident.linkedIn_of_none hid

end Steps

/-- Identifiers that stand for functions do so by the global scope. -/
theorem Resolves.linked {p : Phrase} {t t' : SymbolTable} {ns ns' : List Node}
    {rs : List Diagnostic} (h : Resolves 1 p t ns t' ns' rs) (ht : t.IsLaid)
    (hns : ∀ id ∈ Node.identsAll ns, id.symbol = none) :
    ∀ id ∈ Node.identsAll ns', id.LinkedIn t'.outermost := by
  induction h with
  | nil => simp [Node.identsAll]
  | cons hhead htail ihhead ihtail =>
    simp only [Node.identsAll, List.forall_mem_append] at hns ⊢
    simp only [Node.identsAll_singleton] at ihhead
    have ht₁ := hhead.isLaid ht
    exact ⟨fun id hid => (ihhead ht hns.1 id hid).mono (htail.outermost_grows ht₁),
      ihtail ht₁ hns.2⟩
  | lit | bareReturn => simp [Node.identsAll, Node.idents]
  | ident h =>
    obtain ⟨inner, g, hlaid⟩ := ht
    simp only [Node.identsAll_singleton, Node.idents, List.forall_mem_singleton] at hns ⊢
    rw [hlaid.outermost_eq]
    exact h.linked hlaid hns
  | dot _ _ _ hfield ih =>
    simp only [Node.identsAll_singleton, Node.idents, List.forall_mem_append,
      List.forall_mem_singleton] at hns ih ⊢
    have hbase := ih ht hns.1
    obtain ⟨inner, g, hlaid⟩ := ht
    rw [hlaid.outermost_eq] at hbase ⊢
    exact ⟨hbase, hfield.linked hlaid hns.2⟩
  | call hcallee _ ih =>
    simp only [Node.identsAll_singleton, Node.idents, List.forall_mem_cons] at hns ⊢
    have hargs := ih ht hns.2
    obtain ⟨inner, g, hlaid⟩ := ht
    rw [hlaid.outermost_eq] at hargs ⊢
    exact ⟨hcallee.linked hlaid hns.1, hargs⟩
  | ifStmt _ hdecls _ ihcond ihdecls ihstmts | whileStmt _ hdecls _ ihcond ihdecls ihstmts =>
    simp only [Node.identsAll_singleton, Node.idents, List.forall_mem_append] at hns ihcond ⊢
    have hinner := hdecls.isLaid ht.enterScope
    rw [ht.outermost_cons] at ihdecls ihstmts
    exact ⟨⟨ihcond ht hns.1.1, ihdecls ht.enterScope hns.1.2⟩, ihstmts hinner hns.2⟩
  | ifElseStmt _ hdecls _ hdecls' _ ihcond ihdecls ihstmts ihdecls' ihstmts' =>
    simp only [Node.identsAll_singleton, Node.idents, List.forall_mem_append] at hns ihcond ⊢
    obtain ⟨⟨⟨⟨hcond, hds⟩, hss⟩, hds'⟩, hss'⟩ := hns
    have hinner := hdecls.isLaid ht.enterScope
    have hinner' := hdecls'.isLaid ht.enterScope
    rw [ht.outermost_cons] at ihdecls ihstmts ihdecls' ihstmts'
    exact ⟨⟨⟨⟨ihcond ht hcond, ihdecls ht.enterScope hds⟩, ihstmts hinner hss⟩,
      ihdecls' ht.enterScope hds'⟩, ihstmts' hinner' hss'⟩
  | varDecl h | formalDecl h =>
    simp only [Node.identsAll_singleton, Node.idents, List.forall_mem_append,
      List.forall_mem_singleton] at hns ⊢
    exact h.linked hns.1 hns.2
  | @fnDecl t t₁ t₂ scope type type' id id' formals formals' decls decls' stmts stmts' params result
      rs₁ rs₂ rs₃ rs₄ rs₅ hdepth htype hparams hresult hid hformals hdecls hstmts ihformals ihdecls
      ihstmts =>
    simp only [Node.identsAll_singleton, Node.idents, List.forall_mem_append,
      List.forall_mem_cons] at hns ⊢
    obtain ⟨htypes, hname, ⟨hfs, hds⟩, hss⟩ := hns
    have ht₁ : t₁.IsLaid :=
      (Resolves.fnDecl hdepth htype hparams hresult hid hformals hdecls hstmts).isLaid ht
    have ht₂ := hformals.isLaid ht₁.enterScope
    obtain ⟨inner, g, hlaid⟩ := ht
    rw [hlaid.of_depth hdepth] at hlaid
    obtain ⟨added, rfl⟩ := hformals.opened
    rw [ht₁.outermost_cons] at ihformals ihdecls ihstmts
    exact ⟨htype.linked htypes, hid.linked_function hlaid hname,
      ⟨ihformals ht₁.enterScope hfs, ihdecls ht₂ hds⟩, ihstmts (hdecls.isLaid ht₂) hss⟩
  | structDecl hdepth hdecls hid ih =>
    have hgrows := (Resolves.structDecl hdepth hdecls hid).outermost_grows ht
    simp only [Node.identsAll_singleton, Node.idents, List.forall_mem_cons] at hns ⊢
    rw [ht.outermost_cons] at ih
    exact ⟨hid.linked hns.1 (by simp), fun field hfield =>
      (ih ht.enterScope hns.2 field hfield).mono hgrows⟩
  | _ =>
    rename_i ih
    simp only [Node.idents, Node.identsAll, List.append_nil] at hns ih ⊢
    exact ih ht hns

/-- The uses of a name in statements, but for those in blocks that declare it. -/
def freeUses (name : String) (stmts : List Node) : List Ident :=
  ((Node.usesInAll [] stmts).filter fun u =>
    u.id.name == name && u.scopes.all (·.all (·.name != name))).map Use.id

section Uses

variable {global : Nat} {t t' : SymbolTable} {rs : List Diagnostic} {blocks : List (List Ident)}
  {rest : List Scope}

/-- A use has the symbol that the blocks around it and the scopes around these have for it. -/
def Use.FoundIn (rest : List Scope) (u : Use) : Prop :=
  u.id.symbol = ((u.scopes.map scopeOf ++ rest).findSome? (·.lookup u.id.name)).join

private theorem UseBinds.foundIn {id id' : Ident} (h : UseBinds t id id' rs)
    (hid : id.symbol = none) (ht : t.scopes = blocks.map scopeOf ++ rest) :
    Use.FoundIn rest ⟨id', blocks⟩ := by
  have hlookup {found : Option Symbol} (h : t.lookupLexical id.name = .ok found) :
      found = ((blocks.map scopeOf ++ rest).findSome? (·.lookup id.name)).join := by
    rw [SymbolTable.lookupLexical] at h
    split at h
    · cases h
    · rw [← ht, ← Except.ok.inj h]
  cases h with
  | known h => exact hlookup h
  | unknown h => exact hid.trans (hlookup h)

private theorem Resolves.scopes_block {scope : Scope} {ds ds' : List Node}
    (h : Resolves global .decls t.enterScope ds ⟨scope :: t.scopes⟩ ds' rs)
    (hunbound : ∀ d ∈ ds, d.Unbound) (ht : t.scopes = blocks.map scopeOf ++ rest) :
    scope :: t.scopes = (declared ds' :: blocks).map scopeOf ++ rest := by
  have hscopes : scope :: t.scopes = scopeOf (declared ds') :: t.scopes :=
    h.mirrored_block hunbound
  rw [hscopes, ht, List.map_cons, List.cons_append]

private theorem Resolves.foundIn {p : Phrase} {ns ns' : List Node}
    (h : Resolves global p t ns t' ns' rs) (hp : p ≠ .decls) (hunbound : ∀ n ∈ ns, n.Unbound)
    (ht : t.scopes = blocks.map scopeOf ++ rest) :
    ∀ u ∈ Node.usesInAll blocks ns', u.FoundIn rest := by
  induction h generalizing blocks with
  | nil => simp [Node.usesInAll]
  | @cons p t t₁ t₂ n n' ns ns' rs₁ rs₂ hhead _ ihhead ihtail =>
    obtain rfl : t₁ = t := hhead.frame.1 hp
    rw [List.forall_mem_cons] at hunbound
    have hhead := ihhead hp (List.forall_mem_singleton.mpr hunbound.1) ht
    rw [Node.usesInAll_singleton] at hhead
    exact List.forall_mem_append.mpr ⟨hhead, ihtail hp hunbound.2 ht⟩
  | lit | bareReturn => simp [Node.usesIn]
  | ident h =>
    rw [List.forall_mem_singleton] at hunbound
    rw [Node.usesInAll_singleton, Node.usesIn, List.forall_mem_singleton]
    exact h.foundIn (hunbound _ (by simp [Node.idents])) ht
  | call hcallee _ ih =>
    rw [List.forall_mem_singleton] at hunbound
    rw [Node.usesInAll_singleton, Node.usesIn, List.forall_mem_cons]
    exact ⟨hcallee.foundIn (hunbound _ (by simp [Node.idents])) ht,
      ih hp (fun m hm => hunbound.child hm) ht⟩
  | ifStmt _ hdecls _ ihcond _ ihstmts | whileStmt _ hdecls _ ihcond _ ihstmts =>
    rw [List.forall_mem_singleton] at hunbound
    have hcond := ihcond (by decide)
      (List.forall_mem_singleton.mpr (hunbound.child (by simp [Node.children]))) ht
    have hblock := hdecls.scopes_block (fun d hd => hunbound.child (by simp [Node.children, hd])) ht
    have hstmts := ihstmts (by decide)
      (fun s hs => hunbound.child (by simp [Node.children, hs])) hblock
    rw [Node.usesInAll_singleton] at hcond ⊢
    exact List.forall_mem_append.mpr ⟨hcond, hstmts⟩
  | ifElseStmt _ hdecls _ hdecls' _ ihcond _ ihstmts _ ihstmts' =>
    rw [List.forall_mem_singleton] at hunbound
    have hcond := ihcond (by decide)
      (List.forall_mem_singleton.mpr (hunbound.child (by simp [Node.children]))) ht
    have hthen := ihstmts (by decide) (fun s hs => hunbound.child (by simp [Node.children, hs]))
      (hdecls.scopes_block (fun d hd => hunbound.child (by simp [Node.children, hd])) ht)
    have helse := ihstmts' (by decide) (fun s hs => hunbound.child (by simp [Node.children, hs]))
      (hdecls'.scopes_block (fun d hd => hunbound.child (by simp [Node.children, hd])) ht)
    rw [Node.usesInAll_singleton] at hcond ⊢
    exact List.forall_mem_append.mpr ⟨hcond, List.forall_mem_append.mpr ⟨hthen, helse⟩⟩
  | varDecl | formalDecl | fnDecl | structDecl => exact absurd rfl hp
  | _ =>
    rename_i ih
    rw [List.forall_mem_singleton] at hunbound
    simpa [Node.usesInAll, Node.usesIn] using ih (by decide) (fun m hm => hunbound.child hm) ht

private theorem Resolves.freeUses_of_scope {ids : List Ident} {ss ss' : List Node}
    (h : Resolves global .stmts t ss t' ss' rs) (hunbound : ∀ s ∈ ss, s.Unbound)
    (ht : t.scopes = scopeOf ids :: rest) (hids : Unambiguous ids) {param : Ident}
    (hparam : param ∈ ids) (hbound : param.Bound) :
    ∀ use ∈ freeUses param.name ss', use.symbol = param.symbol := by
  intro use huse
  simp only [freeUses, List.mem_map, List.mem_filter, Bool.and_eq_true, beq_iff_eq,
    List.all_eq_true, bne_iff_ne] at huse
  obtain ⟨u, ⟨hu, hname, hblocks⟩, rfl⟩ := huse
  have hfound : u.FoundIn (scopeOf ids :: rest) := h.foundIn (by decide) hunbound ht u hu
  have hinner : (u.scopes.map scopeOf).findSome? (·.lookup u.id.name) = none := by
    simp only [List.findSome?_eq_none_iff, List.mem_map, forall_exists_index, and_imp,
      forall_apply_eq_imp_iff₂]
    intro block hblock
    rw [lookup_scopeOf, Option.map_eq_none_iff, symbolIn?, List.findSome?_eq_none_iff]
    intro id hid
    rw [hname, if_neg (hblocks block hblock id hid)]
  obtain ⟨s, hs⟩ := Option.isSome_iff_exists.mp hbound
  rw [Use.FoundIn, List.findSome?_append, hinner, Option.none_or, List.findSome?_cons, hname,
    lookup_scopeOf, symbolIn?_of_mem hids hparam hbound, hs] at hfound
  rw [hfound, hs]
  rfl

/-- In the body of a function, a parameter that has a symbol stands for itself. -/
theorem Resolves.parameter_uses {p : Phrase} {ds ds' : List Node}
    (h : Resolves 1 p t ds t' ds' rs) (hp : p = .decls) (hunbound : ∀ d ∈ ds, d.Unbound)
    (ht : t.IsLaid) {type : Node} {id param : Ident} {formals decls stmts : List Node}
    (hf : .fnDecl type id formals decls stmts ∈ ds') (hparam : param ∈ declared formals)
    (hbound : param.Bound) : ∀ use ∈ freeUses param.name stmts, use.symbol = param.symbol := by
  induction h with
  | nil => cases hf
  | cons hhead _ ihhead ihtail =>
    subst hp
    rw [List.forall_mem_cons] at hunbound
    rcases List.mem_cons.mp hf with hf | hf
    · exact ihhead rfl (List.forall_mem_singleton.mpr hunbound.1) ht (List.mem_singleton.mpr hf)
    · exact ihtail rfl hunbound.2 (hhead.isLaid ht) hf
  | @fnDecl t t₁ t₂ scope type₀ type' id₀ id' formals₀ formals' decls₀ decls' stmts₀ stmts' params
      result rs₁ rs₂ rs₃ rs₄ rs₅ hdepth htype hparams hresult hid hformals hdecls hstmts =>
    have hresolves := Resolves.fnDecl hdepth htype hparams hresult hid hformals hdecls hstmts
    cases List.mem_singleton.mp hf
    rw [List.forall_mem_singleton] at hunbound
    have hscopes₂ := hformals.mirrored_block
      fun f hf => hunbound.child (by simp [Node.children, hf])
    have hscopes := hdecls.mirrored rfl
      (fun d hd => hunbound.child (by simp [Node.children, hd])) hscopes₂
    have hlaid := hdecls.isLaid (hformals.isLaid (hresolves.isLaid ht).enterScope)
    have hids : Unambiguous (declared formals ++ declared decls) := by
      rw [Unambiguous, ← names_scopeOf]
      apply hlaid.nodup
      rw [hscopes]
      exact List.mem_cons_self
    exact hstmts.freeUses_of_scope (fun s hs => hunbound.child (by simp [Node.children, hs]))
      hscopes hids (by simp [hparam]) hbound
  | varDecl | formalDecl | structDecl => cases List.mem_singleton.mp hf
  | _ => cases hp

end Uses

end Sema
