import Sema.Proofs.Resolution.Layout
import Sema.Proofs.Tree.Parts
import Sema.Ty

/-!
# The symbols that name analysis writes

Every symbol that the analysis of a program gives to an identifier is of a kind that has a type, and
no variable is without a value.
-/

namespace Sema

/-- The identifier has a type: it is bound to nothing, or to a symbol of a known kind. -/
def Ident.Typable (id : Ident) : Prop := ∃ type, id.type = .ok type

/-- The symbol is of a known kind, and a variable of no struct is a number or a truth value. -/
def Symbol.IsRegular : Symbol → Prop
  | .var type => type = "int" ∨ type = "bool"
  | .unknown _ => False
  | _ => True

/-- The identifier is bound to nothing, or to a regular symbol. -/
def Ident.Regular (id : Ident) : Prop := ∀ s, id.symbol = some s → s.IsRegular

theorem Ident.Regular.typable {id : Ident} (h : id.Regular) : id.Typable := by
  rw [Typable, Ident.type]
  cases hsymbol : id.symbol with
  | none => exact ⟨_, rfl⟩
  | some s =>
    have hs := h s hsymbol
    cases s with
    | unknown _ => cases hs
    | _ => exact ⟨_, rfl⟩

theorem Symbol.IsRegular.type_ne_void {s : Symbol} (h : s.IsRegular) : s.type ≠ .ok .void := by
  cases s with
  | var type =>
    rcases h with rfl | rfl <;> simp [type, Ty.ofName]
  | _ => simp [type]

section Steps

variable {t t' : SymbolTable} {inner : List Scope} {g : Scope} {id id' : Ident}

theorem Ident.regular_of_none (h : id.symbol = none) : id.Regular := by
  intro s hs
  rw [h] at hs
  cases hs

private theorem Ident.regular_of_some {s : Symbol} (hs : s.IsRegular) :
    Ident.Regular { id with symbol := some s } := by
  rintro _ ⟨⟩
  exact hs

private theorem Symbol.IsGlobal.isRegular {name : String} {s : Symbol} (hs : s.IsGlobal g name) :
    s.IsRegular := by
  cases s with
  | var _ => exact hs
  | unknown _ => cases hs
  | _ => trivial

private theorem UseBinds.regular {rs : List Diagnostic} (h : UseBinds t id id' rs)
    (ht : Laid t inner g) (hid : id.Regular) : id'.Regular := by
  cases h with
  | known h => exact Ident.regular_of_some (ht.lookupLexical h).isRegular
  | unknown _ => exact hid

private theorem StructBinds.regular {d : Option StructDef} {rs : List Diagnostic}
    (h : StructBinds t id id' d rs) (hid : id.Regular) : id'.Regular := by
  cases h with
  | known _ => exact Ident.regular_of_some trivial
  | unknown _ => exact hid

private theorem FieldBinds.regular {owner : Ident} {rs : List Diagnostic}
    (h : FieldBinds t owner id id' rs) (ht : Laid t inner g) (hid : id.Regular) : id'.Regular := by
  cases h with
  | known _ hd hs => exact Ident.regular_of_some ((ht.field hd hs).isGlobal id.name).isRegular
  | unbound _ | unknown _ _ _ | nonStruct _ _ => exact hid

private theorem Declares.regular {s : Symbol} {rs : List Diagnostic} (h : Declares t id s t' id' rs)
    (hs : s.IsRegular) (hid : id.Regular) : id'.Regular := by
  cases h with
  | fresh _ => exact Ident.regular_of_some hs
  | taken _ => exact hid

private theorem StorageDeclares.regular {type type' : Node} {rs : List Diagnostic}
    (h : StorageDeclares t id type t' type' id' rs) (htype : ∀ name ∈ type.idents, name.Regular)
    (hid : id.Regular) : (∀ name ∈ type'.idents, name.Regular) ∧ id'.Regular := by
  cases h with
  | void => exact ⟨htype, hid⟩
  | @scalar prim _ _ _ hprim h =>
    have hscalar : prim.text = "int" ∨ prim.text = "bool" := by
      cases prim with
      | int => exact .inl rfl
      | bool => exact .inr rfl
      | void => exact absurd rfl hprim
    exact ⟨htype, h.regular hscalar hid⟩
  | struct hname h =>
    simp only [Node.idents, List.forall_mem_singleton] at htype ⊢
    exact ⟨hname.regular htype, h.regular trivial hid⟩
  | undefined hname =>
    simp only [Node.idents, List.forall_mem_singleton] at htype ⊢
    exact ⟨hname.regular htype, hid⟩

private theorem ResultBinds.regular {type type' : Node} {rs : List Diagnostic}
    (h : ResultBinds t type type' rs) (htype : ∀ name ∈ type.idents, name.Regular) :
    ∀ name ∈ type'.idents, name.Regular := by
  cases h with
  | struct hname =>
    simp only [Node.idents, List.forall_mem_singleton] at htype ⊢
    exact hname.regular htype
  | other _ => exact htype

end Steps

/-- No identifier is bound to an irregular symbol, if none was to begin with. -/
theorem Resolves.regular {p : Phrase} {t t' : SymbolTable} {ns ns' : List Node}
    {rs : List Diagnostic} (h : Resolves 1 p t ns t' ns' rs) (ht : t.IsLaid)
    (hns : ∀ id ∈ Node.identsAll ns, id.Regular) : ∀ id ∈ Node.identsAll ns', id.Regular := by
  induction h with
  | nil => exact hns
  | cons hhead _ ihhead ihtail =>
    simp only [Node.identsAll, List.forall_mem_append] at hns ⊢
    simp only [Node.identsAll_singleton] at ihhead
    exact ⟨ihhead ht hns.1, ihtail (hhead.isLaid ht) hns.2⟩
  | lit | bareReturn => exact hns
  | ident h =>
    obtain ⟨inner, g, hlaid⟩ := ht
    simp only [Node.identsAll_singleton, Node.idents, List.forall_mem_singleton] at hns ⊢
    exact h.regular hlaid hns
  | dot _ _ _ hfield ih =>
    simp only [Node.identsAll_singleton, Node.idents, List.forall_mem_append,
      List.forall_mem_singleton] at hns ih ⊢
    have hbase := ih ht hns.1
    obtain ⟨inner, g, hlaid⟩ := ht
    exact ⟨hbase, hfield.regular hlaid hns.2⟩
  | call hcallee _ ih =>
    simp only [Node.identsAll_singleton, Node.idents, List.forall_mem_cons] at hns ⊢
    have hargs := ih ht hns.2
    obtain ⟨inner, g, hlaid⟩ := ht
    exact ⟨hcallee.regular hlaid hns.1, hargs⟩
  | ifStmt _ hdecls _ ihcond ihdecls ihstmts | whileStmt _ hdecls _ ihcond ihdecls ihstmts =>
    simp only [Node.identsAll_singleton, Node.idents, List.forall_mem_append] at hns ihcond ⊢
    have hinner := ht.enterScope
    exact ⟨⟨ihcond ht hns.1.1, ihdecls hinner hns.1.2⟩, ihstmts (hdecls.isLaid hinner) hns.2⟩
  | ifElseStmt _ hdecls _ hdecls' _ ihcond ihdecls ihstmts ihdecls' ihstmts' =>
    simp only [Node.identsAll_singleton, Node.idents, List.forall_mem_append] at hns ihcond ⊢
    obtain ⟨⟨⟨⟨hcond, hds⟩, hss⟩, hds'⟩, hss'⟩ := hns
    have hinner := ht.enterScope
    exact ⟨⟨⟨⟨ihcond ht hcond, ihdecls hinner hds⟩, ihstmts (hdecls.isLaid hinner) hss⟩,
      ihdecls' hinner hds'⟩, ihstmts' (hdecls'.isLaid hinner) hss'⟩
  | varDecl h | formalDecl h =>
    simp only [Node.identsAll_singleton, Node.idents, List.forall_mem_append,
      List.forall_mem_singleton] at hns ⊢
    exact h.regular hns.1 hns.2
  | @fnDecl t t₁ t₂ scope type type' id id' formals formals' decls decls' stmts stmts' params result
      rs₁ rs₂ rs₃ rs₄ rs₅ hdepth htype hparams hresult hid hformals hdecls hstmts ihformals ihdecls
      ihstmts =>
    simp only [Node.identsAll_singleton, Node.idents, List.forall_mem_append,
      List.forall_mem_cons] at hns ⊢
    obtain ⟨htypes, hname, ⟨hfs, hds⟩, hss⟩ := hns
    -- the body leaves no trace in the scopes, so they end as its name has left them
    have ht₁ : t₁.IsLaid :=
      (Resolves.fnDecl hdepth htype hparams hresult hid hformals hdecls hstmts).isLaid ht
    have hinner := ht₁.enterScope
    have ht₂ := hformals.isLaid hinner
    exact ⟨htype.regular htypes, hid.regular trivial hname,
      ⟨ihformals hinner hfs, ihdecls ht₂ hds⟩, ihstmts (hdecls.isLaid ht₂) hss⟩
  | structDecl _ _ hid ih =>
    simp only [Node.identsAll_singleton, Node.idents, List.forall_mem_cons] at hns ⊢
    exact ⟨hid.regular trivial hns.1, ih ht.enterScope hns.2⟩
  | _ =>
    rename_i ih
    simp only [Node.idents, Node.identsAll, List.append_nil] at hns ih ⊢
    exact ih ht hns

end Sema
