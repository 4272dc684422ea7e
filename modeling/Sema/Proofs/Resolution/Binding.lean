import Sema.Proofs.Resolution.Rules
import Sema.Proofs.Tree.Parts

/-!
# What a clean analysis binds

Name analysis that reports nothing leaves no identifier of the tree without a symbol.
-/

namespace Sema

section Steps

variable {t t' : SymbolTable} {id id' : Ident}

private theorem UseBinds.bound (h : UseBinds t id id' []) : id'.Bound := by
  cases h with
  | known _ => rfl

private theorem StructBinds.bound {d : Option StructDef} (h : StructBinds t id id' d []) :
    id'.Bound := by
  cases h with
  | known _ => rfl

private theorem FieldBinds.bound {owner : Ident} (howner : owner.Bound)
    (h : FieldBinds t owner id id' []) : id'.Bound := by
  cases h with
  | unbound hnone =>
    rw [Ident.Bound, hnone] at howner
    cases howner
  | known _ _ _ => rfl

theorem Declares.symbol_eq {s : Symbol} (h : Declares t id s t' id' []) :
    id'.symbol = some s := by
  cases h with
  | fresh _ => rfl

private theorem StorageDeclares.bound {type type' : Node} {rs : List Diagnostic}
    (h : StorageDeclares t id type t' type' id' rs) (hclean : rs = []) :
    id'.Bound ∧ ∀ name ∈ type'.idents, name.Bound := by
  cases h with
  | void => cases hclean
  | scalar _ h =>
    subst hclean
    exact ⟨by simp [Ident.Bound, h.symbol_eq], by simp [Node.idents]⟩
  | struct hname h =>
    obtain ⟨rfl, rfl⟩ := List.append_eq_nil_iff.mp hclean
    exact ⟨by simp [Ident.Bound, h.symbol_eq], by simp [Node.idents, hname.bound]⟩
  | undefined hname =>
    subst hclean
    cases hname

private theorem ResultBinds.bound {type type' : Node} {result : String}
    (h : ResultBinds t type type' []) (hresult : type'.typeName? = some result) :
    ∀ name ∈ type'.idents, name.Bound := by
  cases h with
  | struct h => simp [Node.idents, h.bound]
  | other hother =>
    cases type with
    | structType name => exact absurd rfl (hother name)
    | primType _ => simp [Node.idents]
    | _ => cases hresult

end Steps

theorem Node.mem_idents_of_pathEnd {n : Node} {id : Ident} (h : n.pathEnd? = some id) :
    id ∈ n.idents := by
  cases n with
  | ident => simp_all [Node.pathEnd?, Node.idents]
  | dot => simp_all [Node.pathEnd?, Node.idents]
  | _ => cases h

theorem Resolves.bound {global : Nat} {p : Phrase} {t t' : SymbolTable} {ns ns' : List Node}
    {rs : List Diagnostic} (h : Resolves global p t ns t' ns' rs) (hclean : rs = []) :
    ∀ id ∈ Node.identsAll ns', id.Bound := by
  induction h with
  | nil => simp [Node.identsAll]
  | cons _ _ ihhead ihtail =>
    obtain ⟨rfl, rfl⟩ := List.append_eq_nil_iff.mp hclean
    have hhead := ihhead rfl
    rw [Node.identsAll_singleton] at hhead
    simp only [Node.identsAll, List.forall_mem_append]
    exact ⟨hhead, ihtail rfl⟩
  | lit => simp [Node.identsAll, Node.idents]
  | ident h =>
    subst hclean
    simp [Node.identsAll, Node.idents, h.bound]
  | @dot t base base' owner' field field' rs₁ rs₂ hpath _ howner hfield ih =>
    obtain ⟨rfl, rfl⟩ := List.append_eq_nil_iff.mp hclean
    have hbase := ih rfl
    rw [Node.identsAll_singleton] at hbase
    -- the owner is a name of the base, so it is bound and the field had to be found
    have howner' : owner'.Bound := hbase owner' (Node.mem_idents_of_pathEnd howner)
    simp only [Node.identsAll_singleton, Node.idents, List.forall_mem_append,
      List.forall_mem_singleton]
    exact ⟨hbase, hfield.bound howner'⟩
  | call hcallee _ ih =>
    obtain ⟨rfl, rfl⟩ := List.append_eq_nil_iff.mp hclean
    simp only [Node.identsAll_singleton, Node.idents, List.forall_mem_cons]
    exact ⟨hcallee.bound, ih rfl⟩
  | bareReturn => simp [Node.identsAll, Node.idents]
  | ifStmt _ _ _ ihcond ihdecls ihstmts | whileStmt _ _ _ ihcond ihdecls ihstmts =>
    simp only [List.append_eq_nil_iff] at hclean
    obtain ⟨rfl, rfl, rfl⟩ := hclean
    have hcond := ihcond rfl
    rw [Node.identsAll_singleton] at hcond
    simp only [Node.identsAll_singleton, Node.idents, List.forall_mem_append]
    exact ⟨⟨hcond, ihdecls rfl⟩, ihstmts rfl⟩
  | ifElseStmt _ _ _ _ _ ihcond ihdecls ihstmts ihdecls' ihstmts' =>
    simp only [List.append_eq_nil_iff] at hclean
    obtain ⟨rfl, ⟨rfl, rfl⟩, rfl, rfl⟩ := hclean
    have hcond := ihcond rfl
    rw [Node.identsAll_singleton] at hcond
    simp only [Node.identsAll_singleton, Node.idents, List.forall_mem_append]
    exact ⟨⟨⟨⟨hcond, ihdecls rfl⟩, ihstmts rfl⟩, ihdecls' rfl⟩, ihstmts' rfl⟩
  | varDecl h | formalDecl h =>
    obtain ⟨hid, htype⟩ := h.bound hclean
    simp only [Node.identsAll_singleton, Node.idents, List.forall_mem_append,
      List.forall_mem_singleton]
    exact ⟨htype, hid⟩
  | fnDecl _ htype _ hresult hid _ _ _ ihformals ihdecls ihstmts =>
    simp only [List.append_eq_nil_iff] at hclean
    obtain ⟨rfl, rfl, rfl, rfl, rfl⟩ := hclean
    simp only [Node.identsAll_singleton, Node.idents, List.forall_mem_append,
      List.forall_mem_cons]
    exact ⟨htype.bound hresult, by simp [Ident.Bound, hid.symbol_eq],
      ⟨ihformals rfl, ihdecls rfl⟩, ihstmts rfl⟩
  | structDecl _ _ hid ih =>
    obtain ⟨rfl, rfl⟩ := List.append_eq_nil_iff.mp hclean
    simp only [Node.identsAll_singleton, Node.idents, List.forall_mem_cons]
    exact ⟨by simp [Ident.Bound, hid.symbol_eq], ih rfl⟩
  | _ =>
    rename_i ih
    simpa [Node.identsAll, Node.idents] using ih hclean

end Sema
