import Sema.Proofs.Reanalysis
import Sema.Proofs.Tree.Shape

/-!
# What name analysis lets pass

A tree on which name analysis returns is well shaped, whatever names it has blamed.
-/

namespace Sema

section Depth

variable {t t' : SymbolTable}

private theorem Declares.depth_eq {id id' : Ident} {s : Symbol} {rs : List Diagnostic}
    (h : Declares t id s t' id' rs) : t'.depth = t.depth := by
  cases h with
  | fresh h =>
    obtain ⟨-, scope, rest, ht, -, rfl⟩ := SymbolTable.declare_eq_ok.mp h
    simp [ScopeStack.depth, ht]
  | taken _ => rfl

private theorem StorageDeclares.depth_eq {type type' : Node} {id id' : Ident}
    {rs : List Diagnostic} (h : StorageDeclares t id type t' type' id' rs) :
    t'.depth = t.depth := by
  cases h with
  | scalar _ h | struct _ h => exact h.depth_eq
  | void | undefined _ => rfl

theorem Resolves.depth_eq {global : Nat} {p : Phrase} {ns ns' : List Node} {rs : List Diagnostic}
    (h : Resolves global p t ns t' ns' rs) : t'.depth = t.depth := by
  induction h with
  | cons _ _ ihhead ihtail => exact ihtail.trans ihhead
  | varDecl h | formalDecl h => exact h.depth_eq
  | fnDecl _ _ _ _ hid => exact hid.depth_eq
  | structDecl _ _ hid => exact hid.depth_eq
  | _ => rfl

end Depth

section Shape

variable {global : Nat} {p : Phrase} {t t' : SymbolTable} {ns ns' : List Node}
  {rs : List Diagnostic}

private theorem StorageDeclares.isType {type type' : Node} {id id' : Ident}
    (h : StorageDeclares t id type t' type' id' rs) : type.isType = true := by
  cases h <;> rfl

/-- Functions and structs are declared at the global depth, so only variables are elsewhere. -/
theorem Resolves.isStorage (h : Resolves global p t ns t' ns' rs) (hp : p = .decls)
    (hdepth : global < t.depth) : ∀ d ∈ ns, d.isStorage = true := by
  induction h with
  | nil => simp
  | cons hhead _ ihhead ihtail =>
    rw [List.forall_mem_cons]
    exact ⟨ihhead hp hdepth _ (List.mem_singleton_self _),
      ihtail hp (by rw [hhead.depth_eq]; exact hdepth)⟩
  | varDecl h | formalDecl h => simp [Node.isStorage, h.isType]
  | fnDecl hglobal => omega
  | structDecl hglobal => omega
  | _ => cases hp

private theorem Resolves.block {t₁ : SymbolTable} {ds ds' : List Node}
    (h : Resolves global .decls t.enterScope ds t₁ ds' rs) (hdepth : global ≤ t.depth) :
    (∀ d ∈ ds, d.isStorage = true) ∧ global < t₁.depth := by
  have hinner : global < t.enterScope.depth := Nat.lt_succ_of_le hdepth
  exact ⟨h.isStorage rfl hinner, by rw [h.depth_eq]; exact hinner⟩

private theorem ResultBinds.isType {type type' : Node} {result : String}
    (h : ResultBinds t type type' rs) (hresult : type'.typeName? = some result) :
    type.isType = true := by
  cases h with
  | struct _ => rfl
  | other _ =>
    cases type with
    | primType _ | structType _ => rfl
    | _ => cases hresult

def Phrase.shape : Phrase → Node → Bool
  | .exprs => Node.isExpr
  | .stmts => Node.isShapedStmt
  | .decls => Node.isShapedDecl

theorem Resolves.shaped (h : Resolves global p t ns t' ns' rs) (hdepth : global ≤ t.depth) :
    ∀ n ∈ ns, p.shape n = true := by
  induction h with
  | nil => simp
  | cons hhead _ ihhead ihtail =>
    rw [List.forall_mem_cons]
    exact ⟨ihhead hdepth _ (List.mem_singleton_self _),
      ihtail (by rw [hhead.depth_eq]; exact hdepth)⟩
  | lit | ident _ | bareReturn => simp [Phrase.shape, Node.isExpr, Node.isShapedStmt]
  | dot hpath _ _ _ ih =>
    simp only [Phrase.shape, List.forall_mem_singleton, Node.isExpr, Bool.and_eq_true] at ih ⊢
    exact ⟨hpath, ih hdepth⟩
  | call _ _ ih =>
    simp only [Phrase.shape, List.forall_mem_singleton, Node.isExpr, Node.areExprs_iff] at ih ⊢
    exact ih hdepth
  | returnStmt h ih =>
    have hvalue := h.ne_missing _ (List.mem_singleton_self _)
    simp only [Phrase.shape, List.forall_mem_singleton, Node.isShapedStmt_return hvalue] at ih ⊢
    exact ih hdepth
  | ifStmt _ hdecls _ ihcond _ ihstmts | whileStmt _ hdecls _ ihcond _ ihstmts =>
    obtain ⟨hds, hinner⟩ := hdecls.block hdepth
    simp only [Phrase.shape, List.forall_mem_singleton] at ihcond ihstmts
    simp only [Phrase.shape, List.forall_mem_singleton, Node.isShapedStmt, Bool.and_eq_true,
      List.all_eq_true, Node.areShapedStmts_iff]
    exact ⟨⟨ihcond hdepth, hds⟩, ihstmts (Nat.le_of_lt hinner)⟩
  | ifElseStmt _ hdecls _ hdecls' _ ihcond _ ihstmts _ ihstmts' =>
    obtain ⟨hds, hinner⟩ := hdecls.block hdepth
    obtain ⟨hds', hinner'⟩ := hdecls'.block hdepth
    simp only [Phrase.shape, List.forall_mem_singleton] at ihcond ihstmts ihstmts'
    simp only [Phrase.shape, List.forall_mem_singleton, Node.isShapedStmt, Bool.and_eq_true,
      List.all_eq_true, Node.areShapedStmts_iff]
    exact ⟨⟨⟨⟨ihcond hdepth, hds⟩, ihstmts (Nat.le_of_lt hinner)⟩, hds'⟩,
      ihstmts' (Nat.le_of_lt hinner')⟩
  | varDecl h | formalDecl h => simp [Phrase.shape, Node.isShapedDecl, h.isType]
  | fnDecl _ htype _ hresult hid hformals hdecls _ _ _ ihstmts =>
    -- the parameters and the body share a scope, one deeper than the function's name
    obtain ⟨hfs, hinner⟩ := hformals.block (by rw [hid.depth_eq]; exact hdepth)
    have hds := hdecls.isStorage rfl hinner
    rw [← hdecls.depth_eq] at hinner
    simp only [Phrase.shape] at ihstmts
    simp only [Phrase.shape, List.forall_mem_singleton, Node.isShapedDecl, Bool.and_eq_true,
      List.all_eq_true, Node.areShapedStmts_iff]
    exact ⟨⟨⟨htype.isType hresult, hfs⟩, hds⟩, ihstmts (Nat.le_of_lt hinner)⟩
  | structDecl _ hdecls _ _ =>
    simp only [Phrase.shape, List.forall_mem_singleton, Node.isShapedDecl, List.all_eq_true]
    exact (hdecls.block hdepth).1
  | assign h ih | binary h ih =>
    simp only [Phrase.shape, List.forall_mem_cons] at ih
    simp only [Phrase.shape, List.forall_mem_singleton, Node.isExpr, Bool.and_eq_true]
    exact ⟨(ih hdepth).1, (ih hdepth).2.1⟩
  | _ =>
    rename_i ih
    simp only [Phrase.shape, List.forall_mem_singleton, Node.isExpr, Node.isShapedStmt] at ih ⊢
    exact ih hdepth

end Shape

theorem resolveProgram_shaped {program : Program} {table : SymbolTable}
    (h : (resolveProgram program table).stage.fault = none) :
    ∀ d ∈ program, d.isShapedDecl = true := by
  obtain ⟨scope, hresolves⟩ := Resolves.of_resolveProgram h
  exact hresolves.shaped (Nat.le_refl _)

/-- The tree that name analysis leaves is one that it lets pass. -/
theorem resolveProgram_value_shaped {program : Program} {table : SymbolTable}
    (h : (resolveProgram program table).stage.fault = none) :
    ∀ d ∈ (resolveProgram program table).value, d.isShapedDecl = true := by
  rw [← resolveProgram_again] at h
  exact resolveProgram_shaped h

end Sema
