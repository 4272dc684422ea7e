import Sema.Proofs.Resolution.Rules
import Sema.Tree.Walk

/-!
# What name analysis leaves alone

The scopes outside the innermost one, the shape of the tree, and everything in it but symbols.
-/

namespace Sema

theorem SymbolTable.declare_eq_ok {t t' : SymbolTable} {name : String} {s : Symbol} :
    t.declare name (some s) = .ok t' ↔
      name ≠ "" ∧ ∃ scope rest, t.scopes = scope :: rest ∧ scope.lookup name = none ∧
        t' = ⟨(scope ++ [(name, some s)]) :: rest⟩ := by
  unfold SymbolTable.declare
  by_cases hname : name = ""
  · simp [hname]
  · obtain ⟨scopes⟩ := t
    cases scopes with
    | nil => simp [hname]
    | cons scope rest =>
      cases hlookup : scope.lookup name with
      | some s' =>
        constructor
        · intro h
          simp [hname, hlookup] at h
        · intro h
          obtain ⟨-, _, _, hscopes, hnone, -⟩ := h
          cases hscopes
          rw [hlookup] at hnone
          cases hnone
      | none =>
        simp only [hname, hlookup, false_or, Option.isNone_some, Bool.false_eq_true, if_false,
          Option.isSome_none, Except.ok.injEq, ne_eq, not_false_eq_true, true_and, List.cons.injEq]
        constructor
        · intro h
          exact ⟨scope, rest, ⟨rfl, rfl⟩, hlookup, h.symm⟩
        · intro h
          obtain ⟨_, _, ⟨rfl, rfl⟩, -, rfl⟩ := h
          rfl

/-- A declaration leaves all scopes but the innermost, to which it adds at most one entry. -/
theorem Declares.frame {t t' : SymbolTable} {id id' : Ident} {s : Symbol} {rs : List Diagnostic}
    (h : Declares t id s t' id' rs) {scope : Scope} {rest : List Scope}
    (ht : t.scopes = scope :: rest) : ∃ added, t' = ⟨(scope ++ added) :: rest⟩ := by
  cases h with
  | fresh h =>
    obtain ⟨-, scope', rest', ht', -, rfl⟩ := SymbolTable.declare_eq_ok.mp h
    rw [ht] at ht'
    cases ht'
    exact ⟨_, rfl⟩
  | taken h =>
    obtain ⟨scopes⟩ := t
    cases ht
    exact ⟨[], by simp⟩

theorem StorageDeclares.frame {t t' : SymbolTable} {type type' : Node} {id id' : Ident}
    {rs : List Diagnostic} (h : StorageDeclares t id type t' type' id' rs) {scope : Scope}
    {rest : List Scope} (ht : t.scopes = scope :: rest) :
    ∃ added, t' = ⟨(scope ++ added) :: rest⟩ := by
  obtain ⟨scopes⟩ := t
  cases ht
  cases h with
  | void => exact ⟨[], by simp⟩
  | scalar _ h => exact h.frame rfl
  | struct _ h => exact h.frame rfl
  | undefined _ => exact ⟨[], by simp⟩

/-- Expressions and statements leave the scopes as they are, and declarations all but the innermost
one, to which they add at its end. -/
theorem Resolves.frame {global : Nat} {p : Phrase} {t t' : SymbolTable} {ns ns' : List Node}
    {rs : List Diagnostic} (h : Resolves global p t ns t' ns' rs) :
    (p ≠ .decls → t' = t) ∧
      ∀ scope rest, t.scopes = scope :: rest → ∃ added, t' = ⟨(scope ++ added) :: rest⟩ := by
  have hsame (t : SymbolTable) (scope : Scope) (rest : List Scope) (ht : t.scopes = scope :: rest) :
      ∃ added, t = ⟨(scope ++ added) :: rest⟩ := by
    obtain ⟨scopes⟩ := t
    cases ht
    exact ⟨[], by simp⟩
  induction h with
  | cons _ _ ihhead ihtail =>
    refine ⟨fun hp => (ihtail.1 hp).trans (ihhead.1 hp), ?_⟩
    intro scope rest ht
    obtain ⟨added, rfl⟩ := ihhead.2 scope rest ht
    obtain ⟨added', rfl⟩ := ihtail.2 _ _ rfl
    exact ⟨added ++ added', by simp⟩
  | varDecl h => exact ⟨fun hp => absurd rfl hp, fun _ _ ht => h.frame ht⟩
  | formalDecl h => exact ⟨fun hp => absurd rfl hp, fun _ _ ht => h.frame ht⟩
  | fnDecl _ _ _ _ hid => exact ⟨fun hp => absurd rfl hp, fun _ _ ht => hid.frame ht⟩
  | structDecl _ _ hid => exact ⟨fun hp => absurd rfl hp, fun _ _ ht => hid.frame ht⟩
  | _ => exact ⟨fun _ => rfl, hsame _⟩

theorem Resolves.pathEnd {global : Nat} {p : Phrase} {t t' : SymbolTable} {ns ns' : List Node}
    {rs : List Diagnostic} (h : Resolves global p t ns t' ns' rs) :
    ns'.map (·.pathEnd?.isSome) = ns.map (·.pathEnd?.isSome) := by
  induction h with
  | nil => rfl
  | cons _ _ ihhead ihtail =>
    rw [List.map_cons, List.map_cons, ihtail]
    simpa using ihhead
  | _ => rfl

theorem Resolves.ne_missing {global : Nat} {p : Phrase} {t t' : SymbolTable} {ns ns' : List Node}
    {rs : List Diagnostic} (h : Resolves global p t ns t' ns' rs) : ∀ n ∈ ns, n ≠ .missing := by
  induction h with
  | nil => simp
  | cons _ _ ihhead ihtail =>
    exact List.forall_mem_cons.mpr ⟨ihhead _ (List.mem_singleton_self _), ihtail⟩
  | _ => simp

private theorem Ident.agrees_self (id : Ident) : id.agrees id = true := by
  simp [Ident.agrees]

private theorem UseBinds.agrees {t : SymbolTable} {id id' : Ident} {rs : List Diagnostic}
    (h : UseBinds t id id' rs) : id.agrees id' = true := by
  cases h <;> simp [Ident.agrees]

private theorem FieldBinds.agrees {t : SymbolTable} {owner id id' : Ident} {rs : List Diagnostic}
    (h : FieldBinds t owner id id' rs) : id.agrees id' = true := by
  cases h <;> simp [Ident.agrees]

private theorem Declares.agrees {t t' : SymbolTable} {id id' : Ident} {s : Symbol}
    {rs : List Diagnostic} (h : Declares t id s t' id' rs) : id.agrees id' = true := by
  cases h <;> simp [Ident.agrees]

private theorem StructBinds.agrees {t : SymbolTable} {id id' : Ident} {d : Option StructDef}
    {rs : List Diagnostic} (h : StructBinds t id id' d rs) : id.agrees id' = true := by
  cases h <;> simp [Ident.agrees]

private theorem StorageDeclares.agrees {t t' : SymbolTable} {type type' : Node} {id id' : Ident}
    {rs : List Diagnostic} (h : StorageDeclares t id type t' type' id' rs) :
    type.agrees type' = true ∧ id.agrees id' = true := by
  cases h with
  | void => simp [Node.agrees, Ident.agrees_self]
  | scalar _ h => simp [Node.agrees, h.agrees]
  | struct hname h => simp [Node.agrees, hname.agrees, h.agrees]
  | undefined hname => simp [Node.agrees, hname.agrees, Ident.agrees_self]

private theorem ResultBinds.agrees {t : SymbolTable} {type type' : Node} {result : String}
    {rs : List Diagnostic} (h : ResultBinds t type type' rs)
    (hresult : type'.typeName? = some result) : type.agrees type' = true := by
  cases h with
  | struct h => simp [Node.agrees, h.agrees]
  | other _ =>
    cases type with
    | primType _ => simp [Node.agrees]
    | structType _ => simp [Node.agrees, Ident.agrees_self]
    | _ => cases hresult

/-- The tree stays what it was but for the symbols of its identifiers. -/
theorem Resolves.agrees {global : Nat} {p : Phrase} {t t' : SymbolTable} {ns ns' : List Node}
    {rs : List Diagnostic} (h : Resolves global p t ns t' ns' rs) :
    Node.agreesAll ns ns' = true := by
  induction h with
  | nil => rfl
  | cons _ _ ihhead ihtail =>
    simp only [Node.agreesAll, Bool.and_true] at ihhead
    simp only [Node.agreesAll, ihhead, ihtail, Bool.and_true]
  | ident h => simp [Node.agreesAll, Node.agrees, h.agrees]
  | dot _ _ _ hfield ih =>
    simp only [Node.agreesAll, Bool.and_true] at ih
    simp [Node.agreesAll, Node.agrees, ih, hfield.agrees]
  | call hcallee _ ih => simp [Node.agreesAll, Node.agrees, hcallee.agrees, ih]
  | varDecl h => simp [Node.agreesAll, Node.agrees, h.agrees]
  | formalDecl h => simp [Node.agreesAll, Node.agrees, h.agrees]
  | fnDecl _ htype _ hresult hid _ _ _ ihformals ihdecls ihstmts =>
    simp [Node.agreesAll, Node.agrees, htype.agrees hresult, hid.agrees, ihformals, ihdecls,
      ihstmts]
  | structDecl _ _ hid ih => simp [Node.agreesAll, Node.agrees, hid.agrees, ih]
  | ifStmt _ _ _ ihcond ihdecls ihstmts | whileStmt _ _ _ ihcond ihdecls ihstmts =>
    simp only [Node.agreesAll, Bool.and_true] at ihcond
    simp [Node.agreesAll, Node.agrees, ihcond, ihdecls, ihstmts]
  | ifElseStmt _ _ _ _ _ ihcond ihdecls ihstmts ihdecls' ihstmts' =>
    simp only [Node.agreesAll, Bool.and_true] at ihcond
    simp [Node.agreesAll, Node.agrees, ihcond, ihdecls, ihstmts, ihdecls', ihstmts']
  | lit | bareReturn => simp [Node.agreesAll, Node.agrees]
  | _ =>
    rename_i ih
    simpa [Node.agreesAll, Node.agrees] using ih

end Sema
