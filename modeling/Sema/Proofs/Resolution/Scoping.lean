import Sema.Proofs.Resolution.Progress

/-!
# Static scoping

The scopes that enclose a use can be read off the tree: those of the blocks around it, that of its
function, and the global one up to that function. Name analysis, which opens and closes the scopes
of one table as it goes, binds each use by them.
-/

namespace Sema

/-- The identifier that a declaration declares. -/
def Node.declared? : Node → Option Ident
  | .varDecl _ id | .formalDecl _ id | .fnDecl _ id _ _ _ | .structDecl id _ => some id
  | _ => none

def declared (ds : List Node) : List Ident := ds.filterMap Node.declared?

theorem declared_append (ds es : List Node) : declared (ds ++ es) = declared ds ++ declared es :=
  List.filterMap_append

/-- A plain identifier or the target of a call, with what is declared in the scopes that enclose it,
innermost first. -/
structure Use where
  id : Ident
  scopes : List (List Ident)

namespace Node

mutual

/-- The uses in a node that stands in the given scopes. -/
def usesIn (scopes : List (List Ident)) : Node → List Use
  | .ident id => [⟨id, scopes⟩]
  | .dot base _ => usesIn scopes base
  | .assign target value => usesIn scopes target ++ usesIn scopes value
  | .call callee args => ⟨callee, scopes⟩ :: usesInAll scopes args
  | .unary _ operand => usesIn scopes operand
  | .binary _ left right => usesIn scopes left ++ usesIn scopes right
  | .assignStmt e | .stepStmt _ e | .readStmt e | .writeStmt e | .callStmt e => usesIn scopes e
  | .ifStmt cond decls stmts | .whileStmt cond decls stmts =>
    usesIn scopes cond ++ usesInAll (declared decls :: scopes) stmts
  | .ifElseStmt cond ds ss ds' ss' =>
    usesIn scopes cond ++ (usesInAll (declared ds :: scopes) ss ++
      usesInAll (declared ds' :: scopes) ss')
  | .returnStmt value _ => usesIn scopes value
  | .fnDecl _ _ formals decls stmts => usesInAll (declared (formals ++ decls) :: scopes) stmts
  | _ => []

def usesInAll (scopes : List (List Ident)) : List Node → List Use
  | [] => []
  | n :: ns => usesIn scopes n ++ usesInAll scopes ns

end

end Node

/-- The uses in top-level declarations that follow those in `before`. What is declared globally is
in scope from its declaration on, a function already in its own body. -/
def globalUses (before : List Node) : List Node → List Use
  | [] => []
  | d :: ds => d.usesIn [declared (before ++ [d])] ++ globalUses (before ++ [d]) ds

def symbolIn? (name : String) (scope : List Ident) : Option Symbol :=
  scope.findSome? fun id => if id.name = name then id.symbol else none

/-- The symbol of the declaration of the name in the innermost scope that has one with a symbol. -/
def lexicalSymbol? (scopes : List (List Ident)) (name : String) : Option Symbol :=
  scopes.findSome? (symbolIn? name)

/-- No two declarations of one name have a symbol. -/
def Unambiguous (scope : List Ident) : Prop :=
  ((scope.filter (·.symbol.isSome)).map Ident.name).Nodup

/-- The scope of a table that declarations with these identifiers have filled. -/
def scopeOf (ids : List Ident) : Scope :=
  ids.filterMap fun id => id.symbol.map fun s => (id.name, some s)

@[simp] theorem scopeOf_append (ids ids' : List Ident) :
    scopeOf (ids ++ ids') = scopeOf ids ++ scopeOf ids' :=
  List.filterMap_append

theorem scopeOf_unbound {id : Ident} (h : id.symbol = none) : scopeOf [id] = [] := by
  simp [scopeOf, h]

theorem scopeOf_bound {id : Ident} {s : Symbol} (h : id.symbol = some s) :
    scopeOf [id] = [(id.name, some s)] := by
  simp [scopeOf, h]

private theorem findSome?_cons_or {α β : Type} (f : α → Option β) (a : α) (as : List α) :
    (a :: as).findSome? f = (f a).or (as.findSome? f) := by
  cases h : f a <;> simp [h]

theorem lookup_scopeOf (ids : List Ident) (name : String) :
    (scopeOf ids).lookup name = (symbolIn? name ids).map some := by
  induction ids with
  | nil => rfl
  | cons id ids ih =>
    have hhead : (scopeOf [id]).lookup name =
        (if id.name = name then id.symbol else none).map some := by
      cases hsymbol : id.symbol with
      | none => simp [scopeOf_unbound hsymbol]
      | some s =>
        rw [scopeOf_bound hsymbol]
        by_cases hname : id.name = name
        · simp [hname]
        · have hne : (name == id.name) = false := by
            simpa using fun heq => hname (Eq.symm heq)
          simp [List.lookup_cons, hne, hname]
    rw [← List.singleton_append, scopeOf_append, List.lookup_append, ih, hhead,
      List.singleton_append, symbolIn?, symbolIn?, findSome?_cons_or, Option.map_or]

theorem exists_of_symbolIn? {ds : List Node} {name : String} {symbol : Symbol}
    (h : symbolIn? name (declared ds) = some symbol) :
    ∃ d ∈ ds, ∃ id, d.declared? = some id ∧ id.name = name ∧ id.symbol = some symbol := by
  obtain ⟨id, hid, hsymbol⟩ := List.exists_of_findSome?_eq_some h
  obtain ⟨d, hd, hdeclared⟩ := List.mem_filterMap.mp hid
  split at hsymbol
  · exact ⟨d, hd, id, hdeclared, ‹_›, hsymbol⟩
  · cases hsymbol

theorem symbolIn?_of_mem {ids : List Ident} (h : Unambiguous ids) {id : Ident} (hid : id ∈ ids)
    (hbound : id.Bound) : symbolIn? id.name ids = id.symbol := by
  induction ids with
  | nil => cases hid
  | cons first ids ih =>
    have hrest : Unambiguous ids :=
      List.Nodup.sublist (((List.sublist_cons_self first ids).filter _).map _) h
    rw [symbolIn?, findSome?_cons_or, ← symbolIn?]
    rcases List.mem_cons.mp hid with rfl | hid
    · obtain ⟨s, hs⟩ := Option.isSome_iff_exists.mp hbound
      simp [hs]
    · have hfirst : (if first.name = id.name then first.symbol else none) = none := by
        cases hsymbol : first.symbol with
        | none => simp
        | some s =>
          rw [Unambiguous, List.filter_cons_of_pos (by simp [hsymbol]), List.map_cons,
            List.nodup_cons] at h
          have hne : first.name ≠ id.name := by
            intro heq
            apply h.1
            rw [heq]
            exact List.mem_map_of_mem (List.mem_filter.mpr ⟨hid, hbound⟩)
          rw [if_neg hne]
      rw [hfirst, Option.none_or, ih hrest hid]

theorem names_scopeOf (ids : List Ident) :
    (scopeOf ids).map Prod.fst = (ids.filter (·.symbol.isSome)).map Ident.name := by
  induction ids with
  | nil => rfl
  | cons id ids ih =>
    rw [← List.singleton_append, scopeOf_append, List.map_append, ih, List.singleton_append]
    cases hsymbol : id.symbol with
    | none => simp [scopeOf_unbound hsymbol, hsymbol]
    | some s => simp [scopeOf_bound hsymbol, hsymbol]

theorem findSome?_lookup_scopeOf (scopes : List (List Ident)) (name : String) :
    (scopes.map scopeOf).findSome? (·.lookup name) = (lexicalSymbol? scopes name).map some := by
  induction scopes with
  | nil => rfl
  | cons scope scopes ih =>
    rw [List.map_cons, findSome?_cons_or, ih, lookup_scopeOf, lexicalSymbol?, lexicalSymbol?,
      findSome?_cons_or, Option.map_or]

/-- The open scopes of the table are those of the tree. -/
def Mirrors (t : SymbolTable) (scopes : List (List Ident)) : Prop := t.scopes = scopes.map scopeOf

theorem Mirrors.lookupLexical {t : SymbolTable} {scopes : List (List Ident)} (h : Mirrors t scopes)
    (hne : t.scopes ≠ []) (name : String) :
    t.lookupLexical name = .ok (lexicalSymbol? scopes name) := by
  rw [SymbolTable.lookupLexical, if_neg (by simpa using hne), h, findSome?_lookup_scopeOf]
  cases lexicalSymbol? scopes name <;> rfl

theorem Mirrors.unambiguous {t : SymbolTable} {scopes : List (List Ident)} (h : Mirrors t scopes)
    (ht : t.IsLaid) : ∀ scope ∈ scopes, Unambiguous scope := by
  intro scope hscope
  rw [Unambiguous, ← names_scopeOf]
  apply ht.nodup
  rw [h]
  exact List.mem_map_of_mem hscope

theorem Node.mem_idents_of_declared? {d : Node} {id : Ident} (h : d.declared? = some id) :
    id ∈ d.idents := by
  cases d with
  | varDecl | formalDecl | fnDecl | structDecl =>
    cases h
    simp [Node.idents]
  | _ => cases h

theorem Node.mem_identsAll_of_declared? {ds : List Node} {d : Node} {id : Ident} (hd : d ∈ ds)
    (h : d.declared? = some id) : id ∈ Node.identsAll ds :=
  mem_identsAll.mpr ⟨d, hd, mem_idents_of_declared? h⟩

private theorem Node.Unbound.declared {d : Node} {id : Ident} (h : d.Unbound)
    (hid : d.declared? = some id) : id.symbol = none :=
  h id (Node.mem_idents_of_declared? hid)

section Declarations

variable {t t' : SymbolTable} {ids : List Ident} {rest : List Scope}

private theorem Declares.mirrored {id id' : Ident} {s : Symbol} {rs : List Diagnostic}
    (h : Declares t id s t' id' rs) (hid : id.symbol = none) (ht : t.scopes = scopeOf ids :: rest) :
    t'.scopes = scopeOf (ids ++ [id']) :: rest := by
  cases h with
  | fresh h =>
    obtain ⟨-, scope, rest', hscopes, -, rfl⟩ := SymbolTable.declare_eq_ok.mp h
    rw [ht] at hscopes
    cases hscopes
    rw [scopeOf_append, scopeOf_bound rfl]
  | taken _ => rw [ht, scopeOf_append, scopeOf_unbound hid, List.append_nil]

private theorem StorageDeclares.mirrored {type type' : Node} {id id' : Ident}
    {rs : List Diagnostic} (h : StorageDeclares t id type t' type' id' rs) (hid : id.symbol = none)
    (ht : t.scopes = scopeOf ids :: rest) : t'.scopes = scopeOf (ids ++ [id']) :: rest := by
  cases h with
  | void => rw [ht, scopeOf_append, scopeOf_unbound hid, List.append_nil]
  | scalar _ h => exact h.mirrored hid ht
  | struct _ h => exact h.mirrored hid ht
  | undefined _ => rw [ht, scopeOf_append, scopeOf_unbound hid, List.append_nil]

/-- Declarations add to the innermost scope what they declare with a symbol. -/
theorem Resolves.mirrored {global : Nat} {p : Phrase} {ds ds' : List Node} {rs : List Diagnostic}
    (h : Resolves global p t ds t' ds' rs) (hp : p = .decls) (hunbound : ∀ d ∈ ds, d.Unbound)
    (ht : t.scopes = scopeOf ids :: rest) : t'.scopes = scopeOf (ids ++ declared ds') :: rest := by
  induction h generalizing ids with
  | nil => rw [ht, declared, List.filterMap_nil, List.append_nil]
  | @cons p t t₁ t₂ n n' ns ns' rs₁ rs₂ _ _ ihhead ihtail =>
    rw [List.forall_mem_cons] at hunbound
    have hhead := ihhead hp (List.forall_mem_singleton.mpr hunbound.1) ht
    have htail := ihtail hp hunbound.2 hhead
    rw [htail, List.append_assoc, ← declared_append, List.singleton_append]
  | varDecl h | formalDecl h | fnDecl _ _ _ _ h | structDecl _ _ h =>
    exact h.mirrored ((List.forall_mem_singleton.mp hunbound).declared rfl) ht
  | _ => cases hp

theorem Resolves.mirrored_block {global : Nat} {ds ds' : List Node} {rs : List Diagnostic}
    (h : Resolves global .decls t.enterScope ds t' ds' rs) (hunbound : ∀ d ∈ ds, d.Unbound) :
    t'.scopes = scopeOf (declared ds') :: t.scopes := by
  have hopen : t.enterScope.scopes = scopeOf [] :: t.scopes := rfl
  rw [h.mirrored rfl hunbound hopen, List.nil_append]

end Declarations

/-- The uses are bound by the scopes that enclose them, and those that are not bound are blamed, one
by one, and nothing else is. -/
structure Scoped (uses : List Use) (rs : List Diagnostic) : Prop where
  unambiguous : ∀ u ∈ uses, ∀ scope ∈ u.scopes, Unambiguous scope
  bound : ∀ u ∈ uses, u.id.symbol = lexicalSymbol? u.scopes u.id.name
  blamed : rs.filter (·.kind == some .undeclared) =
    (uses.filter (·.id.symbol.isNone)).map fun u => .ofKind .undeclared u.id.pos

/-- No name is reported as undeclared. -/
def NoneUndeclared (rs : List Diagnostic) : Prop := rs.filter (·.kind == some .undeclared) = []

theorem NoneUndeclared.append {rs rs' : List Diagnostic} (h : NoneUndeclared rs)
    (h' : NoneUndeclared rs') : NoneUndeclared (rs ++ rs') := by
  rw [NoneUndeclared] at h h' ⊢
  rw [List.filter_append, h, h', List.append_nil]

namespace Scoped

variable {uses uses' : List Use} {rs rs' : List Diagnostic}

theorem of_none (h : NoneUndeclared rs) : Scoped [] rs where
  unambiguous := by simp
  bound := by simp
  blamed := h

theorem append (h : Scoped uses rs) (h' : Scoped uses' rs') :
    Scoped (uses ++ uses') (rs ++ rs') where
  unambiguous := List.forall_mem_append.mpr ⟨h.unambiguous, h'.unambiguous⟩
  bound := List.forall_mem_append.mpr ⟨h.bound, h'.bound⟩
  blamed := by
    rw [List.filter_append, h.blamed, h'.blamed, List.filter_append, List.map_append]

theorem append_none (h : Scoped uses rs) (h' : NoneUndeclared rs') : Scoped uses (rs ++ rs') := by
  have happend := h.append (of_none h')
  rwa [List.append_nil] at happend

theorem none_append (h : NoneUndeclared rs) (h' : Scoped uses rs') : Scoped uses (rs ++ rs') :=
  (of_none h).append h'

end Scoped

section Steps

variable {t t' : SymbolTable} {id id' : Ident} {rs : List Diagnostic}

private theorem UseBinds.scoped (h : UseBinds t id id' rs) (hid : id.symbol = none)
    {scopes : List (List Ident)} (hmirror : Mirrors t scopes) (ht : t.IsLaid) :
    Scoped [⟨id', scopes⟩] rs := by
  have hne : t.scopes ≠ [] := by
    obtain ⟨inner, g, hlaid⟩ := ht
    exact hlaid.scopes_ne_nil
  have hlookup := hmirror.lookupLexical hne id.name
  have hunambiguous : ∀ u ∈ [Use.mk id' scopes], ∀ scope ∈ u.scopes, Unambiguous scope := by
    rw [List.forall_mem_singleton]
    exact hmirror.unambiguous ht
  cases h with
  | known h =>
    rw [h, Except.ok.injEq] at hlookup
    exact ⟨hunambiguous, by simpa using hlookup, rfl⟩
  | unknown h =>
    rw [h, Except.ok.injEq] at hlookup
    refine ⟨hunambiguous, by simp [hid, hlookup], ?_⟩
    simp [hid, Diagnostic.ofKind]

private theorem StructBinds.none_undeclared {d : Option StructDef} (h : StructBinds t id id' d rs) :
    NoneUndeclared rs := by
  cases h <;> rfl

private theorem FieldBinds.none_undeclared {owner : Ident} (h : FieldBinds t owner id id' rs) :
    NoneUndeclared rs := by
  cases h <;> rfl

private theorem Declares.none_undeclared {s : Symbol} (h : Declares t id s t' id' rs) :
    NoneUndeclared rs := by
  cases h <;> rfl

private theorem StorageDeclares.none_undeclared {type type' : Node}
    (h : StorageDeclares t id type t' type' id' rs) : NoneUndeclared rs := by
  cases h with
  | void => rfl
  | scalar _ h => exact h.none_undeclared
  | struct hname h => exact hname.none_undeclared.append h.none_undeclared
  | undefined hname => exact hname.none_undeclared

private theorem ResultBinds.none_undeclared {type type' : Node}
    (h : ResultBinds t type type' rs) : NoneUndeclared rs := by
  cases h with
  | struct h => exact h.none_undeclared
  | other _ => rfl

end Steps

@[simp] theorem Node.usesInAll_singleton (scopes : List (List Ident)) (n : Node) :
    Node.usesInAll scopes [n] = n.usesIn scopes := by
  rw [usesInAll, usesInAll, List.append_nil]

/-- What may stand in expressions and in statements that conform to the grammar. -/
private def Phrase.admits : Phrase → Node → Bool
  | .exprs => Node.isExpr
  | .stmts => Node.isStmt
  | .decls => fun _ => false

section Uses

variable {t t' : SymbolTable} {rs : List Diagnostic} {scopes : List (List Ident)}

theorem Resolves.none_undeclared {global : Nat} {p : Phrase} {ds ds' : List Node}
    (h : Resolves global p t ds t' ds' rs) (hp : p = .decls)
    (hds : ∀ d ∈ ds, d.isVarDecl = true ∨ d.isFormalDecl = true) : NoneUndeclared rs := by
  induction h with
  | nil => rfl
  | cons _ _ ihhead ihtail =>
    rw [List.forall_mem_cons] at hds
    exact (ihhead hp (List.forall_mem_singleton.mpr hds.1)).append (ihtail hp hds.2)
  | varDecl h | formalDecl h => exact h.none_undeclared
  | fnDecl | structDecl =>
    rw [List.forall_mem_singleton] at hds
    rcases hds with hd | hd <;> cases hd
  | _ => cases hp

/-- The declarations of a block fill the scope that the tree shows for it. -/
private theorem Mirrors.block {global : Nat} {scope : Scope} {ds ds' : List Node}
    (hmirror : Mirrors t scopes)
    (hdecls : Resolves global .decls t.enterScope ds ⟨scope :: t.scopes⟩ ds' rs)
    (hunbound : ∀ d ∈ ds, d.Unbound) :
    Mirrors ⟨scope :: t.scopes⟩ (declared ds' :: scopes) := by
  rw [Mirrors, hdecls.mirrored_block hunbound, hmirror, List.map_cons]

private theorem Scoped.block {scope : Scope} {ds ds' ss' : List Node} {rs₁ rs₂ : List Diagnostic}
    (hdecls : Resolves 1 .decls t.enterScope ds ⟨scope :: t.scopes⟩ ds' rs₁)
    (hds : ds.all Node.isVarDecl = true) (hunbound : ∀ d ∈ ds, d.Unbound) (ht : t.IsLaid)
    (hmirror : Mirrors t scopes)
    (hstmts : SymbolTable.IsLaid ⟨scope :: t.scopes⟩ →
      Mirrors ⟨scope :: t.scopes⟩ (declared ds' :: scopes) →
        Scoped (Node.usesInAll (declared ds' :: scopes) ss') rs₂) :
    Scoped (Node.usesInAll (declared ds' :: scopes) ss') (rs₁ ++ rs₂) := by
  have hsilent : NoneUndeclared rs₁ :=
    hdecls.none_undeclared rfl fun d hd => .inl (List.all_eq_true.mp hds d hd)
  have hopen : SymbolTable.IsLaid t.enterScope := by
    obtain ⟨inner, g, hlaid⟩ := ht
    exact ⟨_, _, hlaid.enterScope⟩
  exact .none_append hsilent (hstmts (hdecls.isLaid hopen) (hmirror.block hdecls hunbound))

private theorem Resolves.scoped {p : Phrase} {ns ns' : List Node}
    (h : Resolves 1 p t ns t' ns' rs) (hadmits : ∀ n ∈ ns, p.admits n = true)
    (hunbound : ∀ n ∈ ns, n.Unbound) (ht : t.IsLaid) (hmirror : Mirrors t scopes) :
    Scoped (Node.usesInAll scopes ns') rs := by
  induction h generalizing scopes with
  | nil => exact .of_none rfl
  | @cons p t t₁ t₂ n n' ns ns' rs₁ rs₂ hhead _ ihhead ihtail =>
    rw [List.forall_mem_cons] at hadmits hunbound
    obtain rfl : t₁ = t := by
      apply hhead.frame.1
      intro hp
      subst hp
      cases hadmits.1
    have hhead := ihhead (List.forall_mem_singleton.mpr hadmits.1)
      (List.forall_mem_singleton.mpr hunbound.1) ht hmirror
    rw [Node.usesInAll_singleton] at hhead
    exact hhead.append (ihtail hadmits.2 hunbound.2 ht hmirror)
  | lit => exact .of_none rfl
  | ident h =>
    rw [List.forall_mem_singleton] at hunbound
    exact h.scoped (hunbound _ (by simp [Node.idents])) hmirror ht
  | @dot t base base' owner' field field' rs₁ rs₂ _ _ _ hfield ih =>
    rw [List.forall_mem_singleton] at hadmits hunbound
    obtain ⟨-, hbase⟩ := Bool.and_eq_true_iff.mp hadmits
    have hscoped := ih (List.forall_mem_singleton.mpr hbase)
      (List.forall_mem_singleton.mpr (hunbound.child (by simp [Node.children]))) ht hmirror
    rw [Node.usesInAll_singleton] at hscoped ⊢
    exact hscoped.append_none hfield.none_undeclared
  | @assign t target target' value value' rs _ ih =>
    rw [List.forall_mem_singleton] at hadmits hunbound
    have hexprs := Bool.and_eq_true_iff.mp hadmits
    have hscoped := ih (by simpa [Phrase.admits] using hexprs) (fun m hm => hunbound.child hm) ht
      hmirror
    simpa [Node.usesInAll, Node.usesIn] using hscoped
  | call hcallee _ ih =>
    rw [List.forall_mem_singleton] at hadmits hunbound
    have hargs := ih (Node.areExprs_iff.mp hadmits) (fun m hm => hunbound.child hm) ht hmirror
    rw [Node.usesInAll_singleton, Node.usesIn]
    exact (hcallee.scoped (hunbound _ (by simp [Node.idents])) hmirror ht).append hargs
  | unary _ ih =>
    rw [List.forall_mem_singleton] at hadmits hunbound
    have hscoped := ih (List.forall_mem_singleton.mpr hadmits) (fun m hm => hunbound.child hm) ht
      hmirror
    simpa [Node.usesIn] using hscoped
  | binary _ ih =>
    rw [List.forall_mem_singleton] at hadmits hunbound
    have hexprs := Bool.and_eq_true_iff.mp hadmits
    have hscoped := ih (by simpa [Phrase.admits] using hexprs) (fun m hm => hunbound.child hm) ht
      hmirror
    simpa [Node.usesInAll, Node.usesIn] using hscoped
  | assignStmt _ ih | stepStmt _ ih | readStmt _ ih | writeStmt _ ih | callStmt _ ih =>
    rw [List.forall_mem_singleton] at hadmits hunbound
    have hscoped := ih (List.forall_mem_singleton.mpr hadmits) (fun m hm => hunbound.child hm) ht
      hmirror
    simpa [Node.usesIn] using hscoped
  | bareReturn => exact .of_none rfl
  | @returnStmt t e e' pos rs he ih =>
    rw [List.forall_mem_singleton] at hadmits hunbound
    have hvalue : e.isExpr = true := by
      rw [← Node.isStmt_return (he.ne_missing e (List.mem_singleton_self e))]
      exact hadmits
    have hscoped := ih (List.forall_mem_singleton.mpr hvalue) (fun m hm => hunbound.child hm) ht
      hmirror
    simpa [Node.usesIn] using hscoped
  | ifStmt _ hdecls _ ihcond _ ihstmts | whileStmt _ hdecls _ ihcond _ ihstmts =>
    rw [List.forall_mem_singleton] at hadmits hunbound
    simp only [Phrase.admits, Node.isStmt, Bool.and_eq_true] at hadmits
    obtain ⟨⟨hcond, hds⟩, hss⟩ := hadmits
    have hscoped := ihcond (List.forall_mem_singleton.mpr hcond)
      (List.forall_mem_singleton.mpr (hunbound.child (by simp [Node.children]))) ht hmirror
    have hblock := Scoped.block hdecls hds
      (fun d hd => hunbound.child (by simp [Node.children, hd])) ht hmirror
      (ihstmts (Node.areStmts_iff.mp hss)
        fun s hs => hunbound.child (by simp [Node.children, hs]))
    simpa [Node.usesIn] using hscoped.append hblock
  | @ifElseStmt t _ _ cond cond' ds ds' ss ss' es es' fs fs' rs₁ rs₂ rs₃ rs₄ rs₅
      _ hdecls _ hdecls' _ ihcond _ ihstmts _ ihstmts' =>
    rw [List.forall_mem_singleton] at hadmits hunbound
    simp only [Phrase.admits, Node.isStmt, Bool.and_eq_true] at hadmits
    obtain ⟨⟨⟨⟨hcond, hds⟩, hss⟩, hes⟩, hfs⟩ := hadmits
    have hscoped := ihcond (List.forall_mem_singleton.mpr hcond)
      (List.forall_mem_singleton.mpr (hunbound.child (by simp [Node.children]))) ht hmirror
    have hthen := Scoped.block hdecls hds
      (fun d hd => hunbound.child (by simp [Node.children, hd])) ht hmirror
      (ihstmts (Node.areStmts_iff.mp hss)
        fun s hs => hunbound.child (by simp [Node.children, hs]))
    have helse := Scoped.block hdecls' hes
      (fun d hd => hunbound.child (by simp [Node.children, hd])) ht hmirror
      (ihstmts' (Node.areStmts_iff.mp hfs)
        fun s hs => hunbound.child (by simp [Node.children, hs]))
    simpa [Node.usesIn] using hscoped.append (hthen.append helse)
  | varDecl | formalDecl | fnDecl | structDecl =>
    rw [List.forall_mem_singleton] at hadmits
    cases hadmits

/-- The parameters of a function and the declarations of its body fill one scope. -/
private theorem Mirrors.body {global : Nat} {t₁ : SymbolTable} {scope : Scope}
    {fs fs' ds ds' : List Node} {rs' : List Diagnostic} (hmirror : Mirrors t scopes)
    (hformals : Resolves global .decls t.enterScope fs t₁ fs' rs)
    (hdecls : Resolves global .decls t₁ ds ⟨scope :: t.scopes⟩ ds' rs')
    (hfs : ∀ f ∈ fs, f.Unbound) (hds : ∀ d ∈ ds, d.Unbound) :
    Mirrors ⟨scope :: t.scopes⟩ (declared (fs' ++ ds') :: scopes) := by
  have hscopes := hdecls.mirrored rfl hds (hformals.mirrored_block hfs)
  rw [← declared_append] at hscopes
  rw [Mirrors, hscopes, hmirror, List.map_cons]

/-- The uses in top-level declarations, from those in the functions among them. -/
private theorem Resolves.globally_scoped {p : Phrase} {ds ds' before : List Node}
    (h : Resolves 1 p t ds t' ds' rs) (hp : p = .decls) (hds : ∀ d ∈ ds, d.isTopDecl = true)
    (hunbound : ∀ d ∈ ds, d.Unbound) (ht : t.IsLaid)
    (hmirror : t.scopes = [scopeOf (declared before)]) : Scoped (globalUses before ds') rs := by
  induction h generalizing before with
  | nil => exact .of_none rfl
  | @cons p t t₁ t₂ n n' ns ns' rs₁ rs₂ hhead _ ihhead ihtail =>
    subst hp
    rw [List.forall_mem_cons] at hds hunbound
    have hscoped := ihhead rfl (List.forall_mem_singleton.mpr hds.1)
      (List.forall_mem_singleton.mpr hunbound.1) ht hmirror
    have hmirror' : t₁.scopes = [scopeOf (declared (before ++ [n']))] := by
      have hscopes := hhead.mirrored rfl (List.forall_mem_singleton.mpr hunbound.1) hmirror
      rw [hscopes, declared_append]
    have htail := ihtail rfl hds.2 hunbound.2 (hhead.isLaid ht) hmirror'
    simpa [globalUses] using hscoped.append htail
  | varDecl h => exact .of_none h.none_undeclared
  | formalDecl h => exact .of_none h.none_undeclared
  | @structDecl t t' fields id id' decls decls' rs₁ rs₂ _ hdecls hid =>
    rw [List.forall_mem_singleton] at hds
    simp only [Node.isTopDecl, Bool.and_eq_true] at hds
    have hfields : NoneUndeclared rs₁ :=
      hdecls.none_undeclared rfl fun d hd => .inl (List.all_eq_true.mp hds.2 d hd)
    exact .of_none (hfields.append hid.none_undeclared)
  | @fnDecl t t₁ t₂ scope type type' id id' formals formals' decls decls' stmts stmts' params result
      rs₁ rs₂ rs₃ rs₄ rs₅ hdepth htype hparams hresult hid hformals hdecls hstmts =>
    have hresolves := Resolves.fnDecl hdepth htype hparams hresult hid hformals hdecls hstmts
    rw [List.forall_mem_singleton] at hds
    simp only [Node.isTopDecl, Bool.and_eq_true] at hds
    obtain ⟨⟨-, hfs⟩, hvars⟩ := hds.1
    have hmirror₁ :
        Mirrors t₁ [declared (before ++ [.fnDecl type' id' formals' decls' stmts'])] := by
      have hscopes := hresolves.mirrored rfl hunbound hmirror
      rw [Mirrors, hscopes, declared_append, List.map_singleton]
    rw [List.forall_mem_singleton] at hunbound
    have hlaid : SymbolTable.IsLaid ⟨scope :: t₁.scopes⟩ := by
      obtain ⟨inner, g, hlaid₁⟩ := hresolves.isLaid ht
      exact hdecls.isLaid (hformals.isLaid ⟨_, _, hlaid₁.enterScope⟩)
    have hbody : Mirrors ⟨scope :: t₁.scopes⟩ _ := hmirror₁.body hformals hdecls
      (fun f hf => hunbound.child (by simp [Node.children, hf]))
      (fun d hd => hunbound.child (by simp [Node.children, hd]))
    have hscoped := hstmts.scoped (Node.areStmts_iff.mp hds.2)
      (fun s hs => hunbound.child (by simp [Node.children, hs])) hlaid hbody
    have hformals' : NoneUndeclared rs₃ :=
      hformals.none_undeclared rfl fun f hf => .inr (List.all_eq_true.mp hfs f hf)
    have hdecls' : NoneUndeclared rs₄ :=
      hdecls.none_undeclared rfl fun d hd => .inl (List.all_eq_true.mp hvars d hd)
    simp only [globalUses, Node.usesIn, List.append_nil]
    exact .none_append htype.none_undeclared (.none_append hid.none_undeclared
      (.none_append hformals' (.none_append hdecls' hscoped)))
  | _ => cases hp

end Uses

/-- The analysis of a program that conforms to the grammar and carries no symbols comes to its end
and leaves the tree as it was but for symbols. Each plain identifier and each target of a call has
the symbol of the declaration of its name in the innermost enclosing scope where one has a symbol,
and where there is none it has none. Exactly the uses without a symbol are reported as undeclared,
each once, in their order and where they stand. -/
theorem uses_are_bound_lexically {program : Program} (hgrammar : conforms program = true)
    (hunbound : ∀ id ∈ Node.identsAll program, id.symbol = none) :
    (resolveProgram program .empty).stage.fault = none ∧
    Node.agreesAll program (resolveProgram program .empty).value = true ∧
    (∀ u ∈ globalUses [] (resolveProgram program .empty).value,
      (∀ scope ∈ u.scopes, Unambiguous scope) ∧
        u.id.symbol = lexicalSymbol? u.scopes u.id.name) ∧
    (resolveProgram program .empty).reports.filter (·.kind == some .undeclared) =
      ((globalUses [] (resolveProgram program .empty).value).filter (·.id.symbol.isNone)).map
        fun u => .ofKind .undeclared u.id.pos := by
  have hfault := resolveProgram_returns hgrammar hunbound
  obtain ⟨scope, h⟩ := Resolves.of_resolveProgram hfault
  have hscoped : Scoped (globalUses [] (resolveProgram program .empty).value)
      (resolveProgram program .empty).reports := by
    apply Resolves.globally_scoped h rfl (List.all_eq_true.mp hgrammar)
    · intro d hd id hid
      exact hunbound id (Node.mem_identsAll.mpr ⟨d, hd, hid⟩)
    · exact ⟨[], [], Laid.initial⟩
    · rfl
  refine ⟨hfault, h.agrees, ?_, hscoped.blamed⟩
  intro u hu
  exact ⟨hscoped.unambiguous u hu, hscoped.bound u hu⟩

/-- A parameter hides a global variable and is hidden in a block, a second parameter of its name is
dropped, and a global variable is used before its declaration. -/
def shadowingProgram : Program :=
  [.varDecl (.primType .bool) ⟨"n", ⟨1, 6⟩, none⟩,
    .fnDecl (.primType .int) ⟨"f", ⟨2, 5⟩, none⟩
      [.formalDecl (.primType .int) ⟨"n", ⟨2, 11⟩, none⟩,
        .formalDecl (.primType .bool) ⟨"n", ⟨2, 19⟩, none⟩] []
      [.ifElseStmt (.binary "<" (.ident ⟨"n", ⟨3, 7⟩, none⟩) (.lit (.int 1) ⟨3, 11⟩))
          [.varDecl (.primType .bool) ⟨"n", ⟨4, 10⟩, none⟩]
          [.writeStmt (.ident ⟨"n", ⟨5, 14⟩, none⟩)]
          [] [.writeStmt (.ident ⟨"m", ⟨7, 14⟩, none⟩)],
        .returnStmt (.call ⟨"f", ⟨8, 10⟩, none⟩ [.ident ⟨"n", ⟨8, 12⟩, none⟩]) ⟨8, 3⟩],
    .varDecl (.primType .int) ⟨"m", ⟨9, 5⟩, none⟩]

theorem shadowingProgram_blames_forward_use :
    conforms shadowingProgram = true ∧
      (∀ id ∈ Node.identsAll shadowingProgram, id.symbol = none) ∧
      (resolveProgram shadowingProgram .empty).reports.filter (·.kind == some .undeclared) =
        [.ofKind .undeclared ⟨7, 14⟩] := by
  have hgrammar : conforms shadowingProgram = true := by decide
  have hunbound : ∀ id ∈ Node.identsAll shadowingProgram, id.symbol = none := by decide
  obtain ⟨-, -, -, hblamed⟩ := uses_are_bound_lexically hgrammar hunbound
  exact ⟨hgrammar, hunbound, hblamed⟩

end Sema
