import Sema.Proofs.Resolution.Layout
import Sema.Proofs.Resolution.Runs
import Sema.Proofs.Tree.Shape

/-!
# Name analysis comes to an end

No fault stops the analysis of a program that is well shaped, declares no blank name and carries no
symbols, however many of its names are blamed. A program that conforms to the grammar is of this
kind.
-/

namespace Sema

/-- No identifier of the node carries a symbol. -/
def Node.Unbound (n : Node) : Prop := ∀ id ∈ n.idents, id.symbol = none

theorem Node.Unbound.child {n m : Node} (h : n.Unbound) (hm : m ∈ n.children) : m.Unbound := by
  intro id hid
  exact h id (Node.idents_of_child (Node.mem_identsAll.mpr ⟨m, hm, hid⟩))

section Steps

variable {t : SymbolTable} {inner : List Scope} {g : Scope}

theorem Laid.useBinds (h : Laid t inner g) (id : Ident) : ∃ id' rs, UseBinds t id id' rs := by
  have hlookup : t.lookupLexical id.name =
      .ok (t.scopes.findSome? (·.lookup id.name)).join := by
    simp [SymbolTable.lookupLexical, h.scopes_ne_nil]
  cases hfound : (t.scopes.findSome? (·.lookup id.name)).join with
  | none =>
    rw [hfound] at hlookup
    exact ⟨_, _, .unknown hlookup⟩
  | some s =>
    rw [hfound] at hlookup
    exact ⟨_, _, .known hlookup⟩

theorem structBinds (t : SymbolTable) (id : Ident) : ∃ id' d rs, StructBinds t id id' d rs := by
  cases hd : t.resolveStruct id.name with
  | none => exact ⟨_, _, _, .unknown hd⟩
  | some d => exact ⟨_, _, _, .known hd⟩

/-- The fields of a struct can be looked up wherever a variable of it is in sight. -/
theorem Laid.fieldBinds (h : Laid t inner g) {owner : Ident} (field : Ident)
    (howner : ∀ s, owner.symbol = some s → ∃ name, s.IsGlobal g name) :
    ∃ field' rs, FieldBinds t owner field field' rs := by
  cases hsymbol : owner.symbol with
  | none => exact ⟨_, _, .unbound hsymbol⟩
  | some s =>
    cases s with
    | structVar struct =>
      obtain ⟨_, hglobal⟩ := howner _ hsymbol
      have hstruct : (SymbolTable.structIn? struct g).isSome = true := hglobal
      rw [← h.resolveStruct] at hstruct
      obtain ⟨d, hd⟩ := Option.isSome_iff_exists.mp hstruct
      obtain ⟨-, fields, hfields, -⟩ := h.structDef hd
      have hfield : d.field field.name = .ok (fields.lookup field.name).join := by
        simp [StructDef.field, hfields, SymbolTable.lookupLocal, ScopeStack.ofScope]
      cases hfound : (fields.lookup field.name).join with
      | none => exact ⟨_, _, .unknown hsymbol hd (hfound ▸ hfield)⟩
      | some s => exact ⟨_, _, .known hsymbol hd (hfound ▸ hfield)⟩
    | _ => exact ⟨_, _, .nonStruct hsymbol (by simp)⟩

theorem Laid.declares (h : Laid t inner g) {id : Ident} (hname : id.name ≠ "") (s : Symbol) :
    ∃ t' id' rs, Declares t id s t' id' rs := by
  cases hscopes : t.scopes with
  | nil => exact absurd hscopes h.scopes_ne_nil
  | cons scope rest =>
    cases hlookup : scope.lookup id.name with
    | none =>
      have hdeclare : t.declare id.name (some s) = .ok ⟨(scope ++ [(id.name, some s)]) :: rest⟩ :=
        SymbolTable.declare_eq_ok.mpr ⟨hname, scope, rest, hscopes, hlookup, rfl⟩
      exact ⟨_, _, _, .fresh hdeclare⟩
    | some entry =>
      have hdeclare : t.declare id.name (some s) = .error (.duplicate id.name) := by
        simp [SymbolTable.declare, hname, hscopes, hlookup]
      exact ⟨_, _, _, .taken hdeclare⟩

theorem Laid.storageDeclares (h : Laid t inner g) {type : Node} (htype : type.isType = true)
    {id : Ident} (hname : id.name ≠ "") :
    ∃ t' type' id' rs, StorageDeclares t id type t' type' id' rs := by
  cases type with
  | primType prim =>
    by_cases hvoid : prim = .void
    · subst hvoid
      exact ⟨_, _, _, _, .void⟩
    · obtain ⟨t', id', rs, hid⟩ := h.declares hname (.var prim.text)
      exact ⟨_, _, _, _, .scalar hvoid hid⟩
  | structType name =>
    obtain ⟨name', d, rs₁, hstruct⟩ := structBinds t name
    cases d with
    | none => exact ⟨_, _, _, _, .undefined hstruct⟩
    | some d =>
      obtain ⟨t', id', rs₂, hid⟩ := h.declares hname (.structVar d.name)
      exact ⟨_, _, _, _, .struct hstruct hid⟩
  | _ => cases htype

theorem resultBinds (t : SymbolTable) {type : Node} (htype : type.isType = true) :
    ∃ type' result rs, ResultBinds t type type' rs ∧ type'.typeName? = some result := by
  cases type with
  | primType prim => exact ⟨_, prim.text, _, .other (by simp), rfl⟩
  | structType name =>
    obtain ⟨name', d, rs, hstruct⟩ := structBinds t name
    exact ⟨_, name'.name, _, .struct hstruct, rfl⟩
  | _ => cases htype

end Steps

/-- The identifier that a path ends in carries, once bound, a symbol that was declared. -/
theorem Resolves.owner {p : Phrase} {t t' : SymbolTable} {ns ns' : List Node}
    {rs : List Diagnostic} {inner : List Scope} {g : Scope} (h : Resolves 1 p t ns t' ns' rs)
    (hp : p = .exprs) (hlaid : Laid t inner g) (hunbound : ∀ n ∈ ns, n.Unbound) :
    ∀ n ∈ ns', ∀ owner, n.pathEnd? = some owner → ∀ s, owner.symbol = some s →
      ∃ name, s.IsGlobal g name := by
  induction h with
  | nil => simp
  | cons hhead _ ihhead ihtail =>
    subst hp
    rw [List.forall_mem_cons] at hunbound
    obtain rfl := hhead.frame.1 (by simp)
    have hhead' := ihhead rfl hlaid (List.forall_mem_singleton.mpr hunbound.1)
    rw [List.forall_mem_singleton] at hhead'
    exact List.forall_mem_cons.mpr ⟨hhead', ihtail rfl hlaid hunbound.2⟩
  | @ident t id id' rs h =>
    rw [List.forall_mem_singleton] at hunbound ⊢
    intro owner howner s hs
    cases howner
    have hid : id.symbol = none := hunbound id (by simp [Node.idents])
    cases h with
    | known hlookup =>
      cases hs
      exact ⟨_, hlaid.lookupLexical hlookup⟩
    | unknown _ =>
      rw [hid] at hs
      cases hs
  | @dot t base base' _ field field' rs₁ rs₂ hpath _ howner hfield ih =>
    rw [List.forall_mem_singleton] at hunbound ⊢
    intro owner howner s hs
    cases howner
    have hid : field.symbol = none := hunbound field (by simp [Node.idents])
    cases hfield with
    | known _ hd hfound =>
      cases hs
      exact ⟨"", (hlaid.field hd hfound).isGlobal ""⟩
    | _ =>
      rw [hid] at hs
      cases hs
  | _ => simp [Node.pathEnd?]

/-- The analysis of the node returns on every table that is laid out. -/
structure Advances (n : Node) : Prop where
  expr : n.isExpr = true → n.Unbound → ∀ t : SymbolTable, t.IsLaid →
    ∃ n' rs, Resolves 1 .exprs t [n] t [n'] rs
  stmt : n.ShapedWith Node.isShapedStmt → n.Unbound → ∀ t : SymbolTable, t.IsLaid →
    ∃ n' rs, Resolves 1 .stmts t [n] t [n'] rs

private theorem phrase_advances {p : Phrase} {t : SymbolTable} {ns : List Node}
    (hstep : ∀ n ∈ ns, ∃ n' rs, Resolves 1 p t [n] t [n'] rs) :
    ∃ ns' rs, Resolves 1 p t ns t ns' rs := by
  induction ns with
  | nil => exact ⟨[], [], .nil⟩
  | cons n ns ih =>
    rw [List.forall_mem_cons] at hstep
    obtain ⟨n', rs₁, hn⟩ := hstep.1
    obtain ⟨ns', rs₂, hns⟩ := ih hstep.2
    exact ⟨n' :: ns', rs₁ ++ rs₂, .cons hn hns⟩

private theorem expr_advances (e : Node) (ih : ∀ m ∈ e.children, Advances m)
    (hexpr : e.isExpr = true) (hunbound : e.Unbound) (t : SymbolTable) (ht : t.IsLaid) :
    ∃ e' rs, Resolves 1 .exprs t [e] t [e'] rs := by
  have hchild (m : Node) (hm : m ∈ e.children) (hexpr : m.isExpr = true) :
      ∃ m' rs, Resolves 1 .exprs t [m] t [m'] rs :=
    (ih m hm).expr hexpr (hunbound.child hm) t ht
  have ⟨inner, g, hlaid⟩ := ht
  cases e with
  | lit value pos => exact ⟨_, _, .lit⟩
  | ident id =>
    obtain ⟨id', rs, hid⟩ := hlaid.useBinds id
    exact ⟨_, _, .ident hid⟩
  | dot base field =>
    obtain ⟨hpath, hbase⟩ := Bool.and_eq_true_iff.mp hexpr
    obtain ⟨base', rs₁, hresolves⟩ := hchild base (by simp [Node.children]) hbase
    have hpath' : base'.pathEnd?.isSome = true := by
      have hends := hresolves.pathEnd
      simpa [hpath] using hends
    obtain ⟨owner, howner⟩ := Option.isSome_iff_exists.mp hpath'
    have hbaseUnbound : ∀ n ∈ [base], n.Unbound :=
      List.forall_mem_singleton.mpr (hunbound.child (by simp [Node.children]))
    have hsymbol := hresolves.owner rfl hlaid hbaseUnbound base' (by simp) owner howner
    obtain ⟨field', rs₂, hfield⟩ := hlaid.fieldBinds field hsymbol
    exact ⟨_, _, .dot hpath hresolves howner hfield⟩
  | assign target value =>
    obtain ⟨htarget, hvalue⟩ := Bool.and_eq_true_iff.mp hexpr
    obtain ⟨target', rs₁, h₁⟩ := hchild target (by simp [Node.children]) htarget
    obtain ⟨value', rs₂, h₂⟩ := hchild value (by simp [Node.children]) hvalue
    exact ⟨_, _, .assign (.cons h₁ h₂)⟩
  | call callee args =>
    obtain ⟨callee', rs₁, hcallee⟩ := hlaid.useBinds callee
    have hexprs := Node.areExprs_iff.mp hexpr
    obtain ⟨args', rs₂, hargs⟩ := phrase_advances fun e he => hchild e he (hexprs e he)
    exact ⟨_, _, .call hcallee hargs⟩
  | unary op operand =>
    obtain ⟨operand', rs, h⟩ := hchild operand (by simp [Node.children]) hexpr
    exact ⟨_, _, .unary h⟩
  | binary op left right =>
    obtain ⟨hleft, hright⟩ := Bool.and_eq_true_iff.mp hexpr
    obtain ⟨left', rs₁, h₁⟩ := hchild left (by simp [Node.children]) hleft
    obtain ⟨right', rs₂, h₂⟩ := hchild right (by simp [Node.children]) hright
    exact ⟨_, _, .binary (.cons h₁ h₂)⟩
  | _ => cases hexpr

/-- Declarations are analysed one after the other, on tables of which `Inv` holds. -/
private theorem decls_advance {Inv : SymbolTable → Prop} {ds : List Node}
    (hstep : ∀ d ∈ ds, ∀ t, Inv t → ∃ t' d' rs, Resolves 1 .decls t [d] t' [d'] rs ∧ Inv t')
    {t : SymbolTable} (ht : Inv t) : ∃ t' ds' rs, Resolves 1 .decls t ds t' ds' rs ∧ Inv t' := by
  induction ds generalizing t with
  | nil => exact ⟨t, [], [], .nil, ht⟩
  | cons d ds ih =>
    rw [List.forall_mem_cons] at hstep
    obtain ⟨t₁, d', rs₁, hd, ht₁⟩ := hstep.1 t ht
    obtain ⟨t', ds', rs₂, hds, ht'⟩ := ih hstep.2 ht₁
    exact ⟨t', d' :: ds', rs₁ ++ rs₂, .cons hd hds, ht'⟩

private theorem storage_advances {d : Node} (hd : d.ShapedWith Node.isStorage)
    (t : SymbolTable) (ht : t.IsLaid) :
    ∃ t' d' rs, Resolves 1 .decls t [d] t' [d'] rs ∧ t'.IsLaid := by
  have ⟨inner, g, hlaid⟩ := ht
  obtain ⟨type, id, hd', htype⟩ := Node.exists_of_isStorage hd.shaped
  have hnamed : d.isNamed = true := (Node.throughout_iff.mp hd.named).1
  have hname : id.name ≠ "" := by
    rcases hd' with rfl | rfl <;> simpa [Node.isNamed] using hnamed
  obtain ⟨t', type', id', rs, h⟩ := hlaid.storageDeclares htype hname
  have hresolves : ∃ d', Resolves 1 .decls t [d] t' [d'] rs := by
    rcases hd' with rfl | rfl
    · exact ⟨_, .varDecl h⟩
    · exact ⟨_, .formalDecl h⟩
  obtain ⟨d', hresolves⟩ := hresolves
  exact ⟨t', d', rs, hresolves, hresolves.isLaid ht⟩

private theorem storages_advance {ds : List Node} (hds : ds.all Node.isStorage = true)
    (hnamed : ∀ d ∈ ds, d.Throughout (·.isNamed = true)) {t : SymbolTable} (ht : t.IsLaid) :
    ∃ t' ds' rs, Resolves 1 .decls t ds t' ds' rs ∧ t'.IsLaid :=
  decls_advance
    (fun d hd => storage_advances ⟨List.all_eq_true.mp hds d hd, hnamed d hd⟩) ht

private theorem block_advance {ds ss : List Node} (ih : ∀ s ∈ ss, Advances s)
    (hds : ds.all Node.isStorage = true) (hss : Node.areShapedStmts ss = true)
    (hdsNamed : ∀ d ∈ ds, d.Throughout (·.isNamed = true))
    (hssNamed : ∀ s ∈ ss, s.Throughout (·.isNamed = true))
    (hunbound : ∀ s ∈ ss, s.Unbound) {t : SymbolTable} (ht : t.IsLaid) :
    ∃ scope ds' ss' rs₁ rs₂, Resolves 1 .decls t.enterScope ds ⟨scope :: t.scopes⟩ ds' rs₁ ∧
      Resolves 1 .stmts ⟨scope :: t.scopes⟩ ss ⟨scope :: t.scopes⟩ ss' rs₂ := by
  obtain ⟨t', ds', rs₁, hdecls, ht'⟩ := storages_advance hds hdsNamed ht.enterScope
  obtain ⟨scope, rfl⟩ := hdecls.opened
  have hstmt := Node.areShapedStmts_iff.mp hss
  obtain ⟨ss', rs₂, hstmts⟩ := phrase_advances fun s hs =>
    (ih s hs).stmt ⟨hstmt s hs, hssNamed s hs⟩ (hunbound s hs) _ ht'
  exact ⟨scope, ds', ss', rs₁, rs₂, hdecls, hstmts⟩

private theorem stmt_advances (s : Node) (ih : ∀ m ∈ s.children, Advances m)
    (hs : s.ShapedWith Node.isShapedStmt) (hunbound : s.Unbound) (t : SymbolTable)
    (ht : t.IsLaid) : ∃ s' rs, Resolves 1 .stmts t [s] t [s'] rs := by
  have ⟨hstmt, hnamed⟩ := hs
  have hexpr (m : Node) (hm : m ∈ s.children) (hexpr : m.isExpr = true) :
      ∃ m' rs, Resolves 1 .exprs t [m] t [m'] rs :=
    (ih m hm).expr hexpr (hunbound.child hm) t ht
  -- the declarations and statements of a block stand among the children
  have hblock {ds ss : List Node} (hdecls : ∀ m ∈ ds, m ∈ s.children)
      (hstmts : ∀ m ∈ ss, m ∈ s.children) (hds : ds.all Node.isStorage = true)
      (hss : Node.areShapedStmts ss = true) :=
    block_advance (fun m hm => ih m (hstmts m hm)) hds hss
      (fun m hm => hnamed.child (hdecls m hm)) (fun m hm => hnamed.child (hstmts m hm))
      (fun m hm => hunbound.child (hstmts m hm)) ht
  cases s with
  | assignStmt e =>
    obtain ⟨e', rs, h⟩ := hexpr e (by simp [Node.children]) hstmt
    exact ⟨_, _, .assignStmt h⟩
  | stepStmt op e =>
    obtain ⟨e', rs, h⟩ := hexpr e (by simp [Node.children]) hstmt
    exact ⟨_, _, .stepStmt h⟩
  | readStmt e =>
    obtain ⟨e', rs, h⟩ := hexpr e (by simp [Node.children]) hstmt
    exact ⟨_, _, .readStmt h⟩
  | writeStmt e =>
    obtain ⟨e', rs, h⟩ := hexpr e (by simp [Node.children]) hstmt
    exact ⟨_, _, .writeStmt h⟩
  | callStmt e =>
    obtain ⟨e', rs, h⟩ := hexpr e (by simp [Node.children]) hstmt
    exact ⟨_, _, .callStmt h⟩
  | returnStmt value pos =>
    by_cases hvalue : value = .missing
    · subst hvalue
      exact ⟨_, _, .bareReturn⟩
    · rw [Node.isShapedStmt_return hvalue] at hstmt
      obtain ⟨value', rs, h⟩ := hexpr value (by simp [Node.children]) hstmt
      exact ⟨_, _, .returnStmt h⟩
  | ifStmt cond ds ss =>
    simp only [Node.isShapedStmt, Bool.and_eq_true] at hstmt
    obtain ⟨⟨hcond, hds⟩, hss⟩ := hstmt
    obtain ⟨cond', rs₁, h₁⟩ := hexpr cond (by simp [Node.children]) hcond
    obtain ⟨scope, ds', ss', rs₂, rs₃, h₂, h₃⟩ :=
      hblock (by simp +contextual [Node.children]) (by simp +contextual [Node.children]) hds hss
    exact ⟨_, _, .ifStmt h₁ h₂ h₃⟩
  | ifElseStmt cond ds ss es fs =>
    simp only [Node.isShapedStmt, Bool.and_eq_true] at hstmt
    obtain ⟨⟨⟨⟨hcond, hds⟩, hss⟩, hes⟩, hfs⟩ := hstmt
    obtain ⟨cond', rs₁, h₁⟩ := hexpr cond (by simp [Node.children]) hcond
    obtain ⟨scope, ds', ss', rs₂, rs₃, h₂, h₃⟩ :=
      hblock (by simp +contextual [Node.children]) (by simp +contextual [Node.children]) hds hss
    obtain ⟨scope', es', fs', rs₄, rs₅, h₄, h₅⟩ :=
      hblock (by simp +contextual [Node.children]) (by simp +contextual [Node.children]) hes hfs
    exact ⟨_, _, .ifElseStmt h₁ h₂ h₃ h₄ h₅⟩
  | whileStmt cond ds ss =>
    simp only [Node.isShapedStmt, Bool.and_eq_true] at hstmt
    obtain ⟨⟨hcond, hds⟩, hss⟩ := hstmt
    obtain ⟨cond', rs₁, h₁⟩ := hexpr cond (by simp [Node.children]) hcond
    obtain ⟨scope, ds', ss', rs₂, rs₃, h₂, h₃⟩ :=
      hblock (by simp +contextual [Node.children]) (by simp +contextual [Node.children]) hds hss
    exact ⟨_, _, .whileStmt h₁ h₂ h₃⟩
  | _ => cases hstmt

theorem advances (n : Node) : Advances n := by
  induction n using Node.induct with
  | step n ih => exact ⟨expr_advances n ih, stmt_advances n ih⟩

private theorem function_advances {type : Node} {id : Ident} {formals decls stmts : List Node}
    (hd : (Node.fnDecl type id formals decls stmts).ShapedWith Node.isShapedDecl)
    (hunbound : (Node.fnDecl type id formals decls stmts).Unbound) {t : SymbolTable} {g : Scope}
    (hlaid : Laid t [] g) :
    ∃ t' d' rs, Resolves 1 .decls t [.fnDecl type id formals decls stmts] t' [d'] rs := by
  have ⟨hshaped, hnamed⟩ := hd
  simp only [Node.isShapedDecl, Bool.and_eq_true] at hshaped
  obtain ⟨⟨⟨htype, hformals⟩, hdecls⟩, hstmts⟩ := hshaped
  obtain ⟨hname, hchildren⟩ := Node.throughout_iff.mp hnamed
  simp only [Node.children, List.forall_mem_cons, List.forall_mem_append] at hchildren
  obtain ⟨-, hformalsNamed, hdeclsNamed, hstmtsNamed⟩ := hchildren
  have hdepth : t.depth = 1 := hlaid.depth_eq
  obtain ⟨type', result, rs₁, hresult, hresultName⟩ := resultBinds t htype
  obtain ⟨params, hparams⟩ := Node.typeNames?_of_storages (List.all_eq_true.mp hformals)
  obtain ⟨t₁, id', rs₂, hid⟩ :=
    hlaid.declares (by simpa [Node.isNamed] using hname) (.function params result)
  have hopen : SymbolTable.IsLaid t₁.enterScope := by
    obtain ⟨inner₁, g₁, hlaid₁⟩ := hid.isLaid_global hlaid trivial
    exact ⟨_, _, hlaid₁.enterScope⟩
  obtain ⟨t₂, formals', rs₃, hf, ht₂⟩ := storages_advance hformals hformalsNamed hopen
  obtain ⟨t₃, decls', rs₄, hds, ht₃⟩ := storages_advance hdecls hdeclsNamed ht₂
  obtain ⟨scope, rfl⟩ : ∃ scope, t₃ = ⟨scope :: t₁.scopes⟩ := by
    obtain ⟨added, rfl⟩ := hf.opened
    obtain ⟨added', rfl⟩ := hds.frame.2 _ _ rfl
    exact ⟨_, rfl⟩
  have hstmt := Node.areShapedStmts_iff.mp hstmts
  obtain ⟨stmts', rs₅, hss⟩ := phrase_advances fun s hs =>
    (advances s).stmt ⟨hstmt s hs, hstmtsNamed s hs⟩
      (hunbound.child (by simp [Node.children, hs])) _ ht₃
  exact ⟨_, _, _, .fnDecl hdepth hresult hparams hresultName hid hf hds hss⟩

private theorem struct_advances {id : Ident} {decls : List Node}
    (hd : (Node.structDecl id decls).ShapedWith Node.isShapedDecl) {t : SymbolTable} {g : Scope}
    (hlaid : Laid t [] g) :
    ∃ t' d' rs, Resolves 1 .decls t [.structDecl id decls] t' [d'] rs := by
  obtain ⟨hname, hdeclsNamed⟩ := Node.throughout_iff.mp hd.named
  have hopen : SymbolTable.IsLaid t.enterScope := ⟨_, _, hlaid.enterScope⟩
  obtain ⟨t₁, decls', rs₁, hds, -⟩ := storages_advance hd.shaped hdeclsNamed hopen
  obtain ⟨fields, rfl⟩ := hds.opened
  obtain ⟨t', id', rs₂, hid⟩ := hlaid.declares (by simpa [Node.isNamed] using hname)
    (.structDecl id.name (some (.ofScope fields)))
  exact ⟨_, _, _, .structDecl hlaid.depth_eq hds hid⟩

private theorem top_advances {d : Node} (hd : d.ShapedWith Node.isShapedDecl) (hunbound : d.Unbound)
    (t : SymbolTable) (ht : ∃ g, Laid t [] g) :
    ∃ t' d' rs, Resolves 1 .decls t [d] t' [d'] rs ∧ ∃ g', Laid t' [] g' := by
  obtain ⟨g, hlaid⟩ := ht
  have hresolves : ∃ t' d' rs, Resolves 1 .decls t [d] t' [d'] rs := by
    cases d with
    | varDecl type id =>
      obtain ⟨t', d', rs, h, -⟩ :=
        storage_advances (d := .varDecl type id) ⟨hd.shaped, hd.named⟩ t ⟨[], g, hlaid⟩
      exact ⟨t', d', rs, h⟩
    | formalDecl type id =>
      obtain ⟨t', d', rs, h, -⟩ :=
        storage_advances (d := .formalDecl type id) ⟨hd.shaped, hd.named⟩ t ⟨[], g, hlaid⟩
      exact ⟨t', d', rs, h⟩
    | fnDecl type id formals decls stmts => exact function_advances hd hunbound hlaid
    | structDecl id decls => exact struct_advances hd hlaid
    | _ => cases hd.shaped
  obtain ⟨t', d', rs, h⟩ := hresolves
  exact ⟨t', d', rs, h, h.outermost hlaid⟩

/-- A well-shaped program with a name for whatever it declares and without symbols is analysed to
its end. -/
theorem resolveProgram_returns_of_wellShaped {program : Program}
    (hshaped : wellShaped program = true)
    (hnamed : ∀ n ∈ Node.allNodes program, n.isNamed = true)
    (hunbound : ∀ id ∈ Node.identsAll program, id.symbol = none) :
    (resolveProgram program .empty).stage.fault = none := by
  rw [Node.forall_mem_allNodes] at hnamed
  have hstep (d : Node) (hd : d ∈ program) :=
    top_advances ⟨List.all_eq_true.mp hshaped d hd, hnamed d hd⟩
      (fun id hid => hunbound id (Node.mem_identsAll.mpr ⟨d, hd, hid⟩))
  obtain ⟨t', program', rs, h, -⟩ := decls_advance hstep ⟨[], Laid.initial⟩
  obtain ⟨scope, rfl⟩ := h.opened
  have heq : resolveProgram program .empty = ⟨program', ⟨.empty, none⟩, rs⟩ :=
    @Resolves.resolveProgram_eq program program' .empty scope rs h
  rw [heq]

/-- A program that conforms to the grammar and carries no symbols is analysed to its end. -/
theorem resolveProgram_returns {program : Program} (hgrammar : conforms program = true)
    (hunbound : ∀ id ∈ Node.identsAll program, id.symbol = none) :
    (resolveProgram program .empty).stage.fault = none := by
  obtain ⟨hshaped, hnamed⟩ := wellShaped_of_conforms hgrammar
  exact resolveProgram_returns_of_wellShaped hshaped hnamed hunbound

end Sema
