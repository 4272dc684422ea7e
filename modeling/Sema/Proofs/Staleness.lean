import Sema.Proofs.Reanalysis

/-!
# Stale symbols

A tree may carry symbols from an earlier analysis, or from anywhere. Those that an analysis without
a complaint reads it has written itself, so the symbols that were there before make no difference
to what it accepts, and none to what it leaves.
-/

namespace Sema

open Resolver

section Concur

variable {α β : Type}

/-- Where one of the two steps returns without a complaint so does the other, with the same value
and the same scopes. -/
def Concur (m m' : Resolver α) : Prop :=
  ∀ t a t', Returns m t a t' [] ↔ Returns m' t a t' []

theorem Concur.refl (m : Resolver α) : Concur m m := fun _ _ _ => Iff.rfl

private theorem returns_bind_clean {m : Resolver α} {f : α → Resolver β} [∀ a, Inert (f a)]
    {t t' : SymbolTable} {b : β} :
    Returns (m >>= f) t b t' [] ↔ ∃ a t₁, Returns m t a t₁ [] ∧ Returns (f a) t₁ b t' [] := by
  rw [returns_bind]
  constructor
  · intro h
    obtain ⟨a, t₁, rs₁, rs₂, hm, hf, hrs⟩ := h
    obtain ⟨rfl, rfl⟩ := List.append_eq_nil_iff.mp hrs.symm
    exact ⟨a, t₁, hm, hf⟩
  · intro h
    obtain ⟨a, t₁, hm, hf⟩ := h
    exact ⟨a, t₁, [], [], hm, hf, rfl⟩

theorem Concur.bind_of {m m' : Resolver α} {f f' : α → Resolver β} [∀ a, Inert (f a)]
    [∀ a, Inert (f' a)] (h : Concur m m')
    (hf : ∀ t a t₁, Returns m t a t₁ [] → Concur (f a) (f' a)) : Concur (m >>= f) (m' >>= f') := by
  intro t b t'
  rw [returns_bind_clean, returns_bind_clean]
  constructor
  · intro hreturns
    obtain ⟨a, t₁, hm, hrest⟩ := hreturns
    exact ⟨a, t₁, (h t a t₁).mp hm, (hf t a t₁ hm t₁ b t').mp hrest⟩
  · intro hreturns
    obtain ⟨a, t₁, hm', hrest⟩ := hreturns
    have hm := (h t a t₁).mpr hm'
    exact ⟨a, t₁, hm, (hf t a t₁ hm t₁ b t').mpr hrest⟩

theorem Concur.bind {m m' : Resolver α} {f f' : α → Resolver β} [∀ a, Inert (f a)]
    [∀ a, Inert (f' a)] (h : Concur m m') (hf : ∀ a, Concur (f a) (f' a)) :
    Concur (m >>= f) (m' >>= f') :=
  h.bind_of fun _ a _ _ => hf a

theorem Concur.inScope {m m' : Resolver α} [Inert m] [Inert m'] (h : Concur m m') :
    Concur (inScope m) (inScope m') := by
  intro t a t'
  rw [returns_inScope, returns_inScope]
  exact exists_congr fun scope => h _ _ _

end Concur

section Steps

variable {t t' : SymbolTable} {id id' stale : Ident}

private theorem Ident.bind_of_erase (h : stale.erase = id.erase) (symbol : Option Symbol) :
    ({ stale with symbol := symbol } : Ident) = { id with symbol := symbol } := by
  rw [Ident.mk.injEq]
  exact ⟨Ident.name_of_erase h, Ident.pos_of_erase h, rfl⟩

private theorem UseBinds.of_erase (hbinds : UseBinds t id id' []) (h : stale.erase = id.erase) :
    UseBinds t stale id' [] := by
  cases hbinds with
  | @known s hlookup =>
    rw [← Ident.bind_of_erase h]
    rw [← Ident.name_of_erase h] at hlookup
    exact .known hlookup

private theorem StructBinds.of_erase {d : Option StructDef} (hbinds : StructBinds t id id' d [])
    (h : stale.erase = id.erase) : StructBinds t stale id' d [] := by
  cases hbinds with
  | @known d hd =>
    rw [← Ident.bind_of_erase h]
    rw [← Ident.name_of_erase h] at hd
    exact .known hd

private theorem Declares.of_erase {s : Symbol} (hdeclares : Declares t id s t' id' [])
    (h : stale.erase = id.erase) : Declares t stale s t' id' [] := by
  cases hdeclares with
  | fresh hdeclare =>
    rw [← Ident.bind_of_erase h]
    rw [← Ident.name_of_erase h] at hdeclare
    exact .fresh hdeclare

/-- Without a symbol on the owner, a field would keep a stale symbol of its own unnoticed. -/
private theorem FieldBinds.of_erase {owner : Ident} (hbinds : FieldBinds t owner id id' [])
    (howner : owner.Bound) (h : stale.erase = id.erase) : FieldBinds t owner stale id' [] := by
  cases hbinds with
  | unbound hnone =>
    rw [Ident.Bound, hnone] at howner
    cases howner
  | known hsymbol hd hs =>
    rw [← Ident.bind_of_erase h]
    rw [← Ident.name_of_erase h] at hs
    exact .known hsymbol hd hs

theorem concur_bindUse (id : Ident) : Concur (bindUse id) (bindUse id.erase) := by
  intro t id' t'
  rw [returns_bindUse, returns_bindUse]
  exact and_congr_right fun _ => ⟨fun h => h.of_erase rfl, fun h => h.of_erase rfl⟩

theorem concur_bindStruct (id : Ident) : Concur (bindStruct id) (bindStruct id.erase) := by
  rintro t ⟨id', d⟩ t'
  rw [returns_bindStruct, returns_bindStruct]
  exact and_congr_right fun _ => ⟨fun h => h.of_erase rfl, fun h => h.of_erase rfl⟩

theorem concur_declare (id : Ident) (s : Symbol) : Concur (declare id s) (declare id.erase s) := by
  intro t id' t'
  rw [returns_declare, returns_declare]
  exact ⟨fun h => h.of_erase rfl, fun h => h.of_erase rfl⟩

theorem concur_bindFieldOf {base : Node} {owner : Ident} (hpath : base.pathEnd? = some owner)
    (howner : owner.Bound) (field : Ident) :
    Concur (bindFieldOf base field) (bindFieldOf base field.erase) := by
  intro t field' t'
  rw [returns_bindFieldOf hpath, returns_bindFieldOf hpath]
  exact and_congr_right fun _ => ⟨fun h => h.of_erase howner rfl, fun h => h.of_erase howner rfl⟩

theorem concur_reject (slot : Slot) (node node' : Node) :
    Concur (reject slot node) (reject slot node') := by
  intro t n t'
  simp only [not_returns_reject]

theorem concur_resolveResultType {type : Node} (htype : type.isType = true) :
    Concur (resolveResultType type) (resolveResultType type.erase) := by
  cases type with
  | primType prim => exact .refl _
  | structType name => exact (concur_bindStruct name).bind fun _ => .refl _
  | _ => cases htype

theorem concur_declareFunction (type : Node) (id : Ident) (formals : List Node) :
    Concur (declareFunction type id formals)
      (declareFunction type id.erase (Node.eraseAll formals)) := by
  intro t id' t'
  simp only [returns_declareFunction, Node.typeNames?_eraseAll, ← returns_declare]
  refine exists_congr fun params => exists_congr fun result => ?_
  rw [concur_declare id (.function params result) t id' t']

theorem concur_declareStorage (type : Node) (id : Ident) :
    Concur (declareStorage type id) (declareStorage type.erase id.erase) := by
  cases type with
  | primType prim =>
    cases prim with
    | void =>
      refine (Concur.refl _).bind_of ?_
      intro t u t₁ hreport
      obtain ⟨-, hcomplaint⟩ := returns_report.mp hreport
      cases hcomplaint
    | int | bool => exact (concur_declare id _).bind fun _ => .refl _
  | structType name =>
    have hstruct := inert_declareStruct
    refine (concur_bindStruct name).bind_of ?_
    rintro t ⟨name', d⟩ t₁ hname
    obtain ⟨-, hname⟩ := returns_bindStruct.mp hname
    cases hname with
    | known hd => exact (concur_declare id _).bind fun _ => .refl _
  | _ =>
    intro t x t'
    simp only [Node.relabel, declareStorage, returns_bind, not_returns_stop, false_and, exists_false]

/-- A function whose result type is no type is not analysed to its end. -/
private theorem not_returns_function {global : Nat} {type d : Node}
    {formals decls stmts : List Node} {rs : List Diagnostic} (htype : type.isType = false) :
    ¬ Returns (resolveDecl global (.fnDecl type id formals decls stmts)) t d t' rs := by
  intro h
  rw [resolveDecl, returns_bind] at h
  obtain ⟨_, _, _, _, _, h, _⟩ := h
  rw [returns_bind] at h
  obtain ⟨type', _, _, _, hresult, h, _⟩ := h
  rw [returns_bind] at h
  obtain ⟨_, _, _, _, hdeclare, _, _⟩ := h
  obtain ⟨params, result, -, hname, -⟩ := returns_declareFunction.mp hdeclare
  obtain ⟨-, hresult⟩ := returns_resolveResultType.mp hresult
  cases hresult with
  | struct _ => cases htype
  | other _ =>
    cases type with
    | primType _ | structType _ => cases htype
    | _ => cases hname

end Steps

/-- Where the node is analysed without a complaint so is the node without its symbols, to the same
end, whatever the node is taken for. -/
structure Forgets (global : Nat) (n : Node) : Prop where
  expr : Concur (resolveExpr n) (resolveExpr n.erase)
  stmt : Concur (resolveStmt global n) (resolveStmt global n.erase)
  decl : Concur (resolveDecl global n) (resolveDecl global n.erase)

section Traversals

variable {global : Nat}

private theorem concur_resolveExprs {es : List Node} (ih : ∀ e ∈ es, Forgets global e) :
    Concur (resolveExprs es) (resolveExprs (Node.eraseAll es)) := by
  induction es with
  | nil => exact .refl _
  | cons e es ihes =>
    rw [List.forall_mem_cons] at ih
    exact ih.1.expr.bind fun _ => (ihes ih.2).bind fun _ => .refl _

private theorem concur_resolveStmts {ss : List Node} (ih : ∀ n ∈ ss, Forgets global n) :
    Concur (resolveStmts global ss) (resolveStmts global (Node.eraseAll ss)) := by
  induction ss with
  | nil => exact .refl _
  | cons n ss ihss =>
    rw [List.forall_mem_cons] at ih
    exact ih.1.stmt.bind fun _ => (ihss ih.2).bind fun _ => .refl _

private theorem concur_resolveDecls {ds : List Node} (ih : ∀ d ∈ ds, Forgets global d) :
    Concur (resolveDecls global ds) (resolveDecls global (Node.eraseAll ds)) := by
  induction ds with
  | nil => exact .refl _
  | cons d ds ihds =>
    rw [List.forall_mem_cons] at ih
    exact ih.1.decl.bind fun _ => (ihds ih.2).bind fun _ => .refl _

private theorem pathEnd_bound {base base' : Node} {t t' : SymbolTable}
    (hpath : base.pathEnd?.isSome = true) (h : Returns (resolveExpr base) t base' t' []) :
    ∃ owner, base'.pathEnd? = some owner ∧ owner.Bound := by
  have hbase := (runsByRules 1 base).expr h
  have hpath' : base'.pathEnd?.isSome = true := by
    have hends := hbase.pathEnd
    simpa [hpath] using hends
  obtain ⟨owner, howner⟩ := Option.isSome_iff_exists.mp hpath'
  refine ⟨owner, howner, ?_⟩
  apply hbase.bound rfl owner
  rw [Node.identsAll_singleton]
  exact Node.mem_idents_of_pathEnd howner

private theorem concur_resolveExpr (e : Node) (ih : ∀ m ∈ e.children, Forgets global m) :
    Concur (resolveExpr e) (resolveExpr e.erase) := by
  cases e with
  | lit value pos => exact .refl _
  | ident id => exact (concur_bindUse id).bind fun _ => .refl _
  | dot base field =>
    have hbase := (ih base (by simp [Node.children])).expr
    simp only [Node.relabel, resolveExpr, requirePath_erase]
    refine (Concur.refl (requirePath base)).bind_of ?_
    intro t u t₁ hpath
    obtain ⟨hpath, -, -⟩ := returns_requirePath.mp hpath
    refine hbase.bind_of ?_
    intro t base' t₁ hreturns
    obtain ⟨owner, howner, hbound⟩ := pathEnd_bound hpath hreturns
    exact (concur_bindFieldOf howner hbound field).bind fun _ => .refl _
  | assign target value =>
    have htarget := (ih target (by simp [Node.children])).expr
    have hvalue := (ih value (by simp [Node.children])).expr
    exact htarget.bind fun _ => hvalue.bind fun _ => .refl _
  | call callee args =>
    exact (concur_bindUse callee).bind fun _ => (concur_resolveExprs ih).bind fun _ => .refl _
  | unary op operand =>
    have hoperand := (ih operand (by simp [Node.children])).expr
    exact hoperand.bind fun _ => .refl _
  | binary op left right =>
    have hleft := (ih left (by simp [Node.children])).expr
    have hright := (ih right (by simp [Node.children])).expr
    exact hleft.bind fun _ => hright.bind fun _ => .refl _
  | _ => exact concur_reject .expression _ _

private theorem concur_block {γ : Type} {ds ss : List Node} (build : List Node → List Node → γ)
    (ihds : ∀ d ∈ ds, Forgets global d) (ihss : ∀ n ∈ ss, Forgets global n) :
    Concur (inScope do
        let ds ← resolveDecls global ds
        let ss ← resolveStmts global ss
        return build ds ss)
      (inScope do
        let ds ← resolveDecls global (Node.eraseAll ds)
        let ss ← resolveStmts global (Node.eraseAll ss)
        return build ds ss) :=
  ((concur_resolveDecls ihds).bind fun _ =>
    (concur_resolveStmts ihss).bind fun _ => .refl _).inScope

private theorem concur_resolveStmt (n : Node) (ih : ∀ m ∈ n.children, Forgets global m) :
    Concur (resolveStmt global n) (resolveStmt global n.erase) := by
  cases n with
  | assignStmt e | stepStmt op e | readStmt e | writeStmt e | callStmt e =>
    have he := (ih e (by simp [Node.children])).expr
    exact he.bind fun _ => .refl _
  | ifStmt cond decls stmts | whileStmt cond decls stmts =>
    simp only [Node.children, List.forall_mem_cons, List.forall_mem_append] at ih
    obtain ⟨ihcond, ihdecls, ihstmts⟩ := ih
    exact ihcond.expr.bind fun _ => concur_block _ ihdecls ihstmts
  | ifElseStmt cond ds ss ds' ss' =>
    simp only [Node.children, List.forall_mem_cons, List.forall_mem_append] at ih
    obtain ⟨ihcond, ihds, ihss, ihds', ihss'⟩ := ih
    exact ihcond.expr.bind fun _ => (concur_block _ ihds ihss).bind fun _ =>
      (concur_block _ ihds' ihss').bind fun _ => .refl _
  | returnStmt value pos =>
    by_cases hvalue : value = .missing
    · subst hvalue
      exact .refl _
    · have hvalue' : value.erase ≠ .missing := mt Node.eq_missing_of_relabel hvalue
      have he := (ih value (by simp [Node.children])).expr
      simp only [Node.relabel, resolveStmt_return hvalue, resolveStmt_return hvalue']
      exact he.bind fun _ => .refl _
  | _ => exact concur_reject .statement _ _

private theorem concur_resolveDecl (d : Node) (ih : ∀ m ∈ d.children, Forgets global m) :
    Concur (resolveDecl global d) (resolveDecl global d.erase) := by
  cases d with
  | varDecl type id | formalDecl type id =>
    exact (concur_declareStorage type id).bind fun _ => .refl _
  | fnDecl type id formals decls stmts =>
    simp only [Node.children, List.forall_mem_cons, List.forall_mem_append] at ih
    obtain ⟨-, ihformals, ihdecls, ihstmts⟩ := ih
    cases htype : type.isType with
    | false =>
      have htype' : type.erase.isType = false := by
        rw [Node.isType_erase, htype]
      intro t d' t'
      simp only [Node.relabel, not_returns_function htype, not_returns_function htype']
    | true =>
      exact (Concur.refl _).bind fun _ => (concur_resolveResultType htype).bind fun type' =>
        (concur_declareFunction type' id formals).bind fun _ =>
          ((concur_resolveDecls ihformals).bind fun _ => (concur_resolveDecls ihdecls).bind fun _ =>
            (concur_resolveStmts ihstmts).bind fun _ => .refl _).inScope
  | structDecl id decls =>
    exact (Concur.refl _).bind fun _ => (Concur.refl _).bind fun _ =>
      (concur_resolveDecls ih).bind fun _ => (Concur.refl _).bind fun _ =>
        (concur_declare id _).bind fun _ => .refl _
  | _ => exact concur_reject .declaration _ _

theorem forgets (global : Nat) (n : Node) : Forgets global n := by
  induction n using Node.induct with
  | step n ih => exact ⟨concur_resolveExpr n ih, concur_resolveStmt n ih, concur_resolveDecl n ih⟩

end Traversals

/-- The names of the program are bound without a fault and without a complaint. -/
def NamesClean (program : Program) : Prop :=
  (resolveProgram program .empty).stage.fault = none ∧
    (resolveProgram program .empty).reports = []

theorem namesClean_iff {program : Program} :
    NamesClean program ↔
      ∃ bound, Returns (inScope (resolveDecls 1 program)) .empty bound .empty [] := by
  constructor
  · intro h
    obtain ⟨scope, hresolves⟩ := Resolves.of_resolveProgram h.1
    rw [h.2] at hresolves
    exact ⟨_, hresolves.resolveProgram_eq⟩
  · intro h
    obtain ⟨bound, hreturns⟩ := h
    have hrun : resolveProgram program .empty = ⟨bound, ⟨.empty, none⟩, []⟩ := hreturns
    rw [NamesClean, hrun]
    exact ⟨rfl, rfl⟩

/-- Without a complaint, a program is analysed as it would be without its symbols. -/
theorem NamesClean.erase {program : Program} (h : NamesClean program) :
    resolveProgram program .empty = resolveProgram (Node.eraseAll program) .empty := by
  have hconcur := (concur_resolveDecls fun d (_ : d ∈ program) => forgets 1 d).inScope
  obtain ⟨bound, hreturns⟩ := namesClean_iff.mp h
  have herased := (hconcur _ _ _).mp hreturns
  exact hreturns.trans herased.symm

theorem namesClean_erase {program : Program} :
    NamesClean (Node.eraseAll program) ↔ NamesClean program := by
  have hconcur := (concur_resolveDecls fun d (_ : d ∈ program) => forgets 1 d).inScope
  rw [namesClean_iff, namesClean_iff]
  exact exists_congr fun bound => (hconcur .empty bound .empty).symm

/-- Of two programs that are the same up to symbols, the names of one are bound without a fault and
without a complaint exactly if those of the other are. If so, the two analyses come to the same end,
with the same reports, and leave the same program. -/
theorem stale_symbols_are_inert {program program' : Program} (journal : Journal)
    (herase : Node.eraseAll program = Node.eraseAll program') :
    (NamesClean program ↔ NamesClean program') ∧
      (NamesClean program → analyze journal program = analyze journal program') := by
  have hiff : NamesClean program ↔ NamesClean program' := by
    rw [← namesClean_erase, herase, namesClean_erase]
  refine ⟨hiff, ?_⟩
  intro h
  have hnames : resolveProgram program .empty = resolveProgram program' .empty := by
    rw [h.erase, (hiff.mp h).erase, herase]
  simp only [analyze, hnames]

/-- A struct, a variable of it and an assignment to its field, with symbols of some other program:
one of a struct that does not exist, one of a function, and one of no known kind. -/
def reusedProgram : Program :=
  [.structDecl ⟨"Point", ⟨1, 8⟩, none⟩ [.varDecl (.primType .int) ⟨"x", ⟨1, 20⟩, none⟩],
    .varDecl (.structType ⟨"Point", ⟨2, 1⟩, some (.function ["int"] "void")⟩) ⟨"p", ⟨2, 7⟩, none⟩,
    .fnDecl (.primType .void) ⟨"f", ⟨3, 6⟩, none⟩ [] []
      [.assignStmt (.assign
        (.dot (.ident ⟨"p", ⟨4, 3⟩, some (.structVar "Line")⟩) ⟨"x", ⟨4, 5⟩, some (.unknown "?")⟩)
        (.lit (.int 1) ⟨4, 9⟩))]]

theorem reusedProgram_analyzed_afresh :
    Node.eraseAll reusedProgram = Node.eraseAll (Node.eraseAll reusedProgram) ∧
      NamesClean reusedProgram ∧
      analyze {} reusedProgram = analyze {} (Node.eraseAll reusedProgram) := by
  have herase : Node.eraseAll reusedProgram = Node.eraseAll (Node.eraseAll reusedProgram) := rfl
  have hclean : NamesClean reusedProgram := ⟨rfl, rfl⟩
  exact ⟨herase, hclean, (stale_symbols_are_inert {} herase).2 hclean⟩

end Sema
