import Sema.Proofs.Resolution.Functions
import Sema.Proofs.Staleness
import Sema.Proofs.Typing.Decision
import Sema.Proofs.Typing.Progress

/-!
# Calls and the functions they call

The types of a function's parameters are known twice: by their names, in the signature that a call
is checked against, and by the symbols of the parameters, which the body of the function goes by.
Once the names of a program are bound without a complaint the two agree, and the result of a call is
the type that the returns of the function are checked against.
-/

namespace Sema

open Check

/-- One complaint for each argument, in order, whose type is no error and not that of its
parameter. -/
def argumentComplaints (args : List Node) (actuals params : List Ty) : List Diagnostic :=
  ((args.zip (actuals.zip params)).filter fun a => a.2.1 ≠ .error ∧ a.2.1 ≠ a.2.2).map
    fun a => .ofKind .argumentMismatch a.1.pos

theorem Ty.not_compatible_iff {t param : Ty} (hparam : param ≠ .error) :
    t.compatible param = false ↔ t ≠ .error ∧ t ≠ param := by
  have hne (u : Ty) : u.isError = false ↔ u ≠ .error := by
    rw [← Bool.not_eq_true, isError_iff]
  simp [compatible, hne, hparam]

section Checks

variable {callee : Ident} {args : List Node} {actuals params : List Ty}

theorem checkArgs_eq (hparams : ∀ p ∈ params, p ≠ .error) :
    checkArgs ((args.map Node.pos).zip actuals) params =
      ⟨argumentComplaints args actuals params, .ok ()⟩ := by
  induction args generalizing actuals params with
  | nil => rfl
  | cons arg args ih =>
    cases actuals with
    | nil => rfl
    | cons actual actuals =>
      cases params with
      | nil => rfl
      | cons param params =>
        rw [List.forall_mem_cons] at hparams
        have hrest : checkArgs ((args.map Node.pos).zip actuals) params =
          ⟨argumentComplaints args actuals params, .ok ()⟩ := ih hparams.2
        rw [List.map_cons, List.zip_cons_cons, checkArgs, hrest]
        have hblamed := Ty.not_compatible_iff (t := actual) hparams.1
        cases hfits : actual.compatible param with
        | true =>
          rw [hfits] at hblamed
          simp [argumentComplaints, ← hblamed]
        | false =>
          rw [hfits] at hblamed
          simp [report, argumentComplaints, ← hblamed]

theorem checkExprs_eq
    (hactuals : args.map (fun a => (checkExpr a).outcome) = actuals.map .ok) :
    checkExprs args = ⟨args.flatMap fun a => (checkExpr a).reports, .ok actuals⟩ := by
  induction args generalizing actuals with
  | nil =>
    cases actuals with
    | nil => rfl
    | cons => cases hactuals
  | cons arg args ih =>
    cases actuals with
    | nil => cases hactuals
    | cons actual actuals =>
      rw [List.map_cons, List.map_cons, List.cons.injEq] at hactuals
      have harg : checkExpr arg = ⟨(checkExpr arg).reports, .ok actual⟩ := by
        rw [← hactuals.1]
      rw [checkExprs, harg, ih hactuals.2]
      simp

theorem exists_actuals (h : ∀ a ∈ args, (checkExpr a).Ends) :
    ∃ actuals : List Ty, args.map (fun a => (checkExpr a).outcome) = actuals.map .ok := by
  induction args with
  | nil => exact ⟨[], rfl⟩
  | cons arg args ih =>
    rw [List.forall_mem_cons] at h
    obtain ⟨actual, hactual⟩ := h.1
    obtain ⟨actuals, hactuals⟩ := ih h.2
    exact ⟨actual :: actuals, by rw [List.map_cons, List.map_cons, hactual, hactuals]⟩

/-- The complaint about a call of a function with so many parameters of the types. -/
def callComplaints (pos : Pos) (arity : Nat) (args : List Node) (actuals params : List Ty) :
    List Diagnostic :=
  if args.length = arity then argumentComplaints args actuals params
  else [.ofKind .arityMismatch pos]

theorem checkExpr_call_function {result : Ty}
    (hcallee : callee.type = .ok (.function params (some result)))
    (hparams : ∀ p ∈ params, p ≠ .error)
    (hactuals : args.map (fun a => (checkExpr a).outcome) = actuals.map .ok) :
    checkExpr (.call callee args) =
      ⟨args.flatMap (fun a => (checkExpr a).reports) ++
        callComplaints callee.pos params.length args actuals params, .ok result⟩ := by
  have hlength : args.length = actuals.length := by
    simpa using congrArg List.length hactuals
  rw [checkExpr, hcallee, checkExprs_eq hactuals, Check.ofExcept, callComplaints]
  by_cases harity : args.length = params.length
  · simp [checkCall, checkArgs_eq hparams, ← hlength, harity]
  · simp [checkCall, report, ← hlength, harity]

theorem checkExpr_call_other {t : Ty} (hcallee : callee.type = .ok t) (herror : t ≠ .error)
    (hother : ∀ params result, t ≠ .function params result)
    (hactuals : args.map (fun a => (checkExpr a).outcome) = actuals.map .ok) :
    checkExpr (.call callee args) =
      ⟨args.flatMap (fun a => (checkExpr a).reports) ++ [.ofKind .callOfNonFunction callee.pos],
        .ok .error⟩ := by
  have hblame : checkCall callee.pos t ((args.map Node.pos).zip actuals) =
      blame .callOfNonFunction callee.pos := by
    cases t with
    | error => exact absurd rfl herror
    | function params result => exact absurd rfl (hother params result)
    | _ => rfl
  rw [checkExpr, hcallee, checkExprs_eq hactuals, Check.ofExcept]
  simp [hblame, blame, blameFor, Diagnostic.ofKind]

end Checks

/-- The parts of the declaration of a function. -/
structure FunctionDecl where
  type : Node
  id : Ident
  formals : List Node
  decls : List Node
  stmts : List Node

def FunctionDecl.node (f : FunctionDecl) : Node := .fnDecl f.type f.id f.formals f.decls f.stmts

theorem Node.mem_identsAll_of_formal {program : Program} {type p : Node} {id param : Ident}
    {formals decls stmts : List Node} (hf : .fnDecl type id formals decls stmts ∈ program)
    (hp : p ∈ formals) (hdeclared : p.declared? = some param) :
    param ∈ Node.identsAll program := by
  have hparam := mem_identsAll_of_declared? hp hdeclared
  exact mem_identsAll.mpr ⟨_, hf, by simp [idents, hparam]⟩

namespace NamesClean

variable {program : Program}

private theorem resolves (h : NamesClean program) :
    ∃ scope, Resolves 1 .decls (ScopeStack.enterScope .empty) (Node.eraseAll program) ⟨[scope]⟩
      (resolveProgram program .empty).value [] := by
  have hfault := (namesClean_erase.mpr h).1
  obtain ⟨scope, hresolves⟩ := Resolves.of_resolveProgram hfault
  rw [← h.erase, h.2] at hresolves
  exact ⟨scope, hresolves⟩

private theorem isLaid_start : SymbolTable.IsLaid (ScopeStack.enterScope .empty) :=
  ⟨[], [], Laid.initial⟩

private theorem unbound_eraseAll (program : Program) :
    ∀ d ∈ Node.eraseAll program, d.Unbound := fun d hd _ hid =>
  Node.symbol_of_mem_eraseAll (Node.mem_identsAll.mpr ⟨d, hd, hid⟩)

theorem bound (h : NamesClean program) :
    ∀ id ∈ Node.identsAll (resolveProgram program .empty).value, id.Bound :=
  resolveProgram_bound h.1 h.2

theorem ruled (h : NamesClean program) :
    Ruled (globalSites [] (resolveProgram program .empty).value) [] := by
  have hruled := resolveProgram_ruled (namesClean_erase.mpr h).1
    fun _ hid => Node.symbol_of_mem_eraseAll hid
  rwa [← h.erase, h.2] at hruled

theorem site_accepted (h : NamesClean program) {s : Site} {id : Ident}
    (hs : s ∈ globalSites [] (resolveProgram program .empty).value)
    (hid : s.decl.declared? = some id)
    (hmem : id ∈ Node.identsAll (resolveProgram program .empty).value) :
    s.accepted = true ∧ id.symbol = s.decl.ownSymbol? := by
  obtain ⟨id', hid', haccepted, hsymbol⟩ := h.ruled.symbols s hs
  cases hid.symm.trans hid'
  have hbound := h.bound id hmem
  exact ⟨haccepted.mp hbound, hsymbol hbound⟩

theorem symbol_eq (h : NamesClean program) {d : Node} {id : Ident}
    (hd : d ∈ (resolveProgram program .empty).value) (hid : d.declared? = some id) :
    id.symbol = d.ownSymbol? := by
  obtain ⟨s, hs, rfl⟩ := exists_site_of_mem hd
  exact (h.site_accepted hs hid (Node.mem_identsAll_of_declared? hd hid)).2

private theorem structDecl_of_hasStruct (h : NamesClean program) {s : Site} {earlier : List Node}
    {name : String} (hglobals : s.globals = declared earlier)
    (hearlier : ∀ d ∈ earlier, d ∈ (resolveProgram program .empty).value)
    (hstruct : s.hasStruct name = true) :
    ∃ id decls, .structDecl id decls ∈ (resolveProgram program .empty).value ∧ id.name = name := by
  obtain ⟨struct, hstruct⟩ := Option.isSome_iff_exists.mp hstruct
  obtain ⟨symbol, hsymbol, hstruct⟩ := Option.bind_eq_some_iff.mp hstruct
  rw [hglobals] at hsymbol
  obtain ⟨d, hd, id, hdeclared, hname, hid⟩ := exists_of_symbolIn? hsymbol
  have hmem := hearlier d hd
  cases symbol with
  | structDecl struct fields =>
    have hown := h.symbol_eq hmem hdeclared
    rw [hid] at hown
    obtain ⟨id', decls, rfl⟩ := Node.eq_structDecl_of_ownSymbol? hown.symm
    cases hdeclared
    exact ⟨id, decls, hmem, hname⟩
  | _ => cases hstruct

end NamesClean

/-- No struct of the program has the name of another type. -/
def StructsApart (program : Program) : Prop :=
  ∀ id decls, .structDecl id decls ∈ program → ∀ prim : PrimType, id.name ≠ prim.text

theorem StructsApart.of_eraseAll {program program' : Program} (h : StructsApart program)
    (herase : Node.eraseAll program' = Node.eraseAll program) : StructsApart program' := by
  intro id decls hstruct
  have hmem : Node.structDecl id.erase (Node.eraseAll decls) ∈ Node.eraseAll program := by
    rw [← herase, Node.eraseAll, Node.relabelAll_eq_map]
    exact List.mem_map_of_mem hstruct
  rw [Node.eraseAll, Node.relabelAll_eq_map] at hmem
  obtain ⟨d, hd, hd'⟩ := List.mem_map.mp hmem
  cases d with
  | structDecl id' decls' =>
    rw [Node.relabel, Node.structDecl.injEq] at hd'
    rw [← Ident.name_of_erase hd'.1]
    exact h id' decls' hd
  | _ => cases hd'

theorem Ty.ofName_struct {name : String} (h : ∀ prim : PrimType, name ≠ prim.text) :
    Ty.ofName name = .structVar name := by
  have hint : name ≠ "int" := h .int
  have hbool : name ≠ "bool" := h .bool
  have hvoid : name ≠ "void" := h .void
  simp [ofName, hint, hbool, hvoid]

namespace NamesClean

variable {program : Program}

/-- A parameter has the type that the signature of its function gives it. -/
private theorem formal_type (h : NamesClean program) (hstructs : StructsApart program)
    {type p : Node} {id : Ident} {formals decls stmts : List Node} {name : String}
    (hf : .fnDecl type id formals decls stmts ∈ (resolveProgram program .empty).value)
    (hp : p ∈ formals) (hname : p.typed?.bind (·.1.typeName?) = some name) :
    p.declared?.map Ident.type = some (.ok (Ty.ofName name)) := by
  have hshaped := resolveProgram_value_shaped h.1 _ hf
  simp only [Node.isShapedDecl, Bool.and_eq_true, List.all_eq_true] at hshaped
  obtain ⟨ptype, param, hp', hptype⟩ := Node.exists_of_isStorage (hshaped.1.1.2 p hp)
  have hparts : p.declared? = some param ∧ ptype.typeName? = some name ∧
      p.ownSymbol? = ptype.storageSymbol? := by
    rcases hp' with rfl | rfl <;> exact ⟨rfl, hname, rfl⟩
  obtain ⟨hdeclared, hname, hown⟩ := hparts
  obtain ⟨s, hs, rfl, earlier, hglobals, hearlier⟩ := exists_site_of_formal hf hp
  obtain ⟨haccepted, hsymbol⟩ :=
    h.site_accepted hs hdeclared (Node.mem_identsAll_of_formal hf hp hdeclared)
  rw [hown] at hsymbol
  cases ptype with
  | primType prim =>
    cases hname
    simp [hdeclared, Ident.type, hsymbol, Node.storageSymbol?, Symbol.type]
  | structType struct =>
    cases hname
    have hstruct : s.hasStruct struct.name = true := by
      rcases hp' with hp' | hp' <;> simp_all [Site.accepted, Site.hasType]
    obtain ⟨sid, fields, hdecl, hsid⟩ := h.structDecl_of_hasStruct hglobals hearlier hstruct
    have hapart := hstructs.of_eraseAll (resolveProgram_erase program .empty) sid fields hdecl
    rw [hsid] at hapart
    simp [hdeclared, Ident.type, hsymbol, Node.storageSymbol?, Symbol.type,
      Ty.ofName_struct hapart]
  | _ => cases hptype

/-- What the program declares at top level fills the global scope. -/
private theorem scope_eq (h : NamesClean program) :
    Resolves 1 .decls (ScopeStack.enterScope .empty) (Node.eraseAll program)
      ⟨[scopeOf (declared (resolveProgram program .empty).value)]⟩
      (resolveProgram program .empty).value [] := by
  obtain ⟨scope, hresolves⟩ := h.resolves
  have hscopes : [scope] = [scopeOf ([] ++ declared (resolveProgram program .empty).value)] :=
    hresolves.mirrored rfl (unbound_eraseAll program) rfl
  cases hscopes
  exact hresolves

theorem regular (h : NamesClean program) :
    ∀ id ∈ Node.identsAll (resolveProgram program .empty).value, id.Regular :=
  h.scope_eq.regular isLaid_start
    fun _ hid => Ident.regular_of_none (Node.symbol_of_mem_eraseAll hid)

theorem typable (h : NamesClean program) :
    ∀ id ∈ Node.identsAll (resolveProgram program .empty).value, id.Typable :=
  fun id hid => (h.regular id hid).typable

private theorem eq_of_name_eq (h : NamesClean program) {d d' : Node} {id id' : Ident}
    (hd : d ∈ (resolveProgram program .empty).value)
    (hd' : d' ∈ (resolveProgram program .empty).value) (hid : d.declared? = some id)
    (hid' : d'.declared? = some id') (hname : id.name = id'.name) : d = d' := by
  have hnames : ((declared (resolveProgram program .empty).value).map Ident.name).Nodup := by
    have hnodup := (h.scope_eq.isLaid isLaid_start).nodup _ List.mem_cons_self
    rw [names_scopeOf, List.filter_eq_self.mpr] at hnodup
    · exact hnodup
    · intro id hid
      obtain ⟨d, hd, hid⟩ := List.mem_filterMap.mp hid
      exact h.bound id (Node.mem_identsAll_of_declared? hd hid)
  rw [declared, List.Nodup, List.pairwise_map, List.pairwise_filterMap] at hnames
  have hsymm : Std.Symm fun d d' : Node => ∀ id, d.declared? = some id →
      ∀ id', d'.declared? = some id' → id.name ≠ id'.name :=
    ⟨fun _ _ hne id hid id' hid' => (hne id' hid' id hid).symm⟩
  by_contra hne
  exact hnames.forall hd hd' hne id hid id' hid' hname

/-- In the body of a function its parameters have the types they are declared with. -/
private theorem parameter_uses (h : NamesClean program) {type : Node} {id param : Ident}
    {formals decls stmts : List Node}
    (hf : .fnDecl type id formals decls stmts ∈ (resolveProgram program .empty).value)
    (hparam : param ∈ declared formals) :
    ∀ use ∈ freeUses param.name stmts, use.type = param.type := by
  obtain ⟨p, hp, hdeclared⟩ := List.mem_filterMap.mp hparam
  intro use huse
  have hsymbol := h.scope_eq.parameter_uses rfl (unbound_eraseAll program) isLaid_start hf hparam
    (h.bound param (Node.mem_identsAll_of_formal hf hp hdeclared)) use huse
  rw [Ident.type, hsymbol, Ident.type]

/-- A name that stands for a function is that of its declaration. -/
private theorem function_of_symbol (h : NamesClean program) {callee : Ident}
    {params : List String} {result : String}
    (hmem : callee ∈ Node.identsAll (resolveProgram program .empty).value)
    (hsymbol : callee.symbol = some (.function params result)) :
    ∃ f : FunctionDecl, f.node ∈ (resolveProgram program .empty).value ∧
      f.id.name = callee.name ∧ f.id.symbol = some (.function params result) ∧
      Node.typeNames? f.formals = some params := by
  have hlinked : callee.LinkedIn (scopeOf (declared (resolveProgram program .empty).value)) :=
    h.scope_eq.linked isLaid_start (fun _ hid => Node.symbol_of_mem_eraseAll hid) callee hmem
  have hlookup := hlinked params result hsymbol
  rw [lookup_scopeOf, Option.map_eq_some_iff] at hlookup
  obtain ⟨symbol, hfound, heq⟩ := hlookup
  cases heq
  obtain ⟨d, hd, id, hdeclared, hname, hid⟩ := exists_of_symbolIn? hfound
  have hown := h.symbol_eq hd hdeclared
  rw [hid] at hown
  obtain ⟨type, id', formals, decls, stmts, rfl, hparams, hresult⟩ :=
    Node.eq_fnDecl_of_ownSymbol? hown.symm
  cases hdeclared
  exact ⟨⟨type, id, formals, decls, stmts⟩, hd, hname, hid, hparams⟩

private theorem args_end (h : NamesClean program)
    (hoperators : ∀ n ∈ Node.allNodes program, n.hasKnownOperator = true) {callee : Ident}
    {args : List Node}
    (hcall : .call callee args ∈ Node.allNodes (resolveProgram program .empty).value) :
    ∀ a ∈ args, (checkExpr a).Ends := by
  have hexpr : (Node.call callee args).isExpr = true :=
    Node.isExpr_of_call_mem
      (fun d hd => Node.isShaped_of_isShapedDecl (resolveProgram_value_shaped h.1 d hd)) hcall
  have hknown := Node.forall_of_eraseAll Node.hasKnownOperator_erase
    (resolveProgram_erase program .empty) hoperators
  have hcheckable : (Node.call callee args).Checkable := by
    constructor
    · apply Node.throughout_isProper_of_isExpr hexpr
      exact fun m hm => hknown m (Node.allNodes_of_part hcall m hm)
    · exact fun id hid => h.typable id (Node.idents_of_part hcall hid)
  exact fun a ha => checkExpr_ends a (Node.isExpr_child hexpr ha) (hcheckable.child ha)

end NamesClean

/-- A call is checked by the types that a function is declared with. -/
structure CheckedBy (f : FunctionDecl) (params : List Ty) (result : Ty) (callee : Ident)
    (args : List Node) (actuals : List Ty) : Prop where
  /-- the parameters have the types by their own symbols -/
  params_eq : f.formals.map (fun p => p.declared?.map Ident.type) = params.map fun t => some (.ok t)
  /-- and wherever the body uses them -/
  uses : ∀ param ∈ declared f.formals, ∀ use ∈ freeUses param.name f.stmts, use.type = param.type
  /-- the body is checked with the result type in force -/
  returns : ∀ expected, (checkDecl expected f.node).check = checkFunction result f.id f.stmts
  call_eq : checkExpr (.call callee args) =
    ⟨args.flatMap (fun a => (checkExpr a).reports) ++
      callComplaints callee.pos f.formals.length args actuals params, .ok result⟩

/-- In a program whose names have been bound without a complaint, that has no struct of the name of
another type and no unknown operator, the arguments of every call have types. A call of a function
is a call of the one top-level declaration of its name, and is checked by the types this declaration
shows inside and outside the function. A call of anything else is blamed and is an error. -/
theorem calls_checked_against_declaration {program : Program} (hclean : NamesClean program)
    (hstructs : StructsApart program)
    (hoperators : ∀ n ∈ Node.allNodes program, n.hasKnownOperator = true) {callee : Ident}
    {args : List Node}
    (hcall : .call callee args ∈ Node.allNodes (resolveProgram program .empty).value) :
    ∃ actuals : List Ty, args.map (fun a => (checkExpr a).outcome) = actuals.map .ok ∧
      (∀ params result, callee.symbol = some (.function params result) →
        ∃ f : FunctionDecl, f.node ∈ (resolveProgram program .empty).value ∧
          f.id.name = callee.name ∧ f.id.symbol = callee.symbol ∧
          (∀ d ∈ (resolveProgram program .empty).value, ∀ id, d.declared? = some id →
            id.name = callee.name → d = f.node) ∧
          CheckedBy f (params.map Ty.ofName) (Ty.ofName result) callee args actuals) ∧
      ((∀ params result, callee.symbol ≠ some (.function params result)) →
        checkExpr (.call callee args) =
          ⟨args.flatMap (fun a => (checkExpr a).reports) ++
            [.ofKind .callOfNonFunction callee.pos], .ok .error⟩) := by
  have hmem : callee ∈ Node.identsAll (resolveProgram program .empty).value :=
    Node.idents_of_part hcall (by simp [Node.idents])
  obtain ⟨actuals, hactuals⟩ := exists_actuals (hclean.args_end hoperators hcall)
  refine ⟨actuals, hactuals, ?_, ?_⟩
  · intro params result hsymbol
    obtain ⟨f, hf, hname, hid, hparams⟩ := hclean.function_of_symbol hmem hsymbol
    refine ⟨f, hf, hname, hid.trans hsymbol.symm, ?_, ?_⟩
    · intro d hd id hdeclared hid
      exact hclean.eq_of_name_eq hd hf hdeclared rfl (hid.trans hname.symm)
    · have hformals := Node.map_eq_of_typeNames? hparams fun p hp name hname =>
        hclean.formal_type hstructs hf hp hname
      have hcallee : callee.Denotes (.function (params.map Ty.ofName) (some (Ty.ofName result))) :=
        ⟨_, hsymbol, rfl⟩
      have hlength : (params.map Ty.ofName).length = f.formals.length := by
        simpa using (congrArg List.length hformals).symm
      have hreturn : returnType? f.type f.id = some (Ty.ofName result) := by
        rw [returnType?, hid]
      have hcheck := checkExpr_call_function hcallee.type_eq hcallee.signature.1 hactuals
      rw [hlength] at hcheck
      exact ⟨by rw [hformals, List.map_map]; rfl, fun param hparam => hclean.parameter_uses hf hparam,
        fun expected => checkDecl_function expected _ _ _ hreturn, hcheck⟩
  · intro hother
    obtain ⟨t, ht⟩ := hclean.typable callee hmem
    have hcallee := Ident.denotes_of_type (hclean.bound callee hmem) ht
    apply checkExpr_call_other ht hcallee.ne_error _ hactuals
    rintro params result rfl
    obtain ⟨s, hsymbol, hs⟩ := hcallee
    obtain ⟨names, name, rfl⟩ := Symbol.eq_function_of_type hs
    exact hother names name hsymbol

/-- A function of a number and a struct calls itself with its arguments exchanged, and the second
of them is a call with an argument too few. -/
def exchangingProgram : Program :=
  [.structDecl ⟨"P", ⟨1, 8⟩, none⟩ [.varDecl (.primType .int) ⟨"x", ⟨1, 16⟩, none⟩],
    .fnDecl (.primType .int) ⟨"f", ⟨2, 5⟩, none⟩
      [.formalDecl (.primType .int) ⟨"n", ⟨2, 11⟩, none⟩,
        .formalDecl (.structType ⟨"P", ⟨2, 21⟩, none⟩) ⟨"p", ⟨2, 23⟩, none⟩] []
      [.returnStmt (.call ⟨"f", ⟨3, 10⟩, none⟩
        [.ident ⟨"p", ⟨3, 12⟩, none⟩,
          .call ⟨"f", ⟨3, 15⟩, none⟩ [.ident ⟨"n", ⟨3, 17⟩, none⟩]]) ⟨3, 3⟩]]

def exchangingCallee : Ident := ⟨"f", ⟨3, 10⟩, some (.function ["int", "P"] "int")⟩

def exchangedArgs : List Node :=
  [.ident ⟨"p", ⟨3, 12⟩, some (.structVar "P")⟩,
    .call ⟨"f", ⟨3, 15⟩, some (.function ["int", "P"] "int")⟩
      [.ident ⟨"n", ⟨3, 17⟩, some (.var "int")⟩]]

theorem exchangingProgram_call_checked :
    NamesClean exchangingProgram ∧ StructsApart exchangingProgram ∧
      (∀ n ∈ Node.allNodes exchangingProgram, n.hasKnownOperator = true) ∧
      .call exchangingCallee exchangedArgs ∈
        Node.allNodes (resolveProgram exchangingProgram .empty).value ∧
      (∃ f : FunctionDecl, f.node ∈ (resolveProgram exchangingProgram .empty).value ∧
        f.id.name = "f" ∧ CheckedBy f [.int, .structVar "P"] .int exchangingCallee exchangedArgs
          [.structVar "P", .int]) ∧
      checkExpr (.call exchangingCallee exchangedArgs) =
        ⟨[.ofKind .arityMismatch ⟨3, 15⟩, .ofKind .argumentMismatch ⟨3, 12⟩,
          .ofKind .argumentMismatch ⟨3, 15⟩], .ok .int⟩ := by
  have hclean : NamesClean exchangingProgram := ⟨rfl, rfl⟩
  have hstructs : StructsApart exchangingProgram := by
    intro id decls hstruct prim
    simp only [exchangingProgram, List.mem_cons, Node.structDecl.injEq, reduceCtorEq, or_false,
      List.not_mem_nil] at hstruct
    cases prim <;> simp [hstruct.1, PrimType.text]
  have hoperators : ∀ n ∈ Node.allNodes exchangingProgram, n.hasKnownOperator = true := by decide
  have hcall : .call exchangingCallee exchangedArgs ∈
      Node.allNodes (resolveProgram exchangingProgram .empty).value :=
    List.mem_of_getElem? (i := 10) rfl
  obtain ⟨actuals, hactuals, hfunction, -⟩ :=
    calls_checked_against_declaration hclean hstructs hoperators hcall
  obtain ⟨f, hf, hname, -, -, hchecked⟩ := hfunction ["int", "P"] "int" rfl
  have hmap : ([.structVar "P", .int] : List Ty).map (fun t => (.ok t : Except Fault Ty)) =
      actuals.map .ok := hactuals
  rw [← (List.map_inj_right fun _ _ => Except.ok.inj).mp hmap] at hchecked
  exact ⟨hclean, hstructs, hoperators, hcall, ⟨f, hf, hname, hchecked⟩, rfl⟩

end Sema
