import Mathlib.Data.List.Perm.Subperm
import Sema.Proofs.Resolution.Binding
import Sema.Proofs.Resolution.Progress

/-!
# Who is blamed for a name

Every report of name analysis stands at an identifier of the tree. No identifier is blamed twice,
although some are looked at twice: the end of an access path is bound as a name and then judged as
the owner of a field. Where something is reported, an identifier is left without a symbol.
-/

namespace Sema

/-- The reports stand at identifiers of the list, at most one at each. -/
def Blames (rs : List Diagnostic) (ids : List Ident) : Prop :=
  (rs.map Diagnostic.pos).Subperm (ids.map Ident.pos)

section Blames

variable {rs rs' : List Diagnostic} {ids ids' : List Ident}

theorem Blames.nil (ids : List Ident) : Blames [] ids := List.nil_subperm

theorem Blames.one (kind : DiagnosticKind) (id : Ident) : Blames [.ofKind kind id.pos] [id] :=
  List.Subperm.refl _

theorem Blames.append (h : Blames rs ids) (h' : Blames rs' ids') :
    Blames (rs ++ rs') (ids ++ ids') := by
  rw [Blames, List.map_append, List.map_append]
  exact List.Subperm.append h h'

theorem Blames.of_perm (h : Blames rs ids) (hperm : ids.Perm ids') : Blames rs ids' :=
  h.trans (hperm.map Ident.pos).subperm

theorem Blames.nodup (h : Blames rs ids) (hids : (ids.map Ident.pos).Nodup) :
    (rs.map Diagnostic.pos).Nodup := by
  obtain ⟨blamed, hperm, hsub⟩ := h
  exact hperm.nodup_iff.mp (hids.sublist hsub)

theorem Blames.exists_ident (h : Blames rs ids) {d : Diagnostic} (hd : d ∈ rs) :
    ∃ id ∈ ids, id.pos = d.pos :=
  List.mem_map.mp (h.subset (List.mem_map_of_mem hd))

end Blames

section Steps

variable {t t' : SymbolTable} {id id' : Ident} {rs : List Diagnostic}

private theorem UseBinds.blames (h : UseBinds t id id' rs) : Blames rs [id] := by
  cases h with
  | known _ => exact .nil _
  | unknown _ => exact .one _ id

private theorem StructBinds.blames {d : Option StructDef} (h : StructBinds t id id' d rs) :
    Blames rs [id] := by
  cases h with
  | known _ => exact .nil _
  | unknown _ => exact .one _ id

private theorem Declares.blames {s : Symbol} (h : Declares t id s t' id' rs) : Blames rs [id] := by
  cases h with
  | fresh _ => exact .nil _
  | taken _ => exact .one _ id

private theorem StorageDeclares.blames {type type' : Node}
    (h : StorageDeclares t id type t' type' id' rs) : Blames rs (type.idents ++ [id]) := by
  cases h with
  | void => exact .one _ id
  | scalar _ h => exact h.blames
  | struct hname h => exact hname.blames.append h.blames
  | undefined hname =>
    have happend := hname.blames.append (Blames.nil [id])
    rwa [List.append_nil] at happend

private theorem ResultBinds.blames {type type' : Node} (h : ResultBinds t type type' rs) :
    Blames rs type.idents := by
  cases h with
  | struct h => exact h.blames
  | other _ => exact .nil _

end Steps

private theorem Node.Unbound.children {n : Node} (h : n.Unbound) : ∀ m ∈ n.children, m.Unbound :=
  fun _ hm => h.child hm

/-- What the analysis of nodes reports stands at their identifiers. Where the end of a path has been
bound it has not been blamed, so there is room for one more report at it. -/
structure BlamesOnce (ns ns' : List Node) (rs : List Diagnostic) : Prop where
  idents : Blames rs (Node.identsAll ns)
  owner : ∀ n n' id, ns = [n] → ns' = [n'] → n'.pathEnd? = some id → id.Bound →
    ∀ kind, Blames (rs ++ [.ofKind kind id.pos]) n.idents

private theorem BlamesOnce.of_idents {n n' : Node} {rs : List Diagnostic} (h : Blames rs n.idents)
    (hpath : n'.pathEnd? = none) : BlamesOnce [n] [n'] rs where
  idents := by rwa [Node.identsAll_singleton]
  owner := by
    rintro _ _ id hn hn' hid
    cases hn'
    rw [hpath] at hid
    cases hid

/-- A field is blamed, or the identifier before it, or neither. -/
private theorem BlamesOnce.dot {t : SymbolTable} {base base' : Node} {owner field field' : Ident}
    {rs₁ rs₂ : List Diagnostic} (hbase : BlamesOnce [base] [base'] rs₁)
    (howner : base'.pathEnd? = some owner) (hfield : FieldBinds t owner field field' rs₂)
    (hunbound : field.symbol = none) :
    BlamesOnce [.dot base field] [.dot base' field'] (rs₁ ++ rs₂) := by
  have hidents : Blames rs₁ base.idents := by
    have hidents := hbase.idents
    rwa [Node.identsAll_singleton] at hidents
  have hnone {rs : List Diagnostic} : Blames rs base.idents →
      Blames (rs ++ []) (base.idents ++ [field]) := fun h => h.append (.nil _)
  -- a field that has not been found carries no symbol, and nothing is to be shown of its end
  have hleft {rs : List Diagnostic} (h : Blames rs (base.idents ++ [field])) :
      BlamesOnce [.dot base field] [.dot base' field] rs := by
    refine ⟨by rwa [Node.identsAll_singleton], ?_⟩
    rintro _ _ id hn hn' hid hbound
    cases hn'
    cases hid
    rw [Ident.Bound, hunbound] at hbound
    cases hbound
  cases hfield with
  | unbound _ => exact hleft (hnone hidents)
  | known _ _ _ =>
    refine ⟨by simpa [Node.idents] using hnone hidents, ?_⟩
    rintro _ _ id hn hn' hid - kind
    cases hn
    cases hn'
    cases hid
    rw [List.append_nil]
    exact hidents.append (.one kind field)
  | unknown _ _ _ => exact hleft (hidents.append (.one _ field))
  | nonStruct hsymbol _ =>
    have hbound : owner.Bound := by simp [Ident.Bound, hsymbol]
    have hblamed := hbase.owner base base' owner rfl rfl howner hbound .dotAccessOfNonStruct
    have hwider := hnone hblamed
    rw [List.append_nil] at hwider
    exact hleft hwider

theorem Resolves.blamesOnce {global : Nat} {p : Phrase} {t t' : SymbolTable} {ns ns' : List Node}
    {rs : List Diagnostic} (h : Resolves global p t ns t' ns' rs)
    (hunbound : ∀ n ∈ ns, n.Unbound) : BlamesOnce ns ns' rs := by
  induction h with
  | nil => exact ⟨.nil _, by simp⟩
  | @cons p t t₁ t₂ n n' ns ns' rs₁ rs₂ _ htail ihhead ihtail =>
    rw [List.forall_mem_cons] at hunbound
    have hhead := ihhead (List.forall_mem_singleton.mpr hunbound.1)
    have hidents := hhead.idents.append (ihtail hunbound.2).idents
    rw [Node.identsAll_singleton] at hidents
    refine ⟨hidents, ?_⟩
    rintro m m' id hm hm' hid hbound kind
    cases hm
    cases hm'
    cases htail
    rw [List.append_nil]
    exact hhead.owner n n' id rfl rfl hid hbound kind
  | lit => exact .of_idents (.nil _) rfl
  | @ident t id id' rs h =>
    refine ⟨h.blames, ?_⟩
    rintro _ _ owner hn hn' hid hbound kind
    cases hn
    cases hn'
    cases hid
    have hunbound := List.forall_mem_singleton.mp hunbound id (by simp [Node.idents])
    cases h with
    | known _ => exact .one kind id
    | unknown _ =>
      rw [Ident.Bound, hunbound] at hbound
      cases hbound
  | @dot t base base' owner' field field' rs₁ rs₂ _ _ howner hfield ih =>
    rw [List.forall_mem_singleton] at hunbound
    have hbase := ih (List.forall_mem_singleton.mpr (hunbound.child (by simp [Node.children])))
    exact hbase.dot howner hfield (hunbound field (by simp [Node.idents]))
  | assign _ ih | binary _ ih =>
    rw [List.forall_mem_singleton] at hunbound
    have hsides := (ih hunbound.children).idents
    rw [Node.identsAll, Node.identsAll_singleton] at hsides
    exact .of_idents hsides rfl
  | call hcallee _ ih =>
    rw [List.forall_mem_singleton] at hunbound
    have hargs := (ih hunbound.children).idents
    exact .of_idents (hcallee.blames.append hargs) rfl
  | unary _ ih | assignStmt _ ih | stepStmt _ ih | readStmt _ ih | writeStmt _ ih | callStmt _ ih
  | returnStmt _ ih =>
    rw [List.forall_mem_singleton] at hunbound
    have he := (ih hunbound.children).idents
    rw [Node.identsAll_singleton] at he
    exact .of_idents he rfl
  | bareReturn => exact .of_idents (.nil _) rfl
  | ifStmt _ _ _ ihcond ihdecls ihstmts | whileStmt _ _ _ ihcond ihdecls ihstmts =>
    rw [List.forall_mem_singleton] at hunbound
    have hchild := hunbound.children
    simp only [Node.children, List.forall_mem_cons, List.forall_mem_append] at hchild
    have hcond := (ihcond (List.forall_mem_singleton.mpr hchild.1)).idents
    rw [Node.identsAll_singleton] at hcond
    have hblock := (ihdecls hchild.2.1).idents.append (ihstmts hchild.2.2).idents
    have hall := hcond.append hblock
    rw [← List.append_assoc] at hall
    exact .of_idents (by simpa [Node.idents] using hall) rfl
  | ifElseStmt _ _ _ _ _ ihcond ihdecls ihstmts ihdecls' ihstmts' =>
    rw [List.forall_mem_singleton] at hunbound
    have hchild := hunbound.children
    simp only [Node.children, List.forall_mem_cons, List.forall_mem_append] at hchild
    obtain ⟨hcond, hds, hss, hes, hfs⟩ := hchild
    have hcond := (ihcond (List.forall_mem_singleton.mpr hcond)).idents
    rw [Node.identsAll_singleton] at hcond
    have hthen := (ihdecls hds).idents.append (ihstmts hss).idents
    have helse := (ihdecls' hes).idents.append (ihstmts' hfs).idents
    have hall := hcond.append (hthen.append helse)
    exact .of_idents (by simpa [Node.idents] using hall) rfl
  | varDecl h | formalDecl h => exact .of_idents h.blames rfl
  | fnDecl _ htype _ _ hid _ _ _ ihformals ihdecls ihstmts =>
    rw [List.forall_mem_singleton] at hunbound
    have hchild := hunbound.children
    simp only [Node.children, List.forall_mem_cons, List.forall_mem_append] at hchild
    obtain ⟨-, hfs, hds, hss⟩ := hchild
    have hbody := (ihformals hfs).idents.append
      ((ihdecls hds).idents.append (ihstmts hss).idents)
    have hall := htype.blames.append (hid.blames.append hbody)
    exact .of_idents (by simpa [Node.idents] using hall) rfl
  | @structDecl t t' fields id id' decls decls' rs₁ rs₂ _ _ hid ih =>
    rw [List.forall_mem_singleton] at hunbound
    have hall := (ih hunbound.children).idents.append hid.blames
    -- the name of a struct is declared after its fields, though it is written before them
    exact .of_idents (hall.of_perm List.perm_append_comm) rfl

section Silent

variable {t t' : SymbolTable} {id id' : Ident} {rs : List Diagnostic}

private theorem UseBinds.silent (h : UseBinds t id id' rs) (hid : id.symbol = none)
    (hbound : id'.Bound) : rs = [] := by
  cases h with
  | known _ => rfl
  | unknown _ => simp [Ident.Bound, hid] at hbound

private theorem StructBinds.silent {d : Option StructDef} (h : StructBinds t id id' d rs)
    (hid : id.symbol = none) (hbound : id'.Bound) : rs = [] := by
  cases h with
  | known _ => rfl
  | unknown _ => simp [Ident.Bound, hid] at hbound

private theorem FieldBinds.silent {owner : Ident} (h : FieldBinds t owner id id' rs)
    (hid : id.symbol = none) (hbound : id'.Bound) : rs = [] := by
  cases h with
  | known _ _ _ => rfl
  | unbound _ | unknown _ _ _ | nonStruct _ _ => simp [Ident.Bound, hid] at hbound

private theorem Declares.silent {s : Symbol} (h : Declares t id s t' id' rs)
    (hid : id.symbol = none) (hbound : id'.Bound) : rs = [] := by
  cases h with
  | fresh _ => rfl
  | taken _ => simp [Ident.Bound, hid] at hbound

private theorem StorageDeclares.silent {type type' : Node}
    (h : StorageDeclares t id type t' type' id' rs) (htype : type.Unbound) (hid : id.symbol = none)
    (hnames : ∀ name ∈ type'.idents, name.Bound) (hbound : id'.Bound) : rs = [] := by
  cases h with
  | void => simp [Ident.Bound, hid] at hbound
  | scalar _ h => exact h.silent hid hbound
  | struct hname h =>
    have hname := hname.silent (htype _ (by simp [Node.idents])) (hnames _ (by simp [Node.idents]))
    rw [hname, h.silent hid hbound, List.append_nil]
  | undefined _ => simp [Ident.Bound, hid] at hbound

private theorem ResultBinds.silent {type type' : Node} (h : ResultBinds t type type' rs)
    (htype : type.Unbound) (hnames : ∀ name ∈ type'.idents, name.Bound) : rs = [] := by
  cases h with
  | struct h => exact h.silent (htype _ (by simp [Node.idents])) (hnames _ (by simp [Node.idents]))
  | other _ => rfl

/-- Where every identifier ends up with a symbol, nothing was reported. -/
theorem Resolves.silent {global : Nat} {p : Phrase} {ns ns' : List Node}
    (h : Resolves global p t ns t' ns' rs) (hunbound : ∀ n ∈ ns, n.Unbound)
    (hbound : ∀ id ∈ Node.identsAll ns', id.Bound) : rs = [] := by
  induction h with
  | nil | lit | bareReturn => rfl
  | cons _ _ ihhead ihtail =>
    rw [List.forall_mem_cons] at hunbound
    simp only [Node.identsAll, List.forall_mem_append] at hbound
    rw [ihhead (List.forall_mem_singleton.mpr hunbound.1) (by simpa using hbound.1),
      ihtail hunbound.2 hbound.2, List.append_nil]
  | @ident t id id' rs h =>
    rw [List.forall_mem_singleton] at hunbound
    exact h.silent (hunbound id (by simp [Node.idents])) (hbound id' (by simp [Node.idents]))
  | @dot t base base' owner' field field' rs₁ rs₂ _ _ _ hfield ih =>
    rw [List.forall_mem_singleton] at hunbound
    simp only [Node.identsAll_singleton, Node.idents, List.forall_mem_append,
      List.forall_mem_singleton] at hbound ih
    rw [ih (hunbound.child (by simp [Node.children])) hbound.1,
      hfield.silent (hunbound field (by simp [Node.idents])) hbound.2, List.append_nil]
  | @call t callee callee' args args' rs₁ rs₂ hcallee _ ih =>
    rw [List.forall_mem_singleton] at hunbound
    simp only [Node.identsAll_singleton, Node.idents, List.forall_mem_cons] at hbound
    rw [hcallee.silent (hunbound callee (by simp [Node.idents])) hbound.1,
      ih hunbound.children hbound.2, List.append_nil]
  | ifStmt _ _ _ ihcond ihdecls ihstmts | whileStmt _ _ _ ihcond ihdecls ihstmts =>
    rw [List.forall_mem_singleton] at hunbound
    have hchild := hunbound.children
    simp only [Node.children, List.forall_mem_cons, List.forall_mem_append] at hchild
    simp only [Node.identsAll_singleton, Node.idents, List.forall_mem_append,
      List.forall_mem_singleton] at hbound ihcond
    rw [ihcond hchild.1 hbound.1.1, ihdecls hchild.2.1 hbound.1.2, ihstmts hchild.2.2 hbound.2]
    rfl
  | ifElseStmt _ _ _ _ _ ihcond ihdecls ihstmts ihdecls' ihstmts' =>
    rw [List.forall_mem_singleton] at hunbound
    have hchild := hunbound.children
    simp only [Node.children, List.forall_mem_cons, List.forall_mem_append] at hchild
    obtain ⟨hcond, hds, hss, hes, hfs⟩ := hchild
    simp only [Node.identsAll_singleton, Node.idents, List.forall_mem_append,
      List.forall_mem_singleton] at hbound ihcond
    obtain ⟨⟨⟨⟨hcond', hds'⟩, hss'⟩, hes'⟩, hfs'⟩ := hbound
    rw [ihcond hcond hcond', ihdecls hds hds', ihstmts hss hss', ihdecls' hes hes',
      ihstmts' hfs hfs']
    rfl
  | @varDecl t t' type type' id id' rs h | @formalDecl t t' type type' id id' rs h =>
    rw [List.forall_mem_singleton] at hunbound
    simp only [Node.identsAll_singleton, Node.idents, List.forall_mem_append,
      List.forall_mem_singleton] at hbound
    exact h.silent (hunbound.child (by simp [Node.children])) (hunbound id (by simp [Node.idents]))
      hbound.1 hbound.2
  | @fnDecl t t₁ t₂ scope type type' id id' formals formals' decls decls' stmts stmts' params result
      rs₁ rs₂ rs₃ rs₄ rs₅ _ htype _ _ hid _ _ _ ihformals ihdecls ihstmts =>
    rw [List.forall_mem_singleton] at hunbound
    have hchild := hunbound.children
    simp only [Node.children, List.forall_mem_cons, List.forall_mem_append] at hchild
    obtain ⟨htypes, hfs, hds, hss⟩ := hchild
    simp only [Node.identsAll_singleton, Node.idents, List.forall_mem_append,
      List.forall_mem_cons] at hbound
    obtain ⟨htypes', hname, ⟨hfs', hds'⟩, hss'⟩ := hbound
    rw [htype.silent htypes htypes', hid.silent (hunbound id (by simp [Node.idents])) hname,
      ihformals hfs hfs', ihdecls hds hds', ihstmts hss hss']
    rfl
  | @structDecl t t' fields id id' decls decls' rs₁ rs₂ _ _ hid ih =>
    rw [List.forall_mem_singleton] at hunbound
    simp only [Node.identsAll_singleton, Node.idents, List.forall_mem_cons] at hbound
    rw [ih hunbound.children hbound.2,
      hid.silent (hunbound id (by simp [Node.idents])) hbound.1, List.append_nil]
  | _ =>
    rename_i ih
    rw [List.forall_mem_singleton] at hunbound
    exact ih hunbound.children (by simpa [Node.identsAll, Node.idents] using hbound)

end Silent

/-- In a program that conforms to the grammar, carries no symbols and has each identifier at a place
of its own, no two reports of name analysis stand at one place, and each stands at an identifier.
Nothing is reported exactly if every identifier has a symbol in the end. -/
theorem name_failures_reported_once {program : Program} (hgrammar : conforms program = true)
    (hunbound : ∀ id ∈ Node.identsAll program, id.symbol = none)
    (hplaces : ((Node.identsAll program).map Ident.pos).Nodup) :
    (resolveProgram program .empty).stage.fault = none ∧
    ((resolveProgram program .empty).reports.map Diagnostic.pos).Nodup ∧
    (∀ d ∈ (resolveProgram program .empty).reports,
      ∃ id ∈ Node.identsAll program, id.pos = d.pos) ∧
    ((resolveProgram program .empty).reports = [] ↔
      ∀ id ∈ Node.identsAll (resolveProgram program .empty).value, id.Bound) := by
  have hfault := resolveProgram_returns hgrammar hunbound
  obtain ⟨scope, h⟩ := Resolves.of_resolveProgram hfault
  have hnodes : ∀ d ∈ program, d.Unbound := fun d hd id hid =>
    hunbound id (Node.mem_identsAll.mpr ⟨d, hd, hid⟩)
  have hblames := (h.blamesOnce hnodes).idents
  exact ⟨hfault, hblames.nodup hplaces, fun d hd => hblames.exists_ident hd,
    h.bound, h.silent hnodes⟩

/-- A path that ends in a scalar and goes on twice, a path from an unknown name, a struct declared
twice with a field of an unknown struct, and a void parameter of a name that is taken. -/
def blamedProgram : Program :=
  [.structDecl ⟨"P", ⟨1, 8⟩, none⟩ [.varDecl (.primType .int) ⟨"x", ⟨1, 16⟩, none⟩],
    .structDecl ⟨"P", ⟨2, 8⟩, none⟩
      [.varDecl (.structType ⟨"Q", ⟨2, 19⟩, none⟩) ⟨"q", ⟨2, 21⟩, none⟩],
    .fnDecl (.structType ⟨"Q", ⟨3, 8⟩, none⟩) ⟨"f", ⟨3, 10⟩, none⟩
      [.formalDecl (.structType ⟨"P", ⟨3, 19⟩, none⟩) ⟨"p", ⟨3, 21⟩, none⟩,
        .formalDecl (.primType .void) ⟨"p", ⟨3, 29⟩, none⟩] []
      [.writeStmt (.dot (.dot (.dot (.ident ⟨"p", ⟨4, 11⟩, none⟩) ⟨"x", ⟨4, 13⟩, none⟩)
          ⟨"y", ⟨4, 15⟩, none⟩) ⟨"z", ⟨4, 17⟩, none⟩),
        .writeStmt (.dot (.dot (.ident ⟨"r", ⟨5, 11⟩, none⟩) ⟨"x", ⟨5, 13⟩, none⟩)
          ⟨"y", ⟨5, 15⟩, none⟩)]]

theorem blamedProgram_reported_once :
    conforms blamedProgram = true ∧
      (∀ id ∈ Node.identsAll blamedProgram, id.symbol = none) ∧
      ((Node.identsAll blamedProgram).map Ident.pos).Nodup ∧
      (resolveProgram blamedProgram .empty).reports.map Diagnostic.pos =
        [⟨2, 19⟩, ⟨2, 8⟩, ⟨3, 8⟩, ⟨3, 29⟩, ⟨4, 13⟩, ⟨5, 11⟩] ∧
      ((resolveProgram blamedProgram .empty).reports.map Diagnostic.pos).Nodup := by
  have hgrammar : conforms blamedProgram = true := by decide
  have hunbound : ∀ id ∈ Node.identsAll blamedProgram, id.symbol = none := by decide
  have hplaces : ((Node.identsAll blamedProgram).map Ident.pos).Nodup := by decide
  obtain ⟨-, hnodup, -⟩ := name_failures_reported_once hgrammar hunbound hplaces
  exact ⟨hgrammar, hunbound, hplaces, rfl, hnodup⟩

end Sema
