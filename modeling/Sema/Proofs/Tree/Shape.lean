import Sema.Proofs.Tree.Grammar

/-!
# Well-shaped trees

Every slot holds a node of its family, and functions and structs stand at the top only. A name may
be blank, and a variable may stand for a parameter or the other way round: such a tree has not been
read from a text, but it can be analysed.
-/

namespace Sema

namespace Node

/-- A variable or a parameter of some type. -/
def isStorage : Node → Bool
  | .varDecl type _ | .formalDecl type _ => type.isType
  | _ => false

theorem exists_of_isStorage {d : Node} (h : d.isStorage = true) :
    ∃ type id, (d = .varDecl type id ∨ d = .formalDecl type id) ∧ type.isType = true := by
  cases d with
  | varDecl type id => exact ⟨type, id, .inl rfl, h⟩
  | formalDecl type id => exact ⟨type, id, .inr rfl, h⟩
  | _ => cases h

mutual

def isShapedStmt : Node → Bool
  | .assignStmt e | .stepStmt _ e | .readStmt e | .writeStmt e | .callStmt e => e.isExpr
  | .ifStmt cond decls stmts | .whileStmt cond decls stmts =>
    cond.isExpr && decls.all isStorage && areShapedStmts stmts
  | .ifElseStmt cond ds ss ds' ss' =>
    cond.isExpr && ds.all isStorage && areShapedStmts ss && ds'.all isStorage && areShapedStmts ss'
  | .returnStmt .missing _ => true
  | .returnStmt value _ => value.isExpr
  | _ => false

def areShapedStmts : List Node → Bool
  | [] => true
  | s :: ss => s.isShapedStmt && areShapedStmts ss

end

def isShapedDecl : Node → Bool
  | .varDecl type _ | .formalDecl type _ => type.isType
  | .fnDecl type _ formals decls stmts =>
    type.isType && formals.all isStorage && decls.all isStorage && areShapedStmts stmts
  | .structDecl _ decls => decls.all isStorage
  | _ => false

/-- What the node declares, if it declares anything, has a name. -/
def isNamed : Node → Bool
  | .varDecl _ id | .formalDecl _ id | .fnDecl _ id _ _ _ | .structDecl id _ => id.name != ""
  | _ => true

/-- An expression that something is done by: an assignment, a call or an operation. -/
def isCompound : Node → Bool
  | .assign _ _ | .call _ _ | .unary _ _ | .binary _ _ _ => true
  | _ => false

/-- The node belongs to a family, and so do all nodes below it that are there. -/
def isShaped (n : Node) : Bool := n.isType || n.isExpr || n.isShapedStmt || n.isShapedDecl

theorem areShapedStmts_iff {ss : List Node} :
    areShapedStmts ss = true ↔ ∀ s ∈ ss, s.isShapedStmt = true := by
  induction ss with
  | nil => simp [areShapedStmts]
  | cons s ss ih => simp [areShapedStmts, ih]

theorem isShapedStmt_return {value : Node} {pos : Pos} (h : value ≠ .missing) :
    (Node.returnStmt value pos).isShapedStmt = value.isExpr := by
  rw [isShapedStmt]
  exact h

theorem isShaped_of_isExpr {n : Node} (h : n.isExpr = true) : n.isShaped = true := by
  simp [isShaped, h]

theorem isShaped_of_isType {n : Node} (h : n.isType = true) : n.isShaped = true := by
  simp [isShaped, h]

theorem isShaped_of_isShapedStmt {n : Node} (h : n.isShapedStmt = true) : n.isShaped = true := by
  simp [isShaped, h]

theorem isShaped_of_isShapedDecl {n : Node} (h : n.isShapedDecl = true) : n.isShaped = true := by
  simp [isShaped, h]

theorem isShaped_of_isStorage {d : Node} (h : d.isStorage = true) : d.isShaped = true := by
  cases d with
  | varDecl type id | formalDecl type id => exact isShaped_of_isShapedDecl h
  | _ => cases h

/-- A shaped node has shaped parts, but for the value of a return that has none. -/
theorem isShaped_child {n m : Node} (h : n.isShaped = true) (hm : m ∈ n.children) :
    m.isShaped = true ∨ m = .missing := by
  cases n with
  | dot | assign | call | unary | binary =>
    simp only [isShaped, isType, isShapedStmt, isShapedDecl, Bool.or_false, Bool.false_or] at h
    exact .inl (isShaped_of_isExpr (isExpr_child h hm))
  | varDecl type id | formalDecl type id =>
    rw [List.mem_singleton.mp hm]
    simp only [isShaped, isType, isExpr, isShapedStmt, isShapedDecl, Bool.false_or] at h
    exact .inl (isShaped_of_isType h)
  | fnDecl type id formals decls stmts =>
    simp only [isShaped, isType, isExpr, isShapedStmt, isShapedDecl, Bool.false_or,
      Bool.and_eq_true, List.all_eq_true, areShapedStmts_iff] at h
    simp only [children, List.mem_cons, List.mem_append] at hm
    rcases hm with rfl | hm | hm | hm
    · exact .inl (isShaped_of_isType h.1.1.1)
    · exact .inl (isShaped_of_isStorage (h.1.1.2 m hm))
    · exact .inl (isShaped_of_isStorage (h.1.2 m hm))
    · exact .inl (isShaped_of_isShapedStmt (h.2 m hm))
  | structDecl id decls =>
    simp only [isShaped, isType, isExpr, isShapedStmt, isShapedDecl, Bool.false_or,
      List.all_eq_true] at h
    exact .inl (isShaped_of_isStorage (h m hm))
  | assignStmt e | stepStmt op e | readStmt e | writeStmt e | callStmt e =>
    rw [List.mem_singleton.mp hm]
    simp only [isShaped, isType, isExpr, isShapedStmt, isShapedDecl, Bool.or_false,
      Bool.false_or] at h
    exact .inl (isShaped_of_isExpr h)
  | ifStmt cond decls stmts | whileStmt cond decls stmts =>
    simp only [isShaped, isType, isExpr, isShapedStmt, isShapedDecl, Bool.or_false, Bool.false_or,
      Bool.and_eq_true, List.all_eq_true, areShapedStmts_iff] at h
    simp only [children, List.mem_cons, List.mem_append] at hm
    rcases hm with rfl | hm | hm
    · exact .inl (isShaped_of_isExpr h.1.1)
    · exact .inl (isShaped_of_isStorage (h.1.2 m hm))
    · exact .inl (isShaped_of_isShapedStmt (h.2 m hm))
  | ifElseStmt cond ds ss ds' ss' =>
    simp only [isShaped, isType, isExpr, isShapedStmt, isShapedDecl, Bool.or_false, Bool.false_or,
      Bool.and_eq_true, List.all_eq_true, areShapedStmts_iff] at h
    obtain ⟨⟨⟨⟨hcond, hds⟩, hss⟩, hds'⟩, hss'⟩ := h
    simp only [children, List.mem_cons, List.mem_append] at hm
    rcases hm with rfl | hm | hm | hm | hm
    · exact .inl (isShaped_of_isExpr hcond)
    · exact .inl (isShaped_of_isStorage (hds m hm))
    · exact .inl (isShaped_of_isShapedStmt (hss m hm))
    · exact .inl (isShaped_of_isStorage (hds' m hm))
    · exact .inl (isShaped_of_isShapedStmt (hss' m hm))
  | returnStmt value pos =>
    rw [List.mem_singleton.mp hm]
    by_cases hvalue : value = .missing
    · exact .inr hvalue
    · simp only [isShaped, isType, isExpr, isShapedDecl, isShapedStmt_return hvalue, Bool.or_false,
        Bool.false_or] at h
      exact .inl (isShaped_of_isExpr h)
  | lit | ident | primType | structType | foreign | missing => cases hm

theorem isExpr_of_call_mem {ns : List Node} (h : ∀ n ∈ ns, n.isShaped = true) {callee : Ident}
    {args : List Node} (hcall : .call callee args ∈ allNodes ns) :
    (Node.call callee args).isExpr = true := by
  have hshaped : (Node.call callee args).isShaped = true ∨ Node.call callee args = .missing := by
    refine forall_allNodes (P := fun n => n.isShaped = true ∨ n = .missing) ?_
      (fun n hn => .inl (h n hn)) _ hcall
    rintro n (hn | rfl) m hm
    · exact isShaped_child hn hm
    · cases hm
  rcases hshaped with hshaped | hmissing
  · simpa [isShaped, isType, isShapedStmt, isShapedDecl] using hshaped
  · cases hmissing

theorem typeNames?_of_storages {formals : List Node} (h : ∀ f ∈ formals, f.isStorage = true) :
    ∃ params, typeNames? formals = some params := by
  induction formals with
  | nil => exact ⟨[], rfl⟩
  | cons f formals ih =>
    rw [List.forall_mem_cons] at h
    obtain ⟨params, hparams⟩ := ih h.2
    obtain ⟨type, id, hf, htype⟩ := exists_of_isStorage h.1
    obtain ⟨name, hname⟩ := typeName?_of_isType htype
    have htyped : f.typed?.bind (·.1.typeName?) = some name := by
      rcases hf with rfl | rfl <;> exact hname
    refine ⟨name :: params, ?_⟩
    rw [typeNames?] at hparams ⊢
    rw [List.mapM_cons, htyped, hparams]
    rfl

theorem not_compound_of_path {e : Node} (hexpr : e.isExpr = true)
    (hpath : e.pathEnd?.isSome = true) : e.Throughout (·.isCompound = false) := by
  induction e using Node.induct with
  | step e ih =>
    rw [throughout_iff]
    cases e with
    | ident id => exact ⟨rfl, List.forall_mem_nil _⟩
    | dot base field =>
      obtain ⟨hbase, hexpr⟩ := Bool.and_eq_true_iff.mp hexpr
      exact ⟨rfl, List.forall_mem_singleton.mpr (ih base (List.mem_singleton_self _) hexpr hbase)⟩
    | _ => cases hpath

theorem not_compound_of_storages {ds : List Node} (h : ds.all isStorage = true) :
    ∀ n ∈ allNodes ds, n.isCompound = false := by
  rw [forall_mem_allNodes]
  intro d hd
  obtain ⟨type, id, hd', htype⟩ := exists_of_isStorage (List.all_eq_true.mp h d hd)
  have hparts : type.Throughout (·.isCompound = false) := by
    cases type with
    | primType | structType => exact List.forall_mem_singleton.mpr rfl
    | _ => cases htype
  rcases hd' with rfl | rfl
  · exact List.forall_mem_cons.mpr ⟨rfl, hparts⟩
  · exact List.forall_mem_cons.mpr ⟨rfl, hparts⟩

theorem named_of_isExpr {e : Node} (h : e.isExpr = true) : e.Throughout (·.isNamed = true) := by
  have hparts : ∀ m ∈ allNodes [e], m.isExpr = true :=
    forall_allNodes (fun _ hn _ => isExpr_child hn) (List.forall_mem_singleton.mpr h)
  rw [← List.forall_mem_singleton (p := Throughout (·.isNamed = true)), ← forall_mem_allNodes]
  intro m hm
  have hm' := hparts m hm
  cases m with
  | varDecl | formalDecl | fnDecl | structDecl => cases hm'
  | _ => rfl

theorem named_of_isType {type : Node} (h : type.isType = true) :
    type.Throughout (·.isNamed = true) := by
  rw [throughout_iff]
  cases type with
  | primType | structType => exact ⟨rfl, by simp [children]⟩
  | _ => cases h

/-- The node is well shaped for its place, and whatever is declared in it has a name. -/
structure ShapedWith (shape : Node → Bool) (n : Node) : Prop where
  shaped : shape n = true
  named : n.Throughout (·.isNamed = true)

theorem shapedWith_varDecl {d : Node} (h : d.isVarDecl = true) : d.ShapedWith isStorage := by
  cases d with
  | varDecl type id =>
    obtain ⟨htype, hname⟩ := Bool.and_eq_true_iff.mp h
    exact ⟨htype, throughout_iff.mpr ⟨hname, List.forall_mem_singleton.mpr (named_of_isType htype)⟩⟩
  | _ => cases h

theorem shapedWith_formalDecl {d : Node} (h : d.isFormalDecl = true) : d.ShapedWith isStorage := by
  cases d with
  | formalDecl type id =>
    obtain ⟨htype, hname⟩ := Bool.and_eq_true_iff.mp h
    exact ⟨htype, throughout_iff.mpr ⟨hname, List.forall_mem_singleton.mpr (named_of_isType htype)⟩⟩
  | _ => cases h

theorem shapedWith_all {shape' shape : Node → Bool} {ds : List Node} (hall : ds.all shape' = true)
    (h : ∀ d ∈ ds, shape' d = true → d.ShapedWith shape) :
    ds.all shape = true ∧ ∀ d ∈ ds, d.Throughout (·.isNamed = true) := by
  rw [List.all_eq_true] at hall ⊢
  exact ⟨fun d hd => (h d hd (hall d hd)).shaped, fun d hd => (h d hd (hall d hd)).named⟩

theorem shapedWith_vars {ds : List Node} (h : ds.all isVarDecl = true) :
    ds.all isStorage = true ∧ ∀ d ∈ ds, d.Throughout (·.isNamed = true) :=
  shapedWith_all h fun _ _ => shapedWith_varDecl

private theorem shapedWith_stmts {ss : List Node}
    (ih : ∀ s ∈ ss, s.isStmt = true → s.ShapedWith isShapedStmt) (h : areStmts ss = true) :
    areShapedStmts ss = true ∧ ∀ s ∈ ss, s.Throughout (·.isNamed = true) := by
  rw [areStmts_iff] at h
  rw [areShapedStmts_iff]
  exact ⟨fun s hs => (ih s hs (h s hs)).shaped, fun s hs => (ih s hs (h s hs)).named⟩

theorem shapedWith_stmt (s : Node) (h : s.isStmt = true) : s.ShapedWith isShapedStmt := by
  induction s using Node.induct with
  | step s ih =>
    have hstmts (ss : List Node) (hss : ∀ m ∈ ss, m ∈ s.children) (h : areStmts ss = true) :=
      shapedWith_stmts (fun m hm => ih m (hss m hm)) h
    cases s with
    | assignStmt e | stepStmt op e | readStmt e | writeStmt e | callStmt e =>
      have he : ∀ m ∈ [e], m.Throughout (·.isNamed = true) :=
        List.forall_mem_singleton.mpr (named_of_isExpr h)
      exact ⟨h, throughout_iff.mpr ⟨rfl, he⟩⟩
    | ifStmt cond ds ss | whileStmt cond ds ss =>
      simp only [isStmt, Bool.and_eq_true] at h
      obtain ⟨hds, hdsNamed⟩ := shapedWith_vars h.1.2
      obtain ⟨hss, hssNamed⟩ := hstmts ss (by simp +contextual [children]) h.2
      refine ⟨by simp [isShapedStmt, h.1.1, hds, hss], throughout_iff.mpr ⟨rfl, ?_⟩⟩
      simp only [children, List.forall_mem_cons, List.forall_mem_append]
      exact ⟨named_of_isExpr h.1.1, hdsNamed, hssNamed⟩
    | ifElseStmt cond ds ss es fs =>
      simp only [isStmt, Bool.and_eq_true] at h
      obtain ⟨⟨⟨⟨hcond, hds⟩, hss⟩, hes⟩, hfs⟩ := h
      obtain ⟨hds, hdsNamed⟩ := shapedWith_vars hds
      obtain ⟨hss, hssNamed⟩ := hstmts ss (by simp +contextual [children]) hss
      obtain ⟨hes, hesNamed⟩ := shapedWith_vars hes
      obtain ⟨hfs, hfsNamed⟩ := hstmts fs (by simp +contextual [children]) hfs
      refine ⟨by simp [isShapedStmt, hcond, hds, hss, hes, hfs], throughout_iff.mpr ⟨rfl, ?_⟩⟩
      simp only [children, List.forall_mem_cons, List.forall_mem_append]
      exact ⟨named_of_isExpr hcond, hdsNamed, hssNamed, hesNamed, hfsNamed⟩
    | returnStmt value pos =>
      by_cases hvalue : value = .missing
      · subst hvalue
        exact ⟨rfl, by simp [Throughout, descendants, isNamed]⟩
      · rw [isStmt_return hvalue] at h
        have he : ∀ m ∈ [value], m.Throughout (·.isNamed = true) :=
          List.forall_mem_singleton.mpr (named_of_isExpr h)
        exact ⟨by rwa [isShapedStmt_return hvalue], throughout_iff.mpr ⟨rfl, he⟩⟩
    | _ => cases h

theorem shapedWith_topDecl {d : Node} (h : d.isTopDecl = true) : d.ShapedWith isShapedDecl := by
  cases d with
  | varDecl type id =>
    have hvar := shapedWith_varDecl (d := .varDecl type id) h
    exact ⟨hvar.shaped, hvar.named⟩
  | fnDecl type id formals decls stmts =>
    simp only [isTopDecl, Bool.and_eq_true] at h
    obtain ⟨⟨⟨⟨htype, hname⟩, hfs⟩, hds⟩, hss⟩ := h
    obtain ⟨hfs, hfsNamed⟩ := shapedWith_all hfs fun _ _ => shapedWith_formalDecl
    obtain ⟨hds, hdsNamed⟩ := shapedWith_vars hds
    obtain ⟨hss, hssNamed⟩ := shapedWith_stmts (fun s _ => shapedWith_stmt s) hss
    refine ⟨by simp [isShapedDecl, htype, hfs, hds, hss], throughout_iff.mpr ⟨hname, ?_⟩⟩
    simp only [children, List.forall_mem_cons, List.forall_mem_append]
    exact ⟨named_of_isType htype, hfsNamed, hdsNamed, hssNamed⟩
  | structDecl id decls =>
    obtain ⟨hname, hds⟩ := Bool.and_eq_true_iff.mp h
    obtain ⟨hds, hdsNamed⟩ := shapedWith_vars hds
    exact ⟨hds, throughout_iff.mpr ⟨hname, hdsNamed⟩⟩
  | _ => cases h

end Node

def wellShaped (program : Program) : Bool := program.all Node.isShapedDecl

theorem wellShaped_of_conforms {program : Program} (h : conforms program = true) :
    wellShaped program = true ∧ ∀ n ∈ Node.allNodes program, n.isNamed = true := by
  rw [Node.forall_mem_allNodes]
  exact Node.shapedWith_all h fun _ _ => Node.shapedWith_topDecl

end Sema
