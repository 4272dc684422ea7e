import Sema.Proofs.Tree.Parts

/-!
# Trees of the same shape

A tree can be carried to another one of its shape by replacing its identifiers and its positions.
What is asked of a tree is then answered by what has taken their place.
-/

namespace Sema

namespace Node

mutual

/-- The tree with each identifier and each position replaced. Identifiers that are in use are
replaced by one map, those that are declared or name the struct of a type by another. -/
def relabel (use name : Ident → Ident) (place : Pos → Pos) : Node → Node
  | .lit value pos => .lit value (place pos)
  | .ident id => .ident (use id)
  | .dot base field => .dot (base.relabel use name place) (use field)
  | .assign target value =>
    .assign (target.relabel use name place) (value.relabel use name place)
  | .call callee args => .call (use callee) (relabelAll use name place args)
  | .unary op operand => .unary op (operand.relabel use name place)
  | .binary op left right =>
    .binary op (left.relabel use name place) (right.relabel use name place)
  | .primType type => .primType type
  | .structType id => .structType (name id)
  | .varDecl type id => .varDecl (type.relabel use name place) (name id)
  | .formalDecl type id => .formalDecl (type.relabel use name place) (name id)
  | .fnDecl type id formals decls stmts =>
    .fnDecl (type.relabel use name place) (name id) (relabelAll use name place formals)
      (relabelAll use name place decls) (relabelAll use name place stmts)
  | .structDecl id decls => .structDecl (name id) (relabelAll use name place decls)
  | .assignStmt e => .assignStmt (e.relabel use name place)
  | .stepStmt op e => .stepStmt op (e.relabel use name place)
  | .readStmt e => .readStmt (e.relabel use name place)
  | .writeStmt e => .writeStmt (e.relabel use name place)
  | .ifStmt cond decls stmts =>
    .ifStmt (cond.relabel use name place) (relabelAll use name place decls)
      (relabelAll use name place stmts)
  | .ifElseStmt cond ds ss ds' ss' =>
    .ifElseStmt (cond.relabel use name place) (relabelAll use name place ds)
      (relabelAll use name place ss) (relabelAll use name place ds')
      (relabelAll use name place ss')
  | .whileStmt cond decls stmts =>
    .whileStmt (cond.relabel use name place) (relabelAll use name place decls)
      (relabelAll use name place stmts)
  | .callStmt e => .callStmt (e.relabel use name place)
  | .returnStmt value pos => .returnStmt (value.relabel use name place) (place pos)
  | .foreign => .foreign
  | .missing => .missing

def relabelAll (use name : Ident → Ident) (place : Pos → Pos) : List Node → List Node
  | [] => []
  | n :: ns => n.relabel use name place :: relabelAll use name place ns

end

section

variable {use name : Ident → Ident} {place : Pos → Pos}

theorem relabelAll_eq_map (ns : List Node) :
    relabelAll use name place ns = ns.map (relabel use name place) := by
  induction ns with
  | nil => rfl
  | cons n ns ih => rw [relabelAll, ih, List.map_cons]

@[simp] theorem relabelAll_append (ns ms : List Node) :
    relabelAll use name place (ns ++ ms) =
      relabelAll use name place ns ++ relabelAll use name place ms := by
  simp only [relabelAll_eq_map, List.map_append]

@[simp] theorem label_relabel (n : Node) : (n.relabel use name place).label = n.label := by
  cases n with
  | lit value pos => cases value <;> rfl
  | primType type => rfl
  | stepStmt op e => cases op <;> rfl
  | _ => rfl

@[simp] theorem isReturn_relabel (n : Node) :
    (n.relabel use name place).isReturn = n.isReturn := by
  cases n <;> rfl

@[simp] theorem pathEnd?_relabel (n : Node) :
    (n.relabel use name place).pathEnd? = n.pathEnd?.map use := by
  cases n <;> rfl

theorem typed?_relabel (n : Node) : (n.relabel use name place).typed? =
    n.typed?.map fun p => (p.1.relabel use name place, name p.2) := by
  cases n <;> rfl

theorem eq_missing_of_relabel {n : Node} (h : n.relabel use name place = .missing) :
    n = .missing := by
  cases n with
  | missing => rfl
  | _ => cases h

theorem pos_relabel (huse : ∀ id, (use id).pos = id.pos) (n : Node) :
    (n.relabel use name id).pos = n.pos := by
  induction n using Node.induct with
  | step n ih =>
    cases n with
    | ident id => exact huse id
    | call callee args => exact huse callee
    | dot base field => exact ih base (by simp [children])
    | assign target value => exact ih target (by simp [children])
    | unary op operand => exact ih operand (by simp [children])
    | binary op left right => exact ih left (by simp [children])
    | _ => rfl

section TypeNames

variable {f : String → String} (hprim : ∀ prim : PrimType, f prim.text = prim.text)
  (hname : ∀ id, (name id).name = f id.name)
include hprim hname

theorem typeName?_relabel (n : Node) :
    (n.relabel use name place).typeName? = n.typeName?.map f := by
  cases n with
  | primType prim => exact congrArg some (hprim prim).symm
  | structType id => exact congrArg some (hname id)
  | _ => rfl

theorem typeNames?_relabelAll (formals : List Node) :
    typeNames? (relabelAll use name place formals) = (typeNames? formals).map (List.map f) := by
  have hformal (p : Node) : (p.relabel use name place).typed?.bind (·.1.typeName?) =
      (p.typed?.bind (·.1.typeName?)).map f := by
    rw [typed?_relabel]
    cases p.typed? with
    | none => rfl
    | some typed => exact typeName?_relabel hprim hname typed.1
  unfold typeNames?
  induction formals with
  | nil => rfl
  | cons p formals ih =>
    rw [relabelAll, List.mapM_cons, List.mapM_cons, hformal, ih]
    cases p.typed?.bind (·.1.typeName?) with
    | none => rfl
    | some name =>
      cases List.mapM (fun p : Node => p.typed?.bind (·.1.typeName?)) formals <;> rfl

end TypeNames

theorem children_relabel (n : Node) :
    (n.relabel use name place).children = relabelAll use name place n.children := by
  cases n <;> simp [relabel, children, relabelAll]

private theorem allNodes_relabelAll_of {ns : List Node}
    (h : ∀ n ∈ ns, (n.relabel use name place).descendants =
      n.descendants.map (relabel use name place)) :
    allNodes (relabelAll use name place ns) = (allNodes ns).map (relabel use name place) := by
  induction ns with
  | nil => rfl
  | cons n ns ih =>
    rw [List.forall_mem_cons] at h
    simp [relabelAll, allNodes, h.1, ih h.2]

private theorem descendants_relabel (n : Node) :
    (n.relabel use name place).descendants = n.descendants.map (relabel use name place) := by
  induction n using Node.induct with
  | step n ih =>
    rw [descendants_eq, descendants_eq, children_relabel, allNodes_relabelAll_of ih]

theorem allNodes_relabelAll (ns : List Node) :
    allNodes (relabelAll use name place ns) = (allNodes ns).map (relabel use name place) :=
  allNodes_relabelAll_of fun n _ => descendants_relabel n

end

section Idents

variable {f : Ident → Ident} {place : Pos → Pos}

mutual

private theorem idents_relabel (n : Node) : (n.relabel f f place).idents = n.idents.map f := by
  cases n <;> simp [relabel, idents, idents_relabel, identsAll_relabelAll]

theorem identsAll_relabelAll (ns : List Node) :
    identsAll (relabelAll f f place ns) = (identsAll ns).map f := by
  cases ns <;> simp [relabelAll, identsAll, idents_relabel, identsAll_relabelAll]

end

end Idents

end Node

end Sema
