import Sema.Tree.Walk

/-!
# Parts of a tree

The nodes directly below a node, induction along them, and all nodes of a tree.
-/

namespace Sema

/-- The identifier carries a symbol. -/
def Ident.Bound (id : Ident) : Prop := id.symbol.isSome = true

namespace Node

/-- The nodes directly below a node, from left to right. -/
def children : Node → List Node
  | .dot base _ => [base]
  | .assign target value => [target, value]
  | .call _ args => args
  | .unary _ operand => [operand]
  | .binary _ left right => [left, right]
  | .varDecl type _ => [type]
  | .formalDecl type _ => [type]
  | .fnDecl type _ formals decls stmts => type :: (formals ++ (decls ++ stmts))
  | .structDecl _ decls => decls
  | .assignStmt e => [e]
  | .stepStmt _ e => [e]
  | .readStmt e => [e]
  | .writeStmt e => [e]
  | .ifStmt cond decls stmts => cond :: (decls ++ stmts)
  | .ifElseStmt cond ds ss ds' ss' => cond :: (ds ++ (ss ++ (ds' ++ ss')))
  | .whileStmt cond decls stmts => cond :: (decls ++ stmts)
  | .callStmt e => [e]
  | .returnStmt value _ => [value]
  | .lit _ _ | .ident _ | .primType _ | .structType _ | .foreign | .missing => []

/-- What passes from the nodes directly below a node to the node holds of every node. -/
theorem induct {P : Node → Prop} (step : ∀ n, (∀ m ∈ n.children, P m) → P n) (n : Node) : P n := by
  apply @Node.rec P (fun ms => ∀ m ∈ ms, P m)
  case nil => simp
  case cons =>
    intro m ms hm hms
    exact List.forall_mem_cons.mpr ⟨hm, hms⟩
  all_goals
    intros
    apply step
    clear step
    simp_all [children, or_imp]

mutual

/-- All nodes below a node. -/
def descendants : Node → List Node
  | .dot base _ => base :: base.descendants
  | .assign target value => target :: (target.descendants ++ value :: value.descendants)
  | .call _ args => allNodes args
  | .unary _ operand => operand :: operand.descendants
  | .binary _ left right => left :: (left.descendants ++ right :: right.descendants)
  | .varDecl type _ => type :: type.descendants
  | .formalDecl type _ => type :: type.descendants
  | .fnDecl type _ formals decls stmts =>
    type :: (type.descendants ++ (allNodes formals ++ (allNodes decls ++ allNodes stmts)))
  | .structDecl _ decls => allNodes decls
  | .assignStmt e => e :: e.descendants
  | .stepStmt _ e => e :: e.descendants
  | .readStmt e => e :: e.descendants
  | .writeStmt e => e :: e.descendants
  | .ifStmt cond decls stmts => cond :: (cond.descendants ++ (allNodes decls ++ allNodes stmts))
  | .ifElseStmt cond ds ss ds' ss' =>
    cond :: (cond.descendants ++ (allNodes ds ++ (allNodes ss ++ (allNodes ds' ++ allNodes ss'))))
  | .whileStmt cond decls stmts => cond :: (cond.descendants ++ (allNodes decls ++ allNodes stmts))
  | .callStmt e => e :: e.descendants
  | .returnStmt value _ => value :: value.descendants
  | .lit _ _ | .ident _ | .primType _ | .structType _ | .foreign | .missing => []

/-- All nodes of a list of trees. -/
def allNodes : List Node → List Node
  | [] => []
  | n :: ns => n :: (n.descendants ++ allNodes ns)

end

@[simp] theorem allNodes_append (ns ms : List Node) :
    allNodes (ns ++ ms) = allNodes ns ++ allNodes ms := by
  induction ns with
  | nil => rfl
  | cons n ns ih => simp [allNodes, ih]

theorem descendants_eq (n : Node) : n.descendants = allNodes n.children := by
  cases n <;> simp [descendants, children, allNodes]

@[simp] theorem identsAll_append (ns ms : List Node) :
    identsAll (ns ++ ms) = identsAll ns ++ identsAll ms := by
  induction ns with
  | nil => rfl
  | cons n ns ih => simp [identsAll, ih]

@[simp] theorem identsAll_singleton (n : Node) : identsAll [n] = n.idents := by
  rw [identsAll, identsAll, List.append_nil]

theorem mem_identsAll {ns : List Node} {id : Ident} :
    id ∈ identsAll ns ↔ ∃ n ∈ ns, id ∈ n.idents := by
  induction ns with
  | nil => simp [identsAll]
  | cons n ns ih => simp [identsAll, ih]

theorem idents_of_child {n : Node} {id : Ident} (h : id ∈ identsAll n.children) :
    id ∈ n.idents := by
  cases n <;>
    simp only [children, identsAll, identsAll_append, List.append_nil, List.mem_append,
      List.not_mem_nil] at h <;>
    simp only [idents, List.mem_cons, List.mem_append] <;> grind

theorem mem_allNodes {ns : List Node} {m : Node} :
    m ∈ allNodes ns ↔ ∃ n ∈ ns, m = n ∨ m ∈ n.descendants := by
  induction ns with
  | nil => simp [allNodes]
  | cons n ns ih =>
    simp only [allNodes, List.mem_cons, List.mem_append, ih, exists_eq_or_imp, or_assoc]

theorem forall_allNodes {P : Node → Prop} (hchild : ∀ n, P n → ∀ m ∈ n.children, P m)
    {ns : List Node} (h : ∀ n ∈ ns, P n) : ∀ m ∈ allNodes ns, P m := by
  have hdesc (n : Node) (hn : P n) : ∀ m ∈ n.descendants, P m := by
    induction n using Node.induct with
    | step n ih =>
      intro m hm
      rw [descendants_eq] at hm
      obtain ⟨c, hc, rfl | hd⟩ := mem_allNodes.mp hm
      · exact hchild n hn m hc
      · exact ih c hc (hchild n hn c hc) m hd
  intro m hm
  obtain ⟨n, hn, rfl | hd⟩ := mem_allNodes.mp hm
  · exact h m hn
  · exact hdesc n (h n hn) m hd

/-- The variables and the statements of a function. Nothing else has a body. -/
def body : Node → List Node
  | .fnDecl _ _ _ decls stmts => decls ++ stmts
  | _ => []

/-- The property holds of the node and of every node below it. -/
def Throughout (P : Node → Prop) (n : Node) : Prop := ∀ m ∈ n :: n.descendants, P m

theorem forall_mem_allNodes {P : Node → Prop} {ns : List Node} :
    (∀ m ∈ allNodes ns, P m) ↔ ∀ n ∈ ns, n.Throughout P := by
  induction ns with
  | nil => simp [allNodes]
  | cons n ns ih =>
    simp only [allNodes, List.forall_mem_cons, List.forall_mem_append, ih, Throughout, and_assoc]

theorem throughout_iff {P : Node → Prop} {n : Node} :
    n.Throughout P ↔ P n ∧ ∀ m ∈ n.children, m.Throughout P := by
  rw [← forall_mem_allNodes, ← descendants_eq, Throughout, List.forall_mem_cons]

theorem Throughout.self {P : Node → Prop} {n : Node} (h : n.Throughout P) : P n :=
  h n List.mem_cons_self

theorem Throughout.child {P : Node → Prop} {n m : Node} (h : n.Throughout P)
    (hm : m ∈ n.children) : m.Throughout P :=
  (throughout_iff.mp h).2 m hm

private theorem child_mem_descendants (top : Node) {n m : Node}
    (hn : n = top ∨ n ∈ top.descendants) (hm : m ∈ n.children) : m ∈ top.descendants := by
  induction top using Node.induct with
  | step top ih =>
    rw [descendants_eq]
    rcases hn with rfl | hn
    · exact mem_allNodes.mpr ⟨m, hm, .inl rfl⟩
    · rw [descendants_eq] at hn
      obtain ⟨c, hc, hn⟩ := mem_allNodes.mp hn
      exact mem_allNodes.mpr ⟨c, hc, .inr (ih c hc hn)⟩

theorem allNodes_of_part {ns : List Node} {n : Node} (hn : n ∈ allNodes ns) :
    ∀ m ∈ allNodes [n], m ∈ allNodes ns := by
  apply forall_allNodes
  · intro k hk m hm
    obtain ⟨top, htop, hk⟩ := mem_allNodes.mp hk
    exact mem_allNodes.mpr ⟨top, htop, .inr (child_mem_descendants top hk hm)⟩
  · exact List.forall_mem_singleton.mpr hn

theorem mem_allNodes_of_body {ds : List Node} {n : Node} (hn : n ∈ allNodes (ds.flatMap body)) :
    n ∈ allNodes ds := by
  obtain ⟨m, hm, hn⟩ := mem_allNodes.mp hn
  obtain ⟨d, hd, hm⟩ := List.mem_flatMap.mp hm
  have hchild : m ∈ d.children := by
    cases d with
    | fnDecl type id formals decls stmts =>
      exact List.mem_cons_of_mem type (List.mem_append_right formals hm)
    | _ => cases hm
  have hpart : m ∈ allNodes ds :=
    mem_allNodes.mpr ⟨d, hd, .inr (child_mem_descendants d (.inl rfl) hchild)⟩
  exact allNodes_of_part hpart n (mem_allNodes.mpr ⟨m, List.mem_singleton_self m, hn⟩)

theorem idents_of_part {ns : List Node} {m : Node} (hm : m ∈ allNodes ns) {id : Ident}
    (h : id ∈ m.idents) : id ∈ identsAll ns := by
  have hdesc (n : Node) : m ∈ n.descendants → id ∈ n.idents := by
    induction n using Node.induct with
    | step n ih =>
      intro hn
      rw [descendants_eq] at hn
      obtain ⟨c, hc, rfl | hd⟩ := mem_allNodes.mp hn
      · exact idents_of_child (mem_identsAll.mpr ⟨m, hc, h⟩)
      · exact idents_of_child (mem_identsAll.mpr ⟨c, hc, ih c hc hd⟩)
  obtain ⟨n, hn, rfl | hd⟩ := mem_allNodes.mp hm
  · exact mem_identsAll.mpr ⟨m, hn, h⟩
  · exact mem_identsAll.mpr ⟨n, hn, hdesc n hd⟩

end Node

end Sema
