import Sema.Proofs.Tree.Grammar
import Sema.Proofs.Tree.Relabel

/-!
# Trees without their symbols

Two trees are the same up to symbols if they are the same once the symbols of their identifiers are
taken away. Most of what is asked of a tree can be answered without them.
-/

namespace Sema

/-- The identifier as it was written, bound to nothing. -/
def Ident.erase (id : Ident) : Ident := { id with symbol := none }

theorem Ident.name_of_erase {id id' : Ident} (h : id.erase = id'.erase) : id.name = id'.name := by
  have hname : id.erase.name = id'.erase.name := congrArg Ident.name h
  exact hname

theorem Ident.pos_of_erase {id id' : Ident} (h : id.erase = id'.erase) : id.pos = id'.pos := by
  have hpos : id.erase.pos = id'.erase.pos := congrArg Ident.pos h
  exact hpos

namespace Node

/-- The tree as it was written, with no identifier bound. -/
abbrev erase : Node → Node := relabel Ident.erase Ident.erase id

abbrev eraseAll : List Node → List Node := relabelAll Ident.erase Ident.erase id

@[simp] theorem pos_erase (n : Node) : n.erase.pos = n.pos := by
  have huse (id : Ident) : id.erase.pos = id.pos := rfl
  exact pos_relabel huse n

@[simp] theorem isType_erase (n : Node) : n.erase.isType = n.isType := by
  cases n <;> rfl

@[simp] theorem typeNames?_eraseAll (formals : List Node) :
    typeNames? (eraseAll formals) = typeNames? formals := by
  have hnames : typeNames? (eraseAll formals) = (typeNames? formals).map (List.map id) :=
    typeNames?_relabelAll (fun _ => rfl) (fun _ => rfl) formals
  simpa using hnames

theorem symbol_of_mem_eraseAll {ns : List Node} {id : Ident} (h : id ∈ identsAll (eraseAll ns)) :
    id.symbol = none := by
  rw [identsAll_relabelAll] at h
  obtain ⟨stale, -, rfl⟩ := List.mem_map.mp h
  rfl

/-- Trees that are the same up to symbols have the same nodes up to symbols. -/
theorem forall_of_eraseAll {p : Node → Bool} (hp : ∀ n : Node, p n.erase = p n) {ns ms : List Node}
    (h : eraseAll ns = eraseAll ms) (hms : ∀ m ∈ allNodes ms, p m = true) :
    ∀ n ∈ allNodes ns, p n = true := by
  intro n hn
  have hnodes : (allNodes ns).map erase = (allNodes ms).map erase := by
    rw [← allNodes_relabelAll, ← allNodes_relabelAll]
    exact congrArg allNodes h
  have hmem : n.erase ∈ (allNodes ms).map erase := hnodes ▸ List.mem_map_of_mem hn
  obtain ⟨m, hm, heq⟩ := List.mem_map.mp hmem
  rw [← hp, ← heq, hp]
  exact hms m hm

private theorem areExprs_eraseAll {es : List Node} (ih : ∀ e ∈ es, e.erase.isExpr = e.isExpr) :
    areExprs (eraseAll es) = areExprs es := by
  induction es with
  | nil => rfl
  | cons e es ihes =>
    rw [List.forall_mem_cons] at ih
    simp only [relabelAll, areExprs, ih.1, ihes ih.2]

@[simp] theorem isExpr_erase (n : Node) : n.erase.isExpr = n.isExpr := by
  induction n using Node.induct with
  | step n ih =>
    cases n with
    | dot base field =>
      simp only [relabel, isExpr, pathEnd?_relabel, Option.isSome_map, ih base (by simp [children])]
    | assign e e' | binary op e e' =>
      simp only [relabel, isExpr, ih e (by simp [children]), ih e' (by simp [children])]
    | unary op e => simp only [relabel, isExpr, ih e (by simp [children])]
    | call callee args =>
      have hargs : ∀ e ∈ args, e.erase.isExpr = e.isExpr := ih
      simp only [relabel, isExpr, areExprs_eraseAll hargs]
    | _ => rfl

@[simp] theorem isVarDecl_erase (n : Node) : n.erase.isVarDecl = n.isVarDecl := by
  cases n <;> simp [relabel, isVarDecl, Ident.erase]

@[simp] theorem isFormalDecl_erase (n : Node) : n.erase.isFormalDecl = n.isFormalDecl := by
  cases n <;> simp [relabel, isFormalDecl, Ident.erase]

private theorem all_eraseAll {p : Node → Bool} (hp : ∀ n : Node, p n.erase = p n)
    (ns : List Node) : (eraseAll ns).all p = ns.all p := by
  have hcomp : p ∘ erase = p := funext hp
  simp only [relabelAll_eq_map, List.all_map, hcomp]

private theorem areStmts_eraseAll {ss : List Node} (ih : ∀ s ∈ ss, s.erase.isStmt = s.isStmt) :
    areStmts (eraseAll ss) = areStmts ss := by
  induction ss with
  | nil => rfl
  | cons s ss ihss =>
    rw [List.forall_mem_cons] at ih
    simp only [relabelAll, areStmts, ih.1, ihss ih.2]

@[simp] theorem isStmt_erase (n : Node) : n.erase.isStmt = n.isStmt := by
  induction n using Node.induct with
  | step n ih =>
    cases n with
    | ifStmt cond ds ss | whileStmt cond ds ss =>
      simp only [children, List.forall_mem_cons, List.forall_mem_append] at ih
      simp only [relabel, isStmt, isExpr_erase, all_eraseAll isVarDecl_erase,
        areStmts_eraseAll ih.2.2]
    | ifElseStmt cond ds ss ds' ss' =>
      simp only [children, List.forall_mem_cons, List.forall_mem_append] at ih
      simp only [relabel, isStmt, isExpr_erase, all_eraseAll isVarDecl_erase,
        areStmts_eraseAll ih.2.2.1, areStmts_eraseAll ih.2.2.2.2]
    | returnStmt value pos =>
      by_cases hvalue : value = .missing
      · subst hvalue
        rfl
      · have hvalue' : value.erase ≠ .missing := fun h => hvalue (eq_missing_of_relabel h)
        simp only [relabel, isStmt_return hvalue, isStmt_return hvalue', isExpr_erase]
    | _ => simp [relabel, isStmt]

@[simp] theorem isTopDecl_erase (n : Node) : n.erase.isTopDecl = n.isTopDecl := by
  cases n with
  | fnDecl type id formals decls stmts =>
    simp only [relabel, isTopDecl, Ident.erase, isType_erase, all_eraseAll isFormalDecl_erase,
      all_eraseAll isVarDecl_erase, areStmts_eraseAll fun s _ => isStmt_erase s]
  | structDecl id decls =>
    simp only [relabel, isTopDecl, Ident.erase, all_eraseAll isVarDecl_erase]
  | _ => simp [relabel, isTopDecl, Ident.erase]

end Node

theorem conforms_eraseAll (program : Program) :
    conforms (Node.eraseAll program) = conforms program :=
  Node.all_eraseAll Node.isTopDecl_erase program

end Sema
