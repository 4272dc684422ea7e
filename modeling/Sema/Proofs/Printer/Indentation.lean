import Sema.Proofs.Printer.Progress

/-!
# Layout is the same at every place

A declaration or a statement is laid out below what is on the page, and at the depth of the page, as
it is laid out on an empty page: the same lines, all of them that much deeper, and where a fault ends
it, the same fault behind the same lines. What is printed to its end leaves the depth as it was.
-/

namespace Sema

open Printer

/-- The line that much deeper. An empty line stays empty. -/
def indented (depth : Nat) (text : String) : String :=
  if text = "" then "" else String.ofList (List.replicate (4 * depth) ' ') ++ text

/-- The page below other lines and that much deeper. -/
def Layout.moved (lines : List String) (depth : Nat) (page : Layout) : Layout :=
  ⟨lines ++ page.lines.map (indented depth), depth + page.indent⟩

/-- The page at which a body is started. -/
def Layout.inner (page : Layout) : Layout := { page with indent := page.indent + 1 }

theorem indented_indented (depth depth' : Nat) (text : String) :
    indented depth (indented depth' text) = indented (depth + depth') text := by
  by_cases htext : text = ""
  · subst htext
    rfl
  · have hinner : indented depth' text = String.ofList (List.replicate (4 * depth') ' ') ++ text :=
      if_neg htext
    have hne : indented depth' text ≠ "" := by
      rw [hinner]
      intro hempty
      exact htext (String.append_eq_empty_iff.mp hempty).2
    rw [indented, if_neg hne, hinner, indented, if_neg htext, ← String.append_assoc,
      ← String.ofList_append, List.replicate_append_replicate, Nat.mul_add]

theorem moved_empty (lines : List String) (depth : Nat) :
    Layout.moved lines depth {} = ⟨lines, depth⟩ := by
  rw [Layout.moved, List.map_nil, List.append_nil, Nat.add_zero]

namespace Printer

/-- The same outcome, with the page moved. -/
def movedResult (lines : List String) (depth : Nat) :
    EStateM.Result Fault Layout Unit → EStateM.Result Fault Layout Unit
  | .ok a page => .ok a (page.moved lines depth)
  | .error why page => .error why (page.moved lines depth)

/-- On a moved page the printer does what it does on the page. If it returns, it is at the depth it
was started at. -/
structure Movable (m : Printer Unit) : Prop where
  moves : ∀ lines depth page, m (page.moved lines depth) = movedResult lines depth (m page)
  balanced : ∀ page page', m page = .ok () page' → page'.indent = page.indent

section Movable

variable {m k : Printer Unit}

theorem movable_pure : Movable (pure ()) where
  moves _ _ _ := rfl
  balanced page page' h := by
    cases h
    rfl

theorem movable_throw (why : Fault) : Movable (throw why) where
  moves _ _ _ := rfl
  balanced page page' h := by cases h

theorem movable_line (text : String) : (line text).Movable where
  moves lines depth page := by
    have hline (page : Layout) : line text page =
        .ok () ⟨page.lines ++ [indented page.indent text], page.indent⟩ := rfl
    rw [hline, hline, movedResult, Layout.moved, Layout.moved, List.map_append, List.map_singleton,
      indented_indented, List.append_assoc]
  balanced page page' h := by
    cases h
    rfl

theorem movable_lineOf (text : Except Fault String) : (lineOf text).Movable := by
  cases text with
  | ok text => exact movable_line text
  | error why => exact movable_throw why

theorem Movable.seq (hm : m.Movable) (hk : k.Movable) : Movable (do m; k) where
  moves lines depth page := by
    change EStateM.bind m (fun _ => k) _ = movedResult lines depth (EStateM.bind m (fun _ => k) page)
    rw [EStateM.bind, EStateM.bind, hm.moves]
    cases m page with
    | ok _ page₁ => exact hk.moves lines depth page₁
    | error why page₁ => rfl
  balanced page page' h := by
    change EStateM.bind m (fun _ => k) page = _ at h
    rw [EStateM.bind] at h
    cases hfirst : m page with
    | ok _ page₁ =>
      rw [hfirst] at h
      exact (hk.balanced page₁ page' h).trans (hm.balanced page page₁ hfirst)
    | error why page₁ =>
      rw [hfirst] at h
      cases h

private theorem deeper_ok {page page' : Layout} (h : m page.inner = .ok () page') :
    deeper m page = .ok () { page' with indent := page'.indent - 1 } := by
  change EStateM.bind m _ page.inner = _
  rw [EStateM.bind, h]
  rfl

private theorem deeper_error {page page' : Layout} {why : Fault}
    (h : m page.inner = .error why page') : deeper m page = .error why page' := by
  change EStateM.bind m _ page.inner = _
  rw [EStateM.bind, h]

/-- The body ends one level deeper, where it was started, so there is a level to come back from. -/
theorem Movable.deeper (hm : m.Movable) : (deeper m).Movable := by
  constructor
  · intro lines depth page
    have hinner : m (page.moved lines depth).inner = movedResult lines depth (m page.inner) :=
      hm.moves lines depth page.inner
    cases hbody : m page.inner with
    | ok _ page₁ =>
      have hindent : page₁.indent = page.indent + 1 := hm.balanced page.inner page₁ hbody
      rw [hbody] at hinner
      rw [deeper_ok hbody, deeper_ok hinner]
      simp only [movedResult, Layout.moved, hindent]
      rfl
    | error why page₁ =>
      rw [hbody] at hinner
      rw [deeper_error hbody, deeper_error hinner]
      rfl
  · intro page page' h
    cases hbody : m page.inner with
    | ok _ page₁ =>
      have hindent : page₁.indent = page.indent + 1 := hm.balanced page.inner page₁ hbody
      rw [deeper_ok hbody] at h
      cases h
      exact congrArg (· - 1) hindent
    | error why page₁ =>
      rw [deeper_error hbody] at h
      cases h

end Movable

end Printer

namespace Node

/-- The printing of the node can be moved, whatever the node is taken for. -/
structure PrintMovable (annotated : Bool) (n : Node) : Prop where
  decl : (printDecl annotated n).Movable
  stmt : (printStmt annotated n).Movable

section Traversals

variable {annotated : Bool}

private theorem movable_decls {ds : List Node} (ih : ∀ d ∈ ds, d.PrintMovable annotated) :
    (printDecls annotated ds).Movable := by
  induction ds with
  | nil => exact movable_pure
  | cons d ds ihds =>
    rw [List.forall_mem_cons] at ih
    exact ih.1.decl.seq (ihds ih.2)

private theorem movable_stmts {ss : List Node} (ih : ∀ s ∈ ss, s.PrintMovable annotated) :
    (printStmts annotated ss).Movable := by
  induction ss with
  | nil => exact movable_pure
  | cons s ss ihss =>
    rw [List.forall_mem_cons] at ih
    exact ih.1.stmt.seq (ihss ih.2)

private theorem movable_body {ds ss : List Node} (ihds : ∀ d ∈ ds, d.PrintMovable annotated)
    (ihss : ∀ s ∈ ss, s.PrintMovable annotated) :
    (deeper do printDecls annotated ds; printStmts annotated ss).Movable :=
  ((movable_decls ihds).seq (movable_stmts ihss)).deeper

private theorem movable_decl (d : Node) (ih : ∀ m ∈ d.children, m.PrintMovable annotated) :
    (printDecl annotated d).Movable := by
  cases d with
  | varDecl type id => exact movable_lineOf _
  | fnDecl type id formals decls stmts =>
    simp only [children, List.forall_mem_cons, List.forall_mem_append] at ih
    obtain ⟨-, -, ihdecls, ihstmts⟩ := ih
    exact (movable_lineOf _).seq ((movable_body ihdecls ihstmts).seq
      ((movable_line _).seq (movable_line _)))
  | structDecl id decls =>
    exact (movable_line _).seq ((movable_decls ih).deeper.seq
      ((movable_line _).seq (movable_line _)))
  | _ => exact movable_throw _

private theorem movable_stmt (s : Node) (ih : ∀ m ∈ s.children, m.PrintMovable annotated) :
    (printStmt annotated s).Movable := by
  cases s with
  | assignStmt e | readStmt e | writeStmt e | callStmt e => exact movable_lineOf _
  | stepStmt op e => cases op <;> exact movable_lineOf _
  | ifStmt cond ds ss | whileStmt cond ds ss =>
    simp only [children, List.forall_mem_cons, List.forall_mem_append] at ih
    exact (movable_lineOf _).seq ((movable_body ih.2.1 ih.2.2).seq (movable_line _))
  | ifElseStmt cond ds ss ds' ss' =>
    simp only [children, List.forall_mem_cons, List.forall_mem_append] at ih
    obtain ⟨-, ihds, ihss, ihds', ihss'⟩ := ih
    exact (movable_lineOf _).seq ((movable_body ihds ihss).seq ((movable_line _).seq
      ((movable_line _).seq ((movable_body ihds' ihss').seq (movable_line _)))))
  | returnStmt value pos =>
    by_cases hvalue : value = .missing
    · subst hvalue
      exact movable_line _
    · rw [printStmt_return hvalue]
      exact movable_lineOf _
  | _ => exact movable_throw _

theorem printMovable (annotated : Bool) (n : Node) : n.PrintMovable annotated := by
  induction n using Node.induct with
  | step n ih => exact ⟨movable_decl n ih, movable_stmt n ih⟩

end Traversals

end Node

/-- Started below the lines and at the depth, the printer adds what it writes on an empty page, that
much deeper. If it returns, the depth is as it was; if not, it is stopped by the same fault, and as
much deeper as on the empty page. -/
structure Printer.AddsBelow (m : Printer Unit) (lines : List String) (depth : Nat) : Prop where
  returned : ∀ page, m {} = .ok () page → page.indent = 0 ∧
    m ⟨lines, depth⟩ = .ok () ⟨lines ++ page.lines.map (indented depth), depth⟩
  stopped : ∀ why page, m {} = .error why page →
    m ⟨lines, depth⟩ = .error why ⟨lines ++ page.lines.map (indented depth), depth + page.indent⟩

theorem Printer.Movable.addsBelow {m : Printer Unit} (h : m.Movable) (lines : List String)
    (depth : Nat) : m.AddsBelow lines depth := by
  have hmoved : m ⟨lines, depth⟩ = movedResult lines depth (m {}) := by
    rw [← moved_empty lines depth, h.moves]
  constructor
  · intro page hpage
    have hindent : page.indent = 0 := h.balanced {} page hpage
    rw [hmoved, hpage, movedResult, Layout.moved, hindent]
    exact ⟨rfl, rfl⟩
  · intro why page hpage
    rw [hmoved, hpage, movedResult, Layout.moved]

/-- A node printed as a declaration or as a statement, well formed or not, looks the same below any
lines and at any depth. -/
theorem layout_same_at_every_place (annotated : Bool) (n : Node) (lines : List String)
    (depth : Nat) :
    (n.printDecl annotated).AddsBelow lines depth ∧ (n.printStmt annotated).AddsBelow lines depth :=
  ⟨(n.printMovable annotated).decl.addsBelow lines depth,
    (n.printMovable annotated).stmt.addsBelow lines depth⟩

-- a loop whose body cannot be printed to its end, below a line and two levels deep
example :
    let loop : Node := .whileStmt (.lit (.bool true) ⟨1, 8⟩) []
      [.writeStmt (.lit (.int 1) ⟨2, 11⟩), .foreign]
    loop.printStmt false ⟨["x"], 2⟩ = .error (.unprintable .statement .foreign)
      ⟨["x", "        while (true) \x7b", "            cout << 1;"], 3⟩ := by
  rfl

end Sema
