import Sema.Proofs.Printer.Progress
import Sema.Proofs.Tree.Erasure

/-!
# Annotations stand behind uses

With annotations a program is printed as it is without them, once every use has been given the
signature of its symbol for a part of its name. Without annotations symbols are not printed at all.
-/

namespace Sema

open Printer

/-- What takes the place of a use is printed without annotations as the use is printed, and what
takes the place of another identifier has its name. -/
structure PrintsAlike (annotated : Bool) (use name : Ident → Ident) : Prop where
  use_text : ∀ id, (use id).text false = id.text annotated
  name_eq : ∀ id, (name id).name = id.name

namespace Node

section

variable {annotated : Bool} {use name : Ident → Ident} {place : Pos → Pos}

theorem unprintable_relabel (slot : Slot) (n : Node) :
    Fault.unprintable slot (n.relabel use name place) = Fault.unprintable slot n := by
  rw [Fault.unprintable, Fault.unprintable, label_relabel]

theorem typeText_relabel (h : PrintsAlike annotated use name) (n : Node) :
    (n.relabel use name place).typeText = n.typeText := by
  cases n with
  | primType type => rfl
  | structType id => rw [relabel, typeText, typeText, h.name_eq]
  | _ => exact congrArg Except.error (unprintable_relabel .type _)

theorem formalText_relabel (h : PrintsAlike annotated use name) (n : Node) :
    formalText (n.relabel use name place) = formalText n := by
  rw [formalText, formalText, typed?_relabel]
  cases n.typed? with
  | none => rfl
  | some p => simp only [Option.map_some, typeText_relabel h, h.name_eq]

theorem headText_relabel (h : PrintsAlike annotated use name) (type : Node) (id : Ident)
    (formals : List Node) :
    headText (type.relabel use name place) (name id) (relabelAll use name place formals) =
      headText type id formals := by
  have hformals :
      (relabelAll use name place formals).mapM formalText = formals.mapM formalText := by
    induction formals with
    | nil => rfl
    | cons f formals ih => rw [relabelAll, List.mapM_cons, List.mapM_cons, ih,
        formalText_relabel h]
  rw [headText, headText, hformals, typeText_relabel h, h.name_eq]

private theorem exprTexts_relabel {es : List Node}
    (ih : ∀ e ∈ es, exprText false (e.relabel use name place) = exprText annotated e) :
    exprTexts false (relabelAll use name place es) = exprTexts annotated es := by
  induction es with
  | nil => rfl
  | cons e es ihes =>
    rw [List.forall_mem_cons] at ih
    rw [relabelAll, exprTexts, exprTexts, ih.1, ihes ih.2]

theorem exprText_relabel (h : PrintsAlike annotated use name) (e : Node) :
    exprText false (e.relabel use name place) = exprText annotated e := by
  induction e using Node.induct with
  | step e ih =>
    cases e with
    | lit value pos => rfl
    | ident id => rw [relabel, exprText, exprText, h.use_text]
    | dot base field =>
      rw [relabel, exprText, exprText, ih base (by simp [children]), h.use_text]
    | assign e e' | binary op e e' =>
      rw [relabel, exprText, exprText, ih e (by simp [children]), ih e' (by simp [children])]
    | call callee args =>
      have hargs : exprTexts false (relabelAll use name place args) = exprTexts annotated args :=
        exprTexts_relabel ih
      rw [relabel, exprText, exprText, hargs, h.use_text]
    | unary op e => rw [relabel, exprText, exprText, ih e (by simp [children])]
    | _ => exact congrArg Except.error (unprintable_relabel .expression _)

theorem assignText_relabel (h : PrintsAlike annotated use name) (e : Node) :
    assignText false (e.relabel use name place) = assignText annotated e := by
  cases e with
  | assign target value =>
    rw [relabel, assignText, assignText, exprText_relabel h, exprText_relabel h]
  | _ => rfl

/-- With its identifiers replaced the node is printed as it was, whatever it is taken for. -/
structure PrintKept (annotated : Bool) (use name : Ident → Ident) (place : Pos → Pos)
    (n : Node) : Prop where
  decl : printDecl false (n.relabel use name place) = printDecl annotated n
  stmt : printStmt false (n.relabel use name place) = printStmt annotated n

private theorem printDecls_relabel {ds : List Node}
    (ih : ∀ d ∈ ds, d.PrintKept annotated use name place) :
    printDecls false (relabelAll use name place ds) = printDecls annotated ds := by
  induction ds with
  | nil => rfl
  | cons d ds ihds =>
    rw [List.forall_mem_cons] at ih
    rw [relabelAll, printDecls, printDecls, ih.1.decl, ihds ih.2]

private theorem printStmts_relabel {ss : List Node}
    (ih : ∀ s ∈ ss, s.PrintKept annotated use name place) :
    printStmts false (relabelAll use name place ss) = printStmts annotated ss := by
  induction ss with
  | nil => rfl
  | cons s ss ihss =>
    rw [List.forall_mem_cons] at ih
    rw [relabelAll, printStmts, printStmts, ih.1.stmt, ihss ih.2]

private theorem printDecl_relabel (h : PrintsAlike annotated use name) (d : Node)
    (ih : ∀ m ∈ d.children, m.PrintKept annotated use name place) :
    printDecl false (d.relabel use name place) = printDecl annotated d := by
  cases d with
  | varDecl type id => rw [relabel, printDecl, printDecl, typeText_relabel h, h.name_eq]
  | fnDecl type id formals decls stmts =>
    simp only [children, List.forall_mem_cons, List.forall_mem_append] at ih
    obtain ⟨-, -, ihdecls, ihstmts⟩ := ih
    rw [relabel, printDecl, printDecl, headText_relabel h, printDecls_relabel ihdecls,
      printStmts_relabel ihstmts]
  | structDecl id decls =>
    have hdecls : printDecls false (relabelAll use name place decls) = printDecls annotated decls :=
      printDecls_relabel ih
    rw [relabel, printDecl, printDecl, hdecls, h.name_eq]
  | _ => exact congrArg throw (unprintable_relabel .declaration _)

private theorem printStmt_relabel (h : PrintsAlike annotated use name) (s : Node)
    (ih : ∀ m ∈ s.children, m.PrintKept annotated use name place) :
    printStmt false (s.relabel use name place) = printStmt annotated s := by
  cases s with
  | assignStmt e => rw [relabel, printStmt, printStmt, assignText_relabel h]
  | stepStmt op e => cases op <;> rw [relabel, printStmt, printStmt, exprText_relabel h]
  | readStmt e | writeStmt e | callStmt e =>
    rw [relabel, printStmt, printStmt, exprText_relabel h]
  | ifStmt cond ds ss | whileStmt cond ds ss =>
    simp only [children, List.forall_mem_cons, List.forall_mem_append] at ih
    rw [relabel, printStmt, printStmt, exprText_relabel h, printDecls_relabel ih.2.1,
      printStmts_relabel ih.2.2]
  | ifElseStmt cond ds ss ds' ss' =>
    simp only [children, List.forall_mem_cons, List.forall_mem_append] at ih
    obtain ⟨-, ihds, ihss, ihds', ihss'⟩ := ih
    rw [relabel, printStmt, printStmt, exprText_relabel h, printDecls_relabel ihds,
      printStmts_relabel ihss, printDecls_relabel ihds', printStmts_relabel ihss']
  | returnStmt value pos =>
    by_cases hvalue : value = .missing
    · subst hvalue
      rfl
    · -- a value that is there is not taken for one that is left out
      have hvalue' : value.relabel use name place ≠ .missing :=
        fun hmissing => hvalue (eq_missing_of_relabel hmissing)
      rw [relabel, printStmt_return hvalue, printStmt_return hvalue', exprText_relabel h]
  | _ => exact congrArg throw (unprintable_relabel .statement _)

theorem printKept (h : PrintsAlike annotated use name) (n : Node) :
    n.PrintKept annotated use name place := by
  induction n using Node.induct with
  | step n ih => exact ⟨printDecl_relabel h n ih, printStmt_relabel h n ih⟩

end

end Node

theorem Program.print_relabel {annotated : Bool} {use name : Ident → Ident} {place : Pos → Pos}
    (h : PrintsAlike annotated use name) (program : Program) :
    Program.print false (Node.relabelAll use name place program) =
      Program.print annotated program := by
  rw [Program.print, Program.print, Node.printDecls_relabel fun d _ => Node.printKept h d]

/-- The identifier with the signature of its symbol, if it has one, for a part of its name. -/
def Ident.annotate (id : Ident) : Ident :=
  match id.symbol with
  | some symbol => { id with name := id.name ++ "(" ++ symbol.text ++ ")" }
  | none => id

/-- The program with the signature of its symbol in the name of every use. Names that are declared
and names of structs in types stay as they are. -/
def Program.annotateUses (program : Program) : Program :=
  Node.relabelAll Ident.annotate id id program

theorem printsAlike_erase : PrintsAlike false Ident.erase Ident.erase where
  use_text _ := rfl
  name_eq _ := rfl

theorem printsAlike_annotate : PrintsAlike true Ident.annotate id where
  use_text id := by
    obtain ⟨name, pos, _ | symbol⟩ := id <;> rfl
  name_eq _ := rfl

/-- Printed without annotations, a program gives the text or meets the fault that it would without
its symbols. With annotations it is printed as it would be without them if every use had the
signature of its symbol in its name. -/
theorem annotations_stand_behind_uses (program : Program) :
    Program.print false program = Program.print false (Node.eraseAll program) ∧
      Program.print true program = Program.print false program.annotateUses := by
  constructor
  · exact (Program.print_relabel printsAlike_erase program).symm
  · exact (Program.print_relabel printsAlike_annotate program).symm

-- a variable and a use of it that carry the same symbol
example :
    let x : Ident := ⟨"x", ⟨1, 5⟩, some (.var "int")⟩
    let program : Program := [.varDecl (.primType .int) x,
      .fnDecl (.primType .void) ⟨"f", ⟨2, 6⟩, none⟩ [] [] [.writeStmt (.ident x)]]
    (Program.print true program).2.lines =
      ["int x;", "void f() \x7b", "    cout << x(int);", "\x7d", ""] := by
  rfl

end Sema
