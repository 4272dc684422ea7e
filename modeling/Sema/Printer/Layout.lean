import Sema.Printer.Expr

/-! # Programs as text

Declarations and statements are laid out line by line, four blanks deeper in each body. A fault
leaves the lines written so far and the depth it was met at.
-/

namespace Sema

/-- The lines written so far, and how deep the next one stands. -/
structure Layout where
  lines : List String := []
  indent : Nat := 0

def Layout.text (l : Layout) : String := "\n".intercalate l.lines ++ "\n"

/-- Writing that may meet a fault; what was written stays. -/
abbrev Printer := EStateM Fault Layout

namespace Printer

/-- An empty line is not indented. -/
def line (text : String) : Printer Unit :=
  modify fun l =>
    { l with lines := l.lines ++
      [if text = "" then "" else String.ofList (List.replicate (4 * l.indent) ' ') ++ text] }

def deeper (body : Printer Unit) : Printer Unit := do
  modify fun l => { l with indent := l.indent + 1 }
  body
  modify fun l => { l with indent := l.indent - 1 }

/-- Writes a line whose text may be a fault. -/
def lineOf (text : Except Fault String) : Printer Unit := do
  match text with
  | .ok text => line text
  | .error why => throw why

end Printer

namespace Node

open Printer

/-- The first line of a function. Its parameters are looked at before its result type. -/
def headText (type : Node) (id : Ident) (formals : List Node) : Except Fault String := do
  let formals ← formals.mapM formalText
  return (← type.typeText) ++ " " ++ id.name ++ "(" ++ ", ".intercalate formals ++ ") \x7b"

mutual

def printDecl (annotated : Bool) : Node → Printer Unit
  | .varDecl type id => lineOf (do return (← type.typeText) ++ " " ++ id.name ++ ";")
  | .fnDecl type id formals decls stmts => do
    lineOf (headText type id formals)
    deeper do
      printDecls annotated decls
      printStmts annotated stmts
    line "\x7d"
    line ""
  | .structDecl id decls => do
    line ("struct " ++ id.name ++ "\x7b")
    deeper (printDecls annotated decls)
    line "\x7d;"
    line ""
  | node => throw (.unprintable .declaration node)

def printDecls (annotated : Bool) : List Node → Printer Unit
  | [] => return
  | d :: ds => do
    printDecl annotated d
    printDecls annotated ds

def printStmt (annotated : Bool) : Node → Printer Unit
  | .assignStmt e => lineOf (do return (← e.assignText annotated) ++ ";")
  | .stepStmt .inc e => lineOf (do return (← e.exprText annotated) ++ "++;")
  | .stepStmt .dec e => lineOf (do return (← e.exprText annotated) ++ "--;")
  | .readStmt e => lineOf (do return "cin >> " ++ (← e.exprText annotated) ++ ";")
  | .writeStmt e => lineOf (do return "cout << " ++ (← e.exprText annotated) ++ ";")
  | .ifStmt cond decls stmts => do
    lineOf (do return "if (" ++ (← cond.exprText annotated) ++ ") \x7b")
    deeper do
      printDecls annotated decls
      printStmts annotated stmts
    line "\x7d"
  | .ifElseStmt cond thenDecls thenStmts elseDecls elseStmts => do
    lineOf (do return "if (" ++ (← cond.exprText annotated) ++ ") \x7b")
    deeper do
      printDecls annotated thenDecls
      printStmts annotated thenStmts
    line "\x7d"
    line "else \x7b"
    deeper do
      printDecls annotated elseDecls
      printStmts annotated elseStmts
    line "\x7d"
  | .whileStmt cond decls stmts => do
    lineOf (do return "while (" ++ (← cond.exprText annotated) ++ ") \x7b")
    deeper do
      printDecls annotated decls
      printStmts annotated stmts
    line "\x7d"
  | .callStmt e => lineOf (do return (← e.exprText annotated) ++ ";")
  | .returnStmt .missing _ => line "return;"
  | .returnStmt value _ => lineOf (do return "return " ++ (← value.exprText annotated) ++ ";")
  | node => throw (.unprintable .statement node)

def printStmts (annotated : Bool) : List Node → Printer Unit
  | [] => return
  | s :: ss => do
    printStmt annotated s
    printStmts annotated ss

end

end Node

/-- Lays out a program on a page that is cleared first, and yields the text of the page. -/
def Printer.program (annotated : Bool) (program : Program) : Printer String := do
  set ({} : Layout)
  Node.printDecls annotated program
  return (← get).text

/-- Lays out a program on an empty page, and yields the page as it was left. -/
def Program.print (annotated : Bool) (program : Program) : Except Fault String × Layout :=
  match Node.printDecls annotated program {} with
  | .ok _ page => (.ok page.text, page)
  | .error why page => (.error why, page)

end Sema
