import Sema.Analysis
import Sema.Printer.Layout
import Sema.Tree.Walk

/-! # Sessions

A session keeps one journal with a listener, one symbol table, its programs as the analyses have
left them, the return type in force and a page to print on. Each command acts on it and is answered.
-/

namespace Sema

structure Session where
  journal : Journal := { echo := some "" }
  table : SymbolTable := .empty
  programs : List Program := []
  /-- the return type in force in the type analysis that the session keeps -/
  expected : Option Ty := none
  page : Layout := {}

inductive Command where
  | enter
  | exit
  | declare (name : String) (symbol : Option Symbol)
  | lookupLocal (name : String)
  | lookupLexical (name : String)
  | resolveStruct (name : String)
  | field (struct name : String)
  | dump
  | summary
  /-- puts a table of one scope in place of the session's -/
  | replaceTable (scope : Scope)
  | report (pos : Pos) (message : String) (kind : Option String)
  | reportKind (kind : Option String) (pos : Pos) (message : Option String)
  | startPhase
  | count (kind : Option String)
  | kinds
  | echoed
  | analyze (index : Nat)
  /-- names on a table of their own -/
  | names (index : Nat)
  /-- names on the session's table -/
  | namesHere (index : Nat)
  /-- types by a type analysis of their own -/
  | types (index : Nat)
  /-- types by the type analysis that the session keeps -/
  | typesHere (index : Nat)
  | expected
  | print (index : Nat) (annotated : Bool)
  /-- prints on the session's page, with annotations -/
  | printHere (index : Nat)
  | page
  | idents (index : Nat)

inductive Reply where
  | done
  | scope (scope : Scope)
  | symbol (symbol : Option Symbol)
  | text (text : String)
  | summary (text : String) (depth : Nat)
  | filed (text : String) (d : Diagnostic)
  | number (n : Nat)
  | kinds (kinds : List (Option DiagnosticKind))
  | verdict (v : Verdict)
  | type (t : Option Ty)
  | page (l : Layout)
  | idents (ids : List Ident)

namespace Session

/-- The answer to a command, and the session after it. -/
abbrev Answer := Except Fault Reply × Session

def program (s : Session) (index : Nat) : Program := s.programs.getD index []

/-- A command that changes the table, or fails and leaves it. -/
def onTable (s : Session) (outcome : Except TableFault SymbolTable) : Answer :=
  match outcome with
  | .ok table => (.ok .done, { s with table := table })
  | .error why => (.error (.table why), s)

def onLookup (s : Session) (outcome : Except TableFault (Option Symbol)) : Answer :=
  match outcome with
  | .ok symbol => (.ok (.symbol symbol), s)
  | .error why => (.error (.table why), s)

/-- A command that reports a diagnostic, or fails to make one. The diagnostic is reported even if it
cannot be shown. -/
def onReport (s : Session) (outcome : Except Fault Diagnostic)
    (reply : String → Diagnostic → Reply) : Answer :=
  match outcome with
  | .ok d => (d.text.map (reply · d), { s with journal := s.journal.record d })
  | .error why => (.error why, s)

def onNames (s : Session) (index : Nat) (names : Resolved Program) (reply : Reply) : Answer :=
  (match names.stage.fault with
    | some why => .error why
    | none => .ok reply,
   { s with
      journal := s.journal.recordAll names.reports
      programs := s.programs.set index names.value })

/-- A check of types. It fails if the journal has gained a diagnostic by it. -/
def onTypes (s : Session) (check : Check Ty) : Answer :=
  let journal := s.journal.recordAll check.reports
  (check.outcome.map fun t =>
    .type (some (if s.journal.count none < journal.count none then .error else t)),
   { s with journal := journal })

/-- A program printed on the session's page. -/
def onPage (s : Session) (print : Printer String) : Answer :=
  match print s.page with
  | .ok text page => (.ok (.text text), { s with page := page })
  | .error why page => (.error why, { s with page := page })

def step (s : Session) : Command → Answer
  | .enter => (.ok .done, { s with table := s.table.enterScope })
  | .exit =>
    match s.table.exitScope with
    | .ok (scope, table) => (.ok (.scope scope), { s with table := table })
    | .error why => (.error (.table why), s)
  | .declare name symbol => s.onTable (s.table.declare name symbol)
  | .lookupLocal name => s.onLookup (s.table.lookupLocal name)
  | .lookupLexical name => s.onLookup (s.table.lookupLexical name)
  | .resolveStruct name => (.ok (.symbol ((s.table.resolveStruct name).map StructDef.symbol)), s)
  | .field struct name =>
    match s.table.resolveStruct struct with
    | some d => ((d.field name).map .symbol, s)
    | none => (.error .missingPart, s)
  | .dump => (.ok (.text s.table.dump), s)
  | .summary => (.ok (.summary s.table.summary s.table.depth), s)
  | .replaceTable scope => (.ok .done, { s with table := .ofScope scope })
  | .report pos message kind =>
    s.onReport (do return ⟨pos, message, ← kind.mapM DiagnosticKind.ofCode⟩)
      fun text _ => .text text
  | .reportKind kind pos message =>
    s.onReport (do Diagnostic.ofKind? (← kind.mapM DiagnosticKind.ofCode) pos message) .filed
  | .startPhase => (.ok .done, { s with journal := s.journal.startPhase })
  | .count kind => (do return .number (s.journal.count (← kind.mapM DiagnosticKind.ofCode)), s)
  | .kinds => (.ok (.kinds s.journal.kinds), s)
  | .echoed => (.ok (.text (s.journal.echo.getD "")), s)
  | .analyze index =>
    let run := Sema.analyze s.journal (s.program index)
    (run.outcome.map .verdict,
      { s with journal := run.journal, programs := s.programs.set index run.program })
  | .names index => s.onNames index (resolveProgram (s.program index) .empty) .done
  | .namesHere index =>
    let names := resolveProgram (s.program index) s.table
    { s with table := names.stage.table }.onNames index names (.number (s.table.depth + 1))
  | .types index => s.onTypes (checkDecls none (s.program index)).check
  | .typesHere index =>
    let types := checkDecls s.expected (s.program index)
    { s with expected := types.expected }.onTypes types.check
  | .expected => (.ok (.type s.expected), s)
  | .print index annotated => ((Program.print annotated (s.program index)).1.map .text, s)
  | .printHere index => s.onPage (Printer.program true (s.program index))
  | .page => (.ok (.page s.page), s)
  | .idents index => (.ok (.idents (Node.identsAll (s.program index))), s)

end Session

end Sema
