import Sema.Proofs.Reanalysis
import Sema.Session

/-!
# Sessions

From command to command a session keeps a journal, a type analysis and a page, and a fault leaves
them as it finds them. What a command answers about a program depends on none of that: it is what
new ones would answer about the program as it now stands.
-/

namespace Sema

theorem checkDecl_check (expected expected' : Option Ty) (d : Node) :
    (checkDecl expected d).check = (checkDecl expected' d).check := by
  cases d with
  | fnDecl type id formals decls stmts =>
    cases hresult : returnType? type id with
    | none => simp only [checkDecl, hresult]
    | some result => rw [checkDecl_function _ _ _ _ hresult, checkDecl_function _ _ _ _ hresult]
  | _ => rfl

/-- Every function brings its own return type into force, so it does not matter which one was. -/
theorem checkDecls_check (expected expected' : Option Ty) (ds : List Node) :
    (checkDecls expected ds).check = (checkDecls expected' ds).check := by
  induction ds generalizing expected expected' with
  | nil => rfl
  | cons d ds ih =>
    have hfirst := checkDecl_check expected expected' d
    cases houtcome : (checkDecl expected' d).check.outcome with
    | error why => simp only [checkDecls, hfirst, houtcome]
    | ok t =>
      have hrest := ih (checkDecl expected d).expected (checkDecl expected' d).expected
      simp only [checkDecls, hfirst, houtcome, hrest]

namespace Session

/-- Printing clears the page, so it does not matter what was left on it. -/
theorem onPage_program (s : Session) (annotated : Bool) (program : Program) :
    s.onPage (Printer.program annotated program) =
      ((Program.print annotated program).1.map .text,
        { s with page := (Program.print annotated program).2 }) := by
  have hpage : Printer.program annotated program s.page =
      EStateM.bind (Node.printDecls annotated program) (fun _ page => .ok page.text page) {} := rfl
  cases hprint : Node.printDecls annotated program {} with
  | ok _ page =>
    simp only [EStateM.bind, hprint] at hpage
    simp [onPage, Program.print, hpage, hprint, Except.map]
  | error why page =>
    simp only [EStateM.bind, hprint] at hpage
    simp [onPage, Program.print, hpage, hprint, Except.map]

/-- The diagnostics that the journal has gained are those of the check, however many it held. -/
theorem onTypes_checkDecls (s : Session) (expected : Option Ty) (program : Program) :
    s.onTypes (checkDecls expected program).check =
      ((checkProgram none program).check.outcome.map fun t => .type (some t),
        { s with journal := s.journal.recordAll (checkProgram none program).check.reports }) := by
  rw [checkDecls_check expected none]
  rcases hdecls : (checkDecls none program).check with ⟨rs, why | t⟩
  · simp [onTypes, checkProgram, hdecls, Except.map]
  · cases rs <;> simp [onTypes, checkProgram, hdecls, Except.map, Journal.count]

theorem step_analyze (s : Session) (index : Nat) :
    s.step (.analyze index) =
      ((Sema.analyze {} (s.program index)).outcome.map .verdict,
        { s with
          journal := s.journal.startPhase.recordAll
            (Sema.analyze {} (s.program index)).journal.diagnostics
          programs := s.programs.set index (Sema.analyze {} (s.program index)).program }) := by
  simp only [step]
  rw [analyze_eq]

theorem step_typesHere (s : Session) (index : Nat) :
    s.step (.typesHere index) =
      ((checkProgram none (s.program index)).check.outcome.map fun t => .type (some t),
        { s with
          expected := (checkDecls s.expected (s.program index)).expected
          journal := s.journal.recordAll (checkProgram none (s.program index)).check.reports }) := by
  simp only [step, onTypes_checkDecls]

theorem step_printHere (s : Session) (index : Nat) :
    s.step (.printHere index) =
      ((Program.print true (s.program index)).1.map .text,
        { s with page := (Program.print true (s.program index)).2 }) :=
  onPage_program s true (s.program index)

/-- The same table and the same programs, whatever else has been left in the two sessions. -/
structure Alike (s s' : Session) : Prop where
  table_eq : s.table = s'.table
  programs_eq : s.programs = s'.programs

end Session

/-- The command asks what has been left in the journal, in the type analysis or on the page. -/
def Command.inspects : Command → Bool
  | .count _ | .kinds | .echoed | .expected | .page => true
  | _ => false

namespace Session

theorem Alike.program_eq {s s' : Session} (h : s.Alike s') (index : Nat) :
    s.program index = s'.program index := by
  rw [program, program, h.programs_eq]

/-- Answered alike: the same answer, sessions that go on alike, and the same new diagnostics. -/
structure Agree {α : Type} (s s' : Session) (next next' : α × Session) : Prop where
  answer_eq : next.1 = next'.1
  alike : next.2.Alike next'.2
  gained : ∃ new, next.2.journal.diagnostics = s.journal.diagnostics ++ new ∧
    next'.2.journal.diagnostics = s'.journal.diagnostics ++ new

section Agree

variable {s s' : Session}

theorem Agree.of_silent {α : Type} {next next' : α × Session} (hanswer : next.1 = next'.1)
    (h : next.2.Alike next'.2) (hnext : next.2.journal.diagnostics = s.journal.diagnostics)
    (hnext' : next'.2.journal.diagnostics = s'.journal.diagnostics) : Agree s s' next next' :=
  ⟨hanswer, h, [], by rw [hnext, List.append_nil], by rw [hnext', List.append_nil]⟩

theorem Alike.agree_quiet {α : Type} (h : s.Alike s') (answer : α) :
    Agree s s' (answer, s) (answer, s') :=
  .of_silent rfl h rfl rfl

theorem Alike.agree_table (h : s.Alike s') (answer : Except Fault Reply) (table : SymbolTable) :
    Agree s s' (answer, { s with table := table }) (answer, { s' with table := table }) :=
  .of_silent rfl ⟨rfl, h.programs_eq⟩ rfl rfl

theorem Alike.agree_onTable (h : s.Alike s') (outcome : Except TableFault SymbolTable) :
    Agree s s' (s.onTable outcome) (s'.onTable outcome) := by
  cases outcome with
  | ok table => exact h.agree_table _ table
  | error why => exact h.agree_quiet _

theorem Alike.agree_onLookup (h : s.Alike s') (outcome : Except TableFault (Option Symbol)) :
    Agree s s' (s.onLookup outcome) (s'.onLookup outcome) := by
  cases outcome <;> exact h.agree_quiet _

theorem Alike.agree_onReport (h : s.Alike s') (outcome : Except Fault Diagnostic)
    (reply : String → Diagnostic → Reply) :
    Agree s s' (s.onReport outcome reply) (s'.onReport outcome reply) := by
  cases outcome with
  | ok d => exact ⟨rfl, ⟨h.table_eq, h.programs_eq⟩, [d], rfl, rfl⟩
  | error why => exact h.agree_quiet _

theorem Alike.agree_onNames (h : s.Alike s') (index : Nat) (names : Resolved Program)
    (reply : Reply) : Agree s s' (s.onNames index names reply) (s'.onNames index names reply) := by
  refine ⟨rfl, ⟨h.table_eq, ?_⟩, names.reports, by simp [onNames], by simp [onNames]⟩
  simp only [onNames, h.programs_eq]

end Agree

/-- No command acts by what the journal, the type analysis or the page have been left with. -/
theorem Alike.step {s s' : Session} (h : s.Alike s') {command : Command}
    (hcommand : command.inspects = false) : Agree s s' (s.step command) (s'.step command) := by
  cases command with
  | enter =>
    simp only [Session.step, h.table_eq]
    exact h.agree_table _ _
  | exit =>
    simp only [Session.step, h.table_eq]
    cases s'.table.exitScope with
    | ok closed => exact h.agree_table _ _
    | error why => exact h.agree_quiet _
  | replaceTable scope => exact h.agree_table _ _
  | declare name symbol =>
    simp only [Session.step, h.table_eq]
    exact h.agree_onTable _
  | lookupLocal name | lookupLexical name =>
    simp only [Session.step, h.table_eq]
    exact h.agree_onLookup _
  | resolveStruct name | dump | summary =>
    simp only [Session.step, h.table_eq]
    exact h.agree_quiet _
  | field struct name =>
    simp only [Session.step, h.table_eq]
    cases s'.table.resolveStruct struct <;> exact h.agree_quiet _
  | report pos message kind | reportKind kind pos message => exact h.agree_onReport _ _
  | startPhase => exact .of_silent rfl ⟨h.table_eq, h.programs_eq⟩ rfl rfl
  | analyze index =>
    simp only [step_analyze, h.program_eq, h.programs_eq]
    exact ⟨rfl, ⟨h.table_eq, rfl⟩, _, Journal.recordAll_diagnostics _ _,
      Journal.recordAll_diagnostics _ _⟩
  | names index =>
    simp only [Session.step, h.program_eq]
    exact h.agree_onNames _ _ _
  | namesHere index =>
    simp only [Session.step, h.program_eq, h.table_eq]
    -- the table is the one that name analysis leaves, open scopes included
    have hnamed := (h.agree_table (.ok .done)
      (resolveProgram (s'.program index) s'.table).stage.table).alike
    obtain ⟨hanswer, halike, hgained⟩ := hnamed.agree_onNames index
      (resolveProgram (s'.program index) s'.table) (.number (s'.table.depth + 1))
    exact ⟨hanswer, halike, hgained⟩
  | types index =>
    simp only [Session.step, onTypes_checkDecls, h.program_eq]
    exact ⟨rfl, ⟨h.table_eq, h.programs_eq⟩, _, Journal.recordAll_diagnostics _ _,
      Journal.recordAll_diagnostics _ _⟩
  | typesHere index =>
    simp only [step_typesHere, h.program_eq]
    exact ⟨rfl, ⟨h.table_eq, h.programs_eq⟩, _, Journal.recordAll_diagnostics _ _,
      Journal.recordAll_diagnostics _ _⟩
  | print index annotated | idents index =>
    simp only [Session.step, h.program_eq]
    exact h.agree_quiet _
  | printHere index =>
    simp only [step_printHere, h.program_eq]
    exact .of_silent rfl ⟨h.table_eq, h.programs_eq⟩ rfl rfl
  | count _ | kinds | echoed | expected | page => cases hcommand

/-- The answers to the commands, one after another, and the session after them. A command that meets
a fault is answered by it, and the session goes on with what it has left. -/
def run (s : Session) : List Command → List (Except Fault Reply) × Session
  | [] => ([], s)
  | command :: commands =>
    let next := s.step command
    let rest := next.2.run commands
    (next.1 :: rest.1, rest.2)

theorem Alike.run {s s' : Session} (h : s.Alike s') {commands : List Command}
    (hcommands : ∀ command ∈ commands, command.inspects = false) :
    Agree s s' (s.run commands) (s'.run commands) := by
  induction commands generalizing s s' with
  | nil => exact h.agree_quiet _
  | cons command commands ih =>
    rw [List.forall_mem_cons] at hcommands
    obtain ⟨hanswer, halike, new, hnew, hnew'⟩ := h.step hcommands.1
    obtain ⟨hanswers, halikes, news, hnews, hnews'⟩ := ih halike hcommands.2
    refine ⟨?_, halikes, new ++ news, ?_, ?_⟩
    · simp only [Session.run, hanswer, hanswers]
    · simp only [Session.run, hnews, hnew, List.append_assoc]
    · simp only [Session.run, hnews', hnew', List.append_assoc]

end Session

/-- There is something to carry over: a check that an unknown operator stops leaves its return type
in force, and a statement that cannot be printed leaves the page indented. -/
example :
    let program : Program :=
      [.fnDecl (.primType .int) ⟨"f", ⟨1, 5⟩, none⟩ [] []
        [.writeStmt (.unary "~" (.lit (.int 1) ⟨2, 9⟩)), .foreign]]
    let s := (({ programs := [program] } : Session).run [.typesHere 0, .printHere 0]).2
    s.expected = some .int ∧ s.page.indent = 1 :=
  ⟨rfl, rfl⟩

end Sema
