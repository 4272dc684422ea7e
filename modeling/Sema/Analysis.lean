import Sema.Journal
import Sema.Resolution.Decl
import Sema.Typing.Program

/-! # Analysis of a program

Names first; types only if no name was blamed. Each phase is judged by what it reports itself.
-/

namespace Sema

/-- Messages on how the analysis gets on. -/
inductive Progress where
  | namesStarted | namesFailed | namesPassed | typesStarted | typesFailed | typesPassed
  deriving DecidableEq, Repr

def Progress.text : Progress → String
  | .namesStarted => "Attempting to analyze names..."
  | .namesFailed => "Name Analysis Unsuccessful!"
  | .namesPassed => "Name Analysis Successful!"
  | .typesStarted => "Attempting to analyze types..."
  | .typesFailed => "Type Analysis Unsuccessful!"
  | .typesPassed => "Type Analysis Successful!"

inductive LogEntry where
  | progress (what : Progress)
  | reported (d : Diagnostic)
  deriving DecidableEq, Repr

def LogEntry.text? : LogEntry → Option String
  | .progress what => return "INFO harambe.analyzer " ++ what.text
  | .reported d => return "ERROR harambe.errors " ++ (← d.text?)

structure Verdict where
  diagnostics : List Diagnostic := []
  namesOk : Bool := false
  typesOk : Bool := false
  resultType : Option Ty := none
  deriving DecidableEq

def Verdict.ok (v : Verdict) : Bool := v.namesOk && v.typesOk

def Verdict.errors (v : Verdict) : Except Fault (List String) := v.diagnostics.mapM Diagnostic.text

/-- What an analysis leaves behind: the program with its names bound as far as it went, the journal,
what was logged, and the verdict unless a fault ended it. -/
structure Run where
  program : Program
  journal : Journal
  log : List LogEntry
  outcome : Except Fault Verdict

/-- The types of a program whose names were bound without a complaint. -/
def Run.types (first : Nat) (journal : Journal) (log : List LogEntry) (program : Program) : Run :=
  let types := (checkProgram none program).check
  let after := journal.recordAll types.reports
  let log := log ++ .progress .typesStarted :: types.reports.map .reported
  match types.outcome with
  | .error why => ⟨program, after, log, .error why⟩
  | .ok type =>
    let verdict : Verdict :=
      { diagnostics := after.diagnostics.drop first, namesOk := true, resultType := some type }
    if after.failed then
      ⟨program, after, log ++ [.progress .typesFailed], .ok verdict⟩
    else
      ⟨program, after.startPhase, log ++ [.progress .typesPassed],
        .ok { verdict with typesOk := true }⟩

/-- Analyses a program on a journal that may hold the diagnostics of earlier runs. -/
def analyze (journal : Journal) (program : Program) : Run :=
  let first := journal.diagnostics.length
  let names := resolveProgram program .empty
  let after := journal.startPhase.recordAll names.reports
  let log := .progress .namesStarted :: names.reports.map .reported
  match names.stage.fault with
  | some why => ⟨names.value, after, log, .error why⟩
  | none =>
    if after.failed then
      ⟨names.value, after, log ++ [.progress .namesFailed],
        .ok { diagnostics := after.diagnostics.drop first }⟩
    else Run.types first after.startPhase (log ++ [.progress .namesPassed]) names.value

end Sema
