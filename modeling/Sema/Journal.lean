import Sema.Diagnostic.Basic
import Sema.Fault

/-! # The journal of a compilation

Diagnostics are kept in the order they were reported. The flag `failed` speaks of the current phase
only: starting a phase clears it and keeps the diagnostics.

A listener is shown the text of each diagnostic. Of a diagnostic without a text it is shown nothing.
That a report then ends with a fault, which in an analysis is the end of the analysis, is followed
for single reports only.
-/

namespace Sema

/-- The kind that the code names, or a complaint about the code. -/
def DiagnosticKind.ofCode (code : String) : Except Fault DiagnosticKind :=
  match DiagnosticKind.ofCode? code with
  | some k => .ok k
  | none => .error (.unknownKind code)

def Diagnostic.text (d : Diagnostic) : Except Fault String := written d.text?

structure Journal where
  diagnostics : List Diagnostic := []
  failed : Bool := false
  /-- the text shown to a listener so far, if one is attached -/
  echo : Option String := none

namespace Journal

def record (j : Journal) (d : Diagnostic) : Journal where
  diagnostics := j.diagnostics ++ [d]
  failed := true
  echo := j.echo.map (· ++ d.text?.elim "" (· ++ "\n"))

def recordAll (j : Journal) (ds : List Diagnostic) : Journal := ds.foldl record j

def startPhase (j : Journal) : Journal := { j with failed := false }

/-- How many diagnostics are of the kind, or how many there are. -/
def count (j : Journal) : Option DiagnosticKind → Nat
  | none => j.diagnostics.length
  | some k => j.diagnostics.countP (·.kind == some k)

def kinds (j : Journal) : List (Option DiagnosticKind) := j.diagnostics.map Diagnostic.kind

@[simp] theorem recordAll_diagnostics (j : Journal) (ds : List Diagnostic) :
    (j.recordAll ds).diagnostics = j.diagnostics ++ ds := by
  induction ds generalizing j with
  | nil => simp [recordAll]
  | cons d ds ih =>
    rw [show j.recordAll (d :: ds) = (j.record d).recordAll ds from rfl, ih]
    simp [record]

@[simp] theorem recordAll_failed (j : Journal) (ds : List Diagnostic) :
    (j.recordAll ds).failed = (j.failed || !ds.isEmpty) := by
  induction ds generalizing j with
  | nil => simp [recordAll]
  | cons d ds ih =>
    rw [show j.recordAll (d :: ds) = (j.record d).recordAll ds from rfl, ih]
    simp [record]

@[simp] theorem startPhase_diagnostics (j : Journal) :
    j.startPhase.diagnostics = j.diagnostics := rfl

@[simp] theorem startPhase_failed (j : Journal) : j.startPhase.failed = false := rfl

end Journal

/-- A diagnostic of the given kind. Without words of its own it takes those of its kind, so it needs
one or the other. -/
def Diagnostic.ofKind? (kind : Option DiagnosticKind) (pos : Pos) (message : Option String) :
    Except Fault Diagnostic :=
  match message.filter (· ≠ ""), kind with
  | some words, _ => .ok ⟨pos, words, kind⟩
  | none, some k => .ok (.ofKind k pos)
  | none, none => .error .missingPart

end Sema
