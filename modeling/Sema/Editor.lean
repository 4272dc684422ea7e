import Sema.Analysis

/-! # Diagnostics for an editor

An editor is told of diagnostics in the terms of a protocol. The protocol is a parameter: it says
what grades of severity there are, and which lines and characters make a place.
-/

namespace Sema

/-- A place in an editor's document, with lines and characters counted from zero. -/
structure Place where
  line : Int
  character : Int
  deriving DecidableEq, Repr

/-- What is asked of the protocol of an editor. -/
structure EditorProtocol where
  Severity : Type
  /-- how severe a mistake in a program is -/
  error : Severity
  /-- the place at a line and a character, unless one of them is not taken -/
  place : Int → Int → Except Fault Place

/-- A diagnostic as an editor shows it, over the text from `start` up to `stop`. -/
structure Marker (protocol : EditorProtocol) where
  start : Place
  stop : Place
  message : String
  severity : protocol.Severity
  /-- the program that found it -/
  source : String
  code : Option String

/-- What an editor is told about a document. -/
structure DocumentReport (protocol : EditorProtocol) where
  uri : String
  markers : List (Marker protocol)
  verdict : Verdict

section

variable (protocol : EditorProtocol)

/-- Marks one character. Positions before the first line or column are taken to it. -/
def Marker.make (pos : Pos) (message : String) (severity : protocol.Severity) (source : String)
    (code : Option String) : Except Fault (Marker protocol) := do
  let line := max 0 (pos.line - 1)
  let character := max 0 (pos.col - 1)
  let start ← protocol.place line character
  let stop ← protocol.place line (character + 1)
  return ⟨start, stop, message, severity, source, code⟩

def Diagnostic.marker (d : Diagnostic) : Except Fault (Marker protocol) :=
  Marker.make protocol d.pos d.message protocol.error "harambe" (d.kind.map DiagnosticKind.code)

def reportDocument (uri : String) (program : Program) : Except Fault (DocumentReport protocol) := do
  let verdict ← (analyze {} program).outcome
  let markers ← verdict.diagnostics.mapM (Diagnostic.marker protocol)
  return ⟨uri, markers, verdict⟩

end

/-- A protocol that takes the numbers from zero to the limit, and looks at the line first. It grades
severity by level, from the most severe on. -/
def EditorProtocol.upTo (limit : Int) : EditorProtocol where
  Severity := Nat
  error := 1
  place line character :=
    if line < 0 ∨ limit < line then .error (.outOfRange .line line (words .line line))
    else if character < 0 ∨ limit < character then
      .error (.outOfRange .character character (words .character character))
    else .ok ⟨line, character⟩
where
  /-- Without a text for the number, the words are about that. -/
  words (coordinate : Coordinate) (value : Int) : String :=
    match Text.numeral? value with
    | some number => "Position." ++ coordinate.text ++ " should be in range [0:" ++
        toString limit ++ "], but was " ++ number ++ "."
    | none => Text.digitComplaint

end Sema
