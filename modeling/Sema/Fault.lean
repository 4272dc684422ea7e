import Sema.SymbolTable
import Sema.Text.Quoted
import Sema.Tree.Node

/-! # Faults

Why an operation could not go on. Mistakes of the analysed program are no faults: they are reported
as diagnostics. A fault means a tree, a table or an argument that breaks the rules of the analysis.
-/

namespace Sema

/-- What a place in a tree should hold. -/
inductive Slot where
  | declaration | type | statement | expression | accessBase
  deriving DecidableEq, Repr

def Slot.text : Slot → String
  | .declaration => "declaration"
  | .type => "type"
  | .statement => "statement"
  | .expression => "expression"
  | .accessBase => "dot-access base"

/-- A broken rule of the analysis, as opposed to a mistake of the analysed program. -/
inductive Breach where
  /-- a node that does not belong in its slot -/
  | unexpected (slot : Slot) (found : String)
  | unknownUnary (op : String)
  | unknownBinary (op : String)
  | functionNotGlobal (name : String)
  | structNotGlobal (name : String)
  | structNotInScope (name : String)
  | unknownSymbol
  | unprintable (slot : Slot) (found : String)
  | other (words : String)
  deriving DecidableEq, Repr

def Breach.text : Breach → String
  | .unexpected slot found => "unexpected " ++ slot.text ++ " " ++ found
  | .unknownUnary op => "unexpected unary operator '" ++ op ++ "' in UnaryExpr"
  | .unknownBinary op => "unexpected binary operator '" ++ op ++ "' in BinaryExpr"
  | .functionNotGlobal name => "function '" ++ name ++ "' declared outside the global scope"
  | .structNotGlobal name => "struct '" ++ name ++ "' declared outside the global scope"
  | .structNotInScope name => "struct '" ++ name ++ "' is not in scope"
  | .unknownSymbol => "unknown symbol kind Symbol"
  | .unprintable slot found => "cannot unparse " ++ slot.text ++ " " ++ found
  | .other words => words

/-- The coordinates of a place in an editor's document. -/
inductive Coordinate where
  | line | character
  deriving DecidableEq, Repr

def Coordinate.text : Coordinate → String
  | .line => "line"
  | .character => "character"

inductive Fault where
  | breach (what : Breach) (pos : Pos)
  | table (why : TableFault)
  /-- a part was asked for that is not there -/
  | missingPart
  /-- a type that has no description -/
  | undescribed
  | unknownKind (code : String)
  /-- a number was to be turned into text that has too many digits for it -/
  | tooManyDigits
  /-- a number that an editor does not take for a coordinate, and the words in which it says so -/
  | outOfRange (coordinate : Coordinate) (value : Int) (words : String)
  deriving DecidableEq, Repr

/-- The words of a fault, unless one of the numbers in them has too many digits. -/
def Fault.words? : Fault → Option String
  | .breach what pos => return what.text ++ " at " ++ (← pos.text?)
  | .table why => why.message
  | .missingPart => ""
  | .undescribed => ""
  | .unknownKind code => Text.quoted code ++ " is not a valid ErrorKind"
  | .tooManyDigits => Text.digitComplaint
  | .outOfRange _ _ words => words

/-- What comes out of an operation that meets the fault. Without words for it, that is another. -/
def Fault.raised (why : Fault) : Fault :=
  match why.words? with
  | some _ => why
  | none => .tooManyDigits

/-- A text, or the fault of there being none for a number in it. -/
def written (text : Option String) : Except Fault String :=
  match text with
  | some text => .ok text
  | none => .error .tooManyDigits

/-- The breach of finding `node` in a place for something else. -/
def Fault.unexpected (slot : Slot) (node : Node) : Fault :=
  .breach (.unexpected slot node.label) node.pos

/-- The breach of having to print `node` in a place for something else. -/
def Fault.unprintable (slot : Slot) (node : Node) : Fault :=
  .breach (.unprintable slot node.label) .origin

/-- The field of that name in the innermost scope of the struct's layout. -/
def StructDef.field (d : StructDef) (name : String) : Except Fault (Option Symbol) :=
  match d.fields with
  | none => .error .missingPart
  | some fields =>
    match SymbolTable.lookupLocal fields name with
    | .ok symbol => .ok symbol
    | .error why => .error (.table why)

end Sema
