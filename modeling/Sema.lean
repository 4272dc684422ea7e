import Sema.Analysis
import Sema.Diagnostic.Basic
import Sema.Diagnostic.Kind
import Sema.Editor
import Sema.Fault
import Sema.Journal
import Sema.Position
import Sema.Printer.Expr
import Sema.Printer.Layout
import Sema.Resolution.Decl
import Sema.Resolution.Expr
import Sema.Resolution.Resolver
import Sema.Session
import Sema.Symbol
import Sema.SymbolTable
import Sema.Text.Numeral
import Sema.Text.Quoted
import Sema.Text.Visible
import Sema.Tree.Node
import Sema.Tree.Walk
import Sema.Ty
import Sema.Typing.Check
import Sema.Typing.Expr
import Sema.Typing.Operator
import Sema.Typing.Program
import Sema.Typing.Stmt
import Sema.Proofs.Typing.Agreement
import Sema.Proofs.Resolution.Rules
import Sema.Proofs.Resolution.Runs
import Sema.Proofs.Resolution.Binding
import Sema.Proofs.Typing.Decision
import Sema.Proofs.Verdict
import Sema.Proofs.Resolution.Layout
import Sema.Proofs.Tree.Grammar
import Sema.Proofs.Resolution.Progress
import Sema.Proofs.Resolution.Scoping
import Sema.Proofs.Tree.Context
import Sema.Proofs.Typing.Absorption
import Sema.Proofs.Resolution.Erasure
import Sema.Proofs.Reanalysis
import Sema.Proofs.Staleness
import Sema.Proofs.Resolution.Moves
import Sema.Proofs.StructLayouts
import Sema.Proofs.Resolution.Symbols
import Sema.Proofs.Tree.Operators
import Sema.Proofs.Typing.Progress
import Sema.Proofs.Printer.Progress
import Sema.Proofs.UserErrors
import Sema.Proofs.Resolution.Blame
import Sema.Proofs.Resolution.Discipline
import Sema.Proofs.Tree.Relabel
import Sema.Proofs.Tree.Renaming
import Sema.Proofs.Resolution.Renaming
import Sema.Proofs.Typing.Renaming
import Sema.Proofs.Renaming
import Sema.Proofs.Printer.Reader
import Sema.Proofs.Printer.Legible
import Sema.Proofs.Printer.Statements
import Sema.Proofs.Printer.RoundTrip
import Sema.Proofs.Sessions
import Sema.Proofs.Tree.Shape
import Sema.Proofs.Resolution.Shape
import Sema.Proofs.Tree.Places
import Sema.Proofs.Typing.Places
import Sema.Proofs.Places
import Sema.Proofs.Resolution.Acceptance
import Sema.Proofs.Resolution.Functions
import Sema.Proofs.Typing.Calls
import Sema.Proofs.AccessPaths
import Sema.Proofs.Resolution.Faults
import Sema.Proofs.Typing.Parts
import Sema.Proofs.Typing.Faults
import Sema.Proofs.Typing.Assignments
import Sema.Proofs.Printer.Indentation
import Sema.Proofs.Printer.Annotation
import Sema.Proofs.Independence
import Sema.Proofs.Resolution.Visits
import Sema.Proofs.Resolution.Writes
import Sema.Proofs.TableHistory
import Sema.Proofs.Markers
import Sema.Proofs.Printer.Signatures
