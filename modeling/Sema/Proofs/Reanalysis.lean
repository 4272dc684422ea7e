import Sema.Proofs.Resolution.Erasure
import Sema.Proofs.Verdict

/-!
# Analysing a program again

The analysis of a tree that an analysis has left, finished or not, takes the same steps, reports the
same and leaves the tree as it is. A step that writes a symbol looks only at names and at the open
scopes, and one that writes none finds the same reason not to.
-/

namespace Sema

open Resolver

section Steps

variable (s : Stage)

theorem bindUse_again (id : Ident) : bindUse (bindUse id s).value s = bindUse id s := by
  obtain ⟨t, _ | why⟩ := s
  · cases hlookup : t.lookupLexical id.name with
    | error why => simp [bindUse, hlookup]
    | ok found => cases found <;> simp [bindUse, hlookup]
  · rfl

theorem bindStruct_again (id : Ident) :
    bindStruct (bindStruct id s).value.1 s = bindStruct id s := by
  obtain ⟨t, _ | why⟩ := s
  · cases hd : t.resolveStruct id.name <;> simp [bindStruct, hd]
  · rfl

theorem declare_again (id : Ident) (symbol : Symbol) :
    declare (declare id symbol s).value symbol s = declare id symbol s := by
  obtain ⟨t, _ | why⟩ := s
  · cases hdeclare : t.declare id.name (some symbol) with
    | ok t' => simp [declare, hdeclare]
    | error why => cases why <;> simp [declare, hdeclare]
  · rfl

theorem bindField_again (owner field : Ident) :
    bindField owner (bindField owner field s).value s = bindField owner field s := by
  obtain ⟨t, _ | why⟩ := s
  · cases hsymbol : owner.symbol with
    | none => simp [bindField, hsymbol]
    | some symbol =>
      cases symbol with
      | structVar struct =>
        cases hd : t.resolveStruct struct with
        | none => simp [bindField, hsymbol, hd]
        | some d =>
          cases hfield : d.field field.name with
          | error why => simp [bindField, hsymbol, hd, hfield]
          | ok found => cases found <;> simp [bindField, hsymbol, hd, hfield]
      | _ => simp [bindField, hsymbol]
  · rfl

theorem bindFieldOf_again (base : Node) (field : Ident) :
    bindFieldOf base (bindFieldOf base field s).value s = bindFieldOf base field s := by
  cases howner : base.pathEnd? with
  | none => simp [bindFieldOf, howner]
  | some owner => simpa [bindFieldOf, howner] using bindField_again s owner field

theorem resolveResultType_again (type : Node) :
    resolveResultType (resolveResultType type s).value s = resolveResultType type s := by
  cases type with
  | structType name => simp [resolveResultType, bindStruct_again]
  | _ => rfl

theorem declareStorage_again (type : Node) (id : Ident) :
    declareStorage (declareStorage type id s).value.1 (declareStorage type id s).value.2 s =
      declareStorage type id s := by
  cases type with
  | primType prim => cases prim <;> simp [declareStorage, declare_again]
  | structType name =>
    have hname := bindStruct_again s name
    simp only [declareStorage, bind_apply]
    rcases hbound : bindStruct name s with ⟨⟨name', _ | d⟩, s', rs⟩
    · rw [hbound] at hname
      simp [hname]
    · rw [hbound] at hname
      simp [hname, declare_again]
  | _ => rfl

/-- The fault for a base that is no path names the base and its place, not its symbols. -/
theorem requirePath_erase (base : Node) : requirePath base.erase = requirePath base := by
  unfold requirePath
  rw [Node.pathEnd?_relabel]
  cases base.pathEnd? with
  | none => simp [Fault.unexpected]
  | some owner => rfl

/-- A function is declared by the names of types, which no analysis of its parameters changes. -/
theorem declareFunction_again (type : Node) (id : Ident) {formals formals' : List Node}
    (hformals : Node.eraseAll formals' = Node.eraseAll formals) :
    declareFunction type (declareFunction type id formals s).value formals' s =
      declareFunction type id formals s := by
  have hparams : Node.typeNames? formals' = Node.typeNames? formals := by
    rw [← Node.typeNames?_eraseAll, hformals, Node.typeNames?_eraseAll]
  cases hnames : Node.typeNames? formals with
  | none => simp [declareFunction, hparams, hnames]
  | some params =>
    cases hresult : type.typeName? with
    | none => simp [declareFunction, hparams, hnames, hresult]
    | some result => simp [declareFunction, hparams, hnames, hresult, declare_again]

end Steps

/-- Analysed again from where it was analysed first, what has become of the node fares as the node
did, whatever it is taken for. -/
structure Settles (global : Nat) (n : Node) : Prop where
  expr : ∀ s, resolveExpr (resolveExpr n s).value s = resolveExpr n s
  stmt : ∀ s, resolveStmt global (resolveStmt global n s).value s = resolveStmt global n s
  decl : ∀ s, resolveDecl global (resolveDecl global n s).value s = resolveDecl global n s

section Traversals

variable {global : Nat}

private theorem resolveExprs_again {es : List Node} (ih : ∀ e ∈ es, Settles global e) (s : Stage) :
    resolveExprs (resolveExprs es s).value s = resolveExprs es s := by
  induction es generalizing s with
  | nil => rfl
  | cons e es ihes =>
    rw [List.forall_mem_cons] at ih
    simp [resolveExprs, ih.1.expr, ihes ih.2]

private theorem resolveStmts_again {ss : List Node} (ih : ∀ n ∈ ss, Settles global n) (s : Stage) :
    resolveStmts global (resolveStmts global ss s).value s = resolveStmts global ss s := by
  induction ss generalizing s with
  | nil => rfl
  | cons n ss ihss =>
    rw [List.forall_mem_cons] at ih
    simp [resolveStmts, ih.1.stmt, ihss ih.2]

private theorem resolveDecls_again {ds : List Node} (ih : ∀ d ∈ ds, Settles global d) (s : Stage) :
    resolveDecls global (resolveDecls global ds s).value s = resolveDecls global ds s := by
  induction ds generalizing s with
  | nil => rfl
  | cons d ds ihds =>
    rw [List.forall_mem_cons] at ih
    simp [resolveDecls, ih.1.decl, ihds ih.2]

private theorem resolveExpr_again (e : Node) (ih : ∀ m ∈ e.children, Settles global m) (s : Stage) :
    resolveExpr (resolveExpr e s).value s = resolveExpr e s := by
  cases e with
  | ident id => simp [resolveExpr, bindUse_again]
  | dot base field =>
    have hbase := (ih base (by simp [Node.children])).expr
    have hpath (s' : Stage) : requirePath (resolveExpr base s').value = requirePath base := by
      rw [← requirePath_erase, resolveExpr_erase, requirePath_erase]
    simp [resolveExpr, hpath, hbase, bindFieldOf_again]
  | assign target value =>
    have htarget := (ih target (by simp [Node.children])).expr
    have hvalue := (ih value (by simp [Node.children])).expr
    simp [resolveExpr, htarget, hvalue]
  | call callee args =>
    have hargs : ∀ m ∈ args, Settles global m := ih
    simp [resolveExpr, bindUse_again, resolveExprs_again hargs]
  | unary op operand =>
    have hoperand := (ih operand (by simp [Node.children])).expr
    simp [resolveExpr, hoperand]
  | binary op left right =>
    have hleft := (ih left (by simp [Node.children])).expr
    have hright := (ih right (by simp [Node.children])).expr
    simp [resolveExpr, hleft, hright]
  | _ => rfl

private theorem resolveStmt_again (n : Node) (ih : ∀ m ∈ n.children, Settles global m) (s : Stage) :
    resolveStmt global (resolveStmt global n s).value s = resolveStmt global n s := by
  cases n with
  | assignStmt e | stepStmt op e | readStmt e | writeStmt e | callStmt e =>
    have he := (ih e (by simp [Node.children])).expr
    simp [resolveStmt, he]
  | ifStmt cond decls stmts | whileStmt cond decls stmts =>
    simp only [Node.children, List.forall_mem_cons, List.forall_mem_append] at ih
    obtain ⟨ihcond, ihdecls, ihstmts⟩ := ih
    simp [resolveStmt, inScope, ihcond.expr, resolveDecls_again ihdecls,
      resolveStmts_again ihstmts]
  | ifElseStmt cond ds ss ds' ss' =>
    simp only [Node.children, List.forall_mem_cons, List.forall_mem_append] at ih
    obtain ⟨ihcond, ihds, ihss, ihds', ihss'⟩ := ih
    simp [resolveStmt, inScope, ihcond.expr, resolveDecls_again ihds, resolveStmts_again ihss,
      resolveDecls_again ihds', resolveStmts_again ihss']
  | returnStmt value pos =>
    by_cases hvalue : value = .missing
    · subst hvalue
      rfl
    · have hvalue' : (resolveExpr value s).value ≠ .missing := by
        intro hmissing
        have herase := resolveExpr_erase value s
        rw [hmissing] at herase
        exact hvalue (Node.eq_missing_of_relabel herase.symm)
      have hagain := (ih value (by simp [Node.children])).expr
      simp [resolveStmt_return hvalue, resolveStmt_return hvalue', hagain]
  | _ => rfl

private theorem resolveDecl_again (d : Node) (ih : ∀ m ∈ d.children, Settles global m) (s : Stage) :
    resolveDecl global (resolveDecl global d s).value s = resolveDecl global d s := by
  cases d with
  | varDecl type id => simp [resolveDecl, declareStorage_again]
  | formalDecl type id => simp [resolveDecl, declareStorage_again]
  | fnDecl type id formals decls stmts =>
    simp only [Node.children, List.forall_mem_cons, List.forall_mem_append] at ih
    obtain ⟨-, ihformals, ihdecls, ihstmts⟩ := ih
    -- the fault for a function that is not global names it, and declaring it keeps its name
    have hid (type : Node) (s' : Stage) := declareFunction_erase s' type id formals
    simp [resolveDecl, inScope, resolveResultType_again, Ident.name_of_erase (hid _ _),
      Ident.pos_of_erase (hid _ _), declareFunction_again _ _ _ (resolveDecls_erase global _ _),
      resolveDecls_again ihformals, resolveDecls_again ihdecls, resolveStmts_again ihstmts]
  | structDecl id decls =>
    have hdecls : ∀ m ∈ decls, Settles global m := ih
    have hid (symbol : Symbol) (s' : Stage) := declare_erase s' id symbol
    simp [resolveDecl, Ident.name_of_erase (hid _ _), Ident.pos_of_erase (hid _ _),
      resolveDecls_again hdecls, declare_again]
  | _ => rfl

theorem settles (global : Nat) (n : Node) : Settles global n := by
  induction n using Node.induct with
  | step n ih => exact ⟨resolveExpr_again n ih, resolveStmt_again n ih, resolveDecl_again n ih⟩

end Traversals

theorem resolveProgram_again (program : Program) (table : SymbolTable) :
    resolveProgram (resolveProgram program table).value table = resolveProgram program table := by
  have hdecls := resolveDecls_again (fun d (_ : d ∈ program) => settles (table.depth + 1) d)
  simp [resolveProgram, inScope, hdecls]

/-- An analysis is the one on an empty journal, but for the journal it adds its reports to. -/
theorem analyze_eq (journal : Journal) (program : Program) :
    analyze journal program = { analyze {} program with
      journal := journal.startPhase.recordAll (analyze {} program).journal.diagnostics } := by
  cases hfault : (resolveProgram program .empty).stage.fault with
  | some why => simp [analyze, hfault]
  | none =>
    by_cases hclean : (resolveProgram program .empty).reports = []
    · -- the phase of types starts on a journal to which that of names has added nothing
      have hrun (journal : Journal) : analyze journal program =
          Run.types journal.diagnostics.length journal.startPhase
            [.progress .namesStarted, .progress .namesPassed]
            (resolveProgram program .empty).value := by
        simp [analyze, hfault, hclean, Journal.recordAll, Journal.startPhase]
      rw [hrun journal, hrun {}]
      rcases htypes : (checkProgram none (resolveProgram program .empty).value).check with
        ⟨reports, why | type⟩
      · simp [Run.types, htypes]
      · cases reports with
        | nil => simp [Run.types, htypes, Journal.recordAll, Journal.startPhase]
        | cons d ds => simp [Run.types, htypes]
    · simp [analyze, hfault, hclean]

private theorem types_program (first : Nat) (journal : Journal) (log : List LogEntry)
    (program : Program) : (Run.types first journal log program).program = program := by
  cases houtcome : (checkProgram none program).check.outcome with
  | error why => simp only [Run.types, houtcome]
  | ok type =>
    simp only [Run.types, houtcome]
    split <;> rfl

theorem analyze_program (journal : Journal) (program : Program) :
    (analyze journal program).program = (resolveProgram program .empty).value := by
  cases hfault : (resolveProgram program .empty).stage.fault with
  | some why => simp only [analyze, hfault]
  | none =>
    simp only [analyze, hfault]
    split
    · rfl
    · exact types_program _ _ _ _

/-- Analysed again, on any journal, the tree that an analysis has left gives the same verdict or is
stopped by the same fault, with the same reports and the same log, and stays as it is. -/
theorem reanalysis_repeats_analysis (journal journal' : Journal) (program : Program) :
    let first := analyze journal program
    let second := analyze journal' first.program
    second.outcome = first.outcome ∧ second.program = first.program ∧ second.log = first.log ∧
      second.journal.failed = first.journal.failed ∧
      ∃ reports, first.journal.diagnostics = journal.diagnostics ++ reports ∧
        second.journal.diagnostics = journal'.diagnostics ++ reports := by
  intro first second
  have hfirst : first.program = (resolveProgram program .empty).value :=
    analyze_program journal program
  have hsecond : second = analyze journal' program := by
    have hnames := resolveProgram_again program .empty
    simp only [second, hfirst, analyze, hnames]
  have hrun : first = _ := analyze_eq journal program
  rw [hsecond, analyze_eq journal' program, hrun]
  exact ⟨rfl, rfl, rfl, by simp, (analyze {} program).journal.diagnostics, by simp, by simp⟩

end Sema
