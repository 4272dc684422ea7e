import Sema.Printer.Layout
import Sema.Proofs.Tree.Operators

/-!
# Printing comes to an end

A program that conforms to the grammar is printed to its end, with annotations or without, whatever
its identifiers are bound to, unless a number in it has too many digits. No other fault is met.
-/

namespace Sema

open Printer

/-- The outcome is a value if the numbers that it needs can be written, and if they cannot it is the
fault that says so. -/
structure YieldsIf {α : Type} (writable : Prop) (outcome : Except Fault α) : Prop where
  ok : writable → ∃ a, outcome = .ok a
  error : ¬ writable → outcome = .error .tooManyDigits

section YieldsIf

variable {α β : Type} {p q : Prop} {outcome : Except Fault α}

theorem yieldsIf_pure (a : α) : YieldsIf True (pure a) where
  ok _ := ⟨a, rfl⟩
  error h := absurd trivial h

theorem yieldsIf_written (text : Option String) :
    YieldsIf (text.isSome = true) (written text) := by
  cases text with
  | some text => exact ⟨fun _ => ⟨text, rfl⟩, fun h => absurd rfl h⟩
  | none => exact ⟨fun h => absurd h Bool.false_ne_true, fun _ => rfl⟩

theorem YieldsIf.congr (h : YieldsIf p outcome) (hiff : p ↔ q) : YieldsIf q outcome where
  ok hq := h.ok (hiff.mpr hq)
  error hq := h.error fun hp => hq (hiff.mp hp)

theorem YieldsIf.bind {next : α → Except Fault β} (h : YieldsIf p outcome)
    (hnext : ∀ a, YieldsIf q (next a)) : YieldsIf (p ∧ q) (outcome >>= next) where
  ok hpq := by
    obtain ⟨a, rfl⟩ := h.ok hpq.1
    exact (hnext a).ok hpq.2
  error hpq := by
    by_cases hp : p
    · obtain ⟨a, rfl⟩ := h.ok hp
      exact (hnext a).error fun hq => hpq ⟨hp, hq⟩
    · rw [h.error hp]
      rfl

theorem YieldsIf.map (h : YieldsIf p outcome) (f : α → β) :
    YieldsIf p (do return f (← outcome)) :=
  (h.bind fun a => yieldsIf_pure (f a)).congr (.of_eq (and_true p))

end YieldsIf

/-- On any page the printing comes to its end if the numbers can be written, and if they cannot it
is the fault that says so which stops it. -/
structure Printer.EndsIf (writable : Prop) (m : Printer Unit) : Prop where
  ends : writable → ∀ page, ∃ page', m page = .ok () page'
  stops : ¬ writable → ∀ page, ∃ page', m page = .error .tooManyDigits page'

section EndsIf

variable {p q : Prop} {m m' : Printer Unit}

theorem Printer.EndsIf.congr (h : m.EndsIf p) (hiff : p ↔ q) : m.EndsIf q where
  ends hq := h.ends (hiff.mpr hq)
  stops hq := h.stops fun hp => hq (hiff.mp hp)

theorem Printer.EndsIf.seq (h : m.EndsIf p) (h' : m'.EndsIf q) :
    Printer.EndsIf (p ∧ q) (do m; m') where
  ends hpq page := by
    obtain ⟨page₁, hfirst⟩ := h.ends hpq.1 page
    obtain ⟨page₂, hsecond⟩ := h'.ends hpq.2 page₁
    exact ⟨page₂, by simp only [bind, EStateM.bind, hfirst, hsecond]⟩
  stops hpq page := by
    by_cases hp : p
    · obtain ⟨page₁, hfirst⟩ := h.ends hp page
      obtain ⟨page₂, hsecond⟩ := h'.stops (fun hq => hpq ⟨hp, hq⟩) page₁
      exact ⟨page₂, by simp only [bind, EStateM.bind, hfirst, hsecond]⟩
    · obtain ⟨page₁, hfirst⟩ := h.stops hp page
      exact ⟨page₁, by simp only [bind, EStateM.bind, hfirst]⟩

theorem endsIf_of_ok {page' : Layout → Layout} (h : ∀ page, m page = .ok () (page' page)) :
    m.EndsIf True where
  ends _ page := ⟨page' page, h page⟩
  stops htrue := absurd trivial htrue

theorem endsIf_line (text : String) : (line text).EndsIf True := endsIf_of_ok fun _ => rfl

theorem Printer.EndsIf.then_line (h : m.EndsIf p) (text : String) :
    Printer.EndsIf p (do m; line text) :=
  (h.seq (endsIf_line text)).congr (.of_eq (and_true p))

theorem Printer.EndsIf.deeper (h : m.EndsIf p) : (Printer.deeper m).EndsIf p := by
  have hmodify (f : Layout → Layout) : Printer.EndsIf True (modify f) := endsIf_of_ok fun _ => rfl
  exact ((hmodify _).seq (h.seq (hmodify _))).congr (by rw [true_and, and_true])

theorem YieldsIf.lineOf {text : Except Fault String} (h : YieldsIf p text) :
    (Printer.lineOf text).EndsIf p where
  ends hp page := by
    obtain ⟨s, rfl⟩ := h.ok hp
    exact ⟨_, rfl⟩
  stops hp page := by
    rw [h.error hp]
    exact ⟨page, rfl⟩

end EndsIf

namespace Node

/-- If the node is a number, it can be written. -/
def isWritable : Node → Bool
  | .lit (.int value) _ => (Text.numeral? value).isSome
  | _ => true

/-- All numbers of the tree can be written. -/
abbrev Writable (n : Node) : Prop := n.Throughout (isWritable · = true)

@[simp] theorem isWritable_erase (n : Node) : n.erase.isWritable = n.isWritable := by
  cases n <;> rfl

theorem writable_iff {n : Node} (h : n.isWritable = true) :
    n.Writable ↔ ∀ m ∈ n.children, m.Writable := by
  rw [Writable, throughout_iff, h, eq_self, true_and]

theorem writable_leaf {n : Node} (h : n.children = []) : n.Writable ↔ n.isWritable = true := by
  rw [Writable, throughout_iff, h]
  simp

theorem writable_of_isType {type : Node} (h : type.isType = true) : type.Writable := by
  cases type with
  | primType _ | structType _ => exact (writable_leaf rfl).mpr rfl
  | _ => cases h

theorem writable_of_isVarDecl {d : Node} (h : d.isVarDecl = true) : d.Writable := by
  cases d with
  | varDecl type id =>
    have htype := writable_of_isType (Bool.and_eq_true_iff.mp h).1
    exact (writable_iff rfl).mpr (List.forall_mem_singleton.mpr htype)
  | _ => cases h

theorem writable_of_isFormalDecl {f : Node} (h : f.isFormalDecl = true) : f.Writable := by
  cases f with
  | formalDecl type id =>
    have htype := writable_of_isType (Bool.and_eq_true_iff.mp h).1
    exact (writable_iff rfl).mpr (List.forall_mem_singleton.mpr htype)
  | _ => cases h

section Texts

variable (annotated : Bool)

private theorem exprTexts_yieldsIf {es : List Node}
    (ih : ∀ e ∈ es, YieldsIf e.Writable (exprText annotated e)) :
    YieldsIf (∀ e ∈ es, e.Writable) (exprTexts annotated es) := by
  induction es with
  | nil => exact (yieldsIf_pure []).congr (by simp)
  | cons e es ihes =>
    rw [List.forall_mem_cons] at ih
    rw [List.forall_mem_cons]
    exact ih.1.bind fun text => (ihes ih.2).map (text :: ·)

theorem exprText_yieldsIf (e : Node) (hexpr : e.isExpr = true) :
    YieldsIf e.Writable (exprText annotated e) := by
  induction e using Node.induct with
  | step e ih =>
    cases e with
    | lit value pos =>
      apply YieldsIf.congr _ (writable_leaf rfl).symm
      cases value with
      | int value => exact yieldsIf_written (Text.numeral? value)
      | string lexeme | bool value => exact (yieldsIf_pure _).congr (by simp [isWritable])
    | ident id =>
      have hident : (Node.ident id).Writable := (writable_leaf rfl).mpr rfl
      exact (yieldsIf_pure _).congr ⟨fun _ => hident, fun _ => trivial⟩
    | dot base field =>
      simp only [isExpr, Bool.and_eq_true] at hexpr
      rw [writable_iff rfl, children, List.forall_mem_singleton]
      exact (ih base (by simp [children]) hexpr.2).map
        fun text => "(" ++ text ++ ")." ++ field.text annotated
    | assign e e' | binary op e e' =>
      simp only [isExpr, Bool.and_eq_true] at hexpr
      rw [writable_iff rfl, children, List.forall_mem_cons, List.forall_mem_singleton]
      have hleft := ih e (by simp [children]) hexpr.1
      have hright := ih e' (by simp [children]) hexpr.2
      exact hleft.bind fun text => hright.map _
    | unary op e =>
      rw [writable_iff rfl, children, List.forall_mem_singleton]
      exact (ih e (by simp [children]) hexpr).map fun text => "(" ++ op ++ text ++ ")"
    | call callee args =>
      have hargs : ∀ e ∈ args, YieldsIf e.Writable (exprText annotated e) := fun e he =>
        ih e he (areExprs_iff.mp hexpr e he)
      rw [writable_iff rfl]
      exact (exprTexts_yieldsIf annotated hargs).map _
    | _ => cases hexpr

theorem typeText_yieldsIf {type : Node} (htype : type.isType = true) :
    YieldsIf True type.typeText := by
  cases type with
  | primType _ | structType _ => exact yieldsIf_pure _
  | _ => cases htype

theorem assignText_yieldsIf {e : Node} (hassign : e.isAssign = true) (hexpr : e.isExpr = true) :
    YieldsIf e.Writable (assignText annotated e) := by
  cases e with
  | assign target value =>
    simp only [isExpr, Bool.and_eq_true] at hexpr
    rw [writable_iff rfl, children, List.forall_mem_cons, List.forall_mem_singleton]
    have htarget := exprText_yieldsIf annotated target hexpr.1
    have hvalue := exprText_yieldsIf annotated value hexpr.2
    exact htarget.bind fun text => hvalue.map (text ++ " = " ++ ·)
  | _ => cases hassign

theorem formalText_yieldsIf {formal : Node} (hformal : formal.isFormalDecl = true) :
    YieldsIf True (formalText formal) := by
  cases formal with
  | formalDecl type id =>
    have htype := typeText_yieldsIf (Bool.and_eq_true_iff.mp hformal).1
    exact htype.map fun text => text ++ " " ++ id.name
  | _ => cases hformal

private theorem formalTexts_yieldsIf {formals : List Node}
    (hformals : formals.all isFormalDecl = true) :
    YieldsIf True (formals.mapM formalText) := by
  induction formals with
  | nil => exact yieldsIf_pure []
  | cons f formals ih =>
    rw [List.all_cons, Bool.and_eq_true] at hformals
    rw [List.mapM_cons]
    exact ((formalText_yieldsIf hformals.1).bind fun text =>
      (ih hformals.2).map (text :: ·)).congr (and_self_iff)

theorem headText_yieldsIf {type : Node} (id : Ident) {formals : List Node}
    (htype : type.isType = true) (hformals : formals.all isFormalDecl = true) :
    YieldsIf True (headText type id formals) :=
  ((formalTexts_yieldsIf hformals).bind fun _ => (typeText_yieldsIf htype).map _).congr and_self_iff

end Texts

section Lines

variable (annotated : Bool)

private theorem printDecls_endsIf {ds : List Node}
    (ih : ∀ d ∈ ds, (printDecl annotated d).EndsIf d.Writable) :
    (printDecls annotated ds).EndsIf (∀ d ∈ ds, d.Writable) := by
  induction ds with
  | nil => exact (endsIf_of_ok fun _ => rfl).congr (by simp)
  | cons d ds ihds =>
    rw [List.forall_mem_cons] at ih
    rw [List.forall_mem_cons]
    exact ih.1.seq (ihds ih.2)

private theorem printStmts_endsIf {ss : List Node}
    (ih : ∀ s ∈ ss, (printStmt annotated s).EndsIf s.Writable) :
    (printStmts annotated ss).EndsIf (∀ s ∈ ss, s.Writable) := by
  induction ss with
  | nil => exact (endsIf_of_ok fun _ => rfl).congr (by simp)
  | cons s ss ihss =>
    rw [List.forall_mem_cons] at ih
    rw [List.forall_mem_cons]
    exact ih.1.seq (ihss ih.2)

theorem printVarDecl_endsIf {d : Node} (hdecl : d.isVarDecl = true) :
    (printDecl annotated d).EndsIf d.Writable := by
  have hwritable := writable_of_isVarDecl hdecl
  cases d with
  | varDecl type id =>
    have htype := typeText_yieldsIf (Bool.and_eq_true_iff.mp hdecl).1
    have hline := (htype.map fun text => text ++ " " ++ id.name ++ ";").lineOf
    exact hline.congr ⟨fun _ => hwritable, fun _ => trivial⟩
  | _ => cases hdecl

private theorem body_endsIf {ds ss : List Node} (hdecls : ds.all isVarDecl = true)
    (hstmts : ∀ s ∈ ss, (printStmt annotated s).EndsIf s.Writable) :
    (deeper do
      printDecls annotated ds
      printStmts annotated ss).EndsIf ((∀ d ∈ ds, d.Writable) ∧ ∀ s ∈ ss, s.Writable) := by
  have hdecls' := printDecls_endsIf annotated fun d hd =>
    printVarDecl_endsIf annotated (List.all_eq_true.mp hdecls d hd)
  exact (hdecls'.seq (printStmts_endsIf annotated hstmts)).deeper

theorem printStmt_return {annotated : Bool} {value : Node} {pos : Pos}
    (h : value ≠ .missing) : printStmt annotated (.returnStmt value pos) =
      lineOf (do return "return " ++ (← value.exprText annotated) ++ ";") := by
  rw [printStmt]
  exact h

theorem printStmt_endsIf (s : Node) (hstmt : s.isStmt = true)
    (h : s.Throughout (isProper · = true)) : (printStmt annotated s).EndsIf s.Writable := by
  induction s using Node.induct with
  | step s ih =>
    have hstmts (ss : List Node) (hss : ∀ m ∈ ss, m ∈ s.children) (hare : areStmts ss = true) :
        ∀ m ∈ ss, (printStmt annotated m).EndsIf m.Writable := fun m hm =>
      ih m (hss m hm) (areStmts_iff.mp hare m hm) (h.child (hss m hm))
    cases s with
    | assignStmt e =>
      rw [writable_iff rfl, children, List.forall_mem_singleton]
      have hassign : e.isAssign = true := (Bool.and_eq_true_iff.mp h.self).2
      exact ((assignText_yieldsIf annotated hassign hstmt).map (· ++ ";")).lineOf
    | stepStmt op e =>
      rw [writable_iff rfl, children, List.forall_mem_singleton]
      have htext := exprText_yieldsIf annotated e hstmt
      cases op with
      | inc => exact (htext.map (· ++ "++;")).lineOf
      | dec => exact (htext.map (· ++ "--;")).lineOf
    | readStmt e | writeStmt e | callStmt e =>
      rw [writable_iff rfl, children, List.forall_mem_singleton]
      exact ((exprText_yieldsIf annotated e hstmt).map _).lineOf
    | ifStmt cond ds ss | whileStmt cond ds ss =>
      simp only [isStmt, Bool.and_eq_true] at hstmt
      rw [writable_iff rfl, children, List.forall_mem_cons, List.forall_mem_append]
      have hcond := exprText_yieldsIf annotated cond hstmt.1.1
      have hbody := body_endsIf annotated hstmt.1.2
        (hstmts ss (by simp +contextual [children]) hstmt.2)
      exact (hcond.map _).lineOf.seq (hbody.then_line _)
    | ifElseStmt cond ds ss ds' ss' =>
      simp only [isStmt, Bool.and_eq_true] at hstmt
      obtain ⟨⟨⟨⟨hexpr, hds⟩, hss⟩, hds'⟩, hss'⟩ := hstmt
      rw [writable_iff rfl, children, List.forall_mem_cons, List.forall_mem_append,
        List.forall_mem_append, List.forall_mem_append, ← and_assoc]
      have hcond := exprText_yieldsIf annotated cond hexpr
      have hthen := body_endsIf annotated hds (hstmts ss (by simp +contextual [children]) hss)
      have helse := body_endsIf annotated hds' (hstmts ss' (by simp +contextual [children]) hss')
      have hlines := (endsIf_line "\x7d").seq (endsIf_line "else \x7b")
      exact ((hcond.map _).lineOf.seq (hthen.seq (hlines.seq (helse.then_line "\x7d")))).congr
        (by simp only [true_and, and_assoc])
    | returnStmt value pos =>
      by_cases hvalue : value = .missing
      · subst hvalue
        have hmissing : Writable .missing := (writable_leaf rfl).mpr rfl
        rw [writable_iff rfl, children, List.forall_mem_singleton]
        exact (endsIf_line _).congr ⟨fun _ => hmissing, fun _ => trivial⟩
      · rw [isStmt_return hvalue] at hstmt
        rw [printStmt_return hvalue, writable_iff rfl, children, List.forall_mem_singleton]
        exact ((exprText_yieldsIf annotated value hstmt).map _).lineOf
    | _ => cases hstmt

theorem printDecl_endsIf {d : Node} (hdecl : d.isTopDecl = true)
    (h : d.Throughout (isProper · = true)) : (printDecl annotated d).EndsIf d.Writable := by
  cases d with
  | varDecl type id => exact printVarDecl_endsIf annotated hdecl
  | fnDecl type id formals decls stmts =>
    simp only [isTopDecl, Bool.and_eq_true] at hdecl
    obtain ⟨⟨⟨⟨htype, -⟩, hformals⟩, hdecls⟩, hstmts⟩ := hdecl
    have hhead := (headText_yieldsIf id htype hformals).lineOf
    have hbody := body_endsIf annotated hdecls fun s hs =>
      printStmt_endsIf annotated s (areStmts_iff.mp hstmts s hs) (h.child (by simp [children, hs]))
    -- a function has numbers in its body only
    have hnumbers : (Node.fnDecl type id formals decls stmts).Writable ↔
        (∀ d ∈ decls, d.Writable) ∧ ∀ s ∈ stmts, s.Writable := by
      rw [writable_iff rfl, children, List.forall_mem_cons, List.forall_mem_append,
        List.forall_mem_append]
      have hformals' : ∀ f ∈ formals, f.Writable := fun f hf =>
        writable_of_isFormalDecl (List.all_eq_true.mp hformals f hf)
      exact ⟨fun hall => hall.2.2, fun hinner => ⟨writable_of_isType htype, hformals', hinner⟩⟩
    rw [hnumbers]
    exact (hhead.seq (hbody.seq ((endsIf_line _).then_line _))).congr
      (by simp only [true_and, and_true])
  | structDecl id decls =>
    simp only [isTopDecl, Bool.and_eq_true] at hdecl
    rw [writable_iff rfl]
    have hfields := printDecls_endsIf annotated fun d hd =>
      printVarDecl_endsIf annotated (List.all_eq_true.mp hdecl.2 d hd)
    exact ((endsIf_line _).seq (hfields.deeper.seq ((endsIf_line _).then_line _))).congr
      (by simp only [true_and, and_true, children])
  | _ => cases hdecl

end Lines

end Node

section Programs

variable (annotated : Bool) {program : Program} (hgrammar : conforms program = true)
  (h : ∀ n ∈ Node.allNodes program, n.isProper = true)
include hgrammar h

private theorem printDecls_endsIf_isWritable : (Node.printDecls annotated program).EndsIf
    (∀ n ∈ Node.allNodes program, n.isWritable = true) := by
  rw [Node.forall_mem_allNodes]
  exact Node.printDecls_endsIf annotated fun d hd => Node.printDecl_endsIf annotated
    (List.all_eq_true.mp hgrammar d hd) (Node.forall_mem_allNodes.mp h d hd)

theorem Program.print_of_writable (hnumbers : ∀ n ∈ Node.allNodes program, n.isWritable = true) :
    ∃ text, (Program.print annotated program).1 = .ok text := by
  obtain ⟨page, hpage⟩ := (printDecls_endsIf_isWritable annotated hgrammar h).ends hnumbers {}
  exact ⟨page.text, by rw [Program.print, hpage]⟩

theorem Program.print_of_not_writable
    (hnumbers : ¬ ∀ n ∈ Node.allNodes program, n.isWritable = true) :
    (Program.print annotated program).1 = .error .tooManyDigits := by
  obtain ⟨page, hpage⟩ := (printDecls_endsIf_isWritable annotated hgrammar h).stops hnumbers {}
  rw [Program.print, hpage]

end Programs

end Sema
