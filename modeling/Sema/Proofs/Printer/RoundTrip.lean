import Mathlib.Data.List.TakeWhile
import Sema.Proofs.Printer.Statements

/-!
# Printed programs can be read

The text of a program, printed without annotations, is read back as the program, but for positions
and symbols. So programs with the same text have the same tree.
-/

namespace Sema

open Reader Printer

/-- The parameter is printed as the text, and the text is read as the parameter. -/
structure LegibleFormal (f : Node) (text : String) : Prop where
  written : f.formalText = .ok text
  item : Listable readFormalDecl text f.shape

theorem exists_legibleFormal {f : Node} (h : f.isFormalDecl = true) (hplain : f.Plain) :
    ∃ text, LegibleFormal f text := by
  cases f with
  | formalDecl type id =>
    have hid := isName_of_plain (hplain.names id (by simp [Node.idents]))
    obtain ⟨text, htype⟩ := exists_legibleType (Bool.and_eq_true_iff.mp h).1
      (hplain.child (by simp [Node.children]))
    have hlist : (text ++ " " ++ id.name).toList =
        text.toList ++ (" ".toList ++ id.name.toList) := by
      simp only [String.toList_append, List.append_assoc]
    have hstart (rest : List Char) :
        startOf ((text ++ " " ++ id.name).toList ++ rest) = .letter := by
      rw [hlist, List.append_assoc, htype.start]
    refine ⟨text ++ " " ++ id.name, ?_, fun rest hrest => ?_, fun rest => ?_, fun rest => ?_⟩
    · change (do return (← type.typeText) ++ " " ++ id.name) = _
      rw [htype.written]
      rfl
    · have hblank : Stops (" ".toList ++ id.name.toList ++ rest) := rfl
      rw [hlist]
      exact (htype.reads _ hblank).bind ((reads_after " ").bind
        ((reads_name hid hrest.chars).returns fun id => Node.formalDecl type.shape id))
    · rw [hstart]
      decide
    · rw [hstart]
      decide
  | _ => cases h

theorem formalTexts_eq {formals : List Node} {texts : List String}
    (h : List.Forall₂ LegibleFormal formals texts) :
    formals.mapM Node.formalText = .ok texts := by
  induction h with
  | nil => rfl
  | cons hf _ ih =>
    rw [List.mapM_cons, hf.written, ih]
    rfl

/-- The lines are read as a declaration, whatever comes behind them. -/
abbrev TopLine (fuel : Nat) : List Char → Node → Prop :=
  IsLine remains (fun _ => True) (readDecl fuel)

/-- The declaration is printed on lines, and the lines are read as the declaration. -/
structure LegibleTop (d : Node) (text : List Char) : Prop where
  written : Writes (d.printDecl false) 0 (margin 0 ++ text)
  line : ∀ fuel, text.length < fuel → TopLine fuel text d.shape

section Declarations

variable {d type : Node} {text : String} {tail : List Char} {id : Ident}

theorem LegibleTop.ofType (h : LegibleType type text) (k : Start)
    (hwritten : Writes (d.printDecl false) 0 (margin 0 ++ (text.toList ++ tail)))
    (hk : ∀ rest, startOf (tail ++ rest) = k) (hstop : k.ends = true)
    (hreads : ∀ fuel rest, (text.toList ++ tail).length < fuel →
      Reads (readDeclared fuel type.shape k) tail d.shape rest) :
    LegibleTop d (text.toList ++ tail) := by
  have hstart (rest : List Char) : startOf (text.toList ++ tail ++ rest) ≠ .other := by
    rw [List.append_assoc, h.start]
    decide
  refine ⟨hwritten, fun fuel hfuel => ⟨hstart, fun rest => ?_, fun _ => trivial, fun rest _ => ?_⟩⟩
  · obtain ⟨c, cs, heq, -⟩ := exists_not_blank (hstart rest)
    rw [heq]
    rfl
  · have hstops : Stops (tail ++ rest) := by
      rw [Stops, hk]
      exact hstop
    exact (h.reads _ hstops).bind ((reads_start (hk rest)).look (hreads fuel rest hfuel))

/-- Behind the type of a variable or a function comes a blank. -/
theorem LegibleTop.ofTyped (h : LegibleType type text)
    (hwritten : Writes (d.printDecl false) 0 (margin 0 ++ (text.toList ++ (" ".toList ++ tail))))
    (hreads : ∀ fuel rest, tail.length < fuel →
      Reads (readTyped fuel type.shape) (" ".toList ++ tail) d.shape rest) :
    LegibleTop d (text.toList ++ (" ".toList ++ tail)) := by
  refine .ofType h .other hwritten (fun rest => rfl) rfl fun fuel rest hfuel => ?_
  have htyped : readDeclared fuel type.shape .other = readTyped fuel type.shape := by
    cases type <;> rfl
  rw [List.length_append, List.length_append] at hfuel
  rw [htyped]
  exact hreads fuel rest (by omega)

theorem legibleTop_var (h : LegibleType type text) (hid : isPlainName id.name = true) :
    LegibleTop (.varDecl type id)
      (text.toList ++ (" ".toList ++ (id.name.toList ++ ";".toList))) := by
  refine .ofTyped h (writes_varDecl h id 0) fun fuel rest _ => ?_
  have hsemicolon : Stops (";".toList ++ rest) := rfl
  exact (reads_after " ").bind ((reads_name (isName_of_plain hid) hsemicolon.chars).bind
    ((reads_start rfl).look ((reads_after ";").returns fun _ => Node.varDecl type.shape id.shape)))

theorem writes_head {formals : List Node} {texts : List String} (h : LegibleType type text)
    (id : Ident) (hformals : List.Forall₂ LegibleFormal formals texts) :
    Writes (lineOf (Node.headText type id formals)) 0 (margin 0 ++ (text.toList ++ (" ".toList ++
      (id.name.toList ++ ("(".toList ++ ((", ".intercalate texts).toList ++
        (")".toList ++ " \x7b".toList))))))) := by
  have hhead : Node.headText type id formals =
      .ok (text ++ " " ++ id.name ++ "(" ++ ", ".intercalate texts ++ ") \x7b") := by
    rw [Node.headText, formalTexts_eq hformals, h.written]
    rfl
  have hlist : (text ++ " " ++ id.name ++ "(" ++ ", ".intercalate texts ++ ") \x7b").toList =
      text.toList ++ (" ".toList ++ (id.name.toList ++ ("(".toList ++
        ((", ".intercalate texts).toList ++ (")".toList ++ " \x7b".toList))))) := by
    simp only [String.toList_append, List.append_assoc]
    rfl
  rw [hhead, ← hlist]
  refine writes_line fun rest => ?_
  rw [hlist, List.append_assoc, h.start]
  decide

theorem legibleTop_fn {formals decls stmts : List Node} {texts : List String} {inner : List Char}
    (h : LegibleType type text) (hid : isPlainName id.name = true)
    (hformals : List.Forall₂ LegibleFormal formals texts)
    (hbody : LegibleBlock 0 decls stmts inner) :
    LegibleTop (.fnDecl type id formals decls stmts)
      (text.toList ++ (" ".toList ++ (id.name.toList ++ ("(".toList ++
        ((", ".intercalate texts).toList ++ ")".toList ++ (" \x7b".toList ++
          (inner ++ (margin 0 ++ "\x7d".toList) ++ "\n".toList))))))) := by
  refine .ofTyped h ?_ fun fuel rest hfuel => ?_
  · have hall := (writes_head h id hformals).seq
      (hbody.written.seq (writes_brace.seq writes_empty_line))
    simp only [List.append_assoc] at hall ⊢
    exact hall
  · obtain ⟨hcount, -⟩ := length_intercalate texts
    have hitems : List.Forall₂ (Listable readFormalDecl) texts (Node.shapes formals) :=
      Node.forall₂_shapes hformals fun f t _ hf => hf.item
    have hopen : "(".length = 1 := rfl
    have hclose : ")".length = 1 := rfl
    simp only [List.length_append, String.length_toList] at hfuel
    refine (reads_after " ").bind (Reads.bind
      (reads_name (isName_of_plain hid) (opening_ends_word _)) ?_)
    exact (reads_start rfl).look ((reads_after "(").bind
      ((reads_listed hitems (by omega)).bind ((reads_after " \x7b").bind
        ((hbody.reads fuel _ (by omega)).bind ((reads_after "\n").returns fun _ => _)))))

theorem legibleTop_struct {decls : List Node} {texts : List (List Char)}
    (hid : isPlainName id.name = true) (hdecls : List.Forall₂ (LegibleDecl 1) decls texts) :
    LegibleTop (.structDecl id decls)
      (("struct " ++ id.name).toList ++ ("\x7b".toList ++ (texts.flatMap (margin 1 ++ ·) ++
        (margin 0 ++ "\x7d;\n".toList)))) := by
  refine .ofType (legibleType_struct hid) .brace ?_ (fun rest => rfl) rfl
    fun fuel rest hfuel => ?_
  · have hhead : Writes (line ("struct " ++ id.name ++ "\x7b")) 0
        (margin 0 ++ (("struct " ++ id.name).toList ++ "\x7b".toList)) := by
      rw [← String.toList_append]
      refine writes_line fun rest => ?_
      rw [String.toList_append, List.append_assoc, (legibleType_struct hid).start]
      decide
    have hend : Writes (line "\x7d;") 0 (margin 0 ++ "\x7d;".toList) :=
      writes_line fun _ => (by decide : Start.endBrace ≠ .other)
    have hfields := (writes_decls (hdecls.imp fun _ _ hd => hd.written)).deeper
    have hall := hhead.seq (hfields.seq (hend.seq writes_empty_line))
    simp only [List.append_assoc] at hall ⊢
    exact hall
  · simp only [List.length_append] at hfuel
    have hbrace : startOf ("\x7d;\n".toList ++ rest) ≠ .other :=
      (by decide : Start.endBrace ≠ .other)
    have hdone : declares ((margin 0 ++ "\x7d;\n".toList ++ rest).dropWhile isBlank) = false := by
      rw [List.append_assoc, dropWhile_margin hbrace]
      rfl
    exact (reads_after "\x7b").bind ((reads_decls hdecls (by omega) hdone).bind
      ((reads_blanks (isBlank_of_mem_margin 0) hbrace).bind ((reads_after "\x7d;\n").returns
        fun _ => Node.structDecl id.shape (Node.shapes decls))))

end Declarations

theorem exists_legibleTop {d : Node} (h : d.isTopDecl = true) (hplain : d.Plain) :
    ∃ text, LegibleTop d text := by
  cases d with
  | varDecl type id =>
    obtain ⟨_, htype⟩ := exists_legibleType (Bool.and_eq_true_iff.mp h).1
      (hplain.child (by simp [Node.children]))
    exact ⟨_, legibleTop_var htype (hplain.names id (by simp [Node.idents]))⟩
  | fnDecl type id formals decls stmts =>
    simp only [Node.isTopDecl, Bool.and_eq_true] at h
    obtain ⟨⟨⟨⟨htype, -⟩, hformals⟩, hdecls⟩, hstmts⟩ := h
    rw [List.all_eq_true] at hformals
    rw [Node.areStmts_iff] at hstmts
    have hchild (m : Node) (hm : m = type ∨ m ∈ formals ∨ m ∈ decls ∨ m ∈ stmts) : m.Plain :=
      hplain.child (by simpa [Node.children] using hm)
    obtain ⟨_, htext⟩ := exists_legibleType htype (hchild type (.inl rfl))
    obtain ⟨_, htexts⟩ := exists_forall₂ fun f hf =>
      exists_legibleFormal (hformals f hf) (hchild f (.inr (.inl hf)))
    obtain ⟨_, hbody⟩ := exists_legibleBlock hdecls
      (fun m hm => hchild m (.inr (.inr (.inl hm)))) fun m hm =>
        exists_legibleStmt (hstmts m hm) (hchild m (.inr (.inr (.inr hm)))) 1
    exact ⟨_, legibleTop_fn htext (hplain.names id (by simp [Node.idents])) htexts hbody⟩
  | structDecl id decls =>
    have hdecls := List.all_eq_true.mp (Bool.and_eq_true_iff.mp h).2
    obtain ⟨_, htexts⟩ := exists_forall₂ fun m hm =>
      exists_legibleDecl (hdecls m hm) (hplain.child hm) 1
    exact ⟨_, legibleTop_struct (hplain.names id (by simp [Node.idents])) htexts⟩
  | _ => cases h

/-- The program conforms to the grammar, down to its operators, its names and its lexemes. -/
structure Program.Plain (program : Program) : Prop where
  conforms : conforms program = true
  proper : ∀ n ∈ Node.allNodes program, n.isProper = true
  names : ∀ id ∈ Node.identsAll program, isPlainName id.name = true
  lexemes : ∀ lexeme pos, .lit (.string lexeme) pos ∈ Node.allNodes program → IsQuoted lexeme

theorem Program.Plain.decl {program : Program} (h : program.Plain)
    (hnumbers : ∀ n ∈ Node.allNodes program, n.isWritable = true) {d : Node} (hd : d ∈ program) :
    d.Plain where
  names id hid := h.names id (Node.mem_identsAll.mpr ⟨d, hd, hid⟩)
  numbers := Node.forall_mem_allNodes.mp hnumbers d hd
  lexemes lexeme pos hlit :=
    h.lexemes lexeme pos (Node.mem_allNodes.mpr ⟨d, hd, List.mem_cons.mp hlit⟩)
  proper := Node.forall_mem_allNodes.mp h.proper d hd

/-- Behind a line break, the text of a page is that of its lines, with line breaks at the end. -/
theorem exists_lineChars_text (page : Layout) :
    ∃ breaks, '\n' :: page.text.toList = lineChars page.lines ++ '\n' :: breaks ∧
      ∀ c ∈ breaks, isBlank c = true := by
  cases hlines : page.lines with
  | nil =>
    -- an empty page ends with a line break too
    refine ⟨['\n'], ?_, List.all_eq_true.mp rfl⟩
    rw [Layout.text, hlines]
    rfl
  | cons l ls =>
    refine ⟨[], ?_, by simp⟩
    rw [Layout.text, hlines, String.toList_append, toList_intercalate_cons]
    rfl

/-- The text of a program is read back as the program. -/
theorem readProgram_print {program : Program} {text : String} (h : program.Plain)
    (htext : (program.print false).1 = .ok text) :
    readProgram text = some (Node.shapes program) := by
  have hconforms := List.all_eq_true.mp h.conforms
  have hnumbers : ∀ n ∈ Node.allNodes program, n.isWritable = true := by
    by_contra hnot
    rw [Program.print_of_not_writable false h.conforms h.proper hnot] at htext
    cases htext
  obtain ⟨texts, htexts⟩ := exists_forall₂ fun d hd =>
    exists_legibleTop (hconforms d hd) (h.decl hnumbers hd)
  obtain ⟨added, hrun, hchars⟩ := writes_decls (htexts.imp fun _ _ hd => hd.written) []
  have hprint : (program.print false).1 = .ok (Layout.mk added 0).text := by
    have hpage : Node.printDecls false program {} = .ok () ⟨added, 0⟩ := hrun
    rw [Program.print, hpage]
  obtain rfl : text = (Layout.mk added 0).text := Except.ok.inj (htext.symm.trans hprint)
  obtain ⟨breaks, hsplit, hbreaks⟩ := exists_lineChars_text ⟨added, 0⟩
  generalize (Layout.mk added 0).text = text at hsplit ⊢
  rw [hchars] at hsplit
  obtain ⟨hcount, hlengths⟩ := length_flatMap_sep (margin_ne_nil 0) (fun text => text) texts
  have hlength : (texts.flatMap (margin 0 ++ ·)).length ≤ text.length := by
    have htotal := congrArg List.length hsplit
    simp only [List.length_cons, List.length_append, String.length_toList] at htotal
    omega
  have hlines : List.Forall₂ (TopLine (text.length + 1)) texts (Node.shapes program) := by
    refine Node.forall₂_shapes htexts fun d t ht hd => hd.line _ ?_
    have hle := hlengths t ht
    omega
  have hend : remains (('\n' :: breaks).dropWhile isBlank) = false := by
    have hnil : ('\n' :: breaks).dropWhile isBlank = [] :=
      List.dropWhile_eq_nil_iff.mpr (List.forall_mem_cons.mpr ⟨rfl, hbreaks⟩)
    rw [hnil]
    rfl
  have hread : Reads (lines remains (readDecl (text.length + 1)) (text.length + 1))
      (texts.flatMap (margin 0 ++ ·)) (Node.shapes program) ('\n' :: breaks) :=
    reads_lines (isBlank_of_mem_margin 0) hlines (by omega) hend trivial
  rw [readProgram, hsplit, hread]
  rfl

/-- A program can be printed exactly when its numbers can be written, and programs with the same
text are the same up to positions and symbols. -/
theorem plain_text_determines_program {p q : Program} (hp : p.Plain) (hq : q.Plain) :
    ((∃ text, (p.print false).1 = .ok text) ↔ ∀ n ∈ Node.allNodes p, n.isWritable = true) ∧
      ∀ text, (p.print false).1 = .ok text → (q.print false).1 = .ok text →
        Node.shapes p = Node.shapes q := by
  refine ⟨⟨fun hprinted => ?_, Program.print_of_writable false hp.conforms hp.proper⟩,
    fun text hprint hprint' => ?_⟩
  · by_contra hnot
    obtain ⟨text, hprint⟩ := hprinted
    rw [Program.print_of_not_writable false hp.conforms hp.proper hnot] at hprint
    cases hprint
  · have hread := (readProgram_print hp hprint).symm.trans (readProgram_print hq hprint')
    exact Option.some.inj hread

/-- A program with a negative number and a negated one, all of it at one place and with one mark. -/
def markedProgram (pos : Pos) (mark : Option Symbol) : Program :=
  [.structDecl ⟨"P", pos, mark⟩ [.varDecl (.primType .int) ⟨"x", pos, mark⟩],
    .varDecl (.structType ⟨"P", pos, mark⟩) ⟨"g", pos, mark⟩,
    .fnDecl (.primType .void) ⟨"f", pos, mark⟩ [.formalDecl (.primType .int) ⟨"a", pos, mark⟩] []
      [.ifElseStmt (.binary "<" (.lit (.int (-3)) pos) (.unary "-" (.lit (.int 3) pos))) []
        [.assignStmt (.assign (.dot (.ident ⟨"g", pos, mark⟩) ⟨"x", pos, mark⟩)
          (.call ⟨"f", pos, mark⟩ [.lit (.int (-3)) pos]))] []
        [.writeStmt (.lit (.string "\"no; \"") pos)],
      .returnStmt .missing pos]]

theorem markedProgram_plain (pos : Pos) (mark : Option Symbol) :
    (markedProgram pos mark).Plain where
  conforms := rfl
  proper := List.all_eq_true.mp rfl
  names id hid := by
    have hnames : ∀ name ∈ ["P", "x", "P", "g", "f", "a", "g", "x", "f"],
        isPlainName name = true := by decide
    exact hnames id.name (List.mem_map_of_mem hid)
  lexemes lexeme pos' hlit := by
    obtain ⟨rfl, -⟩ : lexeme = "\"no; \"" ∧ pos' = pos := by
      simpa [markedProgram, Node.allNodes, Node.descendants] using hlit
    exact ⟨['n', 'o', ';', ' '], rfl, by simp⟩

/-- Two programs at different places, with and without symbols, that have the same text. -/
theorem marked_programs_same_text :
    ∃ text, ((markedProgram ⟨1, 2⟩ none).print false).1 = .ok text ∧
      ((markedProgram ⟨3, 4⟩ (some (.var "int"))).print false).1 = .ok text ∧
      Node.shapes (markedProgram ⟨1, 2⟩ none) =
        Node.shapes (markedProgram ⟨3, 4⟩ (some (.var "int"))) := by
  have hsame : ((markedProgram ⟨1, 2⟩ none).print false).1 =
      ((markedProgram ⟨3, 4⟩ (some (.var "int"))).print false).1 := rfl
  obtain ⟨hprints, hshapes⟩ := plain_text_determines_program
    (markedProgram_plain ⟨1, 2⟩ none) (markedProgram_plain ⟨3, 4⟩ (some (.var "int")))
  obtain ⟨text, hprint⟩ := hprints.mpr (List.all_eq_true.mp rfl)
  exact ⟨text, hprint, hsame ▸ hprint, hshapes text hprint (hsame ▸ hprint)⟩

end Sema
