import Sema.Printer.Layout
import Sema.Proofs.Printer.Legible

/-!
# Printed statements can be read

What a printer adds to a page is followed as one text, in which every line stands behind a line
break. Declarations and statements are read back from the text that they add, at any depth.
-/

namespace Sema

open Reader Printer

/-- Lines as a text, each behind a line break. -/
def lineChars (lines : List String) : List Char := lines.flatMap fun l => '\n' :: l.toList

/-- The line break and the blanks before a line. -/
def margin (depth : Nat) : List Char := '\n' :: List.replicate (4 * depth) ' '

/-- At the depth, the printer adds lines to the page that make up the text. -/
def Writes (m : Printer Unit) (depth : Nat) (text : List Char) : Prop :=
  ∀ lines, ∃ added, m ⟨lines, depth⟩ = .ok () ⟨lines ++ added, depth⟩ ∧ lineChars added = text

theorem lineChars_append (ls ls' : List String) :
    lineChars (ls ++ ls') = lineChars ls ++ lineChars ls' := List.flatMap_append

theorem isBlank_of_mem_margin (depth : Nat) : ∀ c ∈ margin depth, isBlank c = true := by
  intro c hc
  obtain rfl | hc := List.mem_cons.mp hc
  · rfl
  · rw [List.eq_of_mem_replicate hc]
    rfl

theorem margin_ne_nil (depth : Nat) : margin depth ≠ [] := List.cons_ne_nil _ _

section Writes

variable {m k : Printer Unit} {depth : Nat} {text text' : List Char}

theorem writes_pure : Writes (pure ()) depth [] := by
  intro lines
  refine ⟨[], ?_, rfl⟩
  rw [List.append_nil]
  rfl

theorem Writes.seq (hm : Writes m depth text) (hk : Writes k depth text') :
    Writes (do m; k) depth (text ++ text') := by
  intro lines
  obtain ⟨added, hrun, rfl⟩ := hm lines
  obtain ⟨added', hrun', rfl⟩ := hk (lines ++ added)
  refine ⟨added ++ added', ?_, lineChars_append added added'⟩
  rw [← List.append_assoc, ← hrun']
  change EStateM.bind m (fun _ => k) ⟨lines, depth⟩ = _
  rw [EStateM.bind, hrun]

theorem Writes.deeper (hm : Writes m (depth + 1) text) : Writes (deeper m) depth text := by
  intro lines
  obtain ⟨added, hrun, rfl⟩ := hm lines
  refine ⟨added, ?_, rfl⟩
  change EStateM.bind m _ ⟨lines, depth + 1⟩ = _
  rw [EStateM.bind, hrun]
  rfl

theorem writes_line {line : String} (h : ∀ rest, startOf (line.toList ++ rest) ≠ .other) :
    Writes (Printer.line line) depth (margin depth ++ line.toList) := by
  have hne : line ≠ "" := by
    rintro rfl
    exact h [] rfl
  intro lines
  refine ⟨[String.ofList (List.replicate (4 * depth) ' ') ++ line], ?_, ?_⟩
  · change EStateM.Result.ok () (Layout.mk (lines ++ [if line = "" then _ else _]) depth) = _
    rw [if_neg hne]
  · simp [lineChars, margin]

theorem writes_brace : Writes (line "\x7d") depth (margin depth ++ "\x7d".toList) :=
  writes_line fun _ => (by decide : Start.endBrace ≠ .other)

theorem writes_empty_line : Writes (line "") depth ['\n'] := fun _ => ⟨[""], rfl, rfl⟩

end Writes

/-- The type is printed as the text, and the text is read as the type. -/
structure LegibleType (type : Node) (text : String) : Prop where
  written : type.typeText = .ok text
  start : ∀ rest, startOf (text.toList ++ rest) = .letter
  word : ∀ rest, Stops rest → firstWord (text.toList ++ rest) ∈ typeWords
  reads : ∀ rest, Stops rest → Reads readType text.toList type.shape rest

theorem legibleType_struct {id : Ident} (h : isPlainName id.name = true) :
    LegibleType (.structType id) ("struct " ++ id.name) := by
  have hname : isName "struct" = true := by decide
  have hlist : ("struct " ++ id.name).toList =
      "struct".toList ++ (" ".toList ++ id.name.toList) := String.toList_append
  have hblank (rest : List Char) : Stops (" ".toList ++ id.name.toList ++ rest) := rfl
  refine ⟨rfl, fun rest => ?_, fun rest _ => ?_, fun rest hrest => ?_⟩
  · rw [hlist, List.append_assoc]
    exact startOf_name hname
  · rw [hlist, List.append_assoc, firstWord_name hname (hblank rest).chars]
    decide
  · rw [hlist]
    exact (reads_name hname (hblank rest).chars).bind ((reads_after " ").bind
      ((reads_name (isName_of_plain h) hrest.chars).returns Node.structType))

theorem exists_legibleType {type : Node} (h : type.isType = true) (hplain : type.Plain) :
    ∃ text, LegibleType type text := by
  cases type with
  | primType prim =>
    have hname : isName prim.text = true := by
      cases prim <;> decide
    refine ⟨prim.text, rfl, fun rest => startOf_name hname, fun rest hrest => ?_,
      fun rest hrest => (reads_name hname hrest.chars).bind_nil ?_⟩
    · rw [firstWord_name hname hrest.chars]
      cases prim <;> decide
    · cases prim <;> rfl
  | structType id => exact ⟨_, legibleType_struct (hplain.names id (by simp [Node.idents]))⟩
  | _ => cases h

/-- The line is read as a declaration, whatever comes behind it. -/
abbrev DeclLine : List Char → Node → Prop := IsLine declares (fun _ => True) readVarDecl

/-- The declaration is printed on a line at the depth, and the line is read as the declaration. -/
structure LegibleDecl (depth : Nat) (d : Node) (text : List Char) : Prop where
  written : Writes (d.printDecl false) depth (margin depth ++ text)
  line : DeclLine text d.shape

theorem writes_varDecl {type : Node} {text : String} (h : LegibleType type text) (id : Ident)
    (depth : Nat) :
    Writes ((Node.varDecl type id).printDecl false) depth
      (margin depth ++ (text.toList ++ (" ".toList ++ (id.name.toList ++ ";".toList)))) := by
  have hlist : (text ++ " " ++ id.name ++ ";").toList =
      text.toList ++ (" ".toList ++ (id.name.toList ++ ";".toList)) := by
    simp only [String.toList_append, List.append_assoc]
  have hprint : (Node.varDecl type id).printDecl false =
      line (text ++ " " ++ id.name ++ ";") := by
    rw [Node.printDecl, h.written]
    rfl
  rw [hprint, ← hlist]
  refine writes_line fun rest => ?_
  rw [hlist, List.append_assoc, h.start]
  decide

theorem exists_legibleDecl {d : Node} (h : d.isVarDecl = true) (hplain : d.Plain) (depth : Nat) :
    ∃ text, LegibleDecl depth d text := by
  cases d with
  | varDecl type id =>
    have hid := isName_of_plain (hplain.names id (by simp [Node.idents]))
    obtain ⟨text, htype⟩ := exists_legibleType (Bool.and_eq_true_iff.mp h).1
      (hplain.child (by simp [Node.children]))
    have hblank (rest : List Char) :
        Stops (" ".toList ++ (id.name.toList ++ ";".toList) ++ rest) := rfl
    have hsemicolon (rest : List Char) : Stops (";".toList ++ rest) := rfl
    refine ⟨_, writes_varDecl htype id depth, fun rest => ?_, fun rest => ?_, fun _ => trivial,
      fun rest _ => ?_⟩
    · rw [List.append_assoc, htype.start]
      decide
    · rw [List.append_assoc]
      exact decide_eq_true (htype.word _ (hblank rest))
    · exact (htype.reads _ (hblank rest)).bind ((reads_after " ").bind
        ((reads_name hid (hsemicolon rest).chars).bind ((reads_after ";").returns fun _ => _)))
  | _ => cases h

/-- The text is read as a statement if what comes behind it is no other branch of it. It is itself
neither a branch nor a declaration. -/
abbrev StmtLine (fuel : Nat) : List Char → Node → Prop :=
  IsLine goesOn (fun cs => firstWord cs ∉ "else" :: typeWords) (readStmt fuel)

/-- The statement is printed on lines from the depth on, and the lines are read as the statement. -/
structure LegibleStmt (depth : Nat) (s : Node) (text : List Char) : Prop where
  written : Writes (s.printStmt false) depth (margin depth ++ text)
  line : ∀ fuel, text.length < fuel → StmtLine fuel text s.shape

/-- The body is printed between braces at the depth, and is read up to the closing one. -/
structure LegibleBlock (depth : Nat) (decls stmts : List Node) (inner : List Char) : Prop where
  written : Writes (deeper do Node.printDecls false decls; Node.printStmts false stmts) depth inner
  reads : ∀ fuel rest, inner.length < fuel →
    Reads (readBlock (readStmt fuel) fuel) (inner ++ (margin depth ++ "\x7d".toList))
      (Node.shapes decls, Node.shapes stmts) rest

section Blocks

variable {depth : Nat} {decls stmts : List Node} {texts texts' : List (List Char)}

theorem writes_decls
    (h : List.Forall₂ (fun d text => Writes (d.printDecl false) depth (margin depth ++ text))
      decls texts) :
    Writes (Node.printDecls false decls) depth (texts.flatMap (margin depth ++ ·)) := by
  induction h with
  | nil => exact writes_pure
  | cons hd _ ih => exact hd.seq ih

theorem writes_stmts (h : List.Forall₂ (LegibleStmt depth) stmts texts) :
    Writes (Node.printStmts false stmts) depth (texts.flatMap (margin depth ++ ·)) := by
  induction h with
  | nil => exact writes_pure
  | cons hs _ ih => exact hs.written.seq ih

theorem reads_decls (h : List.Forall₂ (LegibleDecl depth) decls texts) {fuel : Nat}
    (hfuel : (texts.flatMap (margin depth ++ ·)).length < fuel) {rest : List Char}
    (hrest : declares (rest.dropWhile isBlank) = false) :
    Reads (readVarDecls fuel) (texts.flatMap (margin depth ++ ·)) (Node.shapes decls) rest := by
  have hlines : List.Forall₂ DeclLine texts (Node.shapes decls) :=
    Node.forall₂_shapes h fun d text _ hd => hd.line
  obtain ⟨hcount, -⟩ := length_flatMap_sep (margin_ne_nil depth) (fun text => text) texts
  exact reads_lines (isBlank_of_mem_margin depth) hlines (by omega) hrest trivial

theorem dropWhile_margin {text : List Char} (h : startOf text ≠ .other) :
    (margin depth ++ text).dropWhile isBlank = text := by
  rw [dropWhile_blank_append (isBlank_of_mem_margin depth), dropWhile_blank_of_start h]

theorem legibleBlock (hdecls : List.Forall₂ (LegibleDecl (depth + 1)) decls texts)
    (hstmts : List.Forall₂ (LegibleStmt (depth + 1)) stmts texts') :
    LegibleBlock depth decls stmts
      (texts.flatMap (margin (depth + 1) ++ ·) ++ texts'.flatMap (margin (depth + 1) ++ ·)) := by
  refine ⟨((writes_decls (hdecls.imp fun _ _ hd => hd.written)).seq (writes_stmts hstmts)).deeper,
    fun fuel rest hfuel => ?_⟩
  rw [List.length_append] at hfuel
  have hblank := isBlank_of_mem_margin (depth + 1)
  obtain ⟨hcount, hlengths⟩ :=
    length_flatMap_sep (margin_ne_nil (depth + 1)) (fun text => text) texts'
  have hlines : List.Forall₂ (StmtLine fuel) texts' (Node.shapes stmts) := by
    refine Node.forall₂_shapes hstmts fun s text htext hs => hs.line fuel ?_
    have hle := hlengths text htext
    omega
  have hbrace : startOf ("\x7d".toList ++ rest) ≠ .other := (by decide : Start.endBrace ≠ .other)
  have hclosed : goesOn ((margin depth ++ "\x7d".toList ++ rest).dropWhile isBlank) = false := by
    rw [List.append_assoc, dropWhile_margin hbrace]
    rfl
  have hnoBranch : firstWord ((margin depth ++ "\x7d".toList ++ rest).dropWhile isBlank) ∉
      "else" :: typeWords := by
    rw [List.append_assoc, dropWhile_margin hbrace]
    exact (by decide : "" ∉ "else" :: typeWords)
  -- a statement does not look like a declaration, and neither does the closing brace
  have hstmt : declares ((texts'.flatMap (margin (depth + 1) ++ ·) ++
      (margin depth ++ "\x7d".toList) ++ rest).dropWhile isBlank) = false := by
    refine decide_eq_false fun hmem => ?_
    rw [List.append_assoc] at hmem
    exact next_of_lines hblank hlines hnoBranch (List.mem_cons_of_mem _ hmem)
  rw [List.append_assoc]
  exact (reads_decls hdecls (by omega) hstmt).bind
    ((reads_lines hblank hlines (by omega) hclosed hnoBranch).bind
      ((reads_blanks (isBlank_of_mem_margin depth) hbrace).bind
        ((reads_after "\x7d").returns fun _ => _)))

end Blocks

/-- The words that statements start with. -/
def stmtWords : List String := ["if", "while", "cin", "cout", "return"]

theorem isName_of_stmtWord {word : String} (h : word ∈ stmtWords) : isName word = true := by
  have hwords : ∀ word ∈ stmtWords, isName word = true := by decide
  exact hwords word h

section Statements

variable {depth : Nat} {s e : Node} {text : String}

theorem reads_last (h : Legible e text) {fuel : Nat} (hfuel : text.length < fuel) (lead : String)
    (make : Node → Node) (rest : List Char) :
    Reads (readLast lead fuel make) (lead.toList ++ (text.toList ++ ";".toList)) (make e.shape)
      rest := by
  have hsemicolon : Stops (";".toList ++ rest) := rfl
  exact (reads_after lead).bind ((h.reads fuel _ hfuel hsemicolon).bind
    ((reads_after ";").returns fun _ => make e.shape))

theorem reads_cond (h : Legible e text) {fuel : Nat} (hfuel : text.length < fuel) (lead : String)
    (rest : List Char) :
    Reads (readCond lead fuel) (lead.toList ++ (text.toList ++ ") \x7b".toList)) e.shape rest := by
  have hclosing : Stops (") \x7b".toList ++ rest) := rfl
  exact (reads_after lead).bind ((h.reads fuel _ hfuel hclosing).bind
    ((reads_after ") \x7b").returns fun _ => e.shape))

/-- A statement that starts with an expression is told by what follows the expression. -/
theorem LegibleStmt.ofEffect {ending : String} (h : Legible e text)
    (hprint : s.printStmt false = Printer.line (text ++ ending)) (hending : 0 < ending.length)
    (hstop : ∀ rest, Stops (ending.toList ++ rest))
    (hreads : ∀ fuel rest, (text ++ ending).length ≤ fuel →
      Reads (readEffect fuel e.shape) ending.toList s.shape rest) :
    LegibleStmt depth s (text ++ ending).toList := by
  have hlist : (text ++ ending).toList = text.toList ++ ending.toList := String.toList_append
  have hstart (rest : List Char) : startOf ((text ++ ending).toList ++ rest) ∈
      [.digit, .sign, .quote, .letter, .opening] := by
    rw [hlist, List.append_assoc, h.start]
    exact e.startKind_mem
  have hother (rest : List Char) : startOf ((text ++ ending).toList ++ rest) ≠ .other :=
    fun hkind => absurd (hkind ▸ hstart rest) (by decide)
  have hword (rest : List Char) : firstWord ((text ++ ending).toList ++ rest) ∉ keywords := by
    rw [hlist, List.append_assoc]
    exact h.word _ (hstop rest)
  have hkeywords : ∀ word ∈ "else" :: typeWords, word ∈ keywords := by decide
  refine ⟨?_, fun fuel hfuel => ⟨hother, fun rest => ?_, fun rest hmem => ?_, fun rest _ => ?_⟩⟩
  · rw [hprint]
    exact writes_line hother
  · exact decide_eq_true fun hkind => absurd (hkind ▸ hstart rest) (by decide)
  · exact hword rest (hkeywords _ hmem)
  · obtain _ | fuel := fuel
    · cases hfuel
    · have hne (word : String) (hmem : word ∈ keywords) :
          firstWord ((text ++ ending).toList ++ rest) ≠ word := fun heq =>
        hword rest (heq ▸ hmem)
      have hahead : Reads (ahead firstWord) [] (firstWord ((text ++ ending).toList ++ rest))
          ((text ++ ending).toList ++ rest) := by
        apply reads_ahead
        rw [dropWhile_blank_of_start (hother rest)]
      refine hahead.look ?_
      rw [if_neg (hne "if" (by decide)), if_neg (hne "while" (by decide)),
        if_neg (hne "cin" (by decide)), if_neg (hne "cout" (by decide)),
        if_neg (hne "return" (by decide)), hlist]
      rw [String.length_toList] at hfuel
      have hlength : (text ++ ending).length = text.length + ending.length :=
        String.length_append text ending
      exact (h.reads fuel _ (by omega) (hstop rest)).bind (hreads fuel rest (by omega))

theorem LegibleStmt.callStmt (h : Legible e text) :
    LegibleStmt depth (.callStmt e) (text ++ ";").toList := by
  refine .ofEffect h ?_ (by decide) (fun rest => rfl) fun fuel rest _ =>
    (reads_start rfl).look ((reads_after ";").returns fun _ => Node.callStmt e.shape)
  rw [Node.printStmt, h.written]
  rfl

theorem LegibleStmt.increment (h : Legible e text) :
    LegibleStmt depth (.stepStmt .inc e) (text ++ "++;").toList := by
  refine .ofEffect h ?_ (by decide) (fun rest => rfl) fun fuel rest _ =>
    (reads_start rfl).look ((reads_after "++;").returns fun _ => Node.stepStmt .inc e.shape)
  rw [Node.printStmt, h.written]
  rfl

theorem LegibleStmt.decrement (h : Legible e text) :
    LegibleStmt depth (.stepStmt .dec e) (text ++ "--;").toList := by
  refine .ofEffect h ?_ (by decide) (fun rest => rfl) fun fuel rest _ =>
    (reads_start rfl).look ((reads_after "--;").returns fun _ => Node.stepStmt .dec e.shape)
  rw [Node.printStmt, h.written]
  rfl

theorem LegibleStmt.assignStmt {value : Node} {valueText : String} (h : Legible e text)
    (hvalue : Legible value valueText) :
    LegibleStmt depth (.assignStmt (.assign e value))
      (text ++ (" = " ++ valueText ++ ";")).toList := by
  have hlist : (" = " ++ valueText ++ ";").toList =
      " = ".toList ++ (valueText.toList ++ ";".toList) := by
    simp only [String.toList_append, List.append_assoc]
  have hlength : (" = " ++ valueText ++ ";").length = 3 + valueText.length + 1 := by
    rw [String.length_append, String.length_append]
    rfl
  refine .ofEffect h ?_ (by omega) (fun rest => ?_) fun fuel rest hfuel => ?_
  · rw [Node.printStmt, Node.assignText, h.written, hvalue.written]
    simp only [← String.append_assoc]
    rfl
  · rw [hlist]
    exact rfl
  · rw [String.length_append] at hfuel
    rw [hlist]
    exact (reads_start rfl).look (reads_last hvalue (by omega) " = " _ rest)

theorem stmtLine_of_word (word : String) (tail : List Char) {fuel : Nat} {x : Node}
    (hword : word ∈ stmtWords) (hstop : ∀ rest, Stops (tail ++ rest))
    (hreads : ∀ rest, firstWord (rest.dropWhile isBlank) ∉ "else" :: typeWords →
      Reads (ahead firstWord) [] word (word.toList ++ tail ++ rest) →
      Reads (readStmt fuel) (word.toList ++ tail) x rest) :
    StmtLine fuel (word.toList ++ tail) x := by
  have hname := isName_of_stmtWord hword
  have hwords : ∀ word ∈ stmtWords, word ∉ "else" :: typeWords := by decide
  have hstart (rest : List Char) : startOf (word.toList ++ tail ++ rest) = .letter := by
    rw [List.append_assoc]
    exact startOf_name hname
  have hother (rest : List Char) : startOf (word.toList ++ tail ++ rest) ≠ .other := by
    rw [hstart]
    decide
  have hfirst (rest : List Char) : firstWord (word.toList ++ tail ++ rest) = word := by
    rw [List.append_assoc, firstWord_name hname (hstop rest).chars]
  refine ⟨hother, fun rest => ?_, fun rest => ?_, fun rest hrest => hreads rest hrest ?_⟩
  · rw [goesOn, hstart]
    rfl
  · rw [hfirst]
    exact hwords word hword
  · apply reads_ahead
    rw [dropWhile_blank_of_start (hother rest), hfirst]

theorem LegibleStmt.ofWord {line : String} (word : String) (tail : List Char)
    (hprint : s.printStmt false = Printer.line line) (hlist : line.toList = word.toList ++ tail)
    (hword : word ∈ stmtWords) (hstop : ∀ rest, Stops (tail ++ rest))
    (hreads : ∀ fuel rest, line.length ≤ fuel →
      Reads (ahead firstWord) [] word (word.toList ++ tail ++ rest) →
      Reads (Sema.readStmt (fuel + 1)) (word.toList ++ tail) s.shape rest) :
    LegibleStmt depth s line.toList := by
  have hline (fuel : Nat) (hfuel : line.length < fuel) : StmtLine fuel line.toList s.shape := by
    obtain _ | fuel := fuel
    · cases hfuel
    · rw [hlist]
      exact stmtLine_of_word word tail hword hstop fun rest _ hahead =>
        hreads fuel rest (Nat.le_of_lt_succ hfuel) hahead
  refine ⟨?_, fun fuel hfuel => hline fuel (String.length_toList ▸ hfuel)⟩
  rw [hprint]
  exact writes_line (hline _ (Nat.lt_succ_self _)).start

theorem LegibleStmt.returnNone (pos : Pos) :
    LegibleStmt depth (.returnStmt .missing pos) "return;".toList := by
  refine .ofWord "return" ";".toList ?_ rfl (by decide) (fun rest => rfl)
    fun fuel rest hfuel hahead => hahead.look ?_
  · rw [Node.printStmt]
  · rw [if_neg (by decide), if_neg (by decide), if_neg (by decide), if_neg (by decide), if_pos rfl]
    exact (reads_after "return").bind
      ((reads_start rfl).look ((reads_after ";").returns fun _ => _))

theorem LegibleStmt.ofLast (word lead : String) (gap : List Char)
    (hprint : s.printStmt false = Printer.line (lead ++ text ++ ";"))
    (hlead : lead.toList = word.toList ++ gap) (hword : word ∈ stmtWords)
    (hgap : ∀ rest, Stops (gap ++ rest))
    (hreads : ∀ fuel rest, text.length < fuel →
      Reads (ahead firstWord) [] word (lead.toList ++ (text.toList ++ ";".toList) ++ rest) →
      Reads (Sema.readStmt (fuel + 1)) (lead.toList ++ (text.toList ++ ";".toList)) s.shape rest) :
    LegibleStmt depth s (lead ++ text ++ ";").toList := by
  have hsplit : lead.toList ++ (text.toList ++ ";".toList) =
      word.toList ++ (gap ++ (text.toList ++ ";".toList)) := by
    rw [hlead, List.append_assoc]
  refine .ofWord word (gap ++ (text.toList ++ ";".toList)) hprint ?_ hword (fun rest => ?_)
    fun fuel rest hfuel hahead => ?_
  · rw [← hsplit]
    simp only [String.toList_append, List.append_assoc]
  · rw [List.append_assoc]
    exact hgap _
  · rw [← hsplit] at hahead ⊢
    rw [String.length_append, String.length_append] at hfuel
    have hlength : ";".length = 1 := rfl
    exact hreads fuel rest (by omega) hahead

theorem LegibleStmt.readStmt (h : Legible e text) :
    LegibleStmt depth (.readStmt e) ("cin >> " ++ text ++ ";").toList := by
  refine .ofLast "cin" "cin >> " " >> ".toList ?_ rfl (by decide) (fun rest => rfl)
    fun fuel rest hfuel hahead => hahead.look ?_
  · rw [Node.printStmt, h.written]
    rfl
  · rw [if_neg (by decide), if_neg (by decide), if_pos rfl]
    exact reads_last h hfuel "cin >> " _ rest

theorem LegibleStmt.writeStmt (h : Legible e text) :
    LegibleStmt depth (.writeStmt e) ("cout << " ++ text ++ ";").toList := by
  refine .ofLast "cout" "cout << " " << ".toList ?_ rfl (by decide) (fun rest => rfl)
    fun fuel rest hfuel hahead => hahead.look ?_
  · rw [Node.printStmt, h.written]
    rfl
  · rw [if_neg (by decide), if_neg (by decide), if_neg (by decide), if_pos rfl]
    exact reads_last h hfuel "cout << " _ rest

theorem LegibleStmt.returnValue (h : Legible e text) (pos : Pos) :
    LegibleStmt depth (.returnStmt e pos) ("return " ++ text ++ ";").toList := by
  refine .ofLast "return" "return " " ".toList ?_ rfl (by decide) (fun rest => rfl)
    fun fuel rest hfuel hahead => hahead.look ?_
  · have hvalue : e ≠ .missing := by
      rintro rfl
      cases h.written
    rw [Node.printStmt, h.written]
    · rfl
    · exact hvalue
  · rw [if_neg (by decide), if_neg (by decide), if_neg (by decide), if_neg (by decide), if_pos rfl]
    exact (reads_after "return").bind ((reads_start rfl).look (reads_last h hfuel " " _ rest))

/-- A statement with a condition goes on behind the line with the condition. -/
theorem LegibleStmt.ofCond {k : Printer Unit} {tail : List Char} (word lead : String)
    (read : Nat → Node → Reader Node) (h : Legible e text)
    (hprint : s.printStmt false =
      (do lineOf (do return lead ++ (← e.exprText false) ++ ") \x7b"); k))
    (hk : Writes k depth tail) (hlead : lead.toList = word.toList ++ " (".toList)
    (hword : word ∈ stmtWords)
    (hstep : ∀ fuel text x rest, Reads (ahead firstWord) [] word (text ++ rest) →
      Reads (readCond lead fuel >>= read fuel) text x rest →
      Reads (Sema.readStmt (fuel + 1)) text x rest)
    (hreads : ∀ fuel rest, tail.length < fuel →
      firstWord (rest.dropWhile isBlank) ∉ "else" :: typeWords →
      Reads (read fuel e.shape) tail s.shape rest) :
    LegibleStmt depth s (lead.toList ++ (text.toList ++ ") \x7b".toList) ++ tail) := by
  have hsplit : lead.toList ++ (text.toList ++ ") \x7b".toList) ++ tail =
      word.toList ++ (" (".toList ++ (text.toList ++ (") \x7b".toList ++ tail))) := by
    simp only [hlead, List.append_assoc]
  have hline (fuel : Nat)
      (hfuel : (lead.toList ++ (text.toList ++ ") \x7b".toList) ++ tail).length < fuel) :
      StmtLine fuel (lead.toList ++ (text.toList ++ ") \x7b".toList) ++ tail) s.shape := by
    obtain _ | fuel := fuel
    · cases hfuel
    · rw [hsplit]
      refine stmtLine_of_word word _ hword (fun rest => rfl) fun rest hrest hahead => ?_
      rw [← hsplit] at hahead ⊢
      have hlength : 2 ≤ lead.toList.length := by
        rw [hlead, List.length_append]
        exact Nat.le_add_left _ _
      simp only [List.length_append, String.length_toList] at hfuel hlength
      exact hstep fuel _ _ rest hahead
        ((reads_cond h (by omega) lead _).bind (hreads fuel rest (by omega) hrest))
  refine ⟨?_, hline⟩
  have hlist : (lead ++ text ++ ") \x7b").toList =
      lead.toList ++ (text.toList ++ ") \x7b".toList) := by
    simp only [String.toList_append, List.append_assoc]
  rw [hprint, h.written, ← hlist, ← List.append_assoc]
  refine (writes_line fun rest => ?_).seq hk
  rw [hlist, hlead, List.append_assoc, List.append_assoc, startOf_name (isName_of_stmtWord hword)]
  decide

/-- Without another branch, a choice ends with its first block. -/
theorem reads_no_branch {readOther : Reader (List Node × List Node)} {rest : List Char}
    (hrest : firstWord (rest.dropWhile isBlank) ∉ "else" :: typeWords) (cond : Node)
    (body : List Node × List Node) :
    Reads (readBranch readOther cond body) [] (.ifStmt cond body.1 body.2) rest := by
  have hno : ¬firstWord (rest.dropWhile isBlank) = "else" := fun heq =>
    hrest (heq ▸ List.mem_cons_self)
  have hahead : Reads (ahead firstWord) [] _ rest := reads_ahead rfl
  refine hahead.look ?_
  rw [if_neg hno]
  exact reads_pure _

theorem reads_branch {readOther : Reader (List Node × List Node)} {block rest : List Char}
    {other : List Node × List Node} (hother : Reads readOther block other rest) (cond : Node)
    (body : List Node × List Node) :
    Reads (readBranch readOther cond body) (margin depth ++ ("else \x7b".toList ++ block))
      (.ifElseStmt cond body.1 body.2 other.1 other.2) rest := by
  have hstart : startOf ("else \x7b".toList ++ block ++ rest) ≠ .other :=
    (by decide : Start.letter ≠ .other)
  have hahead : Reads (ahead firstWord) [] "else"
      (margin depth ++ ("else \x7b".toList ++ block) ++ rest) := by
    apply reads_ahead
    rw [List.append_assoc, dropWhile_margin hstart]
    rfl
  refine hahead.look ?_
  rw [if_pos rfl]
  exact (reads_blanks (isBlank_of_mem_margin depth) hstart).bind
    ((reads_after "else \x7b").bind (hother.returns fun other => _))

variable {decls stmts : List Node} {inner : List Char}

theorem LegibleStmt.whileStmt (h : Legible e text) (hbody : LegibleBlock depth decls stmts inner) :
    LegibleStmt depth (.whileStmt e decls stmts) ("while (".toList ++ (text.toList ++
      ") \x7b".toList) ++ (inner ++ (margin depth ++ "\x7d".toList))) := by
  refine .ofCond "while" "while ("
    (fun fuel cond => do
      let body ← readBlock (Sema.readStmt fuel) fuel
      return .whileStmt cond body.1 body.2)
    h (by rw [Node.printStmt]) (hbody.written.seq writes_brace) rfl (by decide)
    (fun fuel text x rest hahead hreads => hahead.look ?_) fun fuel rest hfuel _ => ?_
  · rw [if_neg (by decide), if_pos rfl]
    exact hreads
  · rw [List.length_append] at hfuel
    exact (hbody.reads fuel rest (by omega)).returns fun body =>
      Node.whileStmt e.shape body.1 body.2

theorem LegibleStmt.ifStmt (h : Legible e text) (hbody : LegibleBlock depth decls stmts inner) :
    LegibleStmt depth (.ifStmt e decls stmts) ("if (".toList ++ (text.toList ++
      ") \x7b".toList) ++ (inner ++ (margin depth ++ "\x7d".toList))) := by
  refine .ofCond "if" "if ("
    (fun fuel cond => do
      let body ← readBlock (Sema.readStmt fuel) fuel
      readBranch (readBlock (Sema.readStmt fuel) fuel) cond body)
    h (by rw [Node.printStmt]) (hbody.written.seq writes_brace) rfl (by decide)
    (fun fuel text x rest hahead hreads => hahead.look hreads) fun fuel rest hfuel hrest => ?_
  rw [List.length_append] at hfuel
  exact (hbody.reads fuel rest (by omega)).bind_nil (reads_no_branch hrest _ _)

theorem LegibleStmt.ifElseStmt {decls' stmts' : List Node} {inner' : List Char}
    (h : Legible e text) (hbody : LegibleBlock depth decls stmts inner)
    (hother : LegibleBlock depth decls' stmts' inner') :
    LegibleStmt depth (.ifElseStmt e decls stmts decls' stmts')
      ("if (".toList ++ (text.toList ++ ") \x7b".toList) ++
        (inner ++ (margin depth ++ "\x7d".toList) ++ (margin depth ++
          ("else \x7b".toList ++ (inner' ++ (margin depth ++ "\x7d".toList)))))) := by
  have helse : Writes (Printer.line "else \x7b") depth (margin depth ++ "else \x7b".toList) :=
    writes_line fun _ => (by decide : Start.letter ≠ .other)
  refine .ofCond "if" "if ("
    (fun fuel cond => do
      let body ← readBlock (Sema.readStmt fuel) fuel
      readBranch (readBlock (Sema.readStmt fuel) fuel) cond body)
    h (by rw [Node.printStmt]) ?_ rfl (by decide)
    (fun fuel text x rest hahead hreads => hahead.look hreads) fun fuel rest hfuel _ => ?_
  · rw [List.append_assoc inner, ← List.append_assoc (margin depth) "else \x7b".toList]
    exact hbody.written.seq (writes_brace.seq (helse.seq (hother.written.seq writes_brace)))
  · simp only [List.length_append] at hfuel
    exact (hbody.reads fuel _ (by omega)).bind
      (reads_branch (hother.reads fuel rest (by omega)) _ _)

end Statements

/-- Bodies are legible if their statements are. -/
theorem exists_legibleBlock {decls stmts : List Node} {depth : Nat}
    (hdecls : decls.all Node.isVarDecl = true) (hplain : ∀ d ∈ decls, d.Plain)
    (hstmts : ∀ s ∈ stmts, ∃ text, LegibleStmt (depth + 1) s text) :
    ∃ inner, LegibleBlock depth decls stmts inner := by
  rw [List.all_eq_true] at hdecls
  obtain ⟨texts, htexts⟩ := exists_forall₂ fun d hd =>
    exists_legibleDecl (hdecls d hd) (hplain d hd) (depth + 1)
  obtain ⟨texts', htexts'⟩ := exists_forall₂ hstmts
  exact ⟨_, legibleBlock htexts htexts'⟩

/-- Every statement of the language is legible. -/
theorem exists_legibleStmt {s : Node} (h : s.isStmt = true) (hplain : s.Plain) (depth : Nat) :
    ∃ text, LegibleStmt depth s text := by
  induction s using Node.induct generalizing depth with
  | step s ih =>
    have hproper := hplain.proper.self
    have hexpr : ∀ e ∈ s.children, e.isExpr = true → ∃ text, Legible e text := fun e he hexpr =>
      exists_legible hexpr (hplain.child he)
    have hblock (decls stmts : List Node) (hsub : ∀ m ∈ decls ++ stmts, m ∈ s.children)
        (hdecls : decls.all Node.isVarDecl = true) (hstmts : Node.areStmts stmts = true) :
        ∃ inner, LegibleBlock depth decls stmts inner := by
      rw [Node.areStmts_iff] at hstmts
      refine exists_legibleBlock hdecls (fun d hd => ?_) fun m hm => ?_
      · exact hplain.child (hsub d (List.mem_append_left _ hd))
      · have hchild := hsub m (List.mem_append_right _ hm)
        exact ih m hchild (hstmts m hm) (hplain.child hchild) (depth + 1)
    cases s with
    | assignStmt e =>
      cases e with
      | assign target value =>
        have hassign := hplain.child (List.mem_singleton_self _)
        obtain ⟨htarget, hvalue⟩ := Bool.and_eq_true_iff.mp h
        obtain ⟨_, hleft⟩ := exists_legible htarget (hassign.child (by simp [Node.children]))
        obtain ⟨_, hright⟩ := exists_legible hvalue (hassign.child (by simp [Node.children]))
        exact ⟨_, .assignStmt hleft hright⟩
      | _ => cases hproper
    | stepStmt op e =>
      obtain ⟨_, he⟩ := hexpr e (List.mem_singleton_self e) h
      cases op with
      | inc => exact ⟨_, .increment he⟩
      | dec => exact ⟨_, .decrement he⟩
    | readStmt e =>
      obtain ⟨_, he⟩ := hexpr e (List.mem_singleton_self e) h
      exact ⟨_, .readStmt he⟩
    | writeStmt e =>
      obtain ⟨_, he⟩ := hexpr e (List.mem_singleton_self e) h
      exact ⟨_, .writeStmt he⟩
    | callStmt e =>
      obtain ⟨_, he⟩ := hexpr e (List.mem_singleton_self e) h
      exact ⟨_, .callStmt he⟩
    | ifStmt cond decls stmts =>
      simp only [Node.isStmt, Bool.and_eq_true] at h
      obtain ⟨_, hcond⟩ := hexpr cond (by simp [Node.children]) h.1.1
      obtain ⟨_, hbody⟩ := hblock decls stmts (fun m hm => List.mem_cons_of_mem _ hm) h.1.2 h.2
      exact ⟨_, .ifStmt hcond hbody⟩
    | whileStmt cond decls stmts =>
      simp only [Node.isStmt, Bool.and_eq_true] at h
      obtain ⟨_, hcond⟩ := hexpr cond (by simp [Node.children]) h.1.1
      obtain ⟨_, hbody⟩ := hblock decls stmts (fun m hm => List.mem_cons_of_mem _ hm) h.1.2 h.2
      exact ⟨_, .whileStmt hcond hbody⟩
    | ifElseStmt cond ds ss ds' ss' =>
      simp only [Node.isStmt, Bool.and_eq_true] at h
      obtain ⟨⟨⟨⟨hc, hds⟩, hss⟩, hds'⟩, hss'⟩ := h
      obtain ⟨_, hcond⟩ := hexpr cond (by simp [Node.children]) hc
      obtain ⟨_, hbody⟩ := hblock ds ss (by grind [Node.children]) hds hss
      obtain ⟨_, hother⟩ := hblock ds' ss' (by grind [Node.children]) hds' hss'
      exact ⟨_, .ifElseStmt hcond hbody hother⟩
    | returnStmt value pos =>
      by_cases hmissing : value = .missing
      · subst hmissing
        exact ⟨_, .returnNone pos⟩
      · rw [Node.isStmt_return hmissing] at h
        obtain ⟨_, hvalue⟩ := hexpr value (List.mem_singleton_self value) h
        exact ⟨_, .returnValue hvalue pos⟩
    | _ => cases h

end Sema
