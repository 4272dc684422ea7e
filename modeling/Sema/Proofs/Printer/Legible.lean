import Sema.Proofs.Printer.Progress
import Sema.Proofs.Printer.Reader

/-!
# Printed expressions can be read

The text of an expression, printed without annotations, is read back as the expression, whatever
comes behind it that cannot go on a word.
-/

namespace Sema

open Reader

/-- Words that no name is written like. -/
def keywords : List String := typeWords ++ ["if", "else", "while", "return", "cin", "cout"]

def isPlainName (name : String) : Bool :=
  isName name && (keywords ++ ["true", "false"]).all (name != ·)

/-- A lexeme in double quotes, on one line, with none of them inside. -/
def IsQuoted (lexeme : String) : Prop :=
  ∃ body : List Char, lexeme = "\"" ++ String.ofList body ++ "\"" ∧
    ∀ c ∈ body, c ≠ '\x22' ∧ c ≠ '\n'

def Ident.shape (id : Ident) : Ident := ⟨id.name, .origin, none⟩

namespace Node

/-- The tree without its positions and symbols. -/
def shape : Node → Node := relabel Ident.shape Ident.shape fun _ => .origin

def shapes : List Node → List Node := relabelAll Ident.shape Ident.shape fun _ => .origin

theorem forall₂_shapes {α : Type} {P : Node → α → Prop} {R : α → Node → Prop} {ns : List Node}
    {as : List α} (h : List.Forall₂ P ns as) (hR : ∀ n, ∀ a ∈ as, P n a → R a n.shape) :
    List.Forall₂ R as (shapes ns) := by
  induction h with
  | nil => exact .nil
  | @cons n a ns as hn hns ih =>
    exact .cons (hR n a List.mem_cons_self hn) (ih fun m b hb => hR m b (List.mem_cons_of_mem a hb))

/-- Names and lexemes are written as the language has them, numbers can be written at all, and
operators are known. -/
structure Plain (n : Node) : Prop where
  names : ∀ id ∈ n.idents, isPlainName id.name = true
  numbers : n.Writable
  lexemes : ∀ lexeme pos, .lit (.string lexeme) pos ∈ n :: n.descendants → IsQuoted lexeme
  proper : n.Throughout (isProper · = true)

theorem Plain.child {n m : Node} (h : n.Plain) (hm : m ∈ n.children) : m.Plain where
  names id hid := h.names id (idents_of_child (mem_identsAll.mpr ⟨m, hm, hid⟩))
  numbers := h.numbers.child hm
  lexemes lexeme pos hlit := by
    apply h.lexemes lexeme pos
    rw [descendants_eq]
    exact List.mem_cons_of_mem n (mem_allNodes.mpr ⟨m, hm, List.mem_cons.mp hlit⟩)
  proper := h.proper.child hm

end Node

theorem Literal.text_int {value : Int} {text : String} :
    (Literal.int value).text = .ok text ↔
      (Text.numeral? value).isSome = true ∧ text = toString value := by
  simp only [Literal.text, Text.numeral?]
  split <;> simp [written, eq_comm]

section PlainNames

variable {name : String}

theorem isName_of_plain (h : isPlainName name = true) : isName name = true :=
  (Bool.and_eq_true_iff.mp h).1

theorem ne_of_plain (h : isPlainName name = true) :
    ∀ word ∈ keywords ++ ["true", "false"], name ≠ word := by
  have hall := (Bool.and_eq_true_iff.mp h).2
  rw [List.all_eq_true] at hall
  intro word hword
  simpa using hall word hword

end PlainNames

section Operators

variable {op : String}

theorem eq_of_unaryRule? (h : (unaryRule? op).isSome = true) : op = "-" ∨ op = "!" := by
  unfold unaryRule? at h
  split at h
  · exact .inl ‹_›
  · split at h
    · exact .inr ‹_›
    · cases h

theorem mem_of_binaryRule? (h : (binaryRule? op).isSome = true) :
    op ∈ arithmeticOps ++ logicalOps ++ relationalOps ++ equalityOps := by
  by_contra hmem
  simp only [List.mem_append, not_or] at hmem
  obtain ⟨⟨⟨harith, hlogical⟩, hrelational⟩, hequality⟩ := hmem
  simp [binaryRule?, harith, hlogical, hrelational, hequality] at h

end Operators

section Starts

variable {rest : List Char}

theorem isNameStart_of_digit {c : Char} (h : c.isDigit = true) : isNameStart c = false := by
  obtain ⟨-, hnine⟩ := Char.isDigit_iff_toNat.mp h
  by_contra hstart
  rw [Bool.not_eq_false] at hstart
  obtain hletter | hunderscore := Bool.or_eq_true_iff.mp hstart
  · obtain hupper | hlower := Bool.or_eq_true_iff.mp hletter
    · have hA : 'A'.toNat ≤ c.toNat := UInt32.le_iff_toNat_le.mp (of_decide_eq_true hupper).1
      have hle : 'A'.toNat ≤ '9'.toNat := Nat.le_trans hA hnine
      exact absurd hle (by decide)
    · have ha : 'a'.toNat ≤ c.toNat :=
        UInt32.le_iff_toNat_le.mp (of_decide_eq_true (Bool.and_eq_true_iff.mp hlower).1)
      have hle : 'a'.toNat ≤ '9'.toNat := Nat.le_trans ha hnine
      exact absurd hle (by decide)
  · obtain rfl := eq_of_beq hunderscore
    cases h

theorem startOf_number (n : Nat) : startOf ((toString n).toList ++ rest) = .digit := by
  rw [Nat.toString_eq_ofList_toDigits, String.toList_ofList]
  cases hdigits : Nat.toDigits 10 n with
  | nil => exact absurd hdigits Nat.toDigits_ne_nil
  | cons c cs =>
    have hmem : c ∈ Nat.toDigits 10 n := by
      rw [hdigits]
      exact List.mem_cons_self
    have hc : c.isDigit = true := Nat.isDigit_of_mem_toDigits (by decide) (by decide) hmem
    simp [startOf, Start.ofChar, hc, isNameStart_of_digit hc]

theorem firstWord_of_start {text : List Char} {k : Start} (h : startOf text = k)
    (hk : k ≠ .letter) : firstWord text ∉ keywords := by
  have hnames : ∀ word ∈ keywords, isName word = true := by decide
  intro hword
  obtain ⟨d, ds, hlist, hd, -⟩ := exists_cons_of_isName (hnames _ hword)
  rw [firstWord, String.toList_ofList] at hlist
  cases text with
  | nil => cases hlist
  | cons c cs =>
    have hc : isNameStart c = false := by
      by_contra hletter
      rw [Bool.not_eq_false] at hletter
      exact hk (by simp [← h, startOf, Start.ofChar, hletter])
    rw [List.takeWhile_cons] at hlist
    split at hlist
    · cases hlist
      rw [hc] at hd
      cases hd
    · cases hlist

end Starts

namespace Node

/-- What the text of an expression starts with. -/
def startKind : Node → Start
  | .lit (.int (.ofNat _)) _ => .digit
  | .lit (.int (.negSucc _)) _ => .sign
  | .lit (.string _) _ => .quote
  | .lit (.bool _) _ | .ident _ | .call _ _ => .letter
  | _ => .opening

theorem startKind_mem (e : Node) :
    e.startKind ∈ [.digit, .sign, .quote, .letter, .opening] := by
  unfold startKind
  split <;> decide

theorem startKind_eq_digit {e : Node} (h : e.startKind = .digit) :
    ∃ (n : Nat) (pos : Pos), e = .lit (.int n) pos := by
  unfold startKind at h
  split at h <;> first | exact ⟨_, _, rfl⟩ | cases h

theorem startKind_eq_sign {e : Node} (h : e.startKind = .sign) :
    ∃ (n : Nat) (pos : Pos), e = .lit (.int (.negSucc n)) pos := by
  unfold startKind at h
  split at h <;> first | exact ⟨_, _, rfl⟩ | cases h

end Node

/-- The expression is printed as the text, and the text is read as the expression. -/
structure Legible (e : Node) (text : String) : Prop where
  written : e.exprText false = .ok text
  start : ∀ rest, startOf (text.toList ++ rest) = e.startKind
  word : ∀ rest, Stops rest → firstWord (text.toList ++ rest) ∉ keywords
  reads : ∀ fuel rest, text.length < fuel → Stops rest →
    Reads (readExpr fuel) text.toList e.shape rest

namespace Legible

variable {e : Node} {text : String}

theorem ofStep (written : e.exprText false = .ok text)
    (start : ∀ rest, startOf (text.toList ++ rest) = e.startKind)
    (word : ∀ rest, Stops rest → firstWord (text.toList ++ rest) ∉ keywords)
    (reads : ∀ fuel rest, text.length ≤ fuel → Stops rest →
      Reads (readExpr (fuel + 1)) text.toList e.shape rest) : Legible e text := by
  refine ⟨written, start, word, fun fuel rest hfuel hrest => ?_⟩
  obtain _ | fuel := fuel
  · cases hfuel
  · exact reads fuel rest (Nat.le_of_lt_succ hfuel) hrest

theorem number (n : Nat) (pos : Pos) (h : (Text.numeral? n).isSome = true) :
    Legible (.lit (.int n) pos) (toString n) := by
  refine ofStep (Literal.text_int.mpr ⟨h, rfl⟩) (fun rest => startOf_number n)
    (fun rest _ => firstWord_of_start (startOf_number n) (by decide)) fun fuel rest _ hrest => ?_
  exact (reads_start (startOf_number n)).look ((reads_number n hrest.chars).returns fun n =>
    Node.lit (.int n) .origin)

theorem negative (n : Nat) (pos : Pos) (h : (Text.numeral? (.negSucc n)).isSome = true) :
    Legible (.lit (.int (.negSucc n)) pos) ("-" ++ toString (n + 1)) := by
  have hlist : ("-" ++ toString (n + 1)).toList = "-".toList ++ (toString (n + 1)).toList :=
    String.toList_append
  have hstart (rest : List Char) : startOf (("-" ++ toString (n + 1)).toList ++ rest) = .sign := by
    rw [hlist]
    rfl
  refine ofStep (Literal.text_int.mpr ⟨h, rfl⟩) hstart
    (fun rest _ => firstWord_of_start (hstart rest) (by decide))
    fun fuel rest _ hrest => (reads_start (hstart rest)).look ?_
  rw [hlist]
  exact (reads_after "-").bind ((reads_number (n + 1) hrest.chars).returns fun m =>
    Node.lit (.int (-m)) .origin)

theorem quoted {lexeme : String} (h : IsQuoted lexeme) (pos : Pos) :
    Legible (.lit (.string lexeme) pos) lexeme := by
  obtain ⟨body, rfl, hbody⟩ := h
  have hlist : ("\"" ++ String.ofList body ++ "\"").toList =
      "\"".toList ++ (body ++ "\"".toList) := by
    rw [String.toList_append, String.toList_append, String.toList_ofList (l := body),
      List.append_assoc]
  have hstart (rest : List Char) :
      startOf (("\"" ++ String.ofList body ++ "\"").toList ++ rest) = .quote := by
    rw [hlist]
    rfl
  have hinside : ∀ c ∈ body, (c != '\x22') = true := by
    intro c hc
    simpa using (hbody c hc).1
  have hbehind (rest : List Char) :
      ∀ c ∈ ("\"".toList ++ rest).head?, (c != '\x22') = false := by
    rintro _ ⟨⟩
    rfl
  refine ofStep rfl hstart (fun rest _ => firstWord_of_start (hstart rest) (by decide))
    fun fuel rest _ hrest => (reads_start (hstart rest)).look ?_
  rw [hlist]
  exact (reads_after "\"").bind ((reads_taking hinside (hbehind rest)).bind
    ((reads_after "\"").returns fun _ => _))

theorem truth (value : Bool) (pos : Pos) :
    Legible (.lit (.bool value) pos) (if value then "true" else "false") := by
  have hname : isName (if value then "true" else "false") = true := by
    cases value <;> decide
  refine ofStep rfl (fun rest => startOf_name hname) (fun rest hrest => ?_)
    fun fuel rest _ hrest => ?_
  · rw [firstWord_name hname hrest.chars]
    cases value <;> decide
  · refine (reads_start (startOf_name hname)).look ((reads_name hname hrest.chars).bind_nil ?_)
    cases value <;> rfl

private theorem readWord_of_plain (id : Ident) (h : isPlainName id.name = true)
    (readArgs : Reader (List Node)) : readWord readArgs id = readUse readArgs id := by
  have hne := ne_of_plain h
  rw [readWord, if_neg (hne "true" (by decide)), if_neg (hne "false" (by decide))]

private theorem word_of_plain {name : String} (h : isPlainName name = true) {rest : List Char}
    (hrest : ∀ c ∈ rest.head?, isNameChar c = false) :
    firstWord (name.toList ++ rest) ∉ keywords := by
  rw [firstWord_name (isName_of_plain h) hrest]
  intro hmem
  exact ne_of_plain h name (List.mem_append_left _ hmem) rfl

theorem ident {id : Ident} (h : isPlainName id.name = true) : Legible (.ident id) id.name := by
  have hname := isName_of_plain h
  refine ofStep rfl (fun rest => startOf_name hname) (fun rest hrest => word_of_plain h hrest.chars)
    fun fuel rest _ hrest => ?_
  refine (reads_start (startOf_name hname)).look ((reads_name hname hrest.chars).bind_nil ?_)
  change Reads (readWord _ id.shape) [] _ rest
  rw [readWord_of_plain id.shape h]
  have hopening := hrest.not_opening
  cases hstart : startOf rest with
  | opening => exact absurd hstart hopening
  | _ => exact (reads_start hstart).look (reads_pure _)

theorem listable (h : Legible e text) {fuel : Nat} (hfuel : text.length < fuel) :
    Listable (readExpr fuel) text e.shape where
  reads rest hrest := h.reads fuel rest hfuel hrest
  not_closing rest hstart := by
    have hmem := e.startKind_mem
    rw [← h.start rest, hstart] at hmem
    exact absurd hmem (by decide)
  not_comma rest hstart := by
    have hmem := e.startKind_mem
    rw [← h.start rest, hstart] at hmem
    exact absurd hmem (by decide)

theorem exprTexts_eq {args : List Node} {texts : List String}
    (h : List.Forall₂ Legible args texts) : Node.exprTexts false args = .ok texts := by
  induction h with
  | nil => rfl
  | cons harg _ ih =>
    rw [Node.exprTexts, harg.written, ih]
    rfl

theorem call {callee : Ident} {args : List Node} {texts : List String}
    (h : isPlainName callee.name = true) (hargs : List.Forall₂ Legible args texts) :
    Legible (.call callee args) (callee.name ++ "(" ++ ", ".intercalate texts ++ ")") := by
  have hname := isName_of_plain h
  have hlist : (callee.name ++ "(" ++ ", ".intercalate texts ++ ")").toList = callee.name.toList ++
      ("(".toList ++ ((", ".intercalate texts).toList ++ ")".toList)) := by
    simp only [String.toList_append, List.append_assoc]
  have hstart (rest : List Char) :
      startOf ((callee.name ++ "(" ++ ", ".intercalate texts ++ ")").toList ++ rest) = .letter := by
    rw [hlist, List.append_assoc]
    exact startOf_name hname
  refine ofStep ?_ hstart (fun rest _ => ?_) fun fuel rest hfuel hrest => ?_
  · rw [Node.exprText, exprTexts_eq hargs]
    rfl
  · rw [hlist, List.append_assoc, List.append_assoc]
    exact word_of_plain h (opening_ends_word _)
  · obtain ⟨hcount, hlengths⟩ := length_intercalate texts
    have hlength : (", ".intercalate texts).length + 1 < fuel := by
      rw [← String.length_toList, hlist] at hfuel
      obtain ⟨c, cs, hcs, -⟩ := exists_cons_of_isName hname
      have hopen : "(".length = 1 := rfl
      have hclose : ")".length = 1 := rfl
      simp only [List.length_append, hcs, List.length_cons, String.length_toList] at hfuel
      omega
    have hitems : List.Forall₂ (Listable (readExpr fuel)) texts (Node.shapes args) := by
      refine Node.forall₂_shapes hargs fun a t ht harg => harg.listable ?_
      have hle := hlengths t ht
      omega
    refine (reads_start (hstart rest)).look ?_
    rw [hlist]
    refine Reads.bind (reads_name hname (opening_ends_word _)) ?_
    change Reads (readWord _ callee.shape) _ _ rest
    rw [readWord_of_plain callee.shape h]
    exact (reads_start rfl).look ((reads_after "(").bind
      ((reads_listed hitems (by omega)).returns fun args => Node.call callee.shape args))

theorem group (inner : List Char) (hwritten : e.exprText false = .ok text)
    (hkind : e.startKind = .opening) (hlist : text.toList = "(".toList ++ inner)
    (hreads : ∀ fuel rest, inner.length < fuel → Stops rest →
      Reads (readGroup (readExpr fuel)) inner e.shape rest) : Legible e text := by
  have hstart (rest : List Char) : startOf (text.toList ++ rest) = .opening := by
    rw [hlist]
    rfl
  refine ofStep hwritten (fun rest => (hstart rest).trans hkind.symm)
    (fun rest _ => firstWord_of_start (hstart rest) (by decide)) fun fuel rest hfuel hrest => ?_
  have hinner : inner.length < fuel := by
    rw [← String.length_toList, hlist, List.length_append] at hfuel
    have hone : "(".toList.length = 1 := rfl
    omega
  refine (reads_start (hstart rest)).look ?_
  rw [hlist]
  exact (reads_after "(").bind (hreads fuel rest hinner hrest)

/-- The left part of a compound expression is read before what follows it. A negative number does
not stand alone in parentheses, so its sign is not taken for an operator. -/
theorem reads_left (h : Legible e text) {fuel : Nat} (hfuel : text.length < fuel)
    {tail rest : List Char} {x : Node} (hstop : Stops (tail ++ rest))
    (hsign : e.startKind = .sign → startOf (tail ++ rest) ≠ .closing)
    (htail : Reads (readTail (readExpr fuel) e.shape) tail x rest) :
    Reads (readGroup (readExpr fuel)) (text.toList ++ tail) x rest := by
  have hstart := h.start (tail ++ rest)
  rw [← List.append_assoc] at hstart
  have hmem := e.startKind_mem
  have hread := (h.reads fuel (tail ++ rest) hfuel hstop).bind htail
  cases hkind : e.startKind with
  | sign =>
    -- the reader has taken the sign before it can tell whose it is: what is behind the number does
    have hclosing := hsign hkind
    obtain ⟨n, pos, rfl⟩ := Node.startKind_eq_sign hkind
    obtain ⟨-, rfl⟩ := Literal.text_int.mp h.written
    have hlist : (toString (Int.negSucc n)).toList ++ tail =
        "-".toList ++ ((toString (n + 1)).toList ++ tail) := by
      rw [← List.append_assoc]
      exact congrArg (· ++ tail) String.toList_append
    rw [hlist]
    refine (reads_start rfl).look ((reads_after "-").bind ?_)
    have hdigit : startOf ((toString (n + 1)).toList ++ tail ++ rest) = .digit := by
      rw [List.append_assoc]
      exact startOf_number (n + 1)
    refine (reads_start hdigit).look (Reads.bind (reads_number (n + 1) hstop.chars) ?_)
    cases hbehind : startOf (tail ++ rest) with
    | closing => exact absurd hbehind hclosing
    | _ => exact (reads_start hbehind).look htail
  | digit | quote | letter | opening => exact (reads_start (hstart.trans hkind)).look hread
  | _ =>
    rw [hkind] at hmem
    exact absurd hmem (by decide)

/-- Behind the left part of an operation come the operator and the right part. -/
theorem reads_operation {right : Node} {rightText : String} (h : Legible right rightText)
    {fuel : Nat} (hfuel : rightText.length < fuel) {op rest : List Char}
    (hop : ∀ c ∈ op, (c != ' ') = true) (left : Node) :
    Reads (readTail (readExpr fuel) left)
      (" ".toList ++ (op ++ (" ".toList ++ (rightText.toList ++ ")".toList))))
      (if op = ['='] then .assign left right.shape
        else .binary (String.ofList op) left right.shape) rest := by
  have hbehind (rest : List Char) : ∀ c ∈ (" ".toList ++ rest).head?, (c != ' ') = false := by
    rintro _ ⟨⟩
    rfl
  refine (reads_start rfl).look ((reads_after " ").bind (Reads.bind
    (reads_taking hop (hbehind _)) ((reads_after " ").bind ?_)))
  have hclosing : Stops (")".toList ++ rest) := rfl
  exact (h.reads fuel _ hfuel hclosing).bind ((reads_after ")").returns fun _ => _)

theorem dot {field : Ident} (h : Legible e text) (hpath : e.pathEnd?.isSome = true)
    (hfield : isPlainName field.name = true) :
    Legible (.dot e field) ("(" ++ text ++ ")." ++ field.name) := by
  refine group (text.toList ++ (").".toList ++ field.name.toList)) ?_ rfl ?_ ?_
  · rw [Node.exprText, h.written]
    rfl
  · simp only [String.toList_append, List.append_assoc]
  · intro fuel rest hfuel hrest
    rw [List.length_append, String.length_toList] at hfuel
    refine h.reads_left (by omega) rfl (fun hsign => ?_) ?_
    · obtain ⟨n, pos, rfl⟩ := Node.startKind_eq_sign hsign
      cases hpath
    · exact (reads_start rfl).look ((reads_after ").").bind
        ((reads_name (isName_of_plain hfield) hrest.chars).returns fun field =>
          Node.dot e.shape field))

private theorem operation (compound : Node) (op : List Char) {right : Node} {rightText : String}
    (h : Legible e text) (hright : Legible right rightText) (hop : ∀ c ∈ op, (c != ' ') = true)
    (hkind : compound.startKind = .opening)
    (hwritten : compound.exprText false =
      .ok ("(" ++ text ++ (" " ++ String.ofList op ++ " ") ++ rightText ++ ")"))
    (hshape : compound.shape = if op = ['='] then .assign e.shape right.shape
      else .binary (String.ofList op) e.shape right.shape) :
    Legible compound ("(" ++ text ++ (" " ++ String.ofList op ++ " ") ++ rightText ++ ")") := by
  refine group (text.toList ++
    (" ".toList ++ (op ++ (" ".toList ++ (rightText.toList ++ ")".toList))))) hwritten hkind ?_ ?_
  · simp only [String.toList_append, String.toList_ofList (l := op), List.append_assoc]
  · intro fuel rest hfuel hrest
    simp only [List.length_append, String.length_toList] at hfuel
    rw [hshape]
    exact h.reads_left (by omega) rfl (fun _ => (by decide : Start.other ≠ .closing))
      (hright.reads_operation (by omega) hop e.shape)

theorem assign {right : Node} {rightText : String} (h : Legible e text)
    (hright : Legible right rightText) :
    Legible (.assign e right) ("(" ++ text ++ " = " ++ rightText ++ ")") := by
  refine operation (.assign e right) ['='] h hright (List.all_eq_true.mp rfl) rfl ?_ rfl
  rw [Node.exprText, h.written, hright.written]
  rfl

theorem binary {op : String} {right : Node} {rightText : String} (h : Legible e text)
    (hop : (binaryRule? op).isSome = true) (hright : Legible right rightText) :
    Legible (.binary op e right) ("(" ++ text ++ (" " ++ op ++ " ") ++ rightText ++ ")") := by
  have hknown := mem_of_binaryRule? hop
  have hchars : ∀ op ∈ arithmeticOps ++ logicalOps ++ relationalOps ++ equalityOps,
      op.toList ≠ ['='] ∧ op.toList.all (· != ' ') = true := by decide
  obtain ⟨hne, hblank⟩ := hchars op hknown
  rw [List.all_eq_true] at hblank
  have hread := operation (.binary op e right) op.toList h hright hblank rfl
  rw [if_neg hne, String.ofList_toList] at hread
  refine hread ?_ rfl
  rw [Node.exprText, h.written, hright.written]
  simp only [String.append_assoc]
  rfl

theorem unary {op : String} (h : Legible e text) (hop : (unaryRule? op).isSome = true) :
    Legible (.unary op e) ("(" ++ op ++ text ++ ")") := by
  refine group (op.toList ++ (text.toList ++ ")".toList)) ?_ rfl ?_ ?_
  · rw [Node.exprText, h.written]
    rfl
  · simp only [String.toList_append, List.append_assoc]
  · intro fuel rest hfuel hrest
    simp only [List.length_append, String.length_toList] at hfuel
    have hclosing : Stops (")".toList ++ rest) := rfl
    have hoperand : Reads (readOperand (readExpr fuel) op) (text.toList ++ ")".toList)
        (.unary op e.shape) rest :=
      (h.reads fuel _ (by omega) hclosing).bind ((reads_after ")").returns fun _ => _)
    obtain rfl | rfl := eq_of_unaryRule? hop
    · refine (reads_start rfl).look ((reads_after "-").bind ?_)
      have hstart := h.start (")".toList ++ rest)
      rw [← List.append_assoc] at hstart
      cases hkind : e.startKind with
      | digit =>
        -- here the parenthesis is closed, so the sign is an operator
        obtain ⟨n, pos, rfl⟩ := Node.startKind_eq_digit hkind
        obtain ⟨-, rfl⟩ := Literal.text_int.mp h.written
        exact (reads_start (hstart.trans hkind)).look (Reads.bind (reads_number n hclosing.chars)
          ((reads_start rfl).look ((reads_after ")").returns fun _ => _)))
      | _ => exact (reads_start (hstart.trans hkind)).look hoperand
    · exact (reads_start rfl).look ((reads_after "!").bind hoperand)

end Legible

/-- Every expression of the language is legible. -/
theorem exists_legible {e : Node} (h : e.isExpr = true) (hplain : e.Plain) :
    ∃ text, Legible e text := by
  induction e using Node.induct with
  | step e ih =>
    have hknown := (Bool.and_eq_true_iff.mp hplain.proper.self).1
    have hchild : ∀ m ∈ e.children, m.isExpr = true → ∃ text, Legible m text := fun m hm hexpr =>
      ih m hm hexpr (hplain.child hm)
    cases e with
    | lit value pos =>
      cases value with
      | int value =>
        have hnumber := hplain.numbers.self
        cases value with
        | ofNat n => exact ⟨_, .number n pos hnumber⟩
        | negSucc n => exact ⟨_, .negative n pos hnumber⟩
      | string lexeme => exact ⟨_, .quoted (hplain.lexemes lexeme pos List.mem_cons_self) pos⟩
      | bool value => exact ⟨_, .truth value pos⟩
    | ident id => exact ⟨_, .ident (hplain.names id (by simp [Node.idents]))⟩
    | dot base field =>
      obtain ⟨hpath, hbase⟩ := Bool.and_eq_true_iff.mp h
      obtain ⟨text, htext⟩ := hchild base (by simp [Node.children]) hbase
      exact ⟨_, htext.dot hpath (hplain.names field (by simp [Node.idents]))⟩
    | assign target value =>
      obtain ⟨htarget, hvalue⟩ := Bool.and_eq_true_iff.mp h
      obtain ⟨left, hleft⟩ := hchild target (by simp [Node.children]) htarget
      obtain ⟨right, hright⟩ := hchild value (by simp [Node.children]) hvalue
      exact ⟨_, hleft.assign hright⟩
    | call callee args =>
      have hargs := Node.areExprs_iff.mp h
      obtain ⟨texts, htexts⟩ := exists_forall₂ fun a ha => hchild a ha (hargs a ha)
      exact ⟨_, .call (hplain.names callee (by simp [Node.idents])) htexts⟩
    | unary op operand =>
      obtain ⟨text, htext⟩ := hchild operand (by simp [Node.children]) h
      exact ⟨_, htext.unary hknown⟩
    | binary op left right =>
      obtain ⟨hl, hr⟩ := Bool.and_eq_true_iff.mp h
      obtain ⟨leftText, hleft⟩ := hchild left (by simp [Node.children]) hl
      obtain ⟨rightText, hright⟩ := hchild right (by simp [Node.children]) hr
      exact ⟨_, hleft.binary hknown hright⟩
    | _ => cases h

end Sema
