import Mathlib.Data.List.Forall2
import Sema.Fault
import Sema.Proofs.Tree.Relabel

/-!
# A reader of printed programs

Printed text says at each place what comes next: a word is as long as it can be, and whatever is
compound stands in brackets. So a reader that looks no further than the next word finds the tree
again, but for positions and symbols, which are not printed.
-/

namespace Sema

def isNameStart (c : Char) : Bool := c.isAlpha || c == '_'

def isNameChar (c : Char) : Bool := c.isAlphanum || c == '_'

def isBlank (c : Char) : Bool := c == ' ' || c == '\n'

/-- What a text can start with. -/
inductive Start where
  | letter | digit | opening | closing | comma | semicolon | quote | bang | plus | sign | brace
  | endBrace | other
  deriving DecidableEq

def Start.ofChar (c : Char) : Start :=
  if isNameStart c then .letter
  else if c.isDigit then .digit
  else if c = '(' then .opening
  else if c = ')' then .closing
  else if c = ',' then .comma
  else if c = ';' then .semicolon
  else if c = '\x22' then .quote
  else if c = '!' then .bang
  else if c = '+' then .plus
  else if c = '-' then .sign
  else if c = '\x7b' then .brace
  else if c = '\x7d' then .endBrace
  else .other

def startOf : List Char → Start
  | [] => .other
  | c :: _ => .ofChar c

def firstWord (cs : List Char) : String := String.ofList (cs.takeWhile isNameChar)

/-- Takes some characters off the front of a text and makes something of them. -/
abbrev Reader := StateT (List Char) Option

namespace Reader

variable {α β : Type}

def fail : Reader α := fun _ => none

/-- What the text starts with, which stays there. -/
def start : Reader Start := fun cs => some (startOf cs, cs)

/-- Something about the text behind the next blanks, which stay there. -/
def ahead (look : List Char → α) : Reader α := fun cs => some (look (cs.dropWhile isBlank), cs)

def after (text : String) : Reader Unit := fun cs =>
  (text.toList.isPrefixOf? cs).map fun rest => ((), rest)

def taking (p : Char → Bool) : Reader (List Char) := fun cs =>
  some (cs.takeWhile p, cs.dropWhile p)

def blanks : Reader Unit := do
  let _ ← taking isBlank

def name : Reader Ident := do
  let cs ← taking isNameChar
  return ⟨String.ofList cs, .origin, none⟩

def number : Reader Nat := do
  let cs ← taking Char.isDigit
  return Nat.ofDigitChars 10 cs 0

/-- Things separated by commas, up to a closing parenthesis. -/
def listed (read : Reader α) : Nat → Reader (List α)
  | 0 => fail
  | fuel + 1 => do
    match ← start with
    | .closing => do
      after ")"
      return []
    | .comma => do
      after ", "
      let a ← read
      return a :: (← listed read fuel)
    | _ => do
      let a ← read
      return a :: (← listed read fuel)

/-- Things on lines of their own, as long as there are more of them. -/
def lines (more : List Char → Bool) (read : Reader α) : Nat → Reader (List α)
  | 0 => fail
  | fuel + 1 => do
    if ← ahead more then do
      blanks
      let a ← read
      return a :: (← lines more read fuel)
    else return []

end Reader

open Reader

/-- What follows the left part of a compound expression. -/
def readTail (read : Reader Node) (left : Node) : Reader Node := do
  match ← start with
  | .closing => do
    after ")."
    let field ← name
    return .dot left field
  | _ => do
    after " "
    let op ← taking (· != ' ')
    after " "
    let right ← read
    after ")"
    return if op = ['='] then .assign left right else .binary (String.ofList op) left right

def readOperand (read : Reader Node) (op : String) : Reader Node := do
  let operand ← read
  after ")"
  return .unary op operand

/-- What follows an opening parenthesis. A sign before a number belongs to the number unless the
parenthesis is closed behind it. -/
def readGroup (read : Reader Node) : Reader Node := do
  match ← start with
  | .bang => do
    after "!"
    readOperand read "!"
  | .sign => do
    after "-"
    match ← start with
    | .digit => do
      let n ← number
      match ← start with
      | .closing => do
        after ")"
        return .unary "-" (.lit (.int n) .origin)
      | _ => readTail read (.lit (.int (-n)) .origin)
    | _ => readOperand read "-"
  | _ => do
    let left ← read
    readTail read left

/-- What follows a name: the arguments of a call, or nothing. -/
def readUse (readArgs : Reader (List Node)) (id : Ident) : Reader Node := do
  match ← start with
  | .opening => do
    after "("
    let args ← readArgs
    return .call id args
  | _ => return .ident id

def readWord (readArgs : Reader (List Node)) (id : Ident) : Reader Node :=
  if id.name = "true" then return .lit (.bool true) .origin
  else if id.name = "false" then return .lit (.bool false) .origin
  else readUse readArgs id

def readExpr : Nat → Reader Node
  | 0 => fail
  | fuel + 1 => do
    match ← start with
    | .opening => do
      after "("
      readGroup (readExpr fuel)
    | .quote => do
      after "\""
      let text ← taking (· != '\x22')
      after "\""
      return .lit (.string ("\"" ++ String.ofList text ++ "\"")) .origin
    | .sign => do
      after "-"
      let n ← number
      return .lit (.int (-n)) .origin
    | .digit => do
      let n ← number
      return .lit (.int n) .origin
    | _ => do
      let id ← name
      readWord (listed (readExpr fuel) fuel) id

def typeWords : List String := ["int", "bool", "void", "struct"]

def readType : Reader Node := do
  let word ← name
  if word.name = "int" then return .primType .int
  else if word.name = "bool" then return .primType .bool
  else if word.name = "void" then return .primType .void
  else do
    after " "
    let id ← name
    return .structType id

def readVarDecl : Reader Node := do
  let type ← readType
  after " "
  let id ← name
  after ";"
  return .varDecl type id

def readFormalDecl : Reader Node := do
  let type ← readType
  after " "
  let id ← name
  return .formalDecl type id

/-- A declaration comes, which starts with a type. -/
def declares (cs : List Char) : Bool := firstWord cs ∈ typeWords

def readVarDecls (fuel : Nat) : Reader (List Node) := lines declares readVarDecl fuel

/-- The block is not closed yet. -/
def goesOn (cs : List Char) : Bool := startOf cs ≠ .endBrace

/-- A block up to its closing brace. -/
def readBlock (read : Reader Node) (fuel : Nat) : Reader (List Node × List Node) := do
  let decls ← readVarDecls fuel
  let stmts ← lines goesOn read fuel
  blanks
  after "\x7d"
  return (decls, stmts)

/-- The last expression of a statement, up to the semicolon. -/
def readLast (lead : String) (fuel : Nat) (make : Node → Node) : Reader Node := do
  after lead
  let e ← readExpr fuel
  after ";"
  return make e

/-- The condition before a block, up to the opening brace. -/
def readCond (lead : String) (fuel : Nat) : Reader Node := do
  after lead
  let cond ← readExpr fuel
  after ") \x7b"
  return cond

/-- What follows the expression that a statement starts with. -/
def readEffect (fuel : Nat) (e : Node) : Reader Node := do
  match ← start with
  | .semicolon => do
    after ";"
    return .callStmt e
  | .plus => do
    after "++;"
    return .stepStmt .inc e
  | .sign => do
    after "--;"
    return .stepStmt .dec e
  | _ => readLast " = " fuel fun value => .assignStmt (.assign e value)

/-- What follows the first block of a choice: another one, or nothing. -/
def readBranch (readOther : Reader (List Node × List Node)) (cond : Node)
    (body : List Node × List Node) : Reader Node := do
  if (← ahead firstWord) = "else" then do
    blanks
    after "else \x7b"
    let other ← readOther
    return .ifElseStmt cond body.1 body.2 other.1 other.2
  else return .ifStmt cond body.1 body.2

def readReturn (fuel : Nat) : Reader Node := do
  after "return"
  match ← start with
  | .semicolon => do
    after ";"
    return .returnStmt .missing .origin
  | _ => readLast " " fuel fun value => .returnStmt value .origin

def readStmt : Nat → Reader Node
  | 0 => fail
  | fuel + 1 => do
    let word ← ahead firstWord
    if word = "if" then do
      let cond ← readCond "if (" fuel
      let body ← readBlock (readStmt fuel) fuel
      readBranch (readBlock (readStmt fuel) fuel) cond body
    else if word = "while" then do
      let cond ← readCond "while (" fuel
      let body ← readBlock (readStmt fuel) fuel
      return .whileStmt cond body.1 body.2
    else if word = "cin" then readLast "cin >> " fuel .readStmt
    else if word = "cout" then readLast "cout << " fuel .writeStmt
    else if word = "return" then readReturn fuel
    else do
      let e ← readExpr fuel
      readEffect fuel e

/-- What follows the type of a variable or a function, with the empty line behind a body. -/
def readTyped (fuel : Nat) (type : Node) : Reader Node := do
  after " "
  let id ← name
  match ← start with
  | .opening => do
    after "("
    let formals ← listed readFormalDecl fuel
    after " \x7b"
    let body ← readBlock (readStmt fuel) fuel
    after "\n"
    return .fnDecl type id formals body.1 body.2
  | _ => do
    after ";"
    return .varDecl type id

/-- The fields of a structure, with the empty line behind them. -/
def readFields (fuel : Nat) (id : Ident) : Reader Node := do
  after "\x7b"
  let decls ← readVarDecls fuel
  blanks
  after "\x7d;\n"
  return .structDecl id decls

/-- What follows a type that a declaration starts with. A structure starts like a variable of its
type, up to the brace. -/
def readDeclared (fuel : Nat) : Node → Start → Reader Node
  | .structType id, .brace => readFields fuel id
  | type, _ => readTyped fuel type

def readDecl (fuel : Nat) : Reader Node := do
  let type ← readType
  readDeclared fuel type (← start)

def remains (cs : List Char) : Bool := !cs.isEmpty

/-- The program that a text was printed from, but for positions and symbols. -/
def readProgram (text : String) : Option Program :=
  let fuel := text.length + 1
  ((lines remains (readDecl fuel) fuel).run ('\n' :: text.toList)).map Prod.fst

section Reads

variable {α β : Type} {text text' rest : List Char} {a : α} {b : β}

/-- Of the text and what comes behind it, the reader takes the text and makes `a` of it. -/
def Reads (m : Reader α) (text : List Char) (a : α) (rest : List Char) : Prop :=
  m.run (text ++ rest) = some (a, rest)

theorem reads_pure (a : α) : Reads (pure a) [] a rest := rfl

theorem Reads.bind {m : Reader α} {f : α → Reader β} (hm : Reads m text a (text' ++ rest))
    (hf : Reads (f a) text' b rest) : Reads (m >>= f) (text ++ text') b rest := by
  have hrun : m.run (text ++ text' ++ rest) = some (a, text' ++ rest) := by
    rw [List.append_assoc]
    exact hm
  rw [Reads, StateT.run_bind, hrun]
  exact hf

/-- A reader that only looks at what is ahead takes nothing. -/
theorem Reads.look {m : Reader α} {f : α → Reader β} (hm : Reads m [] a (text ++ rest))
    (hf : Reads (f a) text b rest) : Reads (m >>= f) text b rest :=
  hm.bind hf

theorem Reads.bind_nil {m : Reader α} {f : α → Reader β} (hm : Reads m text a rest)
    (hf : Reads (f a) [] b rest) : Reads (m >>= f) text b rest := by
  have hchain : Reads (m >>= f) (text ++ []) b rest := Reads.bind hm hf
  rwa [List.append_nil] at hchain

theorem Reads.returns {m : Reader α} (hm : Reads m text a rest) (f : α → β) :
    Reads (m >>= fun a => pure (f a)) text (f a) rest :=
  hm.bind_nil (reads_pure (f a))

theorem reads_start {k : Start} (h : startOf rest = k) : Reads start [] k rest := by
  subst h
  rfl

theorem reads_ahead {look : List Char → α} (h : look (rest.dropWhile isBlank) = a) :
    Reads (ahead look) [] a rest := by
  subst h
  rfl

theorem reads_after (text : String) : Reads (after text) text.toList () rest := by
  have hstrip : text.toList.isPrefixOf? (text.toList ++ rest) = some rest :=
    List.isPrefixOf?_eq_some_iff_append_eq.mpr rfl
  change (text.toList.isPrefixOf? (text.toList ++ rest)).map _ = _
  rw [hstrip]
  rfl

theorem takeWhile_dropWhile_of_stop {p : Char → Bool} (htext : ∀ c ∈ text, p c = true)
    (hrest : ∀ c ∈ rest.head?, p c = false) :
    (text ++ rest).takeWhile p = text ∧ (text ++ rest).dropWhile p = rest := by
  rw [List.takeWhile_append_of_pos htext, List.dropWhile_append_of_pos htext]
  cases rest with
  | nil => exact ⟨List.append_nil text, rfl⟩
  | cons c cs =>
    have hc := hrest c rfl
    simp [hc]

theorem reads_taking {p : Char → Bool} (htext : ∀ c ∈ text, p c = true)
    (hrest : ∀ c ∈ rest.head?, p c = false) : Reads (taking p) text text rest := by
  obtain ⟨htake, hdrop⟩ := takeWhile_dropWhile_of_stop htext hrest
  change some ((text ++ rest).takeWhile p, (text ++ rest).dropWhile p) = _
  rw [htake, hdrop]

end Reads

/-- A letter or an underscore, and then letters, digits and underscores. -/
def isName (name : String) : Bool :=
  match name.toList with
  | [] => false
  | c :: cs => isNameStart c && cs.all isNameChar

/-- Behind a word or a number, this ends it and does not make a call of it. -/
def Start.ends : Start → Bool
  | .letter | .digit | .opening => false
  | _ => true

def Stops (rest : List Char) : Prop := (startOf rest).ends = true

section Words

variable {name : String} {rest : List Char}

theorem isNameChar_of_start {c : Char} (h : isNameStart c = true) : isNameChar c = true := by
  simp only [isNameStart, isNameChar, Char.isAlphanum, Bool.or_eq_true] at h ⊢
  exact h.imp_left .inl

theorem isNameChar_of_digit {c : Char} (h : c.isDigit = true) : isNameChar c = true := by
  simp [isNameChar, Char.isAlphanum, h]

theorem Stops.not_opening (h : Stops rest) : startOf rest ≠ .opening := by
  intro hstart
  rw [Stops, hstart] at h
  cases h

theorem Stops.chars (h : Stops rest) : ∀ c ∈ rest.head?, isNameChar c = false := by
  cases rest with
  | nil => simp
  | cons c cs =>
    rintro _ ⟨⟩
    have hletter : isNameStart c = false := by
      by_contra hletter
      rw [Bool.not_eq_false] at hletter
      simp [Stops, startOf, Start.ofChar, hletter, Start.ends] at h
    have hdigit : c.isDigit = false := by
      by_contra hdigit
      rw [Bool.not_eq_false] at hdigit
      simp [Stops, startOf, Start.ofChar, hletter, hdigit, Start.ends] at h
    simp only [isNameStart, Bool.or_eq_false_iff] at hletter
    simp [isNameChar, Char.isAlphanum, hletter, hdigit]

/-- An opening parenthesis ends a word, though it may make a call of it. -/
theorem opening_ends_word (rest : List Char) :
    ∀ c ∈ ("(".toList ++ rest).head?, isNameChar c = false := by
  rintro _ ⟨⟩
  rfl

theorem exists_cons_of_isName (h : isName name = true) :
    ∃ c cs, name.toList = c :: cs ∧ isNameStart c = true ∧ ∀ d ∈ cs, isNameChar d = true := by
  unfold isName at h
  cases hlist : name.toList with
  | nil =>
    rw [hlist] at h
    cases h
  | cons c cs =>
    rw [hlist, Bool.and_eq_true, List.all_eq_true] at h
    exact ⟨c, cs, rfl, h⟩

theorem isNameChar_of_mem (h : isName name = true) : ∀ c ∈ name.toList, isNameChar c = true := by
  obtain ⟨c, cs, hlist, hc, hcs⟩ := exists_cons_of_isName h
  rw [hlist, List.forall_mem_cons]
  exact ⟨isNameChar_of_start hc, hcs⟩

theorem startOf_name (h : isName name = true) : startOf (name.toList ++ rest) = .letter := by
  obtain ⟨c, cs, hlist, hc, -⟩ := exists_cons_of_isName h
  rw [hlist]
  simp [startOf, Start.ofChar, hc]

theorem firstWord_name (h : isName name = true) (hrest : ∀ c ∈ rest.head?, isNameChar c = false) :
    firstWord (name.toList ++ rest) = name := by
  rw [firstWord, (takeWhile_dropWhile_of_stop (isNameChar_of_mem h) hrest).1, String.ofList_toList]

theorem reads_name (h : isName name = true) (hrest : ∀ c ∈ rest.head?, isNameChar c = false) :
    Reads Reader.name name.toList ⟨name, .origin, none⟩ rest := by
  have hread := (reads_taking (isNameChar_of_mem h) hrest).returns fun cs =>
    (⟨String.ofList cs, .origin, none⟩ : Ident)
  rwa [String.ofList_toList] at hread

theorem reads_number (n : Nat) (hrest : ∀ c ∈ rest.head?, isNameChar c = false) :
    Reads number (toString n).toList n rest := by
  have hdigits : ∀ c ∈ Nat.toDigits 10 n, c.isDigit = true := fun c hc =>
    Nat.isDigit_of_mem_toDigits (by decide) (by decide) hc
  have hstop : ∀ c ∈ rest.head?, c.isDigit = false := by
    intro c hc
    by_contra hdigit
    rw [Bool.not_eq_false] at hdigit
    have hchar := hrest c hc
    rw [isNameChar_of_digit hdigit] at hchar
    cases hchar
  have hread := (reads_taking hdigits hstop).returns fun cs => Nat.ofDigitChars 10 cs 0
  rw [Nat.ofDigitChars_ten_toDigits] at hread
  rw [Nat.toString_eq_ofList_toDigits, String.toList_ofList]
  exact hread

end Words

section Lists

variable {α : Type} {read : Reader α} {rest : List Char}

theorem exists_forall₂ {β : Type} {R : α → β → Prop} {as : List α} (h : ∀ a ∈ as, ∃ b, R a b) :
    ∃ bs, List.Forall₂ R as bs := by
  induction as with
  | nil => exact ⟨[], .nil⟩
  | cons a as ih =>
    rw [List.forall_mem_cons] at h
    obtain ⟨b, hb⟩ := h.1
    obtain ⟨bs, hbs⟩ := ih h.2
    exact ⟨b :: bs, .cons hb hbs⟩

/-- The text can stand in a list between commas, and is read as `a` there. -/
structure Listable (read : Reader α) (text : String) (a : α) : Prop where
  reads : ∀ rest, Stops rest → Reads read text.toList a rest
  not_closing : ∀ rest, startOf (text.toList ++ rest) ≠ .closing
  not_comma : ∀ rest, startOf (text.toList ++ rest) ≠ .comma

theorem toList_intercalate_cons (sep text : String) (texts : List String) :
    (sep.intercalate (text :: texts)).toList =
      text.toList ++ texts.flatMap fun t => sep.toList ++ t.toList := by
  induction texts generalizing text with
  | nil => simp
  | cons t texts ih =>
    rw [String.intercalate_cons_cons, String.toList_append, String.toList_append, ih,
      List.flatMap_cons, List.append_assoc, List.append_assoc]

/-- Parts behind separators are together at least as long as each of them, and as their number. -/
theorem length_flatMap_sep {sep : List Char} (hsep : sep ≠ []) (f : α → List Char) (as : List α) :
    as.length ≤ (as.flatMap fun a => sep ++ f a).length ∧
      ∀ a ∈ as, (f a).length ≤ (as.flatMap fun a => sep ++ f a).length := by
  have hpos : 0 < sep.length := List.length_pos_of_ne_nil hsep
  induction as with
  | nil => simp
  | cons a as ih =>
    simp only [List.flatMap_cons, List.length_append, List.length_cons, List.forall_mem_cons]
    refine ⟨by omega, by omega, fun b hb => ?_⟩
    have hle := ih.2 b hb
    omega

theorem length_intercalate (texts : List String) :
    texts.length ≤ (", ".intercalate texts).length + 1 ∧
      ∀ t ∈ texts, t.length ≤ (", ".intercalate texts).length := by
  cases texts with
  | nil => simp
  | cons t texts =>
    obtain ⟨hlength, hitems⟩ :=
      length_flatMap_sep (by decide : ", ".toList ≠ []) String.toList texts
    rw [← String.length_toList, toList_intercalate_cons]
    simp only [List.length_append, List.length_cons, String.length_toList, List.forall_mem_cons]
      at hitems ⊢
    refine ⟨by omega, by omega, fun u hu => ?_⟩
    have hle := hitems u hu
    omega

private theorem stops_listed (texts : List String) (rest : List Char) :
    Stops ((texts.flatMap fun t => ", ".toList ++ t.toList) ++ ")".toList ++ rest) := by
  cases texts with
  | nil => exact rfl
  | cons t texts => exact rfl

private theorem reads_listed_tail {texts : List String} {values : List α}
    (h : List.Forall₂ (Listable read) texts values) {fuel : Nat} (hfuel : texts.length < fuel) :
    Reads (listed read fuel) ((texts.flatMap fun t => ", ".toList ++ t.toList) ++ ")".toList) values
      rest := by
  induction h generalizing fuel with
  | nil =>
    obtain _ | fuel := fuel
    · cases hfuel
    · exact (reads_start rfl).look ((reads_after ")").returns fun _ => [])
  | @cons text a texts values hitem htail ih =>
    obtain _ | fuel := fuel
    · cases hfuel
    · have hread := hitem.reads _ (stops_listed texts rest)
      have hrest := ih (Nat.lt_of_succ_lt_succ hfuel)
      simp only [List.flatMap_cons, List.append_assoc _ _ ")".toList]
      exact (reads_start rfl).look ((reads_after ", ").bind (hread.bind (hrest.returns (a :: ·))))

/-- A list is read item by item, each of them up to a comma or the closing parenthesis. -/
theorem reads_listed {texts : List String} {values : List α}
    (h : List.Forall₂ (Listable read) texts values) {fuel : Nat} (hfuel : texts.length < fuel) :
    Reads (listed read fuel) ((", ".intercalate texts).toList ++ ")".toList) values rest := by
  cases h with
  | nil => exact reads_listed_tail .nil hfuel
  | @cons text a texts values hitem htail =>
    obtain _ | fuel := fuel
    · cases hfuel
    · have hread := hitem.reads _ (stops_listed texts rest)
      have hrest : Reads (listed read fuel) _ values rest :=
        reads_listed_tail htail (Nat.lt_of_succ_lt_succ hfuel)
      rw [toList_intercalate_cons, List.append_assoc]
      have hclosing := hitem.not_closing
        ((texts.flatMap fun t => ", ".toList ++ t.toList) ++ ")".toList ++ rest)
      have hcomma := hitem.not_comma
        ((texts.flatMap fun t => ", ".toList ++ t.toList) ++ ")".toList ++ rest)
      rw [← List.append_assoc] at hclosing hcomma
      refine (reads_start rfl).look ?_
      revert hclosing hcomma
      generalize startOf _ = k
      intro hclosing hcomma
      cases k with
      | closing => exact absurd rfl hclosing
      | comma => exact absurd rfl hcomma
      | _ => exact hread.bind (hrest.returns (a :: ·))

/-- The text can stand on a line of its own, where there are `more` lines to read, and is read as
`a` there. What comes behind it may have to fit as the `next` line. -/
structure IsLine (more : List Char → Bool) (next : List Char → Prop) (read : Reader α)
    (text : List Char) (a : α) : Prop where
  start : ∀ rest, startOf (text ++ rest) ≠ .other
  has_more : ∀ rest, more (text ++ rest) = true
  fits : ∀ rest, next (text ++ rest)
  reads : ∀ rest, next (rest.dropWhile isBlank) → Reads read text a rest

theorem exists_not_blank {text : List Char} (h : startOf text ≠ .other) :
    ∃ c cs, text = c :: cs ∧ isBlank c = false := by
  cases text with
  | nil => exact absurd rfl h
  | cons c cs =>
    refine ⟨c, cs, rfl, ?_⟩
    simp only [isBlank, Bool.or_eq_false_iff, beq_eq_false_iff_ne]
    constructor <;> rintro rfl <;> exact h rfl

theorem dropWhile_blank_of_start {text : List Char} (h : startOf text ≠ .other) :
    text.dropWhile isBlank = text := by
  obtain ⟨c, cs, rfl, hc⟩ := exists_not_blank h
  simp [hc]

theorem dropWhile_blank_append {text : List Char} (hsep : ∀ c ∈ text, isBlank c = true)
    (rest : List Char) : (text ++ rest).dropWhile isBlank = rest.dropWhile isBlank :=
  List.dropWhile_append_of_pos hsep

theorem reads_blanks {text : List Char} (htext : ∀ c ∈ text, isBlank c = true)
    (hrest : startOf rest ≠ .other) : Reads blanks text () rest := by
  refine (reads_taking htext ?_).returns fun _ => ()
  obtain ⟨c, cs, rfl, hc⟩ := exists_not_blank hrest
  rintro _ ⟨⟩
  exact hc

section Lines

variable {more : List Char → Bool} {next : List Char → Prop} {sep text : List Char} {a : α}

theorem next_of_lines (hsep : ∀ c ∈ sep, isBlank c = true) {texts : List (List Char)}
    {values : List α} (h : List.Forall₂ (IsLine more next read) texts values)
    (hnext : next (rest.dropWhile isBlank)) :
    next ((texts.flatMap (sep ++ ·) ++ rest).dropWhile isBlank) := by
  cases h with
  | nil => exact hnext
  | cons hline _ =>
    rw [List.flatMap_cons, List.append_assoc, List.append_assoc, dropWhile_blank_append hsep,
      dropWhile_blank_of_start (hline.start _)]
    exact hline.fits _

/-- Lines are read one after the other, until what comes is no line. -/
theorem reads_lines (hsep : ∀ c ∈ sep, isBlank c = true) {texts : List (List Char)}
    {values : List α} (h : List.Forall₂ (IsLine more next read) texts values) {fuel : Nat}
    (hfuel : texts.length < fuel) (hmore : more (rest.dropWhile isBlank) = false)
    (hnext : next (rest.dropWhile isBlank)) :
    Reads (lines more read fuel) (texts.flatMap (sep ++ ·)) values rest := by
  induction h generalizing fuel with
  | nil =>
    obtain _ | fuel := fuel
    · cases hfuel
    · have hahead : Reads (ahead more) [] false rest := reads_ahead hmore
      refine hahead.look ?_
      exact reads_pure []
  | @cons text a texts values hline htail ih =>
    obtain _ | fuel := fuel
    · cases hfuel
    · have hrest := ih (Nat.lt_of_succ_lt_succ hfuel)
      have hread := hline.reads _ (next_of_lines hsep htail hnext)
      have hahead : Reads (ahead more) [] true
          (sep ++ (text ++ texts.flatMap (sep ++ ·)) ++ rest) := by
        apply reads_ahead
        rw [List.append_assoc, List.append_assoc, dropWhile_blank_append hsep,
          dropWhile_blank_of_start (hline.start _)]
        exact hline.has_more _
      have hblanks : startOf (text ++ texts.flatMap (sep ++ ·) ++ rest) ≠ .other := by
        rw [List.append_assoc]
        exact hline.start _
      rw [List.flatMap_cons, List.append_assoc]
      exact hahead.look ((reads_blanks hsep hblanks).bind
        (hread.bind (hrest.returns (a :: ·))))

end Lines

end Lists

end Sema
