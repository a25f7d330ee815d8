import Offside.Number.Signed64
import Offside.Proofs.Lexing.Values

/-! # Words

A word is a token without its place. It is written as a text, and read back from it unless what
follows goes on with it. Words are legible if each of them is read back where it stands.
-/

namespace Offside

open Lexeme

/-- A token without its place. -/
structure Word where
  kind : TokenKind
  value : String
  deriving DecidableEq, Repr

def Token.word (token : Token) : Word :=
  ⟨token.kind, token.value⟩

namespace TokenKind

/-- The spelling of a kind of token that has only one, as far as programs are written with it. -/
def spelling : TokenKind → String
  | operator op => op.symbol
  | colon => ":"
  | comma => ","
  | openParen => "("
  | closeParen => ")"
  | openBracket => "["
  | closeBracket => "]"
  | dot => "."
  | space => " "
  | newline => "\n"
  | forWord => "for"
  | ifWord => "if"
  | elseWord => "else"
  | elifWord => "elif"
  | whileWord => "while"
  | returnWord => "return"
  | breakWord => "break"
  | continueWord => "continue"
  | trueWord => "true"
  | falseWord => "false"
  | nullWord => "null"
  | defWord => "def"
  | hotpotWord => "hotpot"
  | _ => ""

/-- Whether a token of this kind is one character, wherever it stands. -/
@[simp] def standsAlone : TokenKind → Bool
  | colon | comma | openParen | closeParen | openBracket | closeBracket | space | newline => true
  | _ => false

/-- Whether a kind of token is that of a reserved word. -/
@[simp] def isKeyword : TokenKind → Bool
  | forWord | ifWord | elseWord | elifWord | whileWord | returnWord | breakWord | continueWord
  | trueWord | falseWord | nullWord | defWord | hotpotWord => true
  | _ => false

end TokenKind

/-- A quote that a text does not contain, unless it contains both. -/
def quoteFor (text : List Char) : Char :=
  if '\x22' ∈ text then '\x27' else '\x22'

namespace Word

/-- The only word of a kind. -/
def mark (kind : TokenKind) : Word :=
  ⟨kind, kind.spelling⟩

/-- The word that a name is. -/
def name (value : String) : Word :=
  ⟨.identifier, value⟩

/-- The word that a number without a sign is. -/
def natural (value : Nat) : Word :=
  ⟨.int, toString value⟩

/-- The text of a word. That of a string is put in quotes. -/
def text (word : Word) : List Char :=
  if word.kind = .string then
    quoteFor word.value.toList :: word.value.toList ++ [quoteFor word.value.toList]
  else word.value.toList

/-- The text of some words. -/
def listText (words : List Word) : List Char :=
  words.flatMap text

@[simp] theorem listText_nil : listText [] = [] := rfl

@[simp] theorem listText_cons (word : Word) (rest : List Word) :
    listText (word :: rest) = word.text ++ listText rest := rfl

@[simp] theorem listText_append (front back : List Word) :
    listText (front ++ back) = listText front ++ listText back := List.flatMap_append

/-- In front of some text, the text of a word is read as the word. -/
def ReadsBefore (word : Word) (rest : List Char) : Prop :=
  ∃ first tail, word.text = first :: tail ∧
    Lexeme.read first (tail ++ rest) = .ok ⟨some word.kind, word.value.toList, word.text⟩

end Word

open Word

/-- Each of some words is read back where it stands. -/
def Legible : List Word → Prop
  | [] => True
  | word :: rest => word.ReadsBefore (listText rest) ∧ Legible rest

/-- Each of some words is read back where it stands, in front of some text. -/
def LegibleBefore (text : List Char) : List Word → Prop
  | [] => True
  | word :: rest => word.ReadsBefore (listText rest ++ text) ∧ LegibleBefore text rest

section Scanning

theorem scanFrom_inside (file : String) (byte : Nat) (front rest : List Char) :
    Token.scanFrom file byte front.length (front ++ rest) =
      Token.scanFrom file (byte + byteLength front) 0 rest := by
  induction front generalizing byte with
  | nil => rfl
  | cons c front ih =>
      rw [List.length_cons, List.cons_append, Token.scanFrom, ih, byteLength_cons, Nat.add_assoc]

/-- Legible words are the first tokens of a text that starts with theirs. The others are those of
the rest of it. -/
theorem LegibleBefore.scanFrom {text : List Char} {words : List Word}
    (legible : LegibleBefore text words) (file : String) (byte : Nat) :
    ∃ tokens, tokens.map Token.word = words ∧
      Token.scanFrom file byte 0 (listText words ++ text) =
        (Token.scanFrom file (byte + byteLength (listText words)) 0 text).map (tokens ++ ·) := by
  induction words generalizing byte with
  | nil =>
      refine ⟨[], rfl, ?_⟩
      cases scanned : Token.scanFrom file byte 0 text <;> simp [Except.map, scanned]
  | cons word rest ih =>
      obtain ⟨⟨first, tail, same, read⟩, legible⟩ := legible
      obtain ⟨tokens, words, scanned⟩ := ih legible (byte + first.utf8Size + byteLength tail)
      refine ⟨⟨word.kind, word.value, Span.ofBytes file byte (byteLength word.text)⟩ :: tokens,
        by simp [Token.word, words], ?_⟩
      have bytes : byte + byteLength (listText (word :: rest)) =
          byte + first.utf8Size + byteLength tail + byteLength (listText rest) := by
        rw [listText_cons, same, byteLength_append, byteLength_cons]
        omega
      rw [bytes, listText_cons, same, List.append_assoc, List.cons_append, Token.scanFrom, read]
      simp only [same, List.length_cons, Nat.add_sub_cancel]
      rw [scanFrom_inside, scanned]
      cases Token.scanFrom file
        (byte + first.utf8Size + byteLength tail + byteLength (listText rest)) 0 text <;>
        simp [Except.map, Lexeme.token?]

theorem Legible.legibleBefore_nil {words : List Word} (legible : Legible words) :
    LegibleBefore [] words := by
  induction words with
  | nil => trivial
  | cons word rest ih => exact ⟨by rw [List.append_nil]; exact legible.1, ih legible.2⟩

/-- Legible words are the tokens of their text, before the end of the input. -/
theorem Legible.scanFrom {words : List Word} (legible : Legible words) (file : String)
    (byte : Nat) :
    ∃ tokens last, Token.scanFrom file byte 0 (listText words) = .ok (tokens ++ [last]) ∧
      tokens.map Token.word = words ∧ last.kind = .eof := by
  obtain ⟨tokens, words, scanned⟩ := legible.legibleBefore_nil.scanFrom file byte
  rw [List.append_nil] at scanned
  exact ⟨tokens, _, scanned, words, rfl⟩

end Scanning

section Reading

theorem takeWhile_append_stop {p : Char → Bool} {front rest : List Char}
    (inside : ∀ c ∈ front, p c = true) (stop : ∀ c ∈ rest.head?, p c = false) :
    (front ++ rest).takeWhile p = front := by
  rw [List.takeWhile_append_of_pos inside]
  cases rest with
  | nil => simp
  | cons c rest => simp [stop c (by simp)]

theorem dropWhile_append_stop {p : Char → Bool} {front rest : List Char}
    (inside : ∀ c ∈ front, p c = true) (stop : ∀ c ∈ rest.head?, p c = false) :
    (front ++ rest).dropWhile p = rest := by
  rw [List.dropWhile_append_of_pos inside]
  cases rest with
  | nil => simp
  | cons c rest => simp [stop c (by simp)]

variable {rest : List Char}

theorem mark_readsBefore {kind : TokenKind} (h : kind.standsAlone = true) :
    (mark kind).ReadsBefore rest := by
  cases kind <;> first | exact ⟨_, [], rfl, rfl⟩ | cases h

/-- What may stand in a name or a number starts no comment and breaks no line. -/
theorem plain_of_isNumberPart {c : Char} (h : isNumberPart c = true) :
    c ≠ '#' ∧ isLineBreak c = false := by
  rw [isLineBreak, Bool.or_eq_false_iff, beq_eq_false_iff_ne, beq_eq_false_iff_ne]
  refine ⟨?_, ?_, ?_⟩ <;> (rintro rfl; exact absurd h (by decide))

theorem read_word {first : Char} {tail : List Char} (start : isWordStart first = true)
    (parts : ∀ c ∈ tail, isWordPart c = true) (stop : ∀ c ∈ rest.head?, isWordPart c = false) :
    Lexeme.read first (tail ++ rest) = .ok (spelled
      ((TokenKind.ofKeyword? (String.ofList (first :: tail))).getD .identifier)
      (first :: tail)) := by
  have part : isNumberPart first = true := by simp [isNumberPart, isWordPart, start]
  obtain ⟨comment, lineBreak⟩ := plain_of_isNumberPart part
  rw [Lexeme.read, if_neg comment, if_neg (by simp [lineBreak]), if_pos start, word,
    takeWhile_append_stop parts stop]

theorem name_readsBefore {value : String} (h : TokenKind.Admits .identifier value)
    (stop : ∀ c ∈ rest.head?, isWordPart c = false) : (name value).ReadsBefore rest := by
  obtain ⟨⟨first, tail, same, start, parts⟩, free⟩ := h
  have text : (name value).text = first :: tail := same
  refine ⟨first, tail, text, ?_⟩
  have whole : String.ofList (first :: tail) = value := by rw [← same, String.ofList_toList]
  rw [read_word start parts stop, whole, free, text]
  simp [spelled, name, same]

theorem keyword_readsBefore {kind : TokenKind} (h : kind.isKeyword = true)
    (stop : ∀ c ∈ rest.head?, isWordPart c = false) : (mark kind).ReadsBefore rest := by
  cases kind <;> first
    | exact ⟨_, _, rfl, (read_word rfl (List.all_eq_true.1 (by decide)) stop).trans rfl⟩
    | cases h

theorem dot_readsBefore (stop : ∀ c ∈ rest.head?, c ≠ '.') : (mark .dot).ReadsBefore rest := by
  refine ⟨'.', [], rfl, ?_⟩
  cases rest with
  | nil => rfl
  | cons c rest =>
      have other : c ≠ '.' := stop c (by simp)
      change Except.ok (dots (c :: rest)) = _
      unfold dots
      split
      · next h => exact absurd (List.cons.inj h).1 other
      · next h => exact absurd (List.cons.inj h).1 other
      · rfl

theorem operator_of_stop {first : Char} (stop : ∀ c ∈ rest.head?, isOperatorPart c = false) :
    Lexeme.operator first rest = shortOperator first := by
  cases rest with
  | nil => rfl
  | cons c rest => rw [Lexeme.operator, if_neg (by simp [stop c (by simp)])]

theorem operator_readsBefore (op : Operator)
    (stop : ∀ c ∈ rest.head?, isOperatorPart c = false) :
    (mark (.operator op)).ReadsBefore rest := by
  cases op <;> first
    | exact ⟨_, [], rfl, (operator_of_stop stop).trans rfl⟩
    | exact ⟨_, [_], rfl, rfl⟩

theorem isNumberPart_of_isDigit {c : Char} (h : c.isDigit = true) : isNumberPart c = true := by
  simp [isNumberPart, isWordPart, h]

theorem isWordStart_of_isDigit {c : Char} (h : c.isDigit = true) : isWordStart c = false := by
  have digit : 48 ≤ c.val ∧ c.val ≤ 57 := by simpa [Char.isDigit] using h
  change (decide (65 ≤ c.val ∧ c.val ≤ 90) || (decide (97 ≤ c.val) && decide (c.val ≤ 122)) ||
    c == '_') = false
  have upper : ¬ 65 ≤ c.val := by grind
  have lower : ¬ 97 ≤ c.val := by grind
  have line : c ≠ '_' := by
    rintro rfl
    exact absurd digit.2 (by decide)
  simp [upper, lower, line]

/-- What starts with a digit is read as a number, or refused. -/
theorem read_eq_number {first : Char} (start : first.isDigit = true) (rest : List Char) :
    Lexeme.read first rest = number first rest := by
  obtain ⟨comment, lineBreak⟩ := plain_of_isNumberPart (isNumberPart_of_isDigit start)
  rw [Lexeme.read, if_neg comment, if_neg (by simp [lineBreak]),
    if_neg (by simp [isWordStart_of_isDigit start]), if_pos start]

theorem read_number {first : Char} {tail : List Char} {kind : TokenKind}
    (start : first.isDigit = true) (parts : ∀ c ∈ tail, isNumberPart c = true)
    (stop : ∀ c ∈ rest.head?, isNumberPart c = false)
    (h : numberKind? (first :: tail) = some kind) :
    Lexeme.read first (tail ++ rest) = .ok (spelled kind (first :: tail)) := by
  rw [read_eq_number start, number, takeWhile_append_stop parts stop]
  simp only [h]

/-- Digits alone are an integer, up to the greatest magnitude. -/
theorem numberKind?_of_isDigit {digits : List Char} (all : ∀ c ∈ digits, c.isDigit = true) :
    numberKind? digits =
      if Number.digitsValue digits ≤ greatestMagnitude then some .int else none := by
  have plain : ∀ c ∈ digits, (c != '.') = true := by
    intro c member
    rw [bne_iff_ne]
    rintro rfl
    exact absurd (all _ member) (by decide)
  have whole : digits.takeWhile (fun c => c != '.') = digits := by
    rw [← List.append_nil digits]
    exact (takeWhile_append_stop plain (by simp)).trans (List.append_nil digits).symm
  have nothing : digits.dropWhile (fun c => c != '.') = [] := by
    rw [← List.append_nil digits]
    exact dropWhile_append_stop plain (by simp)
  simp only [numberKind?, whole, nothing, List.all_eq_true.2 all, if_true]

theorem numberKind?_digits {digits : List Char} (all : ∀ c ∈ digits, c.isDigit = true)
    (fits : Number.digitsValue digits ≤ greatestMagnitude) : numberKind? digits = some .int := by
  rw [numberKind?_of_isDigit all, if_pos fits]

theorem numberKind?_decimal {text : List Char} (h : IsDecimal text) :
    numberKind? text = some .float := by
  obtain ⟨first, whole, fraction, rfl, start, digits, digits'⟩ := h
  have all : ∀ c ∈ first :: whole, c.isDigit = true := by simpa [start] using digits
  have plain : ∀ c ∈ first :: whole, (c != '.') = true := by
    intro c member
    rw [bne_iff_ne]
    rintro rfl
    exact absurd (all _ member) (by decide)
  have stop : ∀ c ∈ ('.' :: fraction).head?, (c != '.') = false := by simp
  have front := takeWhile_append_stop plain stop
  have back := dropWhile_append_stop plain stop
  simp only [numberKind?, front, back, List.all_eq_true.2 all, List.all_eq_true.2 digits', if_true]

theorem digitsValue_toDigits (value : Nat) :
    Number.digitsValue (Nat.toDigits 10 value) = value :=
  Nat.ofDigitChars_ten_toDigits

theorem natural_toList (value : Nat) : (natural value).value.toList = Nat.toDigits 10 value := by
  simp [natural]

theorem natural_readsBefore {value : Nat} (fits : value ≤ greatestMagnitude)
    (stop : ∀ c ∈ rest.head?, isNumberPart c = false) : (natural value).ReadsBefore rest := by
  have digits : ∀ c ∈ Nat.toDigits 10 value, c.isDigit = true := fun c member =>
    Nat.isDigit_of_mem_toDigits (by decide) (by decide) member
  have kind := numberKind?_digits digits (by rwa [digitsValue_toDigits])
  cases same : Nat.toDigits 10 value with
  | nil => exact absurd same Nat.toDigits_ne_nil
  | cons first tail =>
      rw [same] at digits kind
      have text : (natural value).text = first :: tail := (natural_toList value).trans same
      refine ⟨first, tail, text, ?_⟩
      rw [read_number (digits first (by simp)) (fun c member =>
        isNumberPart_of_isDigit (digits c (by simp [member]))) stop kind, text, natural_toList, same]
      rfl

theorem float_readsBefore {value : String} (h : IsDecimal value.toList)
    (stop : ∀ c ∈ rest.head?, isNumberPart c = false) : (Word.mk .float value).ReadsBefore rest := by
  have kind := numberKind?_decimal h
  obtain ⟨first, whole, fraction, same, start, digits, digits'⟩ := h
  have text : (Word.mk .float value).text = first :: (whole ++ '.' :: fraction) := same
  have parts : ∀ c ∈ whole ++ '.' :: fraction, isNumberPart c = true := by
    intro c member
    simp only [List.mem_append, List.mem_cons] at member
    rcases member with member | rfl | member
    · exact isNumberPart_of_isDigit (digits c member)
    · rfl
    · exact isNumberPart_of_isDigit (digits' c member)
  rw [same] at kind
  refine ⟨first, _, text, ?_⟩
  rw [read_number start parts stop kind, text, same]
  rfl

theorem quoteFor_not_mem {text : List Char} (h : ∃ quote, isQuote quote = true ∧ quote ∉ text) :
    isQuote (quoteFor text) = true ∧ quoteFor text ∉ text := by
  unfold quoteFor
  split
  · next double =>
    obtain ⟨quote, opens, free⟩ := h
    simp only [isQuote, Bool.or_eq_true, beq_iff_eq] at opens
    rcases opens with rfl | rfl
    · exact absurd double free
    · exact ⟨rfl, free⟩
  · next free => exact ⟨rfl, free⟩

theorem string_readsBefore {value : String} (h : TokenKind.Admits .string value) :
    (Word.mk .string value).ReadsBefore rest := by
  obtain ⟨opens, free⟩ := quoteFor_not_mem h
  refine ⟨quoteFor value.toList, value.toList ++ [quoteFor value.toList], rfl, ?_⟩
  have content : ∀ c ∈ value.toList, (c != quoteFor value.toList) = true := by
    intro c member
    rw [bne_iff_ne]
    rintro rfl
    exact free member
  have stop : ∀ c ∈ (quoteFor value.toList :: rest).head?,
      (c != quoteFor value.toList) = false := by simp
  have front := takeWhile_append_stop content stop
  have back := dropWhile_append_stop content stop
  have reads : Lexeme.read (quoteFor value.toList)
      (value.toList ++ quoteFor value.toList :: rest) =
        Lexeme.string (quoteFor value.toList)
          (value.toList ++ quoteFor value.toList :: rest) := by
    unfold quoteFor
    split <;> rfl
  rw [List.append_assoc, List.singleton_append, reads, Lexeme.string]
  simp only [front, back]
  rfl

end Reading

section Rows

/-- Whether a character goes on with no word. -/
def endsWord (c : Char) : Bool :=
  !isNumberPart c && !isOperatorPart c

/-- Words that can follow any word: they are legible, and their text goes on with no word. -/
structure Follows (words : List Word) : Prop where
  apart : ∀ c ∈ (listText words).head?, endsWord c = true
  legible : Legible words

variable {rest : List Word} {kind : TokenKind}

theorem legible_mark (h : kind.standsAlone = true) (legible : Legible rest) :
    Legible (mark kind :: rest) :=
  ⟨mark_readsBefore h, legible⟩

theorem follows_mark (h : kind.standsAlone = true) (legible : Legible rest) :
    Follows (mark kind :: rest) := by
  refine ⟨?_, legible_mark h legible⟩
  intro c member
  cases kind with
  | colon | comma | openParen | closeParen | openBracket | closeBracket | space | newline =>
      cases member
      decide
  | _ => cases h

namespace Follows

theorem numberPart (h : Follows rest) : ∀ c ∈ (listText rest).head?, isNumberPart c = false := by
  intro c member
  have := h.apart c member
  simp only [endsWord, Bool.and_eq_true, Bool.not_eq_true'] at this
  exact this.1

theorem wordPart (h : Follows rest) : ∀ c ∈ (listText rest).head?, isWordPart c = false := by
  intro c member
  have := h.numberPart c member
  rw [isNumberPart, Bool.or_eq_false_iff] at this
  exact this.1

theorem operatorPart (h : Follows rest) :
    ∀ c ∈ (listText rest).head?, isOperatorPart c = false := by
  intro c member
  have := h.apart c member
  simp only [endsWord, Bool.and_eq_true, Bool.not_eq_true'] at this
  exact this.2

theorem keyword (h : Follows rest) (word : kind.isKeyword = true) : Legible (mark kind :: rest) :=
  ⟨keyword_readsBefore word h.wordPart, h.legible⟩

theorem operator (h : Follows rest) (op : Operator) : Legible (mark (.operator op) :: rest) :=
  ⟨operator_readsBefore op h.operatorPart, h.legible⟩

theorem name (h : Follows rest) {value : String} (admitted : TokenKind.Admits .identifier value) :
    Legible (Word.name value :: rest) :=
  ⟨name_readsBefore admitted h.wordPart, h.legible⟩

/-- A name behind a point. -/
theorem member (h : Follows rest) {value : String}
    (admitted : TokenKind.Admits .identifier value) :
    Legible (mark .dot :: Word.name value :: rest) := by
  refine ⟨dot_readsBefore ?_, h.name admitted⟩
  obtain ⟨⟨first, tail, same, start, _⟩, _⟩ := admitted
  have text : (Word.name value).text = first :: tail := same
  intro c member
  rw [listText_cons, text, List.cons_append, List.head?_cons, Option.mem_some_iff] at member
  intro point
  rw [member, point] at start
  exact absurd start (by decide)

theorem natural (h : Follows rest) {value : Nat} (fits : value ≤ greatestMagnitude) :
    Legible (Word.natural value :: rest) :=
  ⟨natural_readsBefore fits h.numberPart, h.legible⟩

theorem float (h : Follows rest) {value : String} (decimal : IsDecimal value.toList) :
    Legible (⟨.float, value⟩ :: rest) :=
  ⟨float_readsBefore decimal h.numberPart, h.legible⟩

theorem string (h : Follows rest) {value : String} (admitted : TokenKind.Admits .string value) :
    Legible (⟨.string, value⟩ :: rest) :=
  ⟨string_readsBefore admitted, h.legible⟩

end Follows

theorem isOperatorPart_of_isDigit {c : Char} (h : c.isDigit = true) :
    isOperatorPart c = false := by
  cases part : isOperatorPart c with
  | false => rfl
  | true =>
      have listed : c ∈ "~*+-/<>=%^|&!".toList := List.contains_iff_mem.1 part
      have apart : ("~*+-/<>=%^|&!".toList.all fun c => !c.isDigit) = true := by decide
      have other := List.all_eq_true.1 apart c listed
      rw [h] at other
      cases other

/-- A minus can stand directly before a number. -/
theorem legible_minus {word : Word} {first : Char} {tail : List Char}
    (text : word.text = first :: tail) (digit : first.isDigit = true)
    (legible : Legible (word :: rest)) :
    Legible (mark (.operator .minus) :: word :: rest) := by
  refine ⟨operator_readsBefore .minus ?_, legible⟩
  intro c member
  rw [listText_cons, text, List.cons_append, List.head?_cons, Option.mem_some_iff] at member
  rw [← member]
  exact isOperatorPart_of_isDigit digit

theorem legible_minus_natural {value : Nat} (fits : value ≤ greatestMagnitude)
    (h : Follows rest) :
    Legible (mark (.operator .minus) :: Word.natural value :: rest) := by
  cases same : Nat.toDigits 10 value with
  | nil => exact absurd same Nat.toDigits_ne_nil
  | cons first tail =>
      have listed : first ∈ Nat.toDigits 10 value := by simp [same]
      have digit : first.isDigit = true :=
        Nat.isDigit_of_mem_toDigits (by decide) (by decide) listed
      exact legible_minus ((natural_toList value).trans same) digit (h.natural fits)

theorem legible_minus_float {value : String} (decimal : IsDecimal value.toList)
    (h : Follows rest) : Legible (mark (.operator .minus) :: ⟨.float, value⟩ :: rest) := by
  have legible := h.float decimal
  obtain ⟨first, whole, fraction, same, digit, _⟩ := decimal
  have text : (Word.mk .float value).text = first :: (whole ++ '.' :: fraction) := same
  exact legible_minus text digit legible

end Rows

end Offside
