import Offside.Proofs.Lexing.Appending

/-! # Spellings

A word is spelled as a text, and a string as more than one: in either quote. Texts that spell words
are split into these words again if there is a space between each two of them, whatever the strings
among them contain.
-/

namespace Offside

open Lexeme

/-- The marks that are no operators, with the kinds they denote. -/
def TokenKind.marks : List (String × TokenKind) :=
  [("...", ellipsis), ("..<", ellipsisLess), (".", dot), (":", colon), (",", comma),
    ("(", openParen), (")", closeParen), ("[", openBracket), ("]", closeBracket)]

/-- A text spells a word. -/
inductive Word.SpelledAs : Word → List Char → Prop where
  | keyword {spelling kind} : (spelling, kind) ∈ TokenKind.keywords →
    SpelledAs ⟨kind, spelling⟩ spelling.toList
  | identifier {text} : IsWord text → String.ofList text ∉ TokenKind.keywords.map Prod.fst →
    SpelledAs ⟨.identifier, String.ofList text⟩ text
  | integer {digits} : digits ≠ [] → (∀ c ∈ digits, c.isDigit = true) →
    Number.digitsValue digits ≤ 0x8000000000000000 → SpelledAs ⟨.int, String.ofList digits⟩ digits
  | decimal {text} : IsDecimal text → SpelledAs ⟨.float, String.ofList text⟩ text
  | string {quote content} : isQuote quote = true → quote ∉ content →
    SpelledAs ⟨.string, String.ofList content⟩ (quote :: content ++ [quote])
  | operator (op : Operator) : SpelledAs ⟨.operator op, op.symbol⟩ op.symbol.toList
  | mark {spelling kind} : (spelling, kind) ∈ TokenKind.marks →
    SpelledAs ⟨kind, spelling⟩ spelling.toList

/-- A word, with a text that spells it. -/
structure Spelling where
  word : Word
  text : List Char
  spells : word.SpelledAs text

/-- Spellings with a space between each two of them. -/
def Spelling.joined (spellings : List Spelling) : List Char :=
  [' '].intercalate (spellings.map text)

/-- What follows a spelling does not go on with it: nothing, or a space. -/
def Apart (rest : List Char) : Prop :=
  ∀ c ∈ rest.head?, c = ' '

section Reading

variable {rest : List Char} {word : Word} {text : List Char}

theorem Apart.stop (apart : Apart rest) {part : Char → Bool} (other : part ' ' = false) :
    ∀ c ∈ rest.head?, part c = false := by
  intro c member
  rw [apart c member, other]

/-- A word is what is read of a text that spells it, in front of anything that stands apart. -/
def Word.ReadFrom (word : Word) (text rest : List Char) : Prop :=
  ∃ first tail, text = first :: tail ∧
    Lexeme.read first (tail ++ rest) = .ok ⟨some word.kind, word.value.toList, text⟩

theorem Word.ReadsBefore.readFrom (h : word.ReadsBefore rest) (other : word.kind ≠ .string) :
    word.ReadFrom word.value.toList rest := by
  have same : word.text = word.value.toList := if_neg other
  rw [← same]
  exact h

theorem keyword_readFrom {spelling : String} {kind : TokenKind}
    (listed : (spelling, kind) ∈ TokenKind.keywords) (apart : Apart rest) :
    Word.ReadFrom ⟨kind, spelling⟩ spelling.toList rest := by
  have denotes : ∀ keyword ∈ TokenKind.keywords,
      TokenKind.ofKeyword? keyword.1 = some keyword.2 ∧
        (keyword.1.toList.head?.any isWordStart && keyword.1.toList.all isWordPart) = true := by
    decide
  obtain ⟨found, parts⟩ := denotes _ listed
  rw [Bool.and_eq_true, List.all_eq_true] at parts
  cases same : spelling.toList with
  | nil => simp [same] at parts
  | cons first tail =>
      simp only [same, List.head?_cons, Option.any_some] at parts
      have whole : String.ofList (first :: tail) = spelling := by rw [← same, String.ofList_toList]
      refine ⟨first, tail, rfl, ?_⟩
      rw [read_word parts.1 (fun c member => parts.2 c (List.mem_cons_of_mem _ member))
        (apart.stop rfl), whole, found, ← same]
      rfl

theorem integer_readFrom {digits : List Char} (some : digits ≠ [])
    (decimal : ∀ c ∈ digits, c.isDigit = true)
    (fits : Number.digitsValue digits ≤ greatestMagnitude) (apart : Apart rest) :
    Word.ReadFrom ⟨.int, String.ofList digits⟩ digits rest := by
  cases digits with
  | nil => exact absurd rfl some
  | cons first tail =>
      have parts : ∀ c ∈ tail, isNumberPart c = true := fun c member =>
        isNumberPart_of_isDigit (decimal c (List.mem_cons_of_mem _ member))
      refine ⟨first, tail, rfl, ?_⟩
      rw [read_number (decimal first List.mem_cons_self) parts (apart.stop rfl)
        (numberKind?_digits decimal fits), String.toList_ofList]
      rfl

theorem string_readFrom {quote : Char} {content : List Char} (opens : isQuote quote = true)
    (free : quote ∉ content) :
    Word.ReadFrom ⟨.string, String.ofList content⟩ (quote :: content ++ [quote]) rest := by
  have inside : ∀ c ∈ content, (c != quote) = true := fun c member =>
    bne_iff_ne.2 fun same => free (same ▸ member)
  have stop : ∀ c ∈ (quote :: rest).head?, (c != quote) = false := by simp
  have front := takeWhile_append_stop inside stop
  have back := dropWhile_append_stop inside stop
  have reads : ∀ text, Lexeme.read quote text = Lexeme.string quote text := by
    intro text
    rcases by simpa [isQuote] using opens with rfl | rfl <;> rfl
  refine ⟨quote, content ++ [quote], rfl, ?_⟩
  rw [List.append_assoc, List.singleton_append, reads, Lexeme.string]
  simp only [front, back, String.toList_ofList]

theorem mark_readFrom {spelling : String} {kind : TokenKind}
    (listed : (spelling, kind) ∈ TokenKind.marks) (apart : Apart rest) :
    Word.ReadFrom ⟨kind, spelling⟩ spelling.toList rest := by
  have point : Word.ReadFrom ⟨.dot, "."⟩ ['.'] rest := by
    refine (dot_readsBefore fun c member same => ?_).readFrom nofun
    exact absurd (same.symm.trans (apart c member)) (by decide)
  simp only [TokenKind.marks, List.mem_cons, List.not_mem_nil, or_false, Prod.mk.injEq] at listed
  rcases listed with h | h | h | h | h | h | h | h | h
  all_goals obtain ⟨rfl, rfl⟩ := h
  case inr.inr.inl => exact point
  all_goals exact ⟨_, _, rfl, rfl⟩

/-- A text that spells a word is read as it. -/
theorem Word.SpelledAs.readFrom (spelled : word.SpelledAs text) (apart : Apart rest) :
    word.ReadFrom text rest := by
  cases spelled with
  | keyword listed => exact keyword_readFrom listed apart
  | @identifier text isWord free =>
      have unlisted : TokenKind.ofKeyword? (String.ofList text) = none := by
        rw [TokenKind.ofKeyword?, List.lookup_eq_none_iff]
        intro keyword listed
        rw [bne_iff_ne]
        intro same
        exact free (same ▸ List.mem_map_of_mem listed)
      have admitted : TokenKind.Admits .identifier (String.ofList text) :=
        ⟨by rwa [String.toList_ofList], unlisted⟩
      have read := (name_readsBefore admitted (apart.stop rfl)).readFrom (by simp [Word.name])
      simpa [Word.name] using read
  | integer some decimal fits => exact integer_readFrom some decimal fits apart
  | decimal isDecimal =>
      have decimal : IsDecimal (String.ofList text).toList := by rwa [String.toList_ofList]
      simpa using (float_readsBefore decimal (apart.stop rfl)).readFrom (by simp)
  | string opens free => exact string_readFrom opens free
  | operator op => exact (operator_readsBefore op (apart.stop rfl)).readFrom (by simp [Word.mark])
  | mark listed => exact mark_readFrom listed apart

/-- No word is spelled as a space. -/
theorem Word.SpelledAs.kind_ne_space (spelled : word.SpelledAs text) : word.kind ≠ .space := by
  have keywords : ∀ keyword ∈ TokenKind.keywords, keyword.2 ≠ .space := by decide
  have marks : ∀ mark ∈ TokenKind.marks, mark.2 ≠ .space := by decide
  cases spelled with
  | keyword listed => exact keywords _ listed
  | mark listed => exact marks _ listed
  | _ => exact nofun

end Reading

section Joining

variable {file : String} {byte : Nat} {text rest : List Char} {word : Word} {behind : List Token}

/-- A word that is read is the first token of a text. -/
theorem scanFrom_append_of_readFrom (read : word.ReadFrom text rest)
    (scanned : Token.scanFrom file (byte + byteLength text) 0 rest = .ok behind) :
    Token.scanFrom file byte 0 (text ++ rest) =
      .ok (⟨word.kind, word.value, Span.ofBytes file byte (byteLength text)⟩ :: behind) := by
  obtain ⟨first, tail, rfl, read⟩ := read
  rw [byteLength_cons, ← Nat.add_assoc, ← scanFrom_inside] at scanned
  rw [List.cons_append, scanFrom_cons_of_ok read (by simpa using scanned)]
  simp [Lexeme.token?]

theorem space_readFrom : Word.ReadFrom ⟨.space, " "⟩ [' '] rest :=
  ⟨' ', [], rfl, rfl⟩

theorem Spelling.joined_cons_cons (first second : Spelling) (others : List Spelling) :
    joined (first :: second :: others) =
      first.text ++ ([' '] ++ joined (second :: others)) := by
  simp [joined, List.intercalate]

/-- Spellings from some byte on are split into their words and the spaces between them. -/
theorem scanFrom_joined (file : String) (byte : Nat) (spellings : List Spelling) :
    ∃ tokens, Token.scanFrom file byte 0 (Spelling.joined spellings) = .ok tokens ∧
      (tokens.filter fun token => token.kind != .space).map Token.word =
        spellings.map Spelling.word ++ [⟨.eof, "EOF"⟩] := by
  induction spellings generalizing byte with
  | nil => exact ⟨_, rfl, rfl⟩
  | cons first others ih =>
      have visible : (first.word.kind != .space) = true :=
        bne_iff_ne.2 first.spells.kind_ne_space
      cases others with
      | nil =>
          have apart : Apart [] := nofun
          have read := first.spells.readFrom apart
          have alone : Spelling.joined [first] = first.text ++ [] := by
            simp [Spelling.joined, List.intercalate]
          rw [alone]
          refine ⟨_, scanFrom_append_of_readFrom read rfl, ?_⟩
          rw [List.filter_cons, if_pos visible]
          rfl
      | cons second others =>
          have apart : Apart ([' '] ++ Spelling.joined (second :: others)) := by
            rintro c ⟨⟩
            rfl
          have read := first.spells.readFrom apart
          obtain ⟨tokens, scanned, words⟩ := ih (byte + byteLength first.text + byteLength [' '])
          rw [Spelling.joined_cons_cons]
          refine ⟨_, scanFrom_append_of_readFrom read
            (scanFrom_append_of_readFrom space_readFrom scanned), ?_⟩
          rw [List.filter_cons, if_pos visible, List.filter_cons, if_neg (by simp), List.map_cons,
            words]
          rfl

/-- Any spellings with single spaces between them are split into one token for each of them, in
order and with the word that it spells, and the end of the input, if spaces do not count. -/
theorem Token.scan_joined (spellings : List Spelling) (file : String) :
    ∃ tokens, Token.scan (String.ofList (Spelling.joined spellings)) file = .ok tokens ∧
      (tokens.filter fun token => token.kind != .space).map Token.word =
        spellings.map Spelling.word ++ [⟨.eof, "EOF"⟩] := by
  rw [Token.scan, String.toList_ofList]
  exact scanFrom_joined file 0 spellings

end Joining

end Offside
