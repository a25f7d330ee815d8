import Offside.Proofs.Lexing.Appending

/-! # Lexemes are as long as they can be

A lexeme takes up the front of a text, and no longer lexeme of its class does. How it is read
depends on nothing but its own characters and that the next one does not go on with it, so it is
read all the same if the text is cut off somewhere behind it.
-/

namespace Offside

namespace TokenKind

/-- The kinds of tokens that are spelled as words. -/
def IsWord (kind : TokenKind) : Prop :=
  kind = .identifier ∨ kind ∈ keywords.map Prod.snd

/-- A token of a kind has a value, given the text it was read from: that text, or for a string what
stands between two quotes of the same sort. -/
structure Spells (kind : TokenKind) (value slice : List Char) : Prop where
  string : kind = .string → ∃ quote, Lexeme.isQuote quote = true ∧
    slice = quote :: value ++ [quote] ∧ quote ∉ value
  other : kind ≠ .string → value = slice

/-- A token of a kind is not made longer by the text behind it. -/
structure Stops (kind : TokenKind) (slice behind : List Char) : Prop where
  word : kind.IsWord → ∀ c ∈ behind.head?, Lexeme.isWordPart c = false
  number : kind = .int ∨ kind = .float → ∀ c ∈ behind.head?, Lexeme.isNumberPart c = false
  operator : ∀ op first, kind = .operator op → slice = [first] → ∀ c ∈ behind.head?,
    Operator.ofSymbol? (String.ofList [first, c]) = none
  newline : kind = .newline → slice = ['\r'] → '\n' ∉ behind.head?
  dot : kind = .dot → ¬ ['.', '.'] <+: behind ∧ ¬ ['.', '<'] <+: behind

/-- Whether a token of a kind ends where it does whatever stands behind it. -/
def endsAnywhere : TokenKind → Bool
  | eof | char | string | colon | comma | ellipsis | ellipsisLess | openParen | closeParen
  | openBracket | closeBracket | space | tab | unknown => true
  | _ => false

variable {kind : TokenKind} {slice behind : List Char}

theorem spells_self (other : kind ≠ .string) : kind.Spells slice slice :=
  ⟨fun same => absurd same other, fun _ => rfl⟩

theorem stops_of_isWord (word : kind.IsWord)
    (stop : ∀ c ∈ behind.head?, Lexeme.isWordPart c = false) : kind.Stops slice behind := by
  refine ⟨fun _ => stop, ?_, ?_, ?_, ?_⟩
  · rintro (rfl | rfl) <;> simp [IsWord, keywords] at word
  · rintro op first rfl
    simp [IsWord, keywords] at word
  · rintro rfl
    simp [IsWord, keywords] at word
  · rintro rfl
    simp [IsWord, keywords] at word

theorem stops_number (number : kind = .int ∨ kind = .float)
    (stop : ∀ c ∈ behind.head?, Lexeme.isNumberPart c = false) : kind.Stops slice behind := by
  have other : ¬ kind.IsWord := by rcases number with rfl | rfl <;> simp [IsWord, keywords]
  refine ⟨fun word => absurd word other, fun _ => stop, ?_, ?_, ?_⟩
  · rintro op first rfl
    simp at number
  · rintro rfl
    simp at number
  · rintro rfl
    simp at number

theorem stops_operator {op : Operator} (unknown : ∀ first, slice = [first] →
    ∀ c ∈ behind.head?, Operator.ofSymbol? (String.ofList [first, c]) = none) :
    (operator op).Stops slice behind := by
  refine ⟨fun word => ?_, nofun, fun _ first _ => unknown first, nofun, nofun⟩
  simp [IsWord, keywords] at word

theorem stops_newline (lone : slice = ['\r'] → '\n' ∉ behind.head?) :
    newline.Stops slice behind := by
  refine ⟨fun word => ?_, nofun, nofun, fun _ => lone, nofun⟩
  simp [IsWord, keywords] at word

theorem stops_dot (lone : ¬ ['.', '.'] <+: behind ∧ ¬ ['.', '<'] <+: behind) :
    dot.Stops slice behind := by
  refine ⟨fun word => ?_, nofun, nofun, nofun, fun _ => lone⟩
  simp [IsWord, keywords] at word

theorem stops_of_endsAnywhere (ends : kind.endsAnywhere = true) : kind.Stops slice behind := by
  have apart : ∀ kind ∈ identifier :: keywords.map Prod.snd, kind.endsAnywhere = false := by
    decide
  refine ⟨fun word => ?_, ?_, ?_, ?_, ?_⟩
  · rw [apart kind (List.mem_cons.2 word)] at ends
    cases ends
  · rintro (rfl | rfl) <;> cases ends
  · rintro op first rfl
    cases ends
  · rintro rfl
    cases ends
  · rintro rfl
    cases ends

end TokenKind

/-- A comment reaches from its mark up to the end of the line. -/
structure IsComment (slice behind : List Char) : Prop where
  mark : '#' ∈ slice.head?
  inside : ∀ c ∈ slice, Lexeme.isLineBreak c = false
  stops : ∀ c ∈ behind.head?, Lexeme.isLineBreak c = true

namespace Lexeme

/-- A lexeme is a comment or the text of a token, and as long as it can be in front of a text. -/
structure Fits (lexeme : Lexeme) (behind : List Char) : Prop where
  comment : lexeme.kind? = none → IsComment lexeme.slice behind
  token : ∀ kind, lexeme.kind? = some kind →
    kind.Spells lexeme.value lexeme.slice ∧ kind.Stops lexeme.slice behind

/-- What is read at a character is a lexeme that takes up the front of the text, and it is read all
the same if the text ends sooner behind it. -/
def Munches (reads : List Char → Except ErrorCause Lexeme) (first : Char) (rest : List Char)
    (lexeme : Lexeme) : Prop :=
  ∃ tail behind, rest = tail ++ behind ∧ lexeme.slice = first :: tail ∧ lexeme.Fits behind ∧
    ∀ front back, behind = front ++ back → reads (tail ++ front) = .ok lexeme

variable {first : Char} {rest behind slice : List Char} {kind : TokenKind} {lexeme : Lexeme}

theorem fits_spelled (other : kind ≠ .string) (stops : kind.Stops slice behind) :
    (spelled kind slice).Fits behind := by
  refine ⟨nofun, ?_⟩
  rintro _ ⟨⟩
  exact ⟨TokenKind.spells_self other, stops⟩

/-- What a text starts with is what the front of it starts with, if there is any. -/
theorem head?_of_append {front back : List Char} {holds : Char → Prop}
    (same : behind = front ++ back) (stop : ∀ c ∈ behind.head?, holds c) :
    ∀ c ∈ front.head?, holds c := by
  intro c member
  cases front with
  | nil => cases member
  | cons other front =>
      rw [same] at stop
      exact stop c member

/-- Characters of a class, up to the first that is not of it. -/
theorem exists_munch (p : Char → Bool) (rest : List Char) :
    ∃ behind, rest = rest.takeWhile p ++ behind ∧ (∀ c ∈ behind.head?, p c = false) ∧
      ∀ front back, behind = front ++ back →
        (rest.takeWhile p ++ front).takeWhile p = rest.takeWhile p := by
  have stop : ∀ c ∈ (rest.dropWhile p).head?, p c = false := by
    intro c member
    have := List.head?_dropWhile_not p rest
    rw [Option.mem_def.1 member] at this
    simpa using this
  refine ⟨rest.dropWhile p, List.takeWhile_append_dropWhile.symm, stop, ?_⟩
  intro front back same
  exact takeWhile_append_stop (fun c member => List.mem_takeWhile_imp member)
    (head?_of_append same stop)

section Classes

theorem comment_munches :
    Munches (fun rest => .ok (comment '#' rest)) '#' rest (comment '#' rest) := by
  obtain ⟨behind, whole, stop, again⟩ := exists_munch (fun c => !isLineBreak c) rest
  refine ⟨_, behind, whole, rfl, ⟨fun _ => ⟨rfl, ?_, ?_⟩, nofun⟩, ?_⟩
  · intro c member
    rcases List.mem_cons.1 member with rfl | member
    · rfl
    · simpa using List.mem_takeWhile_imp member
  · simpa using stop
  · intro front back same
    simp only [comment, again front back same]

theorem lineBreak_of_lone (lone : first = '\r' → '\n' ∉ rest.head?) :
    lineBreak first rest = spelled .newline [first] := by
  unfold lineBreak
  split
  · exact absurd rfl (lone rfl)
  · rfl

theorem lineBreak_munches :
    Munches (fun rest => .ok (lineBreak first rest)) first rest (lineBreak first rest) := by
  have fits : ∀ slice behind, (slice = ['\r'] → '\n' ∉ behind.head?) →
      (spelled .newline slice).Fits behind := fun slice behind lone =>
    fits_spelled nofun (TokenKind.stops_newline lone)
  by_cases double : first = '\r' ∧ '\n' ∈ rest.head?
  · obtain ⟨rfl, member⟩ := double
    cases rest with
    | nil => cases member
    | cons second rest =>
        cases member
        exact ⟨['\n'], rest, rfl, rfl, fits _ _ nofun, fun _ _ _ => rfl⟩
  · have lone : first = '\r' → '\n' ∉ rest.head? := fun same member => double ⟨same, member⟩
    rw [lineBreak_of_lone lone]
    refine ⟨[], rest, rfl, rfl, fits _ _ fun same => lone (List.cons.inj same).1, ?_⟩
    intro front back same
    have again : first = '\r' → '\n' ∉ front.head? := by
      intro cr member
      have other : ∀ c ∈ rest.head?, c ≠ '\n' := fun c found broken => lone cr (broken ▸ found)
      exact head?_of_append same other '\n' member rfl
    exact congrArg Except.ok (lineBreak_of_lone again)

theorem word_munches :
    Munches (fun rest => .ok (word first rest)) first rest (word first rest) := by
  obtain ⟨behind, whole, stop, again⟩ := exists_munch isWordPart rest
  refine ⟨_, behind, whole, rfl, ?_, ?_⟩
  · have isWord : ((TokenKind.ofKeyword? (String.ofList
        (first :: rest.takeWhile isWordPart))).getD .identifier).IsWord := by
      cases found : TokenKind.ofKeyword? (String.ofList (first :: rest.takeWhile isWordPart)) with
      | none => exact .inl rfl
      | some kind => exact .inr (List.mem_map_of_mem (keyword_mem found))
    refine fits_spelled ?_ (TokenKind.stops_of_isWord isWord stop)
    intro string
    rw [string] at isWord
    simp [TokenKind.IsWord, TokenKind.keywords] at isWord
  · intro front back same
    simp only [word, again front back same]

theorem number_munches (h : number first rest = .ok lexeme) :
    Munches (number first) first rest lexeme := by
  obtain ⟨behind, whole, stop, again⟩ := exists_munch isNumberPart rest
  have reads : ∀ front back, behind = front ++ back →
      number first (rest.takeWhile isNumberPart ++ front) = .ok lexeme := by
    intro front back same
    rw [← h]
    simp only [number, again front back same]
  unfold number at h
  dsimp only at h
  split at h
  · next kind numeral =>
    cases h
    refine ⟨_, behind, whole, rfl, ?_, reads⟩
    have number := numberKind?_cases numeral
    refine fits_spelled ?_ (TokenKind.stops_number number stop)
    rintro rfl
    simp at number
  · cases h

theorem string_munches (quoted : isQuote first = true) (h : string first rest = .ok lexeme) :
    Munches (string first) first rest lexeme := by
  unfold string at h
  dsimp only at h
  cases closes : rest.dropWhile fun c => c != first with
  | nil =>
      rw [closes] at h
      cases h
  | cons quote more =>
      rw [closes] at h
      cases h
      have found : quote = first := by
        have stops := List.dropWhile_get_zero_not (fun c => c != first) rest (by simp [closes])
        simpa [closes] using stops
      have whole : rest.takeWhile (fun c => c != first) ++ rest.dropWhile (fun c => c != first) =
          rest := List.takeWhile_append_dropWhile
      have inside : ∀ c ∈ rest.takeWhile (fun c => c != first), (c != first) = true :=
        fun c member => List.mem_takeWhile_imp (p := fun c => c != first) member
      rw [closes, found] at whole
      refine ⟨rest.takeWhile (fun c => c != first) ++ [first], more, by simp [whole], rfl, ?_, ?_⟩
      · refine ⟨nofun, ?_⟩
        rintro _ ⟨⟩
        refine ⟨⟨fun _ => ⟨first, quoted, rfl, fun member => ?_⟩, nofun⟩,
          TokenKind.stops_of_endsAnywhere rfl⟩
        simpa using inside first member
      · intro front back same
        have stop : ∀ c ∈ (first :: front).head?, (c != first) = false := by simp
        have taken := takeWhile_append_stop inside stop
        have dropped := dropWhile_append_stop inside stop
        rw [List.append_assoc, List.singleton_append]
        simp only [string, taken, dropped]

theorem shortOperator_eq_ok (h : shortOperator first = .ok lexeme) :
    ∃ op, lexeme = spelled (.operator op) [first] := by
  unfold shortOperator at h
  split at h <;> cases h
  exact ⟨_, rfl⟩

/-- Two characters that are a known operator are read as it. -/
theorem operator_of_known {second : Char} {op : Operator}
    (known : Operator.ofSymbol? (String.ofList [first, second]) = some op) :
    operator first (second :: rest) = .ok (spelled (.operator op) [first, second]) := by
  have part : isOperatorPart second = true := by
    have parts : op.symbol.toList.all isOperatorPart = true := by cases op <;> decide
    rw [Operator.ofSymbol?_eq_some_iff.1 known] at parts
    exact List.all_eq_true.1 parts second (by simp)
  simp only [operator, part, known, if_true]

theorem operator_of_unknown
    (unknown : ∀ c ∈ rest.head?, Operator.ofSymbol? (String.ofList [first, c]) = none) :
    operator first rest = shortOperator first := by
  cases rest with
  | nil => rfl
  | cons second rest =>
      have none := unknown second rfl
      simp only [operator, none, ite_self]

theorem operator_munches (h : operator first rest = .ok lexeme) :
    Munches (operator first) first rest lexeme := by
  have fits : ∀ op slice behind, (∀ first, slice = [first] → ∀ c ∈ behind.head?,
      Operator.ofSymbol? (String.ofList [first, c]) = none) →
      (spelled (.operator op) slice).Fits behind := fun op slice behind unknown =>
    fits_spelled nofun (TokenKind.stops_operator unknown)
  by_cases known : ∃ second ∈ rest.head?, ∃ op,
      Operator.ofSymbol? (String.ofList [first, second]) = some op
  · obtain ⟨second, member, op, known⟩ := known
    cases rest with
    | nil => cases member
    | cons other rest =>
        cases member
        rw [operator_of_known known] at h
        cases h
        exact ⟨[second], rest, rfl, rfl, fits _ _ _ nofun, fun _ _ _ => operator_of_known known⟩
  · have unknown : ∀ c ∈ rest.head?, Operator.ofSymbol? (String.ofList [first, c]) = none :=
      fun c member => Option.eq_none_iff_forall_ne_some.2 fun op same =>
        known ⟨c, member, op, same⟩
    rw [operator_of_unknown unknown] at h
    obtain ⟨op, rfl⟩ := shortOperator_eq_ok h
    refine ⟨[], rest, rfl, rfl, fits _ _ _ ?_, fun front back same => ?_⟩
    · rintro _ ⟨⟩
      exact unknown
    · rw [List.nil_append, operator_of_unknown (head?_of_append same unknown), h]

theorem dots_of_lone (lone : ¬ ['.', '.'] <+: rest ∧ ¬ ['.', '<'] <+: rest) :
    dots rest = spelled .dot ['.'] := by
  unfold dots
  split
  · next more => exact absurd ⟨more, rfl⟩ lone.1
  · next more => exact absurd ⟨more, rfl⟩ lone.2
  · rfl

theorem dots_munches : Munches (fun rest => .ok (dots rest)) '.' rest (dots rest) := by
  have ends : ∀ kind slice behind, kind.endsAnywhere = true → kind ≠ .string →
      (spelled kind slice).Fits behind := fun kind slice behind ends other =>
    fits_spelled other (TokenKind.stops_of_endsAnywhere ends)
  by_cases lone : ¬ ['.', '.'] <+: rest ∧ ¬ ['.', '<'] <+: rest
  · rw [dots_of_lone lone]
    refine ⟨[], rest, rfl, rfl, fits_spelled nofun (TokenKind.stops_dot lone),
      fun front back same => ?_⟩
    have front : front <+: rest := ⟨back, same.symm⟩
    exact congrArg Except.ok (dots_of_lone
      ⟨fun inside => lone.1 (inside.trans front), fun inside => lone.2 (inside.trans front)⟩)
  · rw [← not_or, not_not] at lone
    rcases lone with ⟨more, rfl⟩ | ⟨more, rfl⟩
    · exact ⟨['.', '.'], more, rfl, rfl, ends _ _ _ rfl nofun, fun _ _ _ => rfl⟩
    · exact ⟨['.', '<'], more, rfl, rfl, ends _ _ _ rfl nofun, fun _ _ _ => rfl⟩

theorem mark_munches (c : Char) :
    Munches (fun _ => .ok (spelled ((mark? c).getD .unknown) [c])) c rest
      (spelled ((mark? c).getD .unknown) [c]) := by
  refine ⟨[], rest, rfl, rfl, ?_, fun _ _ _ => rfl⟩
  unfold mark?
  split <;> exact fits_spelled nofun (TokenKind.stops_of_endsAnywhere rfl)

end Classes

/-- Whatever lexeme is read at the front of a text is as long as it can be. -/
theorem read_munches (h : Lexeme.read first rest = .ok lexeme) :
    Munches (Lexeme.read first) first rest lexeme := by
  -- Which class of lexemes is read is decided by the first character alone.
  have of_class : ∀ {reads : List Char → Except ErrorCause Lexeme},
      (∀ rest, Lexeme.read first rest = reads rest) → Munches reads first rest lexeme →
      Munches (Lexeme.read first) first rest lexeme := fun same munches => funext same ▸ munches
  unfold Lexeme.read at h
  split at h
  · next mark =>
    subst mark
    cases h
    exact of_class (fun _ => rfl) comment_munches
  next mark =>
  split at h
  · next breaks =>
    cases h
    exact of_class (fun _ => by simp [Lexeme.read, mark, breaks]) lineBreak_munches
  next breaks =>
  split at h
  · next letter =>
    cases h
    exact of_class (fun _ => by simp [Lexeme.read, mark, breaks, letter]) word_munches
  next letter =>
  split at h
  · next digit =>
    exact of_class (fun _ => by simp [Lexeme.read, mark, breaks, letter, digit]) (number_munches h)
  next digit =>
  split at h
  · next quote =>
    exact of_class (fun _ => by simp [Lexeme.read, mark, breaks, letter, digit, quote])
      (string_munches quote h)
  next quote =>
  split at h
  · next sign =>
    exact of_class (fun _ => by simp [Lexeme.read, mark, breaks, letter, digit, quote, sign])
      (operator_munches h)
  next sign =>
  split at h
  · next point =>
    subst point
    cases h
    exact of_class (fun _ => rfl) dots_munches
  · next point =>
    cases h
    exact of_class
      (fun _ => by simp [Lexeme.read, mark, breaks, letter, digit, quote, sign, point])
      (mark_munches first)

end Lexeme

end Offside
