import Offside.Proofs.Comparing.Relocation
import Offside.Proofs.Lexing.Words

/-! # Reading tokens of texts put together

A line feed belongs to no lexeme that goes on behind it, unless the lexeme is a string that is closed
further on. So the tokens of a text that ends with one are the same whatever text follows, and the
tokens of that text are the same but for their places.
-/

namespace Offside

section Stopping

variable {α : Type} {p : α → Bool} {front back : List α}

/-- Where something stops in a list, what stands behind the list is not seen. -/
theorem takeWhile_append_of_mem (stop : ∃ item ∈ front, p item = false) :
    (front ++ back).takeWhile p = front.takeWhile p := by
  rw [List.takeWhile_append, if_neg]
  intro all
  obtain ⟨item, listed, stops⟩ := stop
  have same := (List.takeWhile_prefix p).eq_of_length all
  have goes := List.takeWhile_eq_self_iff.1 same item listed
  rw [stops] at goes
  cases goes

theorem dropWhile_append_of_mem (stop : ∃ item ∈ front, p item = false) :
    (front ++ back).dropWhile p = front.dropWhile p ++ back := by
  rw [List.dropWhile_append, if_neg]
  intro none
  obtain ⟨item, listed, stops⟩ := stop
  have goes := List.dropWhile_eq_nil_iff.1 (List.isEmpty_iff.1 none) item listed
  rw [stops] at goes
  cases goes

theorem length_takeWhile_lt (stop : ∃ item ∈ front, p item = false) :
    (front.takeWhile p).length < front.length := by
  refine Nat.lt_of_le_of_ne (List.takeWhile_prefix p).length_le fun all => ?_
  obtain ⟨item, listed, stops⟩ := stop
  have same := (List.takeWhile_prefix p).eq_of_length all
  have goes := List.takeWhile_eq_self_iff.1 same item listed
  rw [stops] at goes
  cases goes

end Stopping

namespace Lexeme

/-- A lexeme at the front of a text ends before the text does, or is a line break that ends it. -/
def Within (lexeme : Lexeme) (rest : List Char) : Prop :=
  lexeme.slice.length - 1 < rest.length ∨
    lexeme.slice.length - 1 = rest.length ∧ lexeme.kind? = some .newline

variable {first : Char} {rest back : List Char} {lexeme : Lexeme}

theorem mem_of_ends (ends : rest.getLast? = some '\n') : '\n' ∈ rest :=
  List.mem_of_getLast? ends

theorem comment_append (back : List Char) (ends : rest.getLast? = some '\n') :
    comment first (rest ++ back) = comment first rest ∧ (comment first rest).Within rest := by
  have stop : ∃ c ∈ rest, (!isLineBreak c) = false := ⟨_, mem_of_ends ends, rfl⟩
  unfold comment
  rw [takeWhile_append_of_mem stop]
  exact ⟨rfl, .inl (length_takeWhile_lt stop)⟩

theorem lineBreak_append (back : List Char) (ends : rest.getLast? = some '\n') :
    lineBreak first (rest ++ back) = lineBreak first rest ∧ (lineBreak first rest).Within rest := by
  cases rest with
  | nil => cases ends
  | cons second rest =>
      constructor
      · unfold lineBreak
        rw [List.cons_append]
        split
        · next same =>
          cases (List.cons.inj same).1
          rfl
        · next other =>
          split
          · next same =>
            cases (List.cons.inj same).1
            exact (other _ rfl rfl).elim
          · rfl
      · unfold lineBreak
        split
        · cases rest with
          | nil => exact .inr ⟨rfl, rfl⟩
          | cons third rest => exact .inl (by simp [spelled])
        · exact .inl (by simp [spelled])

theorem word_append (back : List Char) (ends : rest.getLast? = some '\n') :
    word first (rest ++ back) = word first rest ∧ (word first rest).Within rest := by
  have stop : ∃ c ∈ rest, isWordPart c = false := ⟨_, mem_of_ends ends, rfl⟩
  unfold word
  rw [takeWhile_append_of_mem stop]
  exact ⟨rfl, .inl (length_takeWhile_lt stop)⟩

theorem number_append (ends : rest.getLast? = some '\n') (h : number first rest = .ok lexeme) :
    number first (rest ++ back) = .ok lexeme ∧ lexeme.Within rest := by
  have stop : ∃ c ∈ rest, isNumberPart c = false := ⟨_, mem_of_ends ends, rfl⟩
  unfold number at h ⊢
  rw [takeWhile_append_of_mem stop]
  refine ⟨h, ?_⟩
  dsimp only at h
  split at h
  · cases h
    exact .inl (length_takeWhile_lt stop)
  · cases h

theorem string_append (ends : rest.getLast? = some '\n') (quoted : isQuote first = true)
    (h : string first rest = .ok lexeme) :
    string first (rest ++ back) = .ok lexeme ∧ lexeme.Within rest := by
  unfold string at h ⊢
  dsimp only at h ⊢
  cases closes : rest.dropWhile fun c => c != first with
  | nil =>
      rw [closes] at h
      cases h
  | cons quote more =>
      rw [closes] at h
      cases h
      have found : quote = first := by
        have stops := List.dropWhile_get_zero_not (fun c => c != first) rest (by simp [closes])
        simpa [closes] using stops
      have whole : rest.takeWhile (fun c => c != first) ++ rest.dropWhile (fun c => c != first) =
          rest := List.takeWhile_append_dropWhile
      rw [closes, found] at whole
      have stop : ∃ c ∈ rest, (c != first) = false :=
        ⟨first, by rw [← whole]; simp, bne_self_eq_false first⟩
      rw [takeWhile_append_of_mem stop, dropWhile_append_of_mem stop, closes]
      refine ⟨rfl, .inl ?_⟩
      have lengths := congrArg List.length whole
      cases more with
      | nil =>
          rw [← whole, List.getLast?_append] at ends
          cases ends
          cases quoted
      | cons c more =>
          simp only [List.length_append, List.length_cons, List.length_nil] at lengths ⊢
          omega

theorem operator_append (ends : rest.getLast? = some '\n') (h : operator first rest = .ok lexeme) :
    operator first (rest ++ back) = .ok lexeme ∧ lexeme.Within rest := by
  cases rest with
  | nil => cases ends
  | cons second rest =>
      refine ⟨h, ?_⟩
      have short : ∀ lexeme, shortOperator first = .ok lexeme → lexeme.Within (second :: rest) := by
        intro lexeme h
        unfold shortOperator at h
        split at h <;> cases h
        exact .inl (by simp [spelled])
      unfold operator at h
      dsimp only at h
      split at h
      · next part =>
        split at h
        · cases h
          cases rest with
          | nil =>
              cases ends
              cases part
          | cons third rest => exact .inl (by simp [spelled])
        · exact short lexeme h
      · exact short lexeme h

theorem dots_append (back : List Char) (ends : rest.getLast? = some '\n') :
    dots (rest ++ back) = dots rest ∧ (dots rest).Within rest := by
  cases rest with
  | nil => cases ends
  | cons second rest =>
      cases rest with
      | nil =>
          cases ends
          exact ⟨rfl, .inl Nat.one_pos⟩
      | cons third rest =>
          constructor
          · unfold dots
            rw [List.cons_append, List.cons_append]
            split <;> split <;> simp_all
          · unfold dots
            split
            · next same =>
              cases rest with
              | nil =>
                  cases same
                  cases ends
              | cons c rest => exact .inl (by simp [spelled])
            · next same =>
              cases rest with
              | nil =>
                  cases same
                  cases ends
              | cons c rest => exact .inl (by simp [spelled])
            · exact .inl (by simp [spelled])

/-- A lexeme of a text that ends with a line feed is read whatever text follows. -/
theorem read_append (back : List Char) (ends : (first :: rest).getLast? = some '\n')
    (h : Lexeme.read first rest = .ok lexeme) :
    Lexeme.read first (rest ++ back) = .ok lexeme ∧ lexeme.Within rest := by
  cases rest with
  | nil =>
      cases ends
      cases h
      exact ⟨rfl, .inr ⟨rfl, rfl⟩⟩
  | cons second rest =>
      rw [List.getLast?_cons_cons] at ends
      generalize second :: rest = rest at ends h ⊢
      unfold Lexeme.read at h ⊢
      split at h
      · next mark =>
        cases h
        rw [if_pos mark, (comment_append back ends).1]
        exact ⟨rfl, (comment_append back ends).2⟩
      next mark =>
      rw [if_neg mark]
      split at h
      · next breaks =>
        cases h
        rw [if_pos breaks, (lineBreak_append back ends).1]
        exact ⟨rfl, (lineBreak_append back ends).2⟩
      next breaks =>
      rw [if_neg breaks]
      split at h
      · next letter =>
        cases h
        rw [if_pos letter, (word_append back ends).1]
        exact ⟨rfl, (word_append back ends).2⟩
      next letter =>
      rw [if_neg letter]
      split at h
      · next digit =>
        rw [if_pos digit]
        exact number_append ends h
      next digit =>
      rw [if_neg digit]
      split at h
      · next quote =>
        rw [if_pos quote]
        exact string_append ends quote h
      next quote =>
      rw [if_neg quote]
      split at h
      · next sign =>
        rw [if_pos sign]
        exact operator_append ends h
      next sign =>
      rw [if_neg sign]
      split at h
      · next point =>
        cases h
        rw [if_pos point, (dots_append back ends).1]
        exact ⟨rfl, (dots_append back ends).2⟩
      · next point =>
        cases h
        rw [if_neg point]
        exact ⟨rfl, .inl (List.length_pos_of_mem (mem_of_ends ends))⟩

/-- No lexeme is the end of the input. -/
theorem read_inside (h : Lexeme.read first rest = .ok lexeme) : lexeme.kind? ≠ some .eof := by
  unfold Lexeme.read at h
  split at h
  · cases h
    exact nofun
  split at h
  · cases h
    unfold lineBreak
    split <;> simp [spelled]
  split at h
  · cases h
    have keywords : ∀ pair ∈ TokenKind.keywords, pair.2 ≠ .eof := by decide
    unfold word spelled
    dsimp only
    cases found : TokenKind.ofKeyword? (String.ofList (first :: rest.takeWhile isWordPart)) with
    | none => simp
    | some kind => simpa using keywords _ (keyword_mem found)
  split at h
  · unfold number at h
    dsimp only at h
    split at h
    · next kind numeral =>
      cases h
      rcases numberKind?_cases numeral with rfl | rfl <;> simp [spelled]
    · cases h
  split at h
  · unfold string at h
    dsimp only at h
    split at h <;> cases h
    simp
  have short : shortOperator first = .ok lexeme → lexeme.kind? ≠ some .eof := by
    intro h
    unfold shortOperator at h
    split at h <;> cases h
    simp [spelled]
  split at h
  · unfold operator at h
    split at h
    · split at h
      · split at h
        · cases h
          simp [spelled]
        · exact short h
      · exact short h
    · exact short h
  split at h
  · cases h
    unfold dots
    split <;> simp [spelled]
  · cases h
    unfold mark? spelled
    split <;> simp

end Lexeme

section Scanning

variable {file : String} {byte inside : Nat} {text front : List Char} {tokens : List Token}

/-- What scanning a lexeme and the text behind it comes to. -/
theorem scanFrom_cons_eq_ok {c : Char}
    (h : Token.scanFrom file byte 0 (c :: text) = .ok tokens) :
    ∃ lexeme behind, Lexeme.read c text = .ok lexeme ∧
      Token.scanFrom file (byte + c.utf8Size) (lexeme.slice.length - 1) text = .ok behind ∧
      tokens = (lexeme.token? file byte).toList ++ behind := by
  unfold Token.scanFrom at h
  cases read : Lexeme.read c text with
  | error cause => simp [read] at h
  | ok lexeme =>
      simp only [read] at h
      cases scanned : Token.scanFrom file (byte + c.utf8Size) (lexeme.slice.length - 1) text with
      | error error => simp [scanned] at h
      | ok behind =>
          simp only [scanned] at h
          cases h
          exact ⟨lexeme, behind, rfl, scanned, rfl⟩

theorem scanFrom_cons_of_ok {c : Char} {lexeme : Lexeme} {behind : List Token}
    (read : Lexeme.read c text = .ok lexeme)
    (scanned : Token.scanFrom file (byte + c.utf8Size) (lexeme.slice.length - 1) text = .ok behind) :
    Token.scanFrom file byte 0 (c :: text) = .ok ((lexeme.token? file byte).toList ++ behind) := by
  simp only [Token.scanFrom, read, scanned]

/-- The tokens of a text end with the end of the input, which stands nowhere else among them. -/
theorem scanFrom_closed (h : Token.scanFrom file byte inside text = .ok tokens) :
    ∃ front, tokens = front ++ [.endOfInput (.ofByte file (byte + byteLength text))] ∧
      ∀ token ∈ front, token.kind ≠ .eof := by
  induction text generalizing byte inside tokens with
  | nil =>
      cases h
      exact ⟨[], rfl, List.forall_mem_nil _⟩
  | cons c rest ih =>
      rw [byteLength_cons, ← Nat.add_assoc]
      cases inside with
      | succ inside => exact ih h
      | zero =>
          obtain ⟨lexeme, behind, read, scanned, rfl⟩ := scanFrom_cons_eq_ok h
          obtain ⟨front, rfl, before⟩ := ih scanned
          refine ⟨(lexeme.token? file byte).toList ++ front, (List.append_assoc _ _ _).symm, ?_⟩
          rw [List.forall_mem_append]
          refine ⟨?_, before⟩
          intro token listed eof
          rw [Option.mem_toList, Lexeme.token?, Option.map_eq_some_iff] at listed
          obtain ⟨kind, same, rfl⟩ := listed
          exact Lexeme.read_inside read (same.trans (congrArg some eof))

/-- The token of a lexeme that starts further on is the same, further on. -/
theorem Lexeme.token?_moved (lexeme : Lexeme) (file : String) (byte bytes decls numbers : Nat) :
    (lexeme.token? file (byte + bytes)).toList =
      (lexeme.token? file byte).toList.map (Token.moved (.behind bytes decls numbers)) := by
  unfold Lexeme.token?
  cases lexeme.kind? with
  | none => rfl
  | some kind =>
      simp [Token.moved, Span.moved, Span.ofBytes, Relocation.behind, Position.forward_ofByte,
        Nat.add_right_comm]

/-- The tokens of a text that starts further on are the same, further on. -/
theorem scanFrom_moved (bytes decls numbers : Nat)
    (h : Token.scanFrom file byte inside text = .ok tokens) :
    Token.scanFrom file (byte + bytes) inside text =
      .ok (tokens.map (Token.moved (.behind bytes decls numbers))) := by
  induction text generalizing byte inside tokens with
  | nil =>
      cases h
      rw [Token.scanFrom, List.map_singleton, ← Position.forward_ofByte]
      rfl
  | cons c rest ih =>
      cases inside with
      | succ inside =>
          rw [Token.scanFrom, Nat.add_right_comm]
          exact ih h
      | zero =>
          obtain ⟨lexeme, behind, read, scanned, rfl⟩ := scanFrom_cons_eq_ok h
          have moved := ih scanned
          rw [Nat.add_right_comm] at moved
          rw [scanFrom_cons_of_ok read moved, List.map_append, ← Lexeme.token?_moved]

/-- The tokens of a text that ends with a line feed do not depend on what follows, and the last of
them is a line break. -/
theorem scanFrom_append (ends : front = [] ∨ front.getLast? = some '\n')
    (fits : inside ≤ front.length) (h : Token.scanFrom file byte inside front = .ok tokens) :
    ∃ read, tokens = read ++ [.endOfInput (.ofByte file (byte + byteLength front))] ∧
      (inside = front.length → read = []) ∧
      (inside < front.length → ∃ last ∈ read.getLast?, last.kind = .newline) ∧
      ∀ more, Token.scanFrom file (byte + byteLength front) 0 text = .ok more →
        Token.scanFrom file byte inside (front ++ text) = .ok (read ++ more) := by
  induction front generalizing byte inside tokens with
  | nil =>
      obtain rfl := Nat.le_zero.1 fits
      cases h
      exact ⟨[], rfl, fun _ => rfl, fun short => absurd short (Nat.lt_irrefl 0), fun more h => h⟩
  | cons c rest ih =>
      have closes : rest = [] ∨ rest.getLast? = some '\n' := by
        cases rest with
        | nil => exact .inl rfl
        | cons second rest =>
            right
            simpa [List.getLast?_cons_cons] using ends
      rw [byteLength_cons, ← Nat.add_assoc]
      cases inside with
      | succ inside =>
          obtain ⟨read, same, none, last, goesOn⟩ := ih closes (Nat.le_of_succ_le_succ fits) h
          exact ⟨read, same, fun all => none (Nat.succ.inj all),
            fun short => last (Nat.lt_of_succ_lt_succ short), goesOn⟩
      | zero =>
          obtain ⟨lexeme, behind, read, scanned, rfl⟩ := scanFrom_cons_eq_ok h
          obtain ⟨again, within⟩ := Lexeme.read_append text (ends.resolve_left nofun) read
          have fits : lexeme.slice.length - 1 ≤ rest.length := by
            rcases within with short | ⟨all, _⟩ <;> omega
          obtain ⟨front, rfl, none, last, goesOn⟩ := ih closes fits scanned
          refine ⟨(lexeme.token? file byte).toList ++ front, (List.append_assoc _ _ _).symm,
            nofun, fun _ => ?_, fun more followed => ?_⟩
          -- The last token comes from the text behind this lexeme, or the lexeme is a line break that
          -- ends the text.
          · obtain short | ⟨all, newline⟩ := within
            · obtain ⟨token, listed, newline⟩ := last short
              refine ⟨token, ?_, newline⟩
              rw [List.getLast?_append, Option.mem_def.1 listed]
              rfl
            · rw [none all, List.append_nil, Lexeme.token?, newline]
              exact ⟨_, rfl, rfl⟩
          · rw [List.append_assoc]
            exact scanFrom_cons_of_ok again (goesOn more followed)

/-- A comment is no token. -/
theorem scanFrom_comment (rest : List Char) :
    Token.scanFrom file byte 0 ('#' :: rest) =
      Token.scanFrom file (byte + 1 + byteLength (rest.takeWhile fun c => !Lexeme.isLineBreak c)) 0
        (rest.dropWhile fun c => !Lexeme.isLineBreak c) := by
  have whole : rest.takeWhile (fun c => !Lexeme.isLineBreak c) ++
      rest.dropWhile (fun c => !Lexeme.isLineBreak c) = rest := List.takeWhile_append_dropWhile
  have inside := scanFrom_inside file (byte + 1) (rest.takeWhile fun c => !Lexeme.isLineBreak c)
    (rest.dropWhile fun c => !Lexeme.isLineBreak c)
  rw [whole] at inside
  rw [← inside]
  have read : Lexeme.read '#' rest = .ok (Lexeme.comment '#' rest) := if_pos rfl
  cases scanned : Token.scanFrom file (byte + 1)
      (rest.takeWhile fun c => !Lexeme.isLineBreak c).length rest with
  | ok tokens => exact scanFrom_cons_of_ok read scanned
  | error error =>
      have behind : Token.scanFrom file (byte + '#'.utf8Size)
          ((Lexeme.comment '#' rest).slice.length - 1) rest = .error error := scanned
      simp only [Token.scanFrom, read, behind]

end Scanning

end Offside
