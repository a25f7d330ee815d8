import Offside.Proofs.Excerpts
import Offside.Proofs.Lexing.Tiling

/-! # Line breaks and line numbers

Splitting a source into tokens takes a carriage return for a line break, with or without a line feed
behind it. The lines that diagnostics show end at line feeds only. So the number of a line counts
the line breaks before it up to those that are a carriage return alone.
-/

namespace Offside

/-- The line breaks of a text, as they are read from its start. -/
def lineBreaks : List Char → Nat
  | '\r' :: '\n' :: rest => lineBreaks rest + 1
  | c :: rest => lineBreaks rest + if Lexeme.isLineBreak c then 1 else 0
  | [] => 0

/-- The carriage returns of a text without a line feed behind them. -/
def loneReturns : List Char → Nat
  | [] => 0
  | c :: rest => loneReturns rest + if c = '\r' ∧ '\n' ∉ rest.head? then 1 else 0

/-- A text has no line break in it. -/
def Plain (text : List Char) : Prop :=
  ∀ c ∈ text, Lexeme.isLineBreak c = false

/-- A text has no line break but perhaps one at its end. -/
def OneLine (text : List Char) : Prop :=
  ∃ body ending, text = body ++ ending ∧ Plain body ∧
    ending ∈ [[], ['\n'], ['\r'], ['\r', '\n']]

/-- No line break begins in one text and ends in the next. -/
def Unbroken (front back : List Char) : Prop :=
  front.getLast? = some '\r' → '\n' ∉ back.head?

section Counting

variable {front back text : List Char} {c : Char}

theorem lineBreaks_eq (text : List Char) :
    lineBreaks text = text.count '\n' + loneReturns text := by
  fun_induction lineBreaks text with
  | case1 rest ih =>
      simp only [List.count_cons, loneReturns, ih]
      simp
      omega
  | case2 c rest other ih =>
      rw [ih, List.count_cons, loneReturns]
      have paired : c = '\r' → '\n' ∉ rest.head? := by
        rintro rfl member
        cases rest with
        | nil => cases member
        | cons next rest =>
            cases member
            exact other rest rfl rfl
      by_cases feed : c = '\n'
      · simp [feed, Lexeme.isLineBreak]
        omega
      · by_cases ret : c = '\r'
        · simp [ret, paired ret, Lexeme.isLineBreak]
          omega
        · simp [feed, ret, Lexeme.isLineBreak]
  | case3 => rfl

theorem loneReturns_append (unbroken : Unbroken front back) :
    loneReturns (front ++ back) = loneReturns front + loneReturns back := by
  induction front with
  | nil => simp [loneReturns]
  | cons c front ih =>
      cases front with
      | nil =>
          have paired : c = '\r' → '\n' ∉ back.head? := fun same => unbroken (congrArg some same)
          by_cases ret : c = '\r'
          · simp [loneReturns, ret, paired ret, Nat.add_comm]
          · simp [loneReturns, ret]
      | cons next front =>
          rw [List.cons_append, loneReturns.eq_2 c, loneReturns.eq_2 c, ih unbroken]
          exact Nat.add_right_comm _ _ _

theorem lineBreaks_append (unbroken : Unbroken front back) :
    lineBreaks (front ++ back) = lineBreaks front + lineBreaks back := by
  simp only [lineBreaks_eq, List.count_append, loneReturns_append unbroken]
  omega

/-- A text with a line feed at most at its end is one line if each carriage return in it has a line
feed behind it. -/
theorem oneLine_of_single (single : '\n' ∉ text.dropLast) (none : loneReturns text = 0) :
    OneLine text := by
  induction text with
  | nil => exact ⟨[], [], rfl, List.forall_mem_nil _, List.mem_cons_self⟩
  | cons c rest ih =>
      rw [loneReturns, Nat.add_eq_zero_iff] at none
      cases rest with
      | nil =>
          by_cases breaks : Lexeme.isLineBreak c
          · refine ⟨[], [c], rfl, List.forall_mem_nil _, ?_⟩
            simpa [Lexeme.isLineBreak] using breaks
          · refine ⟨[c], [], rfl, ?_, List.mem_cons_self⟩
            simpa [Plain] using breaks
      | cons next rest =>
          rw [List.dropLast_cons_cons, List.mem_cons, not_or] at single
          by_cases ret : c = '\r'
          · have feed : next = '\n' := by simpa [ret] using none.2
            cases rest with
            | nil =>
                rw [ret, feed]
                exact ⟨[], ['\r', '\n'], rfl, List.forall_mem_nil _, by simp⟩
            | cons => simp [feed] at single
          · obtain ⟨body, ending, whole, plain, ends⟩ := ih single.2 none.1
            refine ⟨c :: body, ending, by rw [whole]; rfl, ?_, ends⟩
            refine List.forall_mem_cons.2 ⟨?_, plain⟩
            simpa [Lexeme.isLineBreak, ret] using Ne.symm single.1

theorem Plain.lineBreaks_eq_zero (plain : Plain text) : lineBreaks text = 0 := by
  induction text with
  | nil => rfl
  | cons c rest ih =>
      obtain ⟨first, rest⟩ := List.forall_mem_cons.1 plain
      obtain ⟨feed, ret⟩ : c ≠ '\n' ∧ c ≠ '\r' := by simpa [Lexeme.isLineBreak] using first
      have rest := ih rest
      rw [lineBreaks_eq] at rest ⊢
      simp only [loneReturns, List.count_cons_of_ne feed, ret, false_and, if_false]
      exact rest

theorem OneLine.lineBreaks_le (line : OneLine text) : lineBreaks text ≤ 1 := by
  obtain ⟨body, ending, rfl, plain, ends⟩ := line
  have unbroken : Unbroken body ending := by
    intro last
    exact absurd (plain '\r' (List.mem_of_getLast? last)) (by decide)
  have single : ∀ ending ∈ [[], ['\n'], ['\r'], ['\r', '\n']], lineBreaks ending ≤ 1 := by decide
  rw [lineBreaks_append unbroken, plain.lineBreaks_eq_zero, Nat.zero_add]
  exact single ending ends

end Counting

section Lines

variable {front back text : List Char} {c : Char}

theorem unbroken_of_feed (whole : front = [] ∨ front.getLast? = some '\n') :
    Unbroken front back := by
  intro ends
  rcases whole with rfl | feed
  · cases ends
  · cases feed.symm.trans ends

theorem Unbroken.append {middle : List Char} (some : middle ≠ [])
    (unbroken : Unbroken middle back) : Unbroken (front ++ middle) back := by
  intro ends
  rw [List.getLast?_append_of_ne_nil _ some] at ends
  exact unbroken ends

/-- A line feed on a line is at its end. -/
theorem lineFeed_not_mem_line : '\n' ∉ (openLine front ++ closeLine (c :: back)).dropLast := by
  obtain ⟨behind, -, single, -⟩ := exists_closeLine_append (c :: back)
  have some : closeLine (c :: back) ≠ [] := by simp
  rw [List.dropLast_append_of_ne_nil some, List.mem_append, not_or]
  exact ⟨lineFeed_not_mem_openLine, single⟩

theorem loneReturns_line :
    loneReturns (openLine front ++ closeLine (c :: back)) ≤ loneReturns (front ++ c :: back) := by
  obtain ⟨before, front_split, whole⟩ := @exists_append_openLine front
  obtain ⟨behind, back_split, -, ends⟩ := exists_closeLine_append (c :: back)
  have unbroken : Unbroken (openLine front ++ closeLine (c :: back)) behind := by
    refine .append (by simp) fun last => ?_
    rcases ends with rfl | feed
    · exact Option.not_mem_none _
    · cases feed.symm.trans last
  have source : front ++ c :: back =
      before ++ (openLine front ++ closeLine (c :: back) ++ behind) := by
    simp only [List.append_assoc, ← back_split]
    rw [← List.append_assoc, ← front_split]
  rw [source, loneReturns_append (unbroken_of_feed whole), loneReturns_append unbroken]
  omega

end Lines

section Reading

open Lexeme

variable {first c : Char} {rest behind slice : List Char} {lexeme : Lexeme}

theorem plain_of_part {part : Char → Bool} (feed : part '\n' = false) (ret : part '\r' = false)
    (parts : ∀ c ∈ slice, part c = true) : Plain slice := by
  intro c member
  rw [Bool.eq_false_iff]
  intro breaks
  have := parts c member
  rcases by simpa [isLineBreak] using breaks with rfl | rfl
  · simp [feed] at this
  · simp [ret] at this

theorem operator_plain (sign : isOperatorPart first = true)
    (read : operator first rest = .ok lexeme) : Plain lexeme.slice := by
  have short : ∀ {lexeme}, shortOperator first = .ok lexeme → Plain lexeme.slice := by
    intro lexeme read
    obtain ⟨op, rfl⟩ := shortOperator_eq_ok read
    exact plain_of_part rfl rfl (by simpa [spelled] using sign)
  unfold operator at read
  split at read
  · split at read
    · next second =>
      split at read
      · cases read
        exact plain_of_part rfl rfl (by simpa [spelled] using ⟨sign, second⟩)
      · exact short read
    · exact short read
  · exact short read

theorem dots_plain (rest : List Char) : Plain (dots rest).slice := by
  have point : ∀ kind slice, (∀ c ∈ slice, (c == '.' || c == '<') = true) →
      Plain (spelled kind slice).slice := fun _ _ parts => plain_of_part rfl rfl parts
  unfold dots
  split <;> exact point _ _ (by simp)

/-- A lexeme has no line break in it but is one, or it is a string. -/
theorem read_cases (read : Lexeme.read first rest = .ok lexeme) :
    Plain lexeme.slice ∨ lexeme = lineBreak first rest ∨
      ∃ quote, isQuote quote = true ∧ lexeme.slice.getLast? = some quote := by
  unfold Lexeme.read at read
  split at read
  · next mark =>
    cases read
    refine .inl (List.forall_mem_cons.2 ⟨by rw [mark]; rfl, fun c member => ?_⟩)
    simpa using List.mem_takeWhile_imp member
  split at read
  · cases read
    exact .inr (.inl rfl)
  next breaks =>
  split at read
  · next letter =>
    cases read
    have part : isWordPart first = true := by simp [isWordPart, letter]
    exact .inl (plain_of_part rfl rfl (List.forall_mem_cons.2
      ⟨part, fun c member => List.mem_takeWhile_imp member⟩))
  split at read
  · next digit =>
    unfold number at read
    dsimp only at read
    split at read
    · cases read
      exact .inl (plain_of_part rfl rfl (List.forall_mem_cons.2
        ⟨isNumberPart_of_isDigit digit, fun c member => List.mem_takeWhile_imp member⟩))
    · cases read
  split at read
  · next quote =>
    unfold string at read
    dsimp only at read
    split at read
    · cases read
    · cases read
      exact .inr (.inr ⟨first, quote, List.getLast?_concat⟩)
  split at read
  · next sign => exact .inl (operator_plain sign read)
  split at read
  · cases read
    exact .inl (dots_plain rest)
  · cases read
    exact .inl (by simpa [Plain, spelled] using breaks)

/-- No lexeme ends inside a line break. -/
theorem read_unbroken {tail : List Char} (read : Lexeme.read first (tail ++ behind) = .ok lexeme)
    (slice : lexeme.slice = first :: tail) : Unbroken lexeme.slice behind := by
  intro ends
  rcases read_cases read with plain | broken | ⟨quote, opens, last⟩
  · exact absurd (plain '\r' (List.mem_of_getLast? ends)) (by decide)
  · by_cases paired : first = '\r' ∧ '\n' ∈ (tail ++ behind).head?
    · obtain ⟨rfl, member⟩ := paired
      cases whole : tail ++ behind with
      | nil => simp [whole] at member
      | cons next rest =>
          rw [whole] at member broken
          cases member
          have feed : ('\r' :: ['\n']).getLast? = some '\n' := rfl
          have last : lexeme.slice.getLast? = some '\n' := by rw [broken, ← feed]; rfl
          cases last.symm.trans ends
    · have lone : first = '\r' → '\n' ∉ (tail ++ behind).head? := fun same member =>
        paired ⟨same, member⟩
      rw [lineBreak_of_lone lone] at broken
      subst broken
      cases slice
      exact lone (Option.some.inj ends)
  · rw [last] at ends
    cases ends
    cases opens

end Reading

section Placing

variable {file : String} {before text : List Char} {tokens : List Token}

/-- A token does not start inside a line break, if the text it is read from does not. -/
theorem exists_start_of_scanFrom
    (scanned : Token.scanFrom file (byteLength before) 0 text = .ok tokens)
    (unbroken : Unbroken before text) :
    ∀ token ∈ tokens, token.kind ≠ .eof → ∃ front c back, before ++ text = front ++ c :: back ∧
      token.span.start = .ofByte file (byteLength front) ∧ Unbroken front (c :: back) := by
  induction size : text.length using Nat.strong_induction_on generalizing before text tokens with
  | _ size ih =>
      cases text with
      | nil =>
          cases scanned
          intro token member inside
          cases List.mem_singleton.1 member
          exact absurd rfl inside
      | cons c rest =>
          obtain ⟨lexeme, others, read, goesOn, rfl⟩ := scanFrom_cons_eq_ok scanned
          obtain ⟨tail, behind, rfl, slice, -⟩ := Lexeme.read_munches read
          rw [slice, List.length_cons, Nat.add_sub_cancel, scanFrom_inside] at goesOn
          have scanned : Token.scanFrom file (byteLength (before ++ lexeme.slice)) 0 behind =
              .ok others := by
            rw [slice, byteLength_append, byteLength_cons, ← Nat.add_assoc]
            exact goesOn
          have unbroken' : Unbroken (before ++ lexeme.slice) behind :=
            .append (by simp [slice]) (read_unbroken read slice)
          have later := ih behind.length (by simp at size; omega) scanned unbroken' rfl
          intro token member inside
          rcases List.mem_append.1 member with here | member
          · cases kind : lexeme.kind? with
            | none => simp [Lexeme.token?, kind] at here
            | some kind' =>
                simp only [Lexeme.token?, kind, Option.map_some, Option.toList_some,
                  List.mem_singleton] at here
                exact ⟨before, c, tail ++ behind, rfl, by rw [here]; rfl, unbroken⟩
          · simpa [slice] using later token member inside

end Placing

namespace Token

/-- The number of the line at the start of a token is one more than the number of line breaks before
the token, less the carriage returns among these without a line feed behind them, and there is no
line feed on the line except at its end. So lines are what the line breaks of the source make them
if it has no such carriage returns. -/
theorem lineAt_start {source file : String} {tokens : List Token}
    (short : byteLength source.toList < UInt32.size) (scanned : scan source file = .ok tokens) :
    ∀ token ∈ tokens, token.kind ≠ .eof → ∃ front back line,
      source.toList = front ++ back ∧ token.firstByte = byteLength front ∧
      lineBreaks source.toList = lineBreaks front + lineBreaks back ∧
      lineAt? source.toList token.firstByte = some line ∧
      line.number + loneReturns front = lineBreaks front + 1 ∧
      line.text = openLine front ++ closeLine back ∧ '\n' ∉ line.text.dropLast ∧
      (loneReturns source.toList = 0 → line.number = lineBreaks front + 1 ∧ OneLine line.text) := by
  intro token member inside
  have unbroken : Unbroken [] source.toList := unbroken_of_feed (.inl rfl)
  obtain ⟨front, c, back, whole, start, unbroken⟩ :=
    @exists_start_of_scanFrom file [] source.toList tokens scanned unbroken token member inside
  rw [List.nil_append] at whole
  have place : token.firstByte = byteLength front := by
    rw [whole, byteLength_append] at short
    rw [firstByte, start]
    exact offset_ofByte (by omega)
  have found := lineAt?_append_cons front back c
  rw [← whole, ← place] at found
  refine ⟨front, c :: back, _, whole, place, ?_, found, ?_, rfl, lineFeed_not_mem_line, ?_⟩
  · rw [whole, lineBreaks_append unbroken]
  · rw [lineBreaks_eq]
    exact Nat.add_right_comm _ _ _
  · intro none
    have before := loneReturns_append unbroken
    have within := @loneReturns_line front back c
    rw [← whole, none] at before within
    refine ⟨?_, oneLine_of_single lineFeed_not_mem_line (Nat.le_zero.1 within)⟩
    rw [lineBreaks_eq, (Nat.add_eq_zero_iff.1 before.symm).1, Nat.add_zero]

/-- A string over two lines and a comment, with line breaks of two characters. -/
theorem lineAt_start_string :
    byteLength "# it's\r\ns = 'a\r\nb' + c\n".toList < UInt32.size ∧
    ∃ tokens, scan "# it's\r\ns = 'a\r\nb' + c\n" "lines" = .ok tokens ∧
      ∀ token ∈ tokens, token.kind ≠ .eof → ∃ front back line,
        "# it's\r\ns = 'a\r\nb' + c\n".toList = front ++ back ∧
        token.firstByte = byteLength front ∧
        lineAt? "# it's\r\ns = 'a\r\nb' + c\n".toList token.firstByte = some line ∧
        line.number = lineBreaks front + 1 ∧ OneLine line.text := by
  have short : byteLength "# it's\r\ns = 'a\r\nb' + c\n".toList < UInt32.size := by decide +kernel
  have scans : (scan "# it's\r\ns = 'a\r\nb' + c\n" "lines").isOk = true := by decide +kernel
  have none : loneReturns "# it's\r\ns = 'a\r\nb' + c\n".toList = 0 := by decide +kernel
  obtain ⟨tokens, scanned⟩ := exists_ok_of_isOk scans
  refine ⟨short, tokens, scanned, fun token member inside => ?_⟩
  obtain ⟨front, back, line, whole, place, -, found, -, -, -, lines⟩ :=
    lineAt_start short scanned token member inside
  exact ⟨front, back, line, whole, place, found, lines none⟩

/-- A carriage return alone is a line break before a name, which stands on the first line all the
same, and in the middle of it. -/
theorem lineAt_lone_return : ∃ tokens name,
    scan "a\rb\n" "lines" = .ok tokens ∧ name ∈ tokens ∧ name.kind = .identifier ∧
      name.value = "b" ∧ name.firstByte = byteLength ['a', '\r'] ∧ lineBreaks ['a', '\r'] = 1 ∧
      lineAt? "a\rb\n".toList name.firstByte = some ⟨1, ['a', '\r', 'b', '\n'], 2⟩ ∧
      ¬ OneLine ['a', '\r', 'b', '\n'] := by
  have broken : ¬ OneLine ['a', '\r', 'b', '\n'] := fun line =>
    absurd line.lineBreaks_le (by decide)
  refine ⟨_, ⟨.identifier, "b", .ofBytes "lines" 2 1⟩, rfl, ?_, rfl, rfl, ?_, rfl, ?_, broken⟩
  all_goals decide +kernel

end Token

end Offside
