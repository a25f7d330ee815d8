import Offside.Diagnostic
import Offside.Typing.Analysis
import Mathlib.Data.List.Basic
import Mathlib.Data.List.TakeWhile

/-! # Excerpts of a source text

A diagnostic shows the line of a place without the indentation at its start, and a caret below it.
How far the caret is moved to the right is counted in bytes. So it stands under the character at the
place as long as every character between the indentation and the place is a single byte, and too far
to the right otherwise.
-/

namespace Offside

/-- The part of a text behind its last line feed. -/
def openLine (text : List Char) : List Char :=
  (text.reverse.takeWhile fun c => c != '\n').reverse

/-- The part of a text up to its first line feed, with it. -/
def closeLine (text : List Char) : List Char :=
  (text.takeWhile fun c => c != '\n') ++ (text.dropWhile fun c => c != '\n').take 1

section Splitting

variable {before line text rest : List Char} {c : Char}

@[simp] theorem closeLine_cons :
    closeLine (c :: rest) = c :: if c = '\n' then [] else closeLine rest := by
  by_cases h : c = '\n' <;> simp [closeLine, h]

theorem closeLine_append (h : '\n' ∉ text) : closeLine (text ++ rest) = text ++ closeLine rest := by
  induction text with
  | nil => rfl
  | cons c text ih =>
      obtain ⟨other, h⟩ := not_or.1 (List.mem_cons.not.1 h)
      simp [Ne.symm other, ih h]

theorem lineFeed_not_mem_openLine : '\n' ∉ openLine text := by
  intro member
  simpa using List.mem_takeWhile_imp (List.mem_reverse.1 member)

/-- In front of the last line of a text, there are whole lines. -/
theorem exists_append_openLine :
    ∃ before, text = before ++ openLine text ∧ (before = [] ∨ before.getLast? = some '\n') := by
  refine ⟨(text.reverse.dropWhile fun c => c != '\n').reverse, ?_, ?_⟩
  · rw [openLine, ← List.reverse_append, List.takeWhile_append_dropWhile, List.reverse_reverse]
  · rw [List.getLast?_reverse, List.reverse_eq_nil_iff]
    have stops := List.head?_dropWhile_not (fun c => c != '\n') text.reverse
    cases left : text.reverse.dropWhile fun c => c != '\n' with
    | nil => exact .inl rfl
    | cons c rest => simpa [left] using stops

theorem splitLines_lineFeed : splitLines ('\n' :: rest) = ['\n'] :: splitLines rest := by
  rw [splitLines, if_pos rfl]

theorem splitLines_cons_of_ne {lines : List (List Char)} (other : c ≠ '\n')
    (split : splitLines rest = line :: lines) :
    splitLines (c :: rest) = (c :: line) :: lines := by
  rw [splitLines, if_neg other, split]

theorem splitLines_cons : ∃ lines, splitLines (c :: rest) = closeLine (c :: rest) :: lines := by
  induction rest generalizing c with
  | nil => by_cases h : c = '\n' <;> simp [splitLines, closeLine, h]
  | cons next rest ih =>
      by_cases h : c = '\n'
      · rw [closeLine_cons, if_pos h, h]
        exact ⟨_, splitLines_lineFeed⟩
      · obtain ⟨lines, split⟩ := @ih next
        rw [closeLine_cons, if_neg h]
        exact ⟨lines, splitLines_cons_of_ne h split⟩

/-- The first line of a text, and what is behind it. -/
theorem exists_closeLine_append (text : List Char) :
    ∃ behind, text = closeLine text ++ behind ∧ '\n' ∉ (closeLine text).dropLast ∧
      (behind = [] ∨ (closeLine text).getLast? = some '\n') := by
  induction text with
  | nil => exact ⟨[], rfl, List.not_mem_nil, .inl rfl⟩
  | cons c rest ih =>
      rw [closeLine_cons]
      by_cases feed : c = '\n'
      · rw [if_pos feed]
        exact ⟨rest, rfl, List.not_mem_nil, .inr (congrArg some feed)⟩
      · obtain ⟨behind, split, single, ends⟩ := ih
        rw [if_neg feed]
        refine ⟨behind, congrArg (c :: ·) split, ?_, ends.imp_right fun last => ?_⟩
        · cases line : closeLine rest with
          | nil => exact List.not_mem_nil
          | cons next more =>
              rw [line] at single
              exact List.not_mem_cons_of_ne_of_not_mem (Ne.symm feed) single
        · rw [List.getLast?_cons, last]
          rfl

/-- What ends with a line feed is split apart from what follows, into as many lines as it has line
feeds. -/
theorem splitLines_append (whole : before = [] ∨ before.getLast? = some '\n') :
    splitLines (before ++ rest) = splitLines before ++ splitLines rest ∧
      (splitLines before).length = before.count '\n' := by
  induction before with
  | nil => exact ⟨rfl, rfl⟩
  | cons c before ih =>
      have later : before = [] ∨ before.getLast? = some '\n' := by
        cases before with
        | nil => exact .inl rfl
        | cons => exact .inr (by simpa using whole)
      obtain ⟨split, count⟩ := ih later
      by_cases h : c = '\n'
      · rw [h, List.cons_append, splitLines_lineFeed, splitLines_lineFeed, split,
          List.length_cons, count, List.count_cons_self]
        exact ⟨rfl, rfl⟩
      · cases before with
        | nil => simp [h] at whole
        | cons next before =>
            obtain ⟨lines, first⟩ := @splitLines_cons before next
            rw [first] at split count
            rw [List.cons_append, splitLines_cons_of_ne h split, splitLines_cons_of_ne h first,
              List.count_cons_of_ne h, ← count]
            exact ⟨rfl, rfl⟩

/-- A byte behind some lines is looked for in the lines that follow. -/
theorem lineHolding_append (lines more : List (List Char)) (number byte : Nat) :
    lineHolding number (byteLength lines.flatten + byte) (lines ++ more) =
      lineHolding (number + lines.length) byte more := by
  induction lines generalizing number with
  | nil => simp
  | cons line lines ih =>
      have passed : byteLength line + byteLength lines.flatten + byte - byteLength line =
          byteLength lines.flatten + byte := by omega
      rw [List.flatten_cons, byteLength_append, List.cons_append, lineHolding, if_neg (by omega),
        passed, ih, List.length_cons]
      congr 1
      omega

/-- The line of a character, with its number and the bytes of the line in front of the character. -/
theorem lineAt?_append_cons (front back : List Char) (c : Char) :
    lineAt? (front ++ c :: back) (byteLength front) =
      some ⟨front.count '\n' + 1, openLine front ++ closeLine (c :: back),
        byteLength (openLine front)⟩ := by
  obtain ⟨before, split, whole⟩ := @exists_append_openLine front
  have single : '\n' ∉ openLine front := lineFeed_not_mem_openLine
  generalize openLine front = begun at split single ⊢
  obtain ⟨lines, first⟩ : ∃ lines, splitLines (begun ++ c :: back) =
      (begun ++ closeLine (c :: back)) :: lines := by
    rw [← closeLine_append single]
    cases begun with
    | nil => exact splitLines_cons
    | cons => exact splitLines_cons
  have number : front.count '\n' = before.count '\n' := by
    rw [split, List.count_append, List.count_eq_zero.2 single, Nat.add_zero]
  have place : byteLength front = byteLength (splitLines before).flatten + byteLength begun := by
    rw [split, byteLength_append, flatten_splitLines]
  have inside : byteLength begun < byteLength (begun ++ closeLine (c :: back)) := by
    have := Char.utf8Size_pos c
    simp only [byteLength_append, closeLine_cons, byteLength_cons]
    omega
  obtain ⟨apart, count⟩ := @splitLines_append before (begun ++ c :: back) whole
  have found : lineHolding 1 (byteLength front) (splitLines (front ++ c :: back)) =
      some ⟨front.count '\n' + 1, begun ++ closeLine (c :: back), byteLength begun⟩ := by
    rw [place, number, split, List.append_assoc, apart, first, lineHolding_append, lineHolding,
      if_pos inside, count, Nat.add_comm]
  simp only [lineAt?, found, Option.getD_some]
  rw [if_neg (by simp)]

end Splitting

section Bytes

variable {text : List Char}

theorem length_le_byteLength : text.length ≤ byteLength text := by
  induction text with
  | nil => exact Nat.le_refl 0
  | cons c rest ih =>
      have := Char.utf8Size_pos c
      simp only [List.length_cons, byteLength_cons]
      omega

/-- A text has as many bytes as characters only if each of its characters is a single byte. -/
theorem byteLength_eq_length_iff :
    byteLength text = text.length ↔ ∀ c ∈ text, c.utf8Size = 1 := by
  induction text with
  | nil => simp
  | cons c rest ih =>
      have := Char.utf8Size_pos c
      have := @length_le_byteLength rest
      rw [List.forall_mem_cons, ← ih, byteLength_cons, List.length_cons]
      omega

end Bytes

namespace Diagnostic

variable {source file : String} {error : Error} {front back : List Char} {c : Char}

theorem byteLength_takeWhile_isIndentation (text : List Char) :
    byteLength (text.takeWhile isIndentation) = (text.takeWhile isIndentation).length := by
  refine byteLength_eq_length_iff.2 fun c member => ?_
  have indents := List.mem_takeWhile_imp member
  rcases by simpa [isIndentation] using indents with rfl | rfl <;> rfl

/-- What is left out in front of the excerpt of a line does not depend on how the line goes on behind
a character that is shown. -/
theorem indentation_append {begun rest : List Char}
    (shown : ∃ d ∈ begun ++ [c], isIndentation d = false) :
    (begun ++ c :: rest).takeWhile isIndentation = begun.takeWhile isIndentation ∧
      (begun ++ c :: rest).dropWhile isIndentation =
        begun.dropWhile isIndentation ++ c :: rest := by
  induction begun with
  | nil => simp_all
  | cons d begun ih =>
      by_cases h : isIndentation d
      · have later : ∃ d ∈ begun ++ [c], isIndentation d = false := by simpa [h] using shown
        simp [h, ih later]
      · simp [h]

/-- The excerpt at a character that is not among the indentation of its line. -/
theorem excerpt_append {number : Nat} {begun rest : List Char}
    (shown : ∃ d ∈ begun ++ [c], isIndentation d = false) :
    excerpt ⟨number, begun ++ c :: rest, byteLength begun⟩ =
      [padLeft ' ' ((toString number).toList.length + 2) ['|'],
        (toString number).toList ++ " | ".toList ++
          Text.trimEnd (begun.dropWhile isIndentation ++ c :: rest),
        padLeft ' ' ((toString number).toList.length + 2) ['|'] ++ [' '] ++
          (List.replicate (byteLength (begun.dropWhile isIndentation)) '-' ++ ['^'])] := by
  obtain ⟨removed, left⟩ := @indentation_append c begun rest shown
  have bytes : byteLength begun =
      (begun.takeWhile isIndentation).length + byteLength (begun.dropWhile isIndentation) := by
    rw [← byteLength_takeWhile_isIndentation, ← byteLength_append, List.takeWhile_append_dropWhile]
  have moved : byteLength begun - (begun.takeWhile isIndentation).length + 1 - ['^'].length =
      byteLength (begun.dropWhile isIndentation) := by
    rw [List.length_singleton]
    omega
  simp only [excerpt, removed, left]
  rw [padLeft.eq_1 '-', moved]

theorem trimEnd_append_cons {passed rest : List Char} (seen : Text.isBlank c = false) :
    ∃ more, Text.trimEnd (passed ++ c :: rest) = passed ++ c :: more := by
  rw [Text.trimEnd, List.reverse_append, List.reverse_cons, List.append_assoc,
    List.dropWhile_append]
  split
  · exact ⟨[], by simp [seen]⟩
  · exact ⟨(rest.reverse.dropWhile Text.isBlank).reverse, by simp⟩

/-- A diagnostic with a place at a character that is not among the indentation of its line shows the
line from its first other character on, and below it as many dashes in front of the caret as there
are bytes from there to the place. So the caret is in the column of the character if all characters
from there to the place are single bytes, and only then. -/
theorem caret_column (whole : source.toList = front ++ c :: back)
    (place : error.position.offset.toNat = byteLength front)
    (shown : ∃ d ∈ openLine front ++ [c], isIndentation d = false) :
    let number := (toString (front.count '\n' + 1)).toList
    let passed := (openLine front).dropWhile isIndentation
    let row := number ++ " | ".toList ++ Text.trimEnd (passed ++ closeLine (c :: back))
    let margin := padLeft ' ' (number.length + 2) ['|']
    let below := margin ++ [' '] ++ (List.replicate (byteLength passed) '-' ++ ['^'])
    lines error source file = [heading error, "-> ".toList ++ file.toList, margin, row, below] ∧
      (Text.isBlank c = false → row[number.length + 3 + passed.length]? = some c) ∧
      below.idxOf '^' = number.length + 3 + byteLength passed ∧
      passed.length ≤ byteLength passed ∧
      (byteLength passed = passed.length ↔ ∀ d ∈ passed, d.utf8Size = 1) := by
  intro number passed row margin below
  have edge : (margin ++ [' ']).length = number.length + 3 := by simp [margin, padLeft]
  refine ⟨?_, fun seen => ?_, ?_, length_le_byteLength, byteLength_eq_length_iff⟩
  · rw [lines, whole, place, lineAt?_append_cons]
    simp only [closeLine_cons, excerpt_append shown, row, passed, margin, below, number]
    rfl
  · obtain ⟨more, kept⟩ := @trimEnd_append_cons c passed
      (if c = '\n' then [] else closeLine back) seen
    have front : (number ++ " | ".toList ++ passed).length = number.length + 3 + passed.length := by
      simp only [List.length_append]
      rfl
    simp only [row, closeLine_cons, kept]
    rw [← List.append_assoc, ← front, List.getElem?_append_right (Nat.le_refl _), Nat.sub_self]
    rfl
  · have before : '^' ∉ margin ++ [' '] ++ List.replicate (byteLength passed) '-' := by
      simp [margin, padLeft]
    simp only [below]
    rw [← List.append_assoc, List.idxOf_append_of_notMem before, List.length_append, edge]
    simp

/-- A variable that is not declared, on an indented line with an accent behind the variable. -/
def indentedText : String :=
  "s: string = 'é'\nif true:\n\tt: string = s + b # é\n"

/-- The caret stands under the variable: the characters in front of it are single bytes. -/
theorem caret_column_indented : ∃ error front back,
    Program.checkSource indentedText "pots.hp" = .error error ∧
      indentedText.toList = front ++ 'b' :: back ∧
      error.position.offset.toNat = byteLength front ∧
      (lines error indentedText "pots.hp").drop 3 =
        ["3 | t: string = s + b # é".toList, "  | ----------------^".toList] := by
  have stops : (match Program.checkSource indentedText "pots.hp" with
      | .ok _ => none
      | .error error => some error.position.offset.toNat) = some 43 := by
    decide +kernel
  cases failed : Program.checkSource indentedText "pots.hp" with
  | ok =>
      rw [failed] at stops
      cases stops
  | error error =>
      rw [failed] at stops
      have whole : indentedText.toList =
          "s: string = 'é'\nif true:\n\tt: string = s + ".toList ++ 'b' :: " # é\n".toList := by
        decide +kernel
      have place : error.position.offset.toNat =
          byteLength "s: string = 'é'\nif true:\n\tt: string = s + ".toList := by
        rw [Option.some.inj stops]
        decide +kernel
      have shown : ∃ d ∈ openLine "s: string = 'é'\nif true:\n\tt: string = s + ".toList ++ ['b'],
          isIndentation d = false :=
        ⟨'b', List.mem_append_right _ List.mem_cons_self, rfl⟩
      have rows := (@caret_column _ "pots.hp" error _ _ _ whole place shown).1
      refine ⟨error, _, _, rfl, whole, place, ?_⟩
      rw [rows]
      simp only [List.drop_succ_cons, List.drop_zero]
      decide +kernel

/-- An accent in front of a variable that is not declared, on the same line. -/
def accentText : String :=
  "s: string = 'é' + b\n"

/-- Eighteen characters stand in front of the variable, and nineteen dashes in front of the caret. -/
theorem caret_beside_accent : ∃ error front back,
    Program.checkSource accentText "pots.hp" = .error error ∧
      accentText.toList = front ++ 'b' :: back ∧
      error.position.offset.toNat = byteLength front ∧
      (openLine front).dropWhile isIndentation = front ∧ front.length = 18 ∧
      (lines error accentText "pots.hp").drop 3 =
        ["1 | s: string = 'é' + b".toList,
          "  | ".toList ++ List.replicate 19 '-' ++ ['^']] := by
  have stops : (match Program.checkSource accentText "pots.hp" with
      | .ok _ => none
      | .error error => some (error.position.offset.toNat,
        (lines error accentText "pots.hp").drop 3)) =
      some (19, ["1 | s: string = 'é' + b".toList,
        "  | ".toList ++ List.replicate 19 '-' ++ ['^']]) := by
    decide +kernel
  cases failed : Program.checkSource accentText "pots.hp" with
  | ok =>
      rw [failed] at stops
      cases stops
  | error error =>
      rw [failed] at stops
      obtain ⟨place, rows⟩ := Prod.mk.inj (Option.some.inj stops)
      refine ⟨error, "s: string = 'é' + ".toList, ['\n'], rfl, ?_, place.trans ?_, ?_, ?_, rows⟩
      all_goals decide +kernel

end Diagnostic

end Offside
