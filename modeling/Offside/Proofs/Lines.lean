import Offside.Proofs.Excerpts

/-! # Lines and the bytes on them

A text is cut into lines without a gap: whole lines, the line that a byte is on, and what follows
it. Looking up a byte finds that line, its number, and how far into it the byte is. The end of the
text is looked up behind the last character of its last line that is not blank.
-/

namespace Offside

/-- A text is cut into whole lines, one line behind them, and what follows that line. The line has a
line feed at most at its end, and nothing follows it if it has none. -/
structure CutsLine (content before line after : List Char) : Prop where
  whole : content = before ++ line ++ after
  begins : before = [] ∨ before.getLast? = some '\n'
  single : '\n' ∉ line.dropLast
  ends : '\n' ∉ line → after = []

/-- A line of a text with the place of a byte on it. -/
inductive Line.Holds (content : List Char) (byte : Nat) : Line → Prop where
  /-- A byte of the line. -/
  | inside {before text after : List Char} {column : Nat} :
    CutsLine content before text after → byteLength before + column = byte →
    column < byteLength text → Holds content byte ⟨before.count '\n' + 1, text, column⟩
  /-- The end of a text is on its last line, in front of the blanks that the line ends with. -/
  | last {before shown blanks : List Char} :
    CutsLine content before (shown ++ blanks) [] → shown ++ blanks ≠ [] →
    (∀ c ∈ blanks, Text.isBlank c = true) → (∀ c ∈ shown.getLast?, Text.isBlank c = false) →
    byte = byteLength content →
    Holds content byte ⟨before.count '\n' + 1, shown ++ blanks, byteLength shown⟩
  /-- The empty text ends on an empty line. -/
  | empty : content = [] → byte = 0 → Holds content byte ⟨1, [], 0⟩

section Trimming

variable {shown blanks : List Char}

theorem trimEnd_append (blank : ∀ c ∈ blanks, Text.isBlank c = true)
    (stops : ∀ c ∈ shown.getLast?, Text.isBlank c = false) :
    Text.trimEnd (shown ++ blanks) = shown := by
  rw [Text.trimEnd_append_blank shown blanks blank]
  rcases List.eq_nil_or_concat shown with rfl | ⟨front, c, rfl⟩
  · rfl
  · have visible : Text.isBlank c = false := stops c (by simp)
    simp [Text.trimEnd, visible]

/-- A text ends with the blanks that trimming leaves out. -/
theorem exists_trimEnd_append (text : List Char) :
    ∃ blanks, text = Text.trimEnd text ++ blanks ∧ (∀ c ∈ blanks, Text.isBlank c = true) ∧
      ∀ c ∈ (Text.trimEnd text).getLast?, Text.isBlank c = false := by
  refine ⟨(text.reverse.takeWhile Text.isBlank).reverse, ?_, ?_, ?_⟩
  · rw [Text.trimEnd, ← List.reverse_append, List.takeWhile_append_dropWhile, List.reverse_reverse]
  · intro c member
    exact List.mem_takeWhile_imp (List.mem_reverse.1 member)
  · intro c last
    rw [Text.trimEnd, List.getLast?_reverse] at last
    have stops := List.head?_dropWhile_not Text.isBlank text.reverse
    rw [Option.mem_def.1 last] at stops
    simpa using stops

end Trimming

section Cutting

variable {content before text after : List Char} {byte number : Nat}

/-- The first line of a text is split off. -/
theorem splitLines_line (some : text ≠ []) (single : '\n' ∉ text.dropLast)
    (ends : '\n' ∉ text → after = []) :
    splitLines (text ++ after) = text :: splitLines after := by
  induction text with
  | nil => exact absurd rfl some
  | cons c rest ih =>
      cases rest with
      | nil =>
          by_cases feed : c = '\n'
          · rw [feed]
            exact splitLines_lineFeed
          · rw [ends (by simpa using Ne.symm feed)]
            simp [splitLines, feed]
      | cons next rest =>
          rw [List.dropLast_cons_cons, List.mem_cons, not_or] at single
          have later : '\n' ∉ next :: rest → after = [] := fun none =>
            ends (List.not_mem_cons_of_ne_of_not_mem single.1 none)
          exact splitLines_cons_of_ne (Ne.symm single.1)
            (ih (List.cons_ne_nil _ _) single.2 later)

theorem CutsLine.splitLines_eq (cut : CutsLine content before text after) (some : text ≠ []) :
    splitLines content = splitLines before ++ text :: splitLines after := by
  obtain ⟨rfl, begins, single, ends⟩ := cut
  rw [List.append_assoc, (splitLines_append begins).1, splitLines_line some single ends]

/-- Whole lines in front of a text that is cut are among those in front of the line. -/
theorem CutsLine.append_left {front : List Char} (cut : CutsLine content before text after)
    (whole : front.getLast? = some '\n') :
    CutsLine (front ++ content) (front ++ before) text after := by
  obtain ⟨rfl, begins, single, ends⟩ := cut
  refine ⟨by simp only [List.append_assoc], .inr ?_, single, ends⟩
  rcases begins with rfl | last
  · rw [List.append_nil, whole]
  · rw [List.getLast?_append, last]
    rfl

/-- Each byte of a text is on one of its lines. -/
theorem exists_cutsLine (inside : byte < byteLength content) :
    ∃ before text after column, CutsLine content before text after ∧
      byteLength before + column = byte ∧ column < byteLength text := by
  induction size : content.length using Nat.strong_induction_on generalizing content byte with
  | _ length ih =>
      obtain ⟨behind, split, single, ends⟩ := exists_closeLine_append content
      generalize closeLine content = first at split single ends
      subst split
      by_cases here : byte < byteLength first
      · have last : '\n' ∉ first → behind = [] := fun none =>
          ends.resolve_right fun last => none (List.mem_of_getLast? last)
        exact ⟨[], first, behind, byte, ⟨rfl, .inl rfl, single, last⟩, Nat.zero_add byte, here⟩
      · -- The byte is behind the first line, so that this one ends with a line feed.
        rw [byteLength_append] at inside
        have goesOn : behind ≠ [] := by
          rintro rfl
          rw [byteLength_nil] at inside
          omega
        have whole := ends.resolve_left goesOn
        have shorter : behind.length < length := by
          cases first with
          | nil => cases whole
          | cons => simp at size; omega
        obtain ⟨before, text, after, column, cut, place, within⟩ :=
          @ih behind.length shorter behind (byte - byteLength first) (by omega) rfl
        refine ⟨first ++ before, text, after, column, cut.append_left whole, ?_, within⟩
        rw [byteLength_append]
        omega

/-- A text that is not empty has a last line. -/
theorem exists_lastLine (some : content ≠ []) :
    ∃ before text, CutsLine content before text [] ∧ text ≠ [] := by
  have bytes : byteLength content ≠ 0 := mt byteLength_eq_zero.1 some
  obtain ⟨before, text, after, column, cut, place, within⟩ :=
    @exists_cutsLine content (byteLength content - 1) (by omega)
  have none : byteLength after = 0 := by
    have whole := congrArg byteLength cut.whole
    simp only [byteLength_append] at whole
    omega
  rw [byteLength_eq_zero.1 none] at cut
  refine ⟨before, text, cut, ?_⟩
  rintro rfl
  exact absurd within (Nat.not_lt_zero _)

/-- The lines of a text hold no byte behind its end. -/
theorem lineHolding_eq_none (number byte : Nat) (lines : List (List Char)) :
    lineHolding number (byteLength lines.flatten + byte) lines = none := by
  have none := lineHolding_append lines [] number byte
  rwa [List.append_nil] at none

end Cutting

section Lookup

variable {content : List Char} {byte : Nat} {line : Line}

/-- The line that holds a byte is what the byte is looked up as. -/
theorem Line.Holds.lineAt?_eq (holds : line.Holds content byte) :
    lineAt? content byte = some line := by
  cases holds with
  | @inside before text after column cut place within =>
      have some : text ≠ [] := by
        rintro rfl
        exact absurd within (Nat.not_lt_zero _)
      have bound : ¬ byteLength content < byte := by
        rw [cut.whole, byteLength_append, byteLength_append]
        omega
      have found : lineHolding 1 byte (splitLines content) =
          .some ⟨before.count '\n' + 1, text, column⟩ := by
        have here : byteLength (splitLines before).flatten = byteLength before := by
          rw [flatten_splitLines]
        rw [cut.splitLines_eq some, ← place, ← here, lineHolding_append, lineHolding,
          if_pos within, (@splitLines_append before [] cut.begins).2, Nat.add_comm]
      simp only [lineAt?, if_neg bound, found, Option.getD_some]
  | @last before shown blanks cut some blank stops place =>
      have beyond := lineHolding_eq_none 1 0 (splitLines content)
      rw [flatten_splitLines, Nat.add_zero, ← place] at beyond
      have lines := cut.splitLines_eq some
      have count := (@splitLines_append before [] cut.begins).2
      simp only [lineAt?, place, Nat.lt_irrefl, if_false]
      rw [← place, beyond, Option.getD_none, lastLine, lines]
      simp [splitLines, count, trimEnd_append blank stops]
  | empty none place =>
      rw [none, place]
      rfl

/-- Every place in a text is on a line. -/
theorem exists_holds (within : byte ≤ byteLength content) :
    ∃ line : Line, line.Holds content byte := by
  rcases Nat.lt_or_eq_of_le within with inside | place
  · obtain ⟨before, text, after, column, cut, place, within⟩ := exists_cutsLine inside
    exact ⟨_, .inside cut place within⟩
  by_cases none : content = []
  · exact ⟨_, .empty none (by rw [place, none, byteLength_nil])⟩
  · obtain ⟨before, text, cut, some⟩ := exists_lastLine none
    obtain ⟨blanks, split, blank, stops⟩ := exists_trimEnd_append text
    rw [split] at cut some
    exact ⟨_, .last cut some blank stops place⟩

end Lookup

/-- No line is found for a byte behind the end of a text. For any other the line that holds it is
found, and no other. -/
theorem lineAt?_holds (content : List Char) (byte : Nat) :
    (lineAt? content byte = none ↔ byteLength content < byte) ∧
      ∀ line : Line, lineAt? content byte = some line ↔ line.Holds content byte := by
  have found : byte ≤ byteLength content → ∃ line : Line, line.Holds content byte ∧
      lineAt? content byte = some line := by
    intro within
    obtain ⟨line, holds⟩ := exists_holds within
    exact ⟨line, holds, holds.lineAt?_eq⟩
  have beyond : byteLength content < byte → lineAt? content byte = none := fun behind =>
    if_pos behind
  constructor
  · refine ⟨fun none => ?_, beyond⟩
    by_contra within
    obtain ⟨line, -, some⟩ := found (Nat.le_of_not_lt within)
    cases none.symm.trans some
  · refine fun line => ⟨fun some => ?_, Line.Holds.lineAt?_eq⟩
    have within : byte ≤ byteLength content := by
      by_contra behind
      cases some.symm.trans (beyond (Nat.lt_of_not_le behind))
    obtain ⟨other, holds, same⟩ := found within
    cases some.symm.trans same
    exact holds

/-- A byte in the middle of a character, a line feed, and the end behind two blanks. -/
example : [6, 7, 11].map (lineAt? "ab\ncdé\n e \t".toList) =
    [some ⟨2, "cdé\n".toList, 3⟩, some ⟨2, "cdé\n".toList, 4⟩, some ⟨3, " e \t".toList, 3⟩] := by
  decide +kernel

end Offside
