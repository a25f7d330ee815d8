import Offside.Proofs.Reading.Words

/-! # Reading rows of words

Rows of items are read item by item, whether commas stand between them or each has a line of its own.
What is known of the items read so far is left open: `held` says it of those read and of what they
are read from.
-/

namespace Offside

open Parse ParseState Word

/-- Items with a comma before each of them. -/
def afterCommas (items : List (List Word)) : List Word :=
  items.flatMap fun item => mark .comma :: mark .space :: item

/-- Items with commas between them. -/
def separated : List (List Word) → List Word
  | [] => []
  | first :: rest => first ++ afterCommas rest

section Rows

variable {R : ParseState → ParseState → Prop} [Frame R] {α β : Type} {state : ParseState}
  {tail : List Word} (print : β → List Word) (held : List β → List α → ParseState → Prop)
  (forward : ∀ sources items {state after : ParseState}, state.Passes after →
    held sources items state → held sources items after)

/-- No blanks stand before a row of items, or before its end if there are none. -/
theorem skip_separated {close : TokenKind} {sources : List β}
    (starts : ∀ source ∈ sources, ∃ word rest, print source = word :: rest ∧
      word.kind ≠ close ∧ word.kind.isBlank = false)
    (visible : close.isBlank = false) :
    skip (separated (sources.map print) ++ mark close :: tail) =
      separated (sources.map print) ++ mark close :: tail := by
  apply skip_of_not_blank
  cases sources with
  | nil => exact visible
  | cons source rest =>
      obtain ⟨word, more, printed, _, visible⟩ := starts source (by simp)
      rw [List.map_cons, separated, printed]
      exact visible

include forward

/-- Items with commas between them are read back, up to the token that closes the row. -/
theorem commaSeparated_reads {close : TokenKind} {item : ParseM α} {sources : List β}
    (starts : ∀ source ∈ sources, ∃ word rest, print source = word :: rest ∧
      word.kind ≠ close ∧ word.kind.isBlank = false)
    (closes : close ≠ .comma)
    (hitem : ∀ front source back items inner behind, sources = front ++ source :: back →
      inner.rest.length ≤ state.rest.length → inner.words = print source ++ behind →
      headKind behind = .comma ∨ headKind behind = close → held front items inner →
      Reads R item inner fun item after =>
        after.words = behind ∧ held (front ++ [source]) (items ++ [item]) after)
    (words : state.words = separated (sources.map print) ++ mark close :: tail)
    (h : held [] [] state) :
    Reads R (commaSeparated close item) state fun items after =>
      after.words = mark close :: tail ∧ held sources items after := by
  apply Reads.kind_bind
  cases sources with
  | nil =>
      rw [words, if_pos (by rfl)]
      exact .pure ⟨words, h⟩
  | cons source rest =>
      rw [List.map_cons, separated, List.append_assoc] at words
      have other : headKind state.words ≠ close := by
        obtain ⟨word, more, printed, other, _⟩ := starts source (by simp)
        rw [words, printed]
        exact other
      rw [if_neg other]
      have follows : ∀ back : List β,
          headKind (afterCommas (back.map print) ++ mark close :: tail) = .comma ∨
            headKind (afterCommas (back.map print) ++ mark close :: tail) = close := by
        intro back
        cases back with
        | nil => exact .inr rfl
        | cons next back => exact .inl rfl
      apply (hitem [] source rest [] state _ rfl (Nat.le_refl _) words (follows rest) h).bind
      intro first mid reads kept
      have within := (Frame.leads reads).rest.length_le
      have others : Reads R (collect do
          if (← Parse.kind) = .comma then
            discard take
            return some (← item)
          else return none) mid fun others after =>
            after.words = mark close :: tail ∧ held (source :: rest) (first :: others) after := by
        refine Runs.collect (fun others inner => ∃ front back, source :: rest = front ++ back ∧
          inner.words = afterCommas (back.map print) ++ mark close :: tail ∧
          held front (first :: others) inner) ?_ ⟨[source], rest, rfl, kept⟩
        intro others inner bounded kept
        obtain ⟨front, back, all, words, kept⟩ := kept
        apply Reads.kind_bind
        cases back with
        | nil =>
            have last : headKind inner.words ≠ .comma := by
              rw [words]
              exact closes
            rw [List.append_nil] at all
            rw [if_neg last]
            exact .pure ⟨words, all ▸ kept⟩
        | cons next back =>
            have words : inner.words = mark .comma :: mark .space ::
                (print next ++ (afterCommas (back.map print) ++ mark close :: tail)) := by
              rw [words]
              simp [afterCommas]
            have comma : headKind inner.words = .comma := by
              rw [words]
              rfl
            rw [if_pos comma]
            apply (take_reads words (by simp [mark])).lift.discard.bind
            intro _ behind _ taken
            obtain ⟨_, passes, _, ahead⟩ := taken
            obtain ⟨word, more, printed, _, plain⟩ := starts next (by simp [all])
            rw [skip_cons_of_blank rfl, skip_of_not_blank (by rw [printed]; exact plain)] at ahead
            have shorter := passes.rest.length_le
            apply (hitem front next back (first :: others) behind _ all (by omega) ahead
              (follows back) (forward _ _ passes kept)).bind
            intro item after reads kept
            refine .pure ⟨?_, front ++ [next], back, ?_, kept⟩
            · rw [← length_words, ← length_words, words, kept.1]
              simp
              omega
            · rw [all, List.append_assoc]
              rfl
      apply others.bind
      intro others after _ kept
      exact .pure kept

/-- The lines of a block are read back, up to a line that stands further out. -/
theorem lines_reads {line : ParseM α} {sources : List β} {level : Nat}
    (starts : ∀ source ∈ sources, ∃ word rest, print source = word :: rest ∧
      word.kind.startsLine = true ∧ word.kind ≠ .elifWord ∧ word.kind ≠ .elseWord)
    (hline : ∀ front source back items inner behind, sources = front ++ source :: back →
      inner.rest.length ≤ state.rest.length → inner.indent = stepWidth * level →
      inner.words = print source ++ behind → After level behind → held front items inner →
      Reads R line inner fun item after =>
        after.words = behind ∧ held (front ++ [source]) (items ++ [item]) after)
    (words : state.words = sources.flatMap (fun source => margin level ++ print source) ++ tail)
    (below : NextLine (fun level' _ => level' < level) tail)
    (indent : state.indent = stepWidth * level) (h : held [] [] state) :
    Reads R (lines line) state fun items after => after.words = tail ∧ held sources items after := by
  have follows : ∀ back ⊆ sources,
      After level (back.flatMap (fun source => margin level ++ print source) ++ tail) := by
    intro back within
    cases back with
    | nil => exact below.mono fun _ _ less => .inl less
    | cons next back =>
        obtain ⟨word, rest, printed, visible, others⟩ := starts next (within (by simp))
        rw [List.flatMap_cons, printed, List.append_assoc, List.append_assoc, List.cons_append]
        exact .line (.inr ⟨rfl, others⟩) visible
  refine Runs.collect (fun items inner => ∃ front back, sources = front ++ back ∧
    inner.words = back.flatMap (fun source => margin level ++ print source) ++ tail ∧
    inner.indent = stepWidth * level ∧ held front items inner) ?_
    ⟨[], sources, rfl, words, indent, h⟩
  intro items inner bounded kept
  obtain ⟨front, back, all, words, indent, kept⟩ := kept
  cases back with
  | nil =>
      rw [List.flatMap_nil, List.nil_append] at words
      rw [List.append_nil] at all
      apply (moreLines_reads_last (words.symm ▸ below) indent).lift.bind
      intro more after _ result
      obtain ⟨passes, rfl, same⟩ := result
      exact .pure ⟨same.trans words, all ▸ forward _ _ passes kept⟩
  | cons next back =>
      obtain ⟨word, rest, printed, visible, _⟩ := starts next (by simp [all])
      rw [List.flatMap_cons, List.append_assoc, List.append_assoc] at words
      have ahead := words
      rw [printed, List.cons_append] at ahead
      apply (moreLines_reads ahead visible indent).lift.bind
      intro more mid _ result
      obtain ⟨passes, rfl, same⟩ := result
      rw [← List.cons_append, ← printed] at same
      have shorter := passes.rest.length_le
      have behind := follows back (by simp [all])
      apply (hline front next back items mid _ all (by omega) (passes.indent.trans indent) same
        behind (forward _ _ passes kept)).bind
      intro item after reads kept
      refine .pure ⟨?_, front ++ [next], back, ?_, kept.1,
        (Frame.leads reads).indent.trans (passes.indent.trans indent), kept.2⟩
      · rw [← length_words, ← length_words, words, kept.1, printed]
        simp
        omega
      · rw [all, List.append_assoc]
        rfl

end Rows

end Offside
