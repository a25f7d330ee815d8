import Offside.Proofs.Placing.Tracks
import Offside.Grammar.TypeSpec

/-! # Tracking words

Words of a line are taken one after the other, each with the blanks behind it.
-/

namespace Offside

open Parse ParseState

variable {all passed used : List Token} {state after : ParseState} {α : Type}

section Cursor

theorem solid_cons_of_word {token : Token} {rest : List Token}
    (word : token.kind.startsLine = true) : solid (token :: rest) = token :: solid rest := by
  have other : isSpacing token.kind = false := by
    have inside := endsLine_of_startsLine word
    have visible := isBlank_of_startsLine word
    revert inside visible
    cases token.kind <;> simp [isSpacing, TokenKind.endsLine]
  simp [solid, other]

theorem endOf_of_spacing {earlier : Position} (none : solid passed = []) :
    endOf earlier passed = earlier := by
  rw [endOf, none]
  rfl

theorem margin_blank (state : ParseState) : ∀ token ∈ state.margin, token.kind.isBlank = true :=
  fun _ listed => List.mem_takeWhile_imp (p := fun token : Token => token.kind.isBlank) listed

theorem moves_passBlanks (state : ParseState) : state.Moves state.margin state.passBlanks :=
  ⟨List.takeWhile_append_dropWhile.symm, rfl, rfl, rfl, List.prefix_rfl,
    (endOf_of_spacing (solid_of_blanks (margin_blank state))).symm⟩

theorem takes_passBlanks (state : ParseState) : state.Takes [] state.passBlanks :=
  ⟨state.margin, moves_passBlanks state,
    fun token listed => endsLine_of_isBlank (margin_blank state token listed),
    solid_of_blanks (margin_blank state)⟩

/-- The words that have been taken end where the last of them does. -/
theorem ParseState.Takes.lastEnd (h : state.Takes used after) (last : Token)
    (ends : used.getLast? = some last) : after.lastEnd = last.span.stop := by
  obtain ⟨passed, moves, -, rfl⟩ := h
  rw [moves.lastEnd, endOf, ends]
  rfl

/-- From a word on, it is the first that is taken. -/
theorem ParseState.Takes.exists_cons (h : state.Takes used after)
    (word : state.kind.startsLine = true) (taken : used ≠ []) :
    ∃ more, used = state.current :: more := by
  obtain ⟨passed, moves, -, rfl⟩ := h
  cases passed with
  | nil => exact absurd rfl taken
  | cons first rest =>
      have same : state.current = first := by
        rw [ParseState.current, moves.rest]
        rfl
      rw [ParseState.kind, same] at word
      rw [same]
      exact ⟨solid rest, solid_cons_of_word word⟩

/-- What has been passed from a word on goes from it to where reading has come. -/
theorem ParseState.Moves.goesOver {word : Token} (h : state.Moves passed after)
    (words : solid passed = word :: used) :
    (Span.mk word.span.start after.lastEnd).GoesOver (word :: used) := by
  refine ⟨rfl, ?_⟩
  rw [h.lastEnd, endOf, words]
  cases ends : (word :: used).getLast? with
  | none => simp at ends
  | some last => rfl

theorem ParseState.Takes.goesOver {word : Token} (h : state.Takes (word :: used) after) :
    (Span.mk word.span.start after.lastEnd).GoesOver (word :: used) := by
  obtain ⟨passed, moves, -, words⟩ := h
  exact moves.goesOver words

theorem ParseState.Takes.decls (h : state.Takes used after) :
    state.program.decls.toList <+: after.program.decls.toList := by
  obtain ⟨passed, moves, -⟩ := h
  exact moves.decls

end Cursor

/-- A word is taken with the blanks behind it. -/
theorem take_tracks (word : state.kind.startsLine = true) :
    Tracks Takes all take state fun token used _ =>
      used = [token] ∧ token = state.current ∧ token ∈ all := by
  intro ahead
  have goesOn : state.kind ≠ .eof := by
    intro eof
    rw [eof] at word
    cases word
  obtain ⟨behind, rest⟩ := ahead.exists_rest goesOn
  have passed : state.pass.rest = behind := by
    simp only [ParseState.pass, if_neg goesOn]
    rw [rest, List.tail_cons]
  have solid : solid [state.current] = [state.current] := solid_cons_of_word word
  have step : state.Moves [state.current] state.pass := by
    refine ⟨by rw [passed, rest]; rfl, rfl, rfl, rfl, List.prefix_rfl, ?_⟩
    have other : isSpacing state.current.kind = false := by
      simpa [Offside.solid] using solid
    change isSpacing state.kind = false at other
    rw [endOf, solid, ParseState.pass, other]
    rfl
  have stays : state.Takes [state.current] state.pass :=
    ⟨[state.current], step, List.forall_mem_singleton.2 (endsLine_of_startsLine word), solid⟩
  exact ⟨[state.current], stays.trans (takes_passBlanks _), rfl, rfl, ahead.current_mem⟩

/-- A word of a certain kind is taken if it is there. -/
theorem expect_tracks {expected : TokenKind} (word : expected.startsLine = true) :
    Tracks Takes all (expect expected) state fun token used _ =>
      used = [token] ∧ token.kind = expected ∧ token ∈ all := by
  refine .kind_bind ?_
  split
  · next found =>
    refine (take_tracks (found ▸ word)).mono fun token used after _ taken => ?_
    exact ⟨taken.1, taken.2.1 ▸ found, taken.2.2⟩
  · exact .failHere

theorem expectName_tracks {complaint : String} :
    Tracks Takes all (expectName complaint) state fun token used _ =>
      used = [token] ∧ token.kind = .identifier ∧ token ∈ all := by
  refine .kind_bind ?_
  split
  · next found =>
    refine (take_tracks (by rw [found]; rfl)).mono fun token used after _ taken => ?_
    exact ⟨taken.1, taken.2.1 ▸ found, taken.2.2⟩
  · exact .failHere

/-- Items with commas between them are tracked if each of them is. -/
theorem commaSeparated_tracks {close : TokenKind} {item : ParseM α}
    (keep : List α → List Token → ParseState → Prop)
    (forward : ∀ {items used state after more}, state.Takes more after → keep items used state →
      keep items (used ++ more) after)
    (hitem : ∀ items used inner, keep items used inner →
      Tracks Takes all item inner fun item more after => keep (items ++ [item]) (used ++ more) after)
    (h : keep [] [] state) : Tracks Takes all (commaSeparated close item) state keep := by
  refine .kind_bind ?_
  split
  · exact .pure h
  refine (hitem [] [] state h).bind fun first used mid _ kept => ?_
  refine (Tracks.collect (fun others more inner => keep (first :: others) (used ++ more) inner)
    (fun others more inner => keep (first :: others) (used ++ more) inner)
    (fun others more inner kept => ?_) (by simpa using kept)).bind
    fun others more after _ kept => .pure (by simpa using kept)
  refine .kind_bind ?_
  split
  · next comma =>
    refine (take_tracks (by rw [comma]; rfl)).discard.bind fun _ taken behind takes _ => ?_
    have kept := forward takes kept
    refine (hitem (first :: others) _ behind kept).bind fun item read after _ kept => .pure ?_
    simpa using kept
  · exact .pure (by simpa using kept)

/-- Brackets of one kind are taken as long as there are any. -/
theorem countOf_tracks {repeated : TokenKind} (word : repeated.startsLine = true) :
    Tracks Takes all (countOf repeated) state fun _ _ _ => True := by
  refine (Tracks.collect (fun _ _ _ => True) (fun _ _ _ => True)
    (fun _ _ inner _ => ?_) trivial).bind fun _ _ _ _ _ => .pure trivial
  refine .kind_bind ?_
  split
  · next found =>
    exact (take_tracks (found ▸ word)).bind fun _ _ _ _ _ => .pure trivial
  · exact .pure trivial

theorem typeName_tracks :
    Tracks Takes all typeName state fun _ used _ => ∃ token, used = [token] := by
  have taken (word : state.kind.startsLine = true) :
      Tracks Takes all (do return DataType.ofName (← take).value) state
        fun _ used _ => ∃ token, used = [token] :=
    .map ((take_tracks word).mono fun token _ _ _ taken => ⟨token, taken.1⟩)
  refine .kind_bind ?_
  split
  · next found => exact taken (by rw [found]; rfl)
  · next found => exact taken (by rw [found]; rfl)
  · exact .failHere

/-- A type takes up at least its name. -/
theorem typeSpec_tracks : Tracks Takes all typeSpec state fun _ used _ => used ≠ [] := by
  refine .of_ahead fun ahead => .get_bind ?_
  refine (countOf_tracks rfl).bind fun opened before mid _ _ => ?_
  refine typeName_tracks.bind fun element name mid' _ named => ?_
  obtain ⟨token, rfl⟩ := named
  refine (countOf_tracks rfl).bind fun closed behind after _ _ => ?_
  split
  · exact .pure (by simp)
  · exact .get_bind (.fail ⟨state.current, ahead.current_mem, rfl⟩)

end Offside
