import Offside.Proofs.Comparing.Joining
import Offside.Proofs.Comparing.Lines
import Offside.Proofs.Reading.Numbering

/-! # Texts put together

A text of whole lines and another text behind it spell the programs of the two, one behind the other.
Two comparisons show it: reading the first lines with others behind them is compared with reading
them alone, and reading the others from there is compared with reading them from the start.
-/

namespace Offside

open Parse ParseState

section Opening

variable {state : ParseState}

/-- No expression starts with a word that goes on with a statement. -/
theorem expr_of_goesOn (goesOn : state.kind = .elifWord ∨ state.kind = .elseWord) :
    Runs (fun _ _ => True) Leads (fun _ => True) expr state fun _ _ => False := by
  have operand : Runs (fun _ _ => True) Leads (fun _ => True) operand state fun _ _ => False := by
    apply Runs.budget_bind
    intro ready
    refine Runs.get_bind ?_ ready
    have none : state.grammar.operandForm? state.kind = none := by
      rw [ready.grammar]
      rcases goesOn with kind | kind <;> rw [kind] <;> rfl
    rw [none]
    exact .failHere fun _ => trivial
  exact operand.bind fun _ _ _ => False.elim

/-- No line of the outermost block starts with a word that goes on with a statement. -/
theorem entry_of_goesOn (goesOn : state.kind = .elifWord ∨ state.kind = .elseWord) :
    Runs (fun _ _ => True) Leads (fun _ => True) entry state fun _ _ => False := by
  have plain : state.startsDeclaration = false := by
    cases starts : state.startsDeclaration with
    | false => rfl
    | true =>
        rw [kind_of_startsDeclaration starts] at goesOn
        rcases goesOn with kind | kind <;> cases kind
  have stmt : Runs (fun _ _ => True) Leads (fun _ => True) stmt state fun _ _ => False := by
    apply Runs.budget_bind
    intro ready
    refine Runs.get_bind ?_ ready
    have none : state.grammar.stmtForm? state.kind = none := by
      rw [ready.grammar]
      rcases goesOn with kind | kind <;> rw [kind] <;> rfl
    rw [none, plain]
    exact (expr_of_goesOn goesOn).bind fun _ _ _ => False.elim
  apply Runs.get_bind
  rw [plain, if_neg, if_neg, if_neg Bool.false_ne_true]
  · exact (stmt.bind fun _ _ _ => False.elim).bind fun _ _ _ => False.elim
  · rcases goesOn with kind | kind <;> rw [kind] <;> decide
  · rcases goesOn with kind | kind <;> rw [kind] <;> decide

end Opening

/-- Some tokens start with a line of the outermost block that does not go on with another, if they
have any words. -/
def Opens (rest : List Token) : Prop :=
  ∀ token ∈ (dropBlankLines rest rest).head?, token.kind.startsLine = true ∧
    token.kind ≠ .elifWord ∧ token.kind ≠ .elseWord

/-- Whole lines before the end of the input, with other tokens behind them on the right. -/
structure Followed (back rest rest' : List Token) : Prop where
  same : dropBlankLines rest' rest' = dropBlankLines (rest ++ back) (rest ++ back)
  whole : WholeLines rest
  inside : ∀ token ∈ rest, token.kind ≠ .eof

/-- The rest of a line and the lines behind it, with other tokens behind them on the right. -/
structure FollowedInLine (back rest rest' : List Token) : Prop where
  same : rest' = rest ++ back
  starts : afterBlanks rest = rest
  goesOn : rest ≠ []
  whole : WholeLines rest
  inside : ∀ token ∈ rest, token.kind ≠ .eof

/-- The reading of some lines is compared with that of the same lines with others behind them. -/
def followedBy (back : List Token) : Comparison where
  left := .same
  right := .same
  inLine := FollowedInLine back
  atLine := Followed back
  programs program program' := program.moved .same = program'.moved .same
  numbers number number' := number = number'
  beyond := True
  late _ := False

section Fronts

variable {back rest rest' : List Token}

theorem FollowedInLine.wordAhead (h : FollowedInLine back rest rest') :
    (followedBy back).WordAhead rest rest' := by
  obtain ⟨rfl, starts, goesOn, whole, inside⟩ := h
  cases rest with
  | nil => exact absurd rfl goesOn
  | cons token rest =>
      rw [List.forall_mem_cons] at inside
      have word := isBlank_of_afterBlanks_cons starts
      cases ends : token.kind.endsLine with
      | true =>
          have newline := newline_of_endsLine ends inside.1
          exact .lineEnd (.newline newline) (.newline newline) ⟨rfl, whole.tail, inside.2⟩
      | false =>
          have plain : token.kind ≠ .newline := by
            intro newline
            rw [newline] at ends
            cases ends
          obtain ⟨last, listed, newline⟩ := whole.exists_newline plain
          have visible : ∃ token ∈ rest, token.kind.isBlank = false :=
            ⟨last, listed, by rw [newline]; rfl⟩
          have suffix : afterBlanks rest <:+ rest := List.dropWhile_suffix _
          refine .word rfl (startsLine_of_word word ends) rfl
            ⟨afterBlanks_append_of_word visible, afterBlanks_afterBlanks, ?_,
              whole.tail.of_suffix suffix, fun token listed => inside.2 token (suffix.subset listed)⟩
          intro none
          have blank := List.dropWhile_eq_nil_iff.1 none last listed
          rw [newline] at blank
          cases blank

theorem Followed.nextLine (opens : Opens back) (closed : ∀ token ∈ back, token.kind ≠ .eof)
    (h : Followed back rest rest') :
    (followedBy back).atNextLine (dropBlankLines rest rest) (dropBlankLines rest' rest') := by
  obtain ⟨same, whole, inside⟩ := h
  rw [same, dropBlankLines_append whole Iff.rfl]
  have suffix : dropBlankLines rest rest <:+ rest :=
    dropBlankLines_suffix rest rest rest List.suffix_rfl List.suffix_rfl
  have whole' := whole.of_suffix suffix
  have inside' := inside_dropBlankLines inside
  obtain none | starts := startsWithLine_dropBlankLines (List.forall_mem_nil _) inside
  · rw [List.nil_append] at none
    rw [none, if_pos rfl]
    refine ⟨?_, dropBlankLines_idempotent closed, nofun, List.forall_mem_nil _⟩
    unfold Opens at opens
    generalize dropBlankLines back back = line at opens ⊢
    cases line with
    | nil => exact .none
    | cons token behind =>
        obtain ⟨visible, elif, otherwise⟩ := opens token rfl
        exact .beyond trivial visible elif otherwise
  · rw [List.nil_append] at starts
    obtain ⟨token, behind, first, visible, -⟩ := starts.afterBlanks_eq
    have word := starts.exists_word
    have goesOn : dropBlankLines rest rest ≠ [] := List.ne_nil_of_mem word.choose_spec.1
    rw [if_neg goesOn]
    refine ⟨.line ?_ first visible ?_, rfl, whole', inside'⟩
    · rw [takeWhile_append_of_mem word]
    · have suffix : afterBlanks (dropBlankLines rest rest) <:+ dropBlankLines rest rest :=
        List.dropWhile_suffix _
      exact ⟨afterBlanks_append_of_word word, afterBlanks_afterBlanks, by rw [first]; nofun,
        whole'.of_suffix suffix, fun token listed => inside' token (suffix.subset listed)⟩

theorem followedBy_lawful (opens : Opens back) (closed : ∀ token ∈ back, token.kind ≠ .eof) :
    (followedBy back).Lawful where
  word := FollowedInLine.wordAhead
  line := Followed.nextLine opens closed
  nextDecl := Program.nextDecl_eq_of_moved
  insertDecl h inits spans := Program.insertDecl_congr h inits spans
  number := id
  nextNumber := congrArg (· + 1)

variable {state state' : ParseState} {outcome : Except Error Unit × ParseState}

/-- Whole lines are read alone on the left, and with the others behind them on the right. -/
theorem Followed.start {last last' : Token} {file : String} (whole : WholeLines rest)
    (inside : ∀ token ∈ rest, token.kind ≠ .eof) (ends : last.kind = .eof)
    (ends' : last'.kind = .eof) :
    (followedBy back).Abreast False (Followed back) (.ofTokens (rest ++ [last]) file)
      (.ofTokens (rest ++ back ++ [last']) file) := by
  rw [ofTokens_append_eof ends, ofTokens_append_eof ends']
  exact ⟨⟨rfl, whole, inside⟩, ends, ends', rfl, rfl, rfl, rfl, rfl, False.elim⟩

/-- What some lines say is entered in front of others as it is without them. Then the others are
entered. -/
theorem EntersLines.followed (opens : Opens back) (closed : ∀ token ∈ back, token.kind ≠ .eof)
    (h : EntersLines state outcome) (done : outcome.1 = .ok ()) (outermost : state.indent = 0)
    (abreast : (followedBy back).Abreast False (Followed back) state state') :
    ∃ mid', (∀ outcome', EntersLines mid' outcome' → EntersLines state' outcome') ∧
      (followedBy back).Abreast False (Followed back) outcome.2 mid' ∧ outcome.2.rest = [] := by
  have lawful := followedBy_lawful opens closed
  -- Behind the last line the left is at the end of the input, and the right goes on alone.
  induction h generalizing state' with
  | @last state _ read =>
      obtain ⟨-, eof, rfl⟩ | ⟨_, impossible, _⟩ := nextEntry_cases outermost read
      · have next := abreast.passBlankLines lawful
        refine ⟨_, fun outcome' rest => rest.congr (nextEntry_congr ?_), next.imp And.right, ?_⟩
        · have closed' : ∀ token ∈ state.rest ++ back, token.kind ≠ .eof :=
            List.forall_mem_append.2 ⟨abreast.rest.inside, closed⟩
          have again := dropBlankLines_idempotent closed'
          rw [← abreast.rest.same] at again
          unfold passBlankLines
          rw [again]
        · exact rest_eq_nil_of_kind eof (inside_dropBlankLines abreast.rest.inside)
      · cases impossible
  | unread _ | clash _ _ => cases done
  | line read entered _ ih =>
      obtain ⟨impossible, -, -⟩ | ⟨_, -, going, -, -⟩ := nextEntry_cases outermost read
      · cases impossible
      obtain ⟨entry', mid', read', stays, same, next⟩ := Comparison.exists_nextEntry lawful abreast
        (fun _ none => absurd (kind_of_rest_eq_nil none abreast.closing) going) (fun _ => id) read
      obtain ⟨-, -, -, valid⟩ := nextEntry_safe.of_ok abreast.ready.1 read
      obtain ⟨-, -, -, valid'⟩ := nextEntry_safe.of_ok abreast.ready.2 read'
      have enters : (followedBy back).Enters :=
        Comparison.enters_of_moved rfl rfl rfl fun _ _ => Iff.rfl
      have alike := enters next.program same valid valid'
      rw [entered] at alike
      cases entered' : entry'.insert mid'.program with
      | error error =>
          rw [entered'] at alike
          exact alike.elim
      | ok program' =>
          rw [entered'] at alike
          obtain ⟨last, goesOn, behind, nil⟩ := ih done (stays.indent.trans outermost)
            ((next.weaken False.elim).withProgram alike)
          exact ⟨last, fun outcome' rest => .line read' entered' (goesOn outcome' rest), behind, nil⟩

end Fronts

/-- What a line of the outermost block starts with is seen where one has been entered. -/
theorem EntersLines.opens {state : ParseState} {outcome : Except Error Unit × ParseState}
    (h : EntersLines state outcome) (done : outcome.1 = .ok ()) (outermost : state.indent = 0)
    (ready : state.Ready fun _ _ => True) (inside : ∀ token ∈ state.rest, token.kind ≠ .eof) :
    Opens state.rest := by
  have first : ∃ next? after, nextEntry.run.run state = (.ok next?, after) := by
    cases h with
    | last read => exact ⟨_, _, read⟩
    | unread _ | clash _ _ => cases done
    | line read _ _ => exact ⟨_, _, read⟩
  obtain ⟨next?, after, read⟩ := first
  have inside' := inside_dropBlankLines inside
  obtain ⟨-, eof, -⟩ | ⟨found, -, going, outer, read⟩ := nextEntry_cases outermost read
  · have none : dropBlankLines state.rest state.rest = [] := rest_eq_nil_of_kind eof inside'
    unfold Opens
    rw [none]
    nofun
  obtain none | starts := startsWithLine_dropBlankLines (List.forall_mem_nil _) inside
  · have eof : state.passBlankLines.kind = .eof := kind_of_rest_eq_nil none ready.closing
    exact absurd eof going
  have visible : afterBlanks state.passBlankLines.rest = state.passBlankLines.rest :=
    afterBlanks_eq_self outer
  rw [List.nil_append] at starts
  obtain ⟨token, behind, first, solid, -⟩ := starts.afterBlanks_eq
  have line : dropBlankLines state.rest state.rest = token :: behind := visible.symm.trans first
  have kind : state.passBlankLines.passBlanks.kind = token.kind := by
    have rest : state.passBlankLines.passBlanks.rest = token :: behind := first
    unfold ParseState.kind ParseState.current
    rw [rest, List.headD_cons]
  have ready' : state.passBlankLines.passBlanks.Ready fun _ _ => True :=
    ⟨ready.closing, ready.grammar, fun _ _ => trivial⟩
  unfold Opens
  rw [line]
  rintro _ ⟨⟩
  refine ⟨solid, fun elif => ?_, fun otherwise => ?_⟩
  · exact ((entry_of_goesOn (.inl (kind.trans elif))).of_ok ready' read).2
  · exact ((entry_of_goesOn (.inr (kind.trans otherwise))).of_ok ready' read).2

/-- What some tokens start with does not depend on their place. -/
theorem Opens.moved {rest : List Token} (h : Opens rest) (move : Relocation) :
    Opens (rest.map (Token.moved move)) := by
  unfold Opens at h ⊢
  rw [dropBlankLines_map (Token.moved move) fun _ => rfl, List.head?_map]
  intro token found
  obtain ⟨first, starts, rfl⟩ := Option.map_eq_some_iff.1 found
  exact h first starts

/-- Some tokens at another place, after the end of the input has been left out. -/
structure Further (move : Relocation) (rest rest' : List Token) : Prop where
  same : dropBlankLines rest' rest' =
    dropBlankLines (rest.map (Token.moved move)) (rest.map (Token.moved move))
  inside : ∀ token ∈ rest, token.kind ≠ .eof

/-- Some tokens inside of a line at another place. -/
structure FurtherInLine (move : Relocation) (rest rest' : List Token) : Prop where
  same : rest' = rest.map (Token.moved move)
  starts : afterBlanks rest = rest
  inside : ∀ token ∈ rest, token.kind ≠ .eof

/-- The reading of some lines is compared with that of the same lines behind those of a program. -/
def behind (front : Program) (bytes numbers : Nat) : Comparison where
  left := .behind bytes front.decls.size numbers
  right := .same
  inLine := FurtherInLine (.behind bytes front.decls.size numbers)
  atLine := Further (.behind bytes front.decls.size numbers)
  programs program program' :=
    program' = front.append (program.moved (.behind bytes front.decls.size numbers))
  numbers number number' := number' = numbers + number
  beyond := False
  late _ := False

section Backs

variable {front : Program} {move : Relocation} {bytes numbers : Nat} {rest rest' : List Token}

theorem afterBlanks_map : afterBlanks (rest.map (Token.moved move)) =
    (afterBlanks rest).map (Token.moved move) := by
  unfold afterBlanks
  rw [List.dropWhile_map]
  rfl

theorem width_map (line : List Token) : width (line.map (Token.moved move)) = width line := by
  induction line with
  | nil => rfl
  | cons token line ih => exact congrArg (blankWidth token.kind + ·) ih

theorem FurtherInLine.wordAhead
    (h : FurtherInLine (.behind bytes front.decls.size numbers) rest rest') :
    (behind front bytes numbers).WordAhead rest rest' := by
  obtain ⟨rfl, starts, inside⟩ := h
  cases rest with
  | nil => exact .lineEnd .eof .eof ⟨rfl, List.forall_mem_nil _⟩
  | cons token rest =>
      rw [List.forall_mem_cons] at inside
      cases ends : token.kind.endsLine with
      | true =>
          have newline := newline_of_endsLine ends inside.1
          exact .lineEnd (.newline newline) (.newline newline) ⟨rfl, inside.2⟩
      | false =>
          have word := isBlank_of_afterBlanks_cons starts
          have suffix : afterBlanks rest <:+ rest := List.dropWhile_suffix _
          exact .word rfl (startsLine_of_word word ends) rfl
            ⟨afterBlanks_map, afterBlanks_afterBlanks,
              fun token listed => inside.2 token (suffix.subset listed)⟩

theorem Further.nextLine (h : Further (.behind bytes front.decls.size numbers) rest rest') :
    (behind front bytes numbers).atNextLine (dropBlankLines rest rest)
      (dropBlankLines rest' rest') := by
  obtain ⟨same, inside⟩ := h
  have kept : dropBlankLines rest' rest' = (dropBlankLines rest rest).map
      (Token.moved (.behind bytes front.decls.size numbers)) :=
    same.trans (dropBlankLines_map (Token.moved _) (fun _ => rfl) rest rest)
  have inside' := inside_dropBlankLines inside
  rw [kept]
  refine ⟨?_, rfl, inside'⟩
  obtain none | starts := startsWithLine_dropBlankLines (List.forall_mem_nil _) inside
  · rw [List.nil_append] at none
    rw [none]
    exact .none
  · rw [List.nil_append] at starts
    obtain ⟨token, more, first, visible, -⟩ := starts.afterBlanks_eq
    have suffix : afterBlanks (dropBlankLines rest rest) <:+ dropBlankLines rest rest :=
      List.dropWhile_suffix _
    refine .line ?_ first visible ⟨afterBlanks_map, afterBlanks_afterBlanks,
      fun token listed => inside' token (suffix.subset listed)⟩
    rw [List.takeWhile_map, width_map]
    rfl

theorem behind_lawful : (behind front bytes numbers).Lawful where
  word := FurtherInLine.wordAhead
  line := Further.nextLine
  nextDecl := by
    rintro program _ rfl
    simp [behind, Relocation.behind, Relocation.same, Program.nextDecl, Program.append,
      Program.moved]
  insertDecl := by
    rintro program _ name type init init' span span' rfl inits spans
    have inits : init.map (Expr.moved (.behind bytes front.decls.size numbers)) = init' :=
      inits.trans (Expr.map_moved_same init')
    have spans : span.moved (.behind bytes front.decls.size numbers) = span' := spans
    change _ = front.append _
    rw [Program.moved_insertDecl, inits, spans]
    simp [Program.append, Program.insertDecl, Program.nextDecl, Program.moved, Relocation.behind]
  number := Eq.symm
  nextNumber := congrArg (· + 1)

variable {state state' : ParseState} {outcome : Except Error Unit × ParseState}

/-- Tokens are read from the start on the left, and on the right from where the lines in front of
them have been read. -/
theorem Further.start {back : List Token} {last : Token} {file : String}
    (moved : back = rest.map (Token.moved (.behind bytes state.program.decls.size numbers)))
    (inside : ∀ token ∈ rest, token.kind ≠ .eof) (ends : last.kind = .eof)
    (outermost : state.indent = 0) (counted : state.nextId = numbers) (nil : state.rest = [])
    (read : (followedBy back).Abreast False (Followed back) state state') :
    (behind state.program bytes numbers).Abreast False
      (behind state.program bytes numbers).atLine (.ofTokens (rest ++ [last]) file) state' := by
  rw [ofTokens_append_eof ends]
  refine ⟨⟨?_, inside⟩, ends, read.closing', rfl, read.grammar', ?_, ?_, ?_, False.elim⟩
  · have same := read.rest.same
    rw [nil, moved] at same
    exact same
  · exact outermost.symm.trans read.indent
  · have same : state.program.moved .same = state'.program.moved .same := read.program
    rw [Program.moved_same, Program.moved_same] at same
    change state'.program = state.program.append (Program.empty.moved _)
    rw [Program.append_empty, same]
  · change state'.nextId = numbers + 0
    rw [← counted]
    exact read.nextId.symm

/-- What some lines say is entered behind a program as it is on its own, unless some of it has been
entered there. -/
theorem EntersLines.behind (h : EntersLines state outcome) (done : outcome.1 = .ok ())
    (declared : front.DeclaresGlobals) (declared' : state.program.DeclaresGlobals)
    (apart : List.Disjoint front.labels state.program.labels)
    (abreast : (behind front bytes numbers).Abreast False (behind front bytes numbers).atLine state
      state') :
    (List.Disjoint front.labels outcome.2.program.labels →
      ∃ after', EntersLines state' (.ok (), after') ∧ after'.program = front.append
        (outcome.2.program.moved (.behind bytes front.decls.size numbers))) ∧
    (¬ List.Disjoint front.labels outcome.2.program.labels →
      ∃ error after', EntersLines state' (.error error, after') ∧
        error.cause.category = .registration) := by
  have shifted : ∀ id, (Relocation.behind bytes front.decls.size numbers).decl id =
      ⟨front.decls.size + id.index⟩ := fun _ => rfl
  -- What has been entered stays entered, so a label that is taken when it is asked for is in both
  -- programs at the end.
  induction h generalizing state' with
  | @last state after read =>
      have follows := Comparison.nextEntry_follows behind_lawful abreast False.elim
      obtain ⟨next?', after', read', -, -, ends⟩ := follows.exists_of_ok read fun _ => id
      have same : after.program = state.program := (nextEntry_safe.of_ok abreast.ready.1 read).2
      cases next?' with
      | none => exact ⟨fun _ => ⟨after', .last read', ends.program⟩,
          fun shared => absurd (same ▸ apart) shared⟩
      | some entry' => exact ends.elim
  | unread _ | clash _ _ => cases done
  | @line state mid entry next outcome read entered rest ih =>
      obtain ⟨entry', mid', read', -, moved, here⟩ :=
        Comparison.exists_nextEntry behind_lawful abreast False.elim (fun _ => id) read
      obtain ⟨leads, -, adds, valid⟩ := nextEntry_safe.of_ok abreast.ready.1 read
      obtain ⟨rfl, -, -⟩ := Entry.insert_eq_ok valid entered
      obtain rfl : entry.moved (.behind bytes front.decls.size numbers) = entry' :=
        moved.trans entry'.moved_same
      have program' : mid'.program =
        front.append (mid.program.moved (.behind bytes front.decls.size numbers)) := here.program
      have declared'' := Entry.declaresGlobals_enter (adds.declaresGlobals declared') valid
      by_cases shared : ∃ label ∈ entry.label? mid.program, label ∈ front.labels
      · obtain ⟨label, found, taken⟩ := shared
        have kept := rest.mem_labels (leads.ready abreast.ready.1).withProgram declared'' done label
          (Entry.mem_labels_enter.2 (.inr found))
        obtain ⟨error, failed, category⟩ :=
          Entry.insert_append_of_taken shifted declared found taken
        rw [← program'] at failed
        exact ⟨fun disjoint => absurd kept (disjoint taken),
          fun _ => ⟨error, mid', .clash read' failed, category⟩⟩
      have other : ∀ label ∈ entry.label? mid.program, label ∉ front.labels :=
        fun label found taken => shared ⟨label, found, taken⟩
      have entered' := Entry.insert_append shifted declared valid entered other
      rw [← program'] at entered'
      have apart' : List.Disjoint front.labels (entry.enter mid.program).labels := by
        intro label taken listed
        rw [Entry.mem_labels_enter, adds.labels_eq declared'] at listed
        exact listed.elim (apart taken) fun found => other label found taken
      obtain ⟨joins, clashes⟩ := ih done declared'' apart'
        ((here.weaken False.elim).withProgram rfl)
      refine ⟨fun disjoint => ?_, fun shared => ?_⟩
      · obtain ⟨after', enters, same⟩ := joins disjoint
        exact ⟨after', .line read' entered' enters, same⟩
      · obtain ⟨error, after', enters, category⟩ := clashes shared
        exact ⟨error, after', .line read' entered' enters, category⟩

end Backs

section Sources

variable {tokens : List Token} {file : String} {program : Program}

/-- The lines of a program have been entered, and all its numbers have been taken. -/
theorem Program.exists_entersLines {front : List Token} {last : Token} (ends : last.kind = .eof)
    (h : Program.ofTokens (front ++ [last]) file = .ok program) :
    ∃ after, EntersLines (.ofTokens (front ++ [last]) file) (.ok (), after) ∧
      after.program = program ∧ after.indent = 0 ∧ after.nextId = program.numbers.length ∧
      program.DeclaresGlobals := by
  have start := @ofTokens_append_eof front last file ends
  have ready : (ParseState.ofTokens (front ++ [last]) file).Ready fun _ _ => True :=
    ready_ofTokens fun _ _ => trivial
  have enters := entersLines_of_run _ ready (Nat.lt_succ_self _)
  have run := enters.run_program ready
  generalize (enterWithin _).run.run (ParseState.ofTokens (front ++ [last]) file) = outcome
    at enters run
  obtain ⟨result, after⟩ := outcome
  rw [enters.ofTokens_eq] at h
  cases result with
  | error error => cases h
  | ok done =>
      cases h
      rw [start] at run ready
      obtain ⟨leads, sound⟩ := (program_safe empty_sound).of_ok ready run
      refine ⟨after, enters, rfl, leads.indent, ?_, ?_⟩
      · exact sound.counted.length_numbers.symm
      · intro id global
        apply sound.coherent.mem_handles.1
        simp [handles, global]

end Sources

/-- Whole lines and other tokens behind them spell the programs of the two put together, unless
something is entered under the same label in both of them. -/
theorem Program.ofTokens_append {lines lines' : List Token} {last last' : Token} {file : String}
    {first second : Program} (bytes : Nat) (whole : WholeLines lines)
    (inside : ∀ token ∈ lines, token.kind ≠ .eof) (inside' : ∀ token ∈ lines', token.kind ≠ .eof)
    (ends : last.kind = .eof) (ends' : last'.kind = .eof)
    (read : Program.ofTokens (lines ++ [last]) file = .ok first)
    (read' : Program.ofTokens (lines' ++ [last']) file = .ok second) :
    (List.Disjoint first.labels second.labels →
      Program.ofTokens (lines ++ (lines' ++ [last']).map
          (Token.moved (.behind bytes first.decls.size first.numbers.length))) file =
        .ok (first.append (second.moved
          (.behind bytes first.decls.size first.numbers.length)))) ∧
    (¬ List.Disjoint first.labels second.labels →
      ∃ error, Program.ofTokens (lines ++ (lines' ++ [last']).map
          (Token.moved (.behind bytes first.decls.size first.numbers.length))) file =
        .error error ∧ error.cause.category = .registration) := by
  obtain ⟨after, enters, rfl, indent, count, declared⟩ := exists_entersLines ends read
  obtain ⟨after', enters', rfl, -, -, -⟩ := exists_entersLines ends' read'
  -- The first lines are passed first, and then the others are read from where that has come to.
  generalize moves : Relocation.behind bytes after.program.decls.size
    after.program.numbers.length = move
  rw [List.map_append, ← List.append_assoc, List.map_singleton]
  have further : (last'.moved move).kind = .eof := ends'
  have start' := @ofTokens_append_eof lines' last' file ends'
  have opens : Opens (lines'.map (Token.moved move)) := by
    rw [start'] at enters'
    exact (enters'.opens rfl rfl ⟨ends', rfl, fun _ _ => trivial⟩ inside').moved move
  have closed : ∀ token ∈ lines'.map (Token.moved move), token.kind ≠ .eof :=
    List.forall_mem_map.2 inside'
  have outermost : (ParseState.ofTokens (lines ++ [last]) file).indent = 0 := by
    rw [ofTokens_append_eof ends]
  obtain ⟨mid, goesOn, next, nil⟩ := enters.followed opens closed rfl outermost
    (Followed.start whole inside ends further)
  subst moves
  have behind := @Further.start bytes _ lines' after mid _ last' file rfl inside' ends' indent count
    nil next
  obtain ⟨joins, clashes⟩ := enters'.behind rfl declared (by rw [start']; nofun)
    (by rw [start']; exact List.disjoint_nil_right _) behind
  constructor
  · intro disjoint
    obtain ⟨last, whole, same⟩ := joins disjoint
    rw [(goesOn _ whole).ofTokens_eq]
    exact congrArg Except.ok same
  · intro shared
    obtain ⟨error, last, whole, category⟩ := clashes shared
    rw [(goesOn _ whole).ofTokens_eq]
    exact ⟨error, rfl, category⟩

/-- A text of whole lines and another text behind it spell the programs of the two put together,
unless something is entered under the same label in both of them. Then it is not entered twice. -/
theorem Program.ofSource_append {front back file : String} {first second : Program}
    (ends : front = "" ∨ front.toList.getLast? = some '\n')
    (read : Program.ofSource front file = .ok first)
    (read' : Program.ofSource back file = .ok second) :
    (List.Disjoint first.labels second.labels →
      Program.ofSource (front ++ back) file = .ok (first.append (second.moved
        (.behind (byteLength front.toList) first.decls.size first.numbers.length)))) ∧
    (¬ List.Disjoint first.labels second.labels →
      ∃ error, Program.ofSource (front ++ back) file = .error error ∧
        error.cause.category = .registration) := by
  obtain ⟨tokens, scanned, spelled⟩ := exists_tokens_of_ofSource read
  obtain ⟨tokens', scanned', spelled'⟩ := exists_tokens_of_ofSource read'
  have ends : front.toList = [] ∨ front.toList.getLast? = some '\n' :=
    ends.imp_left fun empty => by rw [empty]; rfl
  obtain ⟨lines, rfl, none, last, goesOn⟩ :=
    @scanFrom_append file 0 0 back.toList front.toList tokens ends (Nat.zero_le _) scanned
  obtain ⟨_, same, inside⟩ := scanFrom_closed scanned
  obtain rfl := (List.append_inj' same rfl).1
  obtain ⟨lines', rfl, inside'⟩ := scanFrom_closed scanned'
  have whole : WholeLines lines := by
    cases text : front.toList with
    | nil =>
        rw [none (by rw [text]; rfl)]
        nofun
    | cons c rest =>
        obtain ⟨token, found, newline⟩ := last (by rw [text]; exact Nat.zero_lt_succ _)
        intro other found'
        rw [Option.mem_def.1 found] at found'
        cases found'
        exact newline
  have moved := scanFrom_moved (byteLength front.toList) first.decls.size first.numbers.length
    scanned'
  rw [Nat.zero_add] at moved goesOn
  have together := goesOn _ moved
  rw [← String.toList_append] at together
  rw [ofSource_of_scan together]
  exact Program.ofTokens_append _ whole inside inside' rfl rfl spelled spelled'

/-- A text that ends inside of nested blocks, with a comment behind them. -/
def nestedText : String :=
  "def f(n: int): int\n    if n == 0:\n        return 1\n" ++
    "    else:\n        return 2\n    # more\n"

/-- A text that starts with a record type without a body. -/
def bodilessText : String :=
  "hotpot Pot\nx: int = 1\ndef main():\n    f(n: x)\n"

/-- A record type behind nested blocks is read as it is on its own. A function behind itself is
declared twice. -/
theorem Program.ofSource_append_nested : ∃ first second,
    Program.ofSource nestedText "both" = .ok first ∧
    Program.ofSource bodilessText "both" = .ok second ∧
    List.Disjoint first.labels second.labels ∧
    Program.ofSource (nestedText ++ bodilessText) "both" = .ok (first.append (second.moved
      (.behind (byteLength nestedText.toList) first.decls.size first.numbers.length))) ∧
    ¬ List.Disjoint first.labels first.labels ∧
    ∃ error, Program.ofSource (nestedText ++ nestedText) "both" = .error error ∧
      error.cause.category = .registration := by
  have ends : nestedText = "" ∨ nestedText.toList.getLast? = some '\n' := by decide +kernel
  have reads : (Program.ofSource nestedText "both").toOption.map Program.labels =
      some [.function "f"] := by
    decide +kernel
  have reads' : (Program.ofSource bodilessText "both").toOption.map Program.labels =
      some [.record "Pot", .main, .global "x"] := by
    decide +kernel
  obtain ⟨first, read, labels⟩ := exists_ok_of_map_toOption reads
  obtain ⟨second, read', labels'⟩ := exists_ok_of_map_toOption reads'
  have apart : List.Disjoint first.labels second.labels := by
    rw [labels, labels']
    simp
  have shared : ¬ List.Disjoint first.labels first.labels := by
    rw [labels]
    simp
  exact ⟨first, second, read, read', apart, (Program.ofSource_append ends read read').1 apart, shared,
    (Program.ofSource_append ends read read).2 shared⟩

end Offside
