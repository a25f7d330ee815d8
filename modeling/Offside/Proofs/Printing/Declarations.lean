import Offside.Proofs.Printing.Expressions

/-! # Printed declarations are read back

What is read back gets new handles. They are handed out one after the other, so those of a tree are
known in advance: its handles are due, and once it has been read, its declarations are there again.
-/

namespace Offside

open Parse ParseState Word TokenKind

/-- The next handles to be handed out are the new ones of some handles, whose declarations can all
be read. -/
structure Due (program : Program) (ρ : Renaming) (state : ParseState) (handles : List VarId) :
    Prop where
  next : handles.map ρ.decl =
    (List.range' state.program.decls.size handles.length).map VarId.mk
  found : ∀ id ∈ handles, ∃ decl, program.decl? id = some decl ∧ decl.id = id ∧
    decl.Spelled Admits

/-- Between two states, declarations have been added that are those with certain handles, and a
number of numbers has been handed out. -/
structure Redeclares (program : Program) (ρ : Renaming) (state : ParseState)
    (handles : List VarId) (count : Nat) (after : ParseState) : Prop where
  program : ∃ new : List VarDecl,
    after.program = { state.program with decls := state.program.decls ++ new.toArray } ∧
    new.map (fun decl => some (decl.renamed .same)) =
      handles.map fun id => (program.decl? id).map (VarDecl.renamed ρ)
  nextId : after.nextId = state.nextId + count

section Handing

variable {program : Program} {ρ : Renaming} {state mid after : ParseState}
  {handles handles' : List VarId} {count count' : Nat}

namespace Redeclares

theorem nothing (same : after.program = state.program) (nextId : after.nextId = state.nextId) :
    Redeclares program ρ state [] 0 after :=
  ⟨⟨[], by simp [same], rfl⟩, nextId⟩

theorem of_passes (h : state.Passes after) : Redeclares program ρ state [] 0 after :=
  nothing h.program h.nextId

theorem trans (h : Redeclares program ρ state handles count mid)
    (h' : Redeclares program ρ mid handles' count' after) :
    Redeclares program ρ state (handles ++ handles') (count + count') after := by
  obtain ⟨⟨new, grown, same⟩, next⟩ := h
  obtain ⟨⟨new', grown', same'⟩, next'⟩ := h'
  refine ⟨⟨new ++ new', ?_, ?_⟩, ?_⟩
  · rw [grown', grown]
    simp
  · rw [List.map_append, List.map_append, same, same']
  · rw [next', next, Nat.add_assoc]

/-- What only goes forward declares nothing in front or behind. -/
theorem after_passes (h : state.Passes mid) (h' : Redeclares program ρ mid handles count after) :
    Redeclares program ρ state handles count after := by
  have forward : Redeclares program ρ state [] 0 mid := of_passes h
  have both := forward.trans h'
  rwa [Nat.zero_add] at both

theorem before_passes (h : Redeclares program ρ state handles count mid) (h' : mid.Passes after) :
    Redeclares program ρ state handles count after := by
  have forward : Redeclares program ρ mid [] 0 after := of_passes h'
  have both := h.trans forward
  rwa [List.append_nil] at both

/-- Going into a block and leaving it again declares nothing. -/
theorem indented (h : Redeclares program ρ state.deeper handles count after) :
    Redeclares program ρ state handles count after.shallower :=
  ⟨h.program, h.nextId⟩

theorem size (h : Redeclares program ρ state handles count after) :
    after.program.decls.size = state.program.decls.size + handles.length := by
  obtain ⟨⟨new, grown, same⟩, -⟩ := h
  have length := congrArg List.length same
  rw [List.length_map, List.length_map] at length
  rw [grown, ← length]
  simp

end Redeclares

namespace Due

theorem passes (due : Due program ρ state handles) (h : state.Passes after) :
    Due program ρ after handles :=
  ⟨h.program ▸ due.next, due.found⟩

theorem declared (due : Due program ρ state handles) :
    ∀ id ∈ handles, ∃ decl, program.decl? id = some decl := by
  intro id held
  obtain ⟨decl, found, _⟩ := due.found id held
  exact ⟨decl, found⟩

theorem deeper (due : Due program ρ state handles) : Due program ρ state.deeper handles :=
  ⟨due.next, due.found⟩

theorem split (due : Due program ρ state (handles ++ handles')) :
    handles.map ρ.decl = (List.range' state.program.decls.size handles.length).map VarId.mk ∧
      handles'.map ρ.decl = (List.range' (state.program.decls.size + handles.length)
        handles'.length).map VarId.mk := by
  have next := due.next
  rw [List.map_append, List.length_append, ← List.range'_append_1, List.map_append] at next
  exact List.append_inj next (by simp)

theorem left (due : Due program ρ state (handles ++ handles')) : Due program ρ state handles :=
  ⟨due.split.1, fun id listed => due.found id (List.mem_append_left _ listed)⟩

/-- Once as many handles have been handed out as stand first, the others are due. -/
theorem right_of_size (due : Due program ρ state (handles ++ handles'))
    (size : mid.program.decls.size = state.program.decls.size + handles.length) :
    Due program ρ mid handles' :=
  ⟨size ▸ due.split.2, fun id listed => due.found id (List.mem_append_right _ listed)⟩

theorem right (due : Due program ρ state (handles ++ handles'))
    (h : Redeclares program ρ state handles count mid) : Due program ρ mid handles' :=
  due.right_of_size h.size

end Due

end Handing

section Types

variable {state : ParseState} {tail : List Word}

theorem DataType.words_nested (element : DataType) (levels : Nat) :
    (element.nested levels).words = List.replicate levels (mark openBracket) ++
      (element.words ++ List.replicate levels (mark closeBracket)) := by
  induction levels with
  | zero => simp [nested]
  | succ levels ih =>
      rw [nested, words, ih, List.replicate_succ, List.replicate_succ']
      simp

/-- All words of a kind that follow one another are counted. -/
theorem countOf_reads {kind : TokenKind} {count : Nat} (visible : kind.isBlank = false)
    (inside : kind ≠ eof)
    (words : state.words = skip (List.replicate count (mark kind) ++ tail))
    (other : headKind (skip tail) ≠ kind) :
    Reads Passes (countOf kind) state fun found after =>
      found = count ∧ after.words = skip tail := by
  refine Runs.bind (?_ : Reads Passes _ state fun tokens after =>
    tokens.length = count ∧ after.words = skip tail) ?_
  · apply Runs.collect fun tokens inner => ∃ left, tokens.length + left = count ∧
      inner.words = skip (List.replicate left (mark kind) ++ tail)
    · intro tokens inner _ kept
      obtain ⟨left, total, words⟩ := kept
      apply Reads.kind_bind
      cases left with
      | zero =>
          rw [List.replicate_zero, List.nil_append] at words
          rw [words, if_neg other]
          exact .pure ⟨total, words⟩
      | succ left =>
          have ahead : inner.words = mark kind :: (List.replicate left (mark kind) ++ tail) :=
            words.trans (skip_of_not_blank visible)
          rw [ahead, headKind, if_pos (by rfl)]
          apply (take_reads ahead inside).bind
          intro token after _ taken
          refine .pure ⟨?_, left, ?_, taken.2⟩
          · rw [← length_words, ← length_words, taken.2, ahead]
            exact Nat.lt_succ_of_le (length_skip_le _)
          · rw [List.length_append, List.length_singleton, Nat.add_assoc, Nat.add_comm 1]
            exact total
    · exact ⟨count, Nat.zero_add _, words⟩
  · intro tokens after _ counted
    exact .pure counted

/-- The printed name of a type is read as the type. -/
theorem typeName_reads {kind : TokenKind} {name : String}
    (either : kind = identifier ∨ kind = nullWord) (admitted : kind.Admits name)
    (words : state.words = (DataType.ofName name).words ++ tail) :
    Reads Passes typeName state fun type after =>
      type = .ofName name ∧ after.words = skip tail := by
  apply Reads.kind_bind
  rcases DataType.words_ofName either admitted with ⟨null, printed⟩ | ⟨text, printed, _, same⟩
  · rw [printed] at words
    rw [words]
    apply (take_reads words (by simp [mark])).bind
    intro token after _ taken
    have value : token.value = "null" := congrArg Word.value taken.1
    exact .pure ⟨by rw [value, null]; rfl, taken.2⟩
  · rw [printed] at words
    rw [words]
    apply (take_reads words (by simp [Word.name])).bind
    intro token after _ taken
    have value : token.value = text := congrArg Word.value taken.1
    exact .pure ⟨by rw [value, same], taken.2⟩

/-- A type starts with its name or a bracket. -/
theorem DataType.Spelled.head {type : DataType} (spelled : type.Spelled Admits) :
    ∃ word rest, type.words = word :: rest ∧
      word.kind ∈ [identifier, nullWord, openBracket] := by
  obtain ⟨kind, name, levels, either, admitted, rfl⟩ := spelled
  cases levels with
  | zero =>
      rw [DataType.nested]
      rcases DataType.words_ofName either admitted with ⟨_, words⟩ | ⟨_, words, _⟩
      · exact ⟨_, _, words, by simp [mark]⟩
      · exact ⟨_, _, words, by simp [Word.name]⟩
  | succ levels => exact ⟨_, _, rfl, by simp [mark]⟩

/-- No blanks stand before a type. -/
theorem DataType.Spelled.skip_words {type : DataType} (spelled : type.Spelled Admits) :
    skip (type.words ++ tail) = type.words ++ tail := by
  obtain ⟨word, rest, words, starts⟩ := spelled.head
  rw [words]
  apply skip_of_not_blank
  simp only [List.mem_cons, List.not_mem_nil, or_false] at starts
  rcases starts with kind | kind | kind <;> rw [List.cons_append, headKind, kind] <;> rfl

/-- A printed type is read back. -/
theorem typeSpec_reads {type : DataType} (spelled : type.Spelled Admits)
    (words : state.words = type.words ++ tail) (other : headKind (skip tail) ≠ closeBracket) :
    Reads Passes typeSpec state fun type' after => type' = type ∧ after.words = skip tail := by
  have visible : skip (type.words ++ tail) = type.words ++ tail := spelled.skip_words
  obtain ⟨kind, name, levels, either, admitted, rfl⟩ := spelled
  have simple : DataType.Spelled Admits (.ofName name) := ⟨kind, name, 0, either, admitted, rfl⟩
  rw [DataType.words_nested, List.append_assoc, List.append_assoc] at words visible
  rw [← visible] at words
  apply Runs.get_bind
  have opens : headKind (skip ((DataType.ofName name).words ++
      (List.replicate levels (mark closeBracket) ++ tail))) ≠ openBracket := by
    rw [simple.skip_words]
    rcases DataType.words_ofName either admitted with ⟨_, printed⟩ | ⟨_, printed, _⟩ <;>
      simp [printed, mark, Word.name]
  apply (countOf_reads rfl (by simp) words opens).bind
  intro opened mid _ read
  obtain ⟨rfl, ahead⟩ := read
  rw [simple.skip_words] at ahead
  apply (typeName_reads either admitted ahead).bind
  intro element behind _ read
  obtain ⟨rfl, ahead⟩ := read
  apply (countOf_reads rfl (by simp) ahead other).bind
  intro closed after _ read
  rw [if_pos read.1]
  exact .pure ⟨rfl, read.2⟩

end Types

section Declarations

variable {decimal : Number.Binary64 → String} {program : Program} {ρ : Renaming}
  {state : ParseState} {tail : List Word}

variable (decimal) in
/-- A declaration starts with its name and a colon. -/
theorem VarId.head {id : VarId} {decl : VarDecl} (found : program.decl? id = some decl) :
    ∃ rest, id.words decimal program = Word.name decl.name :: mark colon :: rest := by
  rw [VarId.words, found]
  exact ⟨_, rfl⟩

theorem VarId.skip_words {id : VarId} {decl : VarDecl} (found : program.decl? id = some decl) :
    skip (id.words decimal program ++ tail) = id.words decimal program ++ tail := by
  obtain ⟨rest, words⟩ := VarId.head decimal found
  rw [words]
  exact skip_of_not_blank rfl

/-- The next handle is the new one of a handle that is due. -/
theorem Due.nextDecl {id : VarId} (due : Due program ρ state [id]) :
    state.program.nextDecl = ρ.decl id := by
  have next := due.next
  rw [List.map_singleton, List.length_singleton, List.range'_one, List.map_singleton,
    List.cons.injEq] at next
  exact next.1.symm

/-- A declaration is added again under its new handle. -/
theorem declareVar_reads {id : VarId} {decl : VarDecl} (due : Due program ρ state [id])
    (found : program.decl? id = some decl) (same : decl.id = id) {init : Option Expr}
    (kept : init.map Expr.bare = decl.init.map Expr.bare) {span : Span} :
    Reads Leads (declareVar decl.name decl.type init span) state fun id' after =>
      id' = ρ.decl id ∧ Redeclares program ρ state [id] 0 after ∧ after.words = state.words := by
  have next := due.nextDecl
  intro _
  refine ⟨⟨List.suffix_rfl, rfl, rfl, rfl, ?_, Nat.le_refl _⟩, next,
    ⟨⟨[⟨state.program.nextDecl, decl.name, decl.type, init, span⟩], ?_, ?_⟩, rfl⟩, rfl⟩
  · simp [Program.insertDecl]
  · simp [Program.insertDecl]
  · simp [found, VarDecl.renamed, next, same, kept, Renaming.same]

/-- A printed declaration is read back. -/
theorem varDecl_reads (faithful : Faithful decimal) {id : VarId} (due : Due program ρ state [id])
    (words : state.words = id.words decimal program ++ tail) (ends : Ends tail)
    (other : headKind tail ≠ closeBracket) :
    Reads Leads varDecl state fun id' after =>
      id' = ρ.decl id ∧ Redeclares program ρ state [id] 0 after ∧ after.words = tail := by
  obtain ⟨decl, found, same, spelled⟩ := due.found id (by simp)
  simp only [VarId.words, found, Option.map_some, Option.getD_some, VarDecl.words,
    List.cons_append, List.append_assoc] at words
  apply (expectName_reads words).lift.bind
  intro name named _ taken
  obtain ⟨toColon, written, ahead⟩ := taken
  rw [skip_of_not_blank rfl] at ahead
  apply (mark_reads ahead (by simp)).lift.bind
  intro _ behind _ taken
  obtain ⟨toType, ahead⟩ := taken
  rw [skip_cons_of_blank rfl, spelled.type.skip_words] at ahead
  have value : name.value = decl.name := congrArg Word.value written
  -- The first value comes last, if there is one.
  have finishes : ∀ init last, state.Passes last → last.words = tail →
      init.map Expr.bare = decl.init.map Expr.bare →
      Reads Leads (do declareVar name.value decl.type init (← spanSince name.span.start)) last
        fun id' after => id' = ρ.decl id ∧ Redeclares program ρ state [id] 0 after ∧
          after.words = tail := by
    intro init last passes words kept
    apply Runs.spanSince_bind
    intro span
    rw [value]
    apply (declareVar_reads (due.passes passes) found same kept).mono
    intro id' after _ read
    exact ⟨read.1, read.2.1.after_passes passes, read.2.2.trans words⟩
  cases init : decl.init with
  | none =>
      simp only [init, List.nil_append] at ahead
      apply (typeSpec_reads spelled.type ahead (by rw [ends.skip_eq]; exact other)).lift.bind
      intro type typed _ read
      obtain ⟨toEnd, rfl, ahead⟩ := read
      rw [ends.skip_eq] at ahead
      apply Reads.kind_bind
      rw [ahead, if_neg (ends.ne rfl)]
      exact finishes none typed ((toColon.trans toType).trans toEnd) ahead (by rw [init])
  | some value =>
      simp only [init, List.cons_append] at ahead
      apply (typeSpec_reads spelled.type ahead (by simp [skip, mark, isBlank])).lift.bind
      intro type typed _ read
      obtain ⟨toAssign, rfl, ahead⟩ := read
      rw [skip_cons_of_blank rfl, skip_of_not_blank rfl] at ahead
      apply Reads.kind_bind
      rw [ahead, headKind, if_pos (by rfl)]
      apply (take_reads ahead (by simp [mark])).lift.discard.bind
      intro _ assigned _ taken
      obtain ⟨_, toValue, _, ahead⟩ := taken
      have spelledInit := spelled.init value init
      rw [skip_cons_of_blank rfl, spelledInit.skip_words] at ahead
      apply (expr_reads faithful spelledInit ahead ends).lift.bind
      intro value' last _ read
      obtain ⟨toEnd, kept, ahead⟩ := read
      exact finishes (some value') last
        ((((toColon.trans toType).trans toAssign).trans toValue).trans toEnd) ahead
        (by rw [init, Option.map_some, Option.map_some, kept])

end Declarations

end Offside
