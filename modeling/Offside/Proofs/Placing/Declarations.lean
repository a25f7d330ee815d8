import Offside.Proofs.Placing.Statements

/-! # Tracking functions and record types

The signature of a function takes up the words of its header, and its body the lines under it. The
members of a record type are read one after the other, but kept apart by what they are.
-/

namespace Offside

open Parse ParseState Outline

variable {all : List Token} {state : ParseState}

section Functions

theorem freshId_tracks :
    Tracks Moves all freshId state fun _ passed after => passed = [] ∧ after.rest = state.rest :=
  fun _ => ⟨[], ⟨rfl, rfl, rfl, rfl, List.prefix_rfl, rfl⟩, rfl, rfl⟩

/-- A parameter takes up the same words as its declaration. -/
theorem param_tracks :
    Tracks Takes all param state fun param used after =>
      ∀ decls : Array VarDecl, after.program.decls.toList <+: decls.toList →
        (param.outline decls).Covers used := by
  refine (expect_tracks rfl).bind fun label used mid takes taken => ?_
  obtain ⟨rfl, -, -⟩ := taken
  refine (expect_tracks rfl).discard.bind fun _ colon mid₁ takes₁ _ => ?_
  refine typeSpec_tracks.bind fun type typed mid₂ takes₂ _ => .spanSince_bind ?_
  refine declareVar_tracks.bind fun id rest after _ declared => .pure fun decls grown => ?_
  obtain ⟨rfl, found⟩ := declared
  have whole := (takes.trans (takes₁.trans takes₂)).goesOver
  rw [Param.outline, found decls grown]
  simpa using covers_node whole (LieIn.of_covers (covers_node whole .nil))

/-- Reads the rest of the header of a function. -/
def functionHead (word : Token) : ParseM Signature := do
  let name ← expect .identifier
  discard (expect .openParen)
  let params ← commaSeparated .closeParen param
  discard (expect .closeParen)
  discard (expect .colon)
  let returnType ← returnType
  return ⟨name.value, params, returnType, ← spanSince word.span.start⟩

theorem function_eq :
    function = (do
      let word ← take
      let signature ← functionHead word
      lineEnd
      let body ← block
      let id ← freshId
      return ⟨⟨id⟩, signature, body, ← spanSince word.span.start⟩) := by
  simp only [function, functionHead, bind_assoc, pure_bind]

theorem returnType_tracks : Tracks Takes all returnType state fun _ _ _ => True := by
  refine .kind_bind ?_
  split
  · exact .pure trivial
  · exact .pure trivial
  · exact typeSpec_tracks.mono fun _ _ _ _ _ => trivial

/-- The signature of a function takes up all words of its header. -/
theorem functionHead_tracks {before : ParseState} {word : Token}
    (started : before.Takes [word] state) :
    Tracks Takes all (functionHead word) state fun signature used after =>
      ∀ decls : Array VarDecl, after.program.decls.toList <+: decls.toList →
        (signature.outline decls).Covers (word :: used) := by
  refine (expect_tracks rfl).bind fun name named mid takes _ => ?_
  refine (expect_tracks rfl).discard.bind fun _ opening mid₁ takes₁ _ => ?_
  refine (commaSeparated_tracks (fun params used inner =>
    ∀ decls : Array VarDecl, inner.program.decls.toList <+: decls.toList →
      LieIn (params.map (Param.outline decls)) used)
    (fun forward lie decls grown => (lie decls (forward.decls.trans grown)).extend)
    (fun params used inner lie => ?_) (fun _ _ => .nil)).bind fun params listed mid₂ takes₂ lie => ?_
  · refine param_tracks.mono fun param more after forward covers decls grown => ?_
    have both :=
      (lie decls (forward.decls.trans grown)).append (LieIn.of_covers (covers decls grown))
    simpa using both
  refine (expect_tracks rfl).discard.bind fun _ closing mid₃ takes₃ _ => ?_
  refine (expect_tracks rfl).discard.bind fun _ colon mid₄ takes₄ _ => ?_
  refine returnType_tracks.bind fun type typed after takes₅ _ => .spanSince_bind (.pure ?_)
  have behind := takes₃.trans (takes₄.trans takes₅)
  have whole := started.trans (takes.trans (takes₁.trans (takes₂.trans behind)))
  intro decls grown
  have params : LieIn (params.map (Param.outline decls)) (listed ++ (closing ++ (colon ++ typed))) :=
    (lie decls (behind.decls.trans grown)).extend
  rw [Signature.outline, List.append_nil]
  exact covers_node whole.goesOver
    (((params.prepend opening).prepend named).prepend [word])

/-- What a function covers: the words that its outline takes up. -/
def Function.CoversIn (decls : Array VarDecl) (function : Function) (words : List Token) : Prop :=
  (function.outline decls).Over words

/-- A function is read with its headers. -/
theorem function_tracks (word : state.kind = .defWord) :
    Tracks Moves all function state (ReadFrom Function.CoversIn Function.headers state) := by
  rw [function_eq]
  refine (take_tracks (by rw [word]; rfl)).lift.bind fun token passed mid moves taken => ?_
  obtain ⟨takes, used, rfl, -⟩ := taken
  rw [used] at takes
  refine (functionHead_tracks takes).lift.bind fun signature passed₁ mid₁ moves₁ read => ?_
  obtain ⟨takes₁, header⟩ := read
  refine lineEnd_tracks.bind fun _ passed₂ mid₂ moves₂ ends => ?_
  obtain ⟨spacing, blanks, splits, none⟩ := ends
  refine (block_tracks mid₂).bind fun body passed₃ mid₃ moves₃ read' => ?_
  refine freshId_tracks.bind fun number passed₄ after moves₄ fresh => .spanSince_bind (.pure ?_)
  obtain ⟨rfl, same⟩ := fresh
  have whole := moves.trans (moves₁.trans (moves₂.trans (moves₃.trans moves₄)))
  have words : solid (passed ++ (passed₁ ++ (passed₂ ++ (passed₃ ++ [])))) =
      state.current :: (solid passed₁ ++ solid passed₃) := by
    simp [used, spacing]
  intro decls grown
  have covers := header decls ((moves₂.trans (moves₃.trans moves₄)).decls.trans grown)
  obtain ⟨goes, lays⟩ := read' decls (moves₄.decls.trans grown)
  refine ⟨?_, fun depth column => ?_⟩
  · rw [Function.CoversIn, Function.outline, List.append_nil, words]
    exact (covers_node (whole.goesOver words)
      ((LieIn.of_covers covers).append (LieIn.of_over goes))).toOver
  · obtain ⟨line, splits', words'⟩ := (takes.trans takes₁).splits splits
    rw [none, List.append_nil] at words'
    rw [Function.headers, same]
    refine .cons splits' ⟨column, ?_⟩
      (lays depth (by rw [moves₂.indent, moves₁.indent, moves.indent, column]))
    rw [words']
    exact ⟨⟨_, _, rfl, word, rfl⟩, covers⟩

end Functions

section Records

/-- What a member of a record type covers: the words that its outline takes up. -/
def Parse.Member.CoversIn (decls : Array VarDecl) (member : Parse.Member) (words : List Token) :
    Prop :=
  (member.outline decls).Over words

/-- Reads a line with the declaration of a variable. -/
def variableLine : ParseM VarId := do
  let decl ← varDecl
  lineEnd
  return decl

/-- A line with the declaration of a variable is its only header. -/
theorem variableLine_tracks :
    Tracks Moves all variableLine state (ReadFrom (fun decls id => (id.outline decls).Over)
      (fun depth id => [⟨depth, .variable id⟩]) state) := by
  refine varDecl_tracks.lift.bind fun id passed mid moves read => ?_
  obtain ⟨takes, covers⟩ := read
  refine lineEnd_tracks.bind fun _ passed' after moves' ends => .pure fun decls grown => ?_
  obtain ⟨spacing, blanks, splits, none⟩ := ends
  have covers := covers decls (moves'.decls.trans grown)
  obtain ⟨line, splits', same⟩ := takes.splits splits
  rw [none, List.append_nil] at same
  refine ⟨by simpa [spacing] using covers.toOver, fun depth column => .single splits' ⟨column, ?_⟩⟩
  rw [same]
  exact covers

/-- A member of a record type is read with its headers. -/
theorem recordMember_tracks :
    Tracks Moves all recordMember state
      (ReadFrom Parse.Member.CoversIn Parse.Member.headers state) := by
  refine .get_bind ?_
  split
  · next word => exact .map (function_tracks word)
  split
  · have line : Tracks Moves all (do return .property (← variableLine)) state
        (ReadFrom Parse.Member.CoversIn Parse.Member.headers state) := .map variableLine_tracks
    simpa only [variableLine, bind_assoc, pure_bind] using line
  · exact .failHere

theorem recordParent_tracks :
    Tracks Takes all recordParent state fun parent used _ =>
      LieIn (parent.toList.map Name.outline) used := by
  refine .kind_bind ?_
  split
  · next colon =>
    refine (take_tracks (by rw [colon]; rfl)).discard.bind fun _ used mid _ _ => .kind_bind ?_
    split
    · next found =>
      refine (take_tracks (by rw [found]; rfl)).bind fun token named after _ taken => .pure ?_
      obtain ⟨rfl, rfl, -⟩ := taken
      rw [List.append_nil]
      exact (LieIn.of_covers (covers_name found)).prepend _
    · exact .pure .nil
  · exact .pure .nil

/-- A record type with its members as they stand in the source. -/
structure OrderedRecord where
  record : RecordDecl
  members : List Parse.Member
  properties : record.properties = members.filterMap Parse.Member.property?
  methods : record.methods = members.filterMap Parse.Member.method?

namespace OrderedRecord

/-- What a record type covers: the words that its outline takes up. -/
def CoversIn (decls : Array VarDecl) (ordered : OrderedRecord) (words : List Token) : Prop :=
  (ordered.record.outline decls ordered.members).Over words

/-- The headers in a record type, in the order of its members. -/
def headers (depth : Nat) (ordered : OrderedRecord) : List Header :=
  ordered.record.headers depth ordered.members

theorem property_mem (ordered : OrderedRecord) {id : VarId}
    (h : id ∈ ordered.record.properties) : .property id ∈ ordered.members := by
  rw [ordered.properties] at h
  obtain ⟨member, listed, same⟩ := List.mem_filterMap.1 h
  cases member with
  | property id => cases same; exact listed
  | method function => cases same

theorem method_mem (ordered : OrderedRecord) {function : Function}
    (h : function ∈ ordered.record.methods) : .method function ∈ ordered.members := by
  rw [ordered.methods] at h
  obtain ⟨member, listed, same⟩ := List.mem_filterMap.1 h
  cases member with
  | property id => cases same
  | method function => cases same; exact listed

/-- A record type without properties and methods has no members. -/
theorem members_eq_nil (ordered : OrderedRecord) (properties : ordered.record.properties = [])
    (methods : ordered.record.methods = []) : ordered.members = [] := by
  rw [ordered.properties] at properties
  rw [ordered.methods] at methods
  cases listed : ordered.members with
  | nil => rfl
  | cons member rest =>
      rw [listed] at properties methods
      cases member with
      | property id => cases properties
      | method function => cases methods

end OrderedRecord

/-- Reads a record type, keeping its members in order. -/
def orderedRecord : ParseM OrderedRecord := do
  let word ← take
  let name ← expect .identifier
  let parent ← recordParent
  lineEnd
  let members ← indented (lines recordMember)
  let id ← freshId
  let span ← spanSince word.span.start
  return ⟨{
    id := ⟨id⟩
    name := name.value
    parent
    properties := members.filterMap Parse.Member.property?
    methods := members.filterMap Parse.Member.method?
    span }, members, rfl, rfl⟩

theorem record_eq : record = (do return (← orderedRecord).record) := by
  simp only [record, orderedRecord, bind_assoc, pure_bind]

/-- A record type is read with its headers. -/
theorem orderedRecord_tracks (word : state.kind = .hotpotWord) :
    Tracks Moves all orderedRecord state
      (ReadFrom OrderedRecord.CoversIn OrderedRecord.headers state) := by
  refine (take_tracks (by rw [word]; rfl)).lift.bind fun token passed mid moves taken => ?_
  obtain ⟨takes, used, rfl, -⟩ := taken
  rw [used] at takes
  refine (expect_tracks rfl).lift.bind fun name passed₁ mid₁ moves₁ named => ?_
  obtain ⟨takes₁, -⟩ := named
  refine recordParent_tracks.lift.bind fun parent passed₂ mid₂ moves₂ read => ?_
  obtain ⟨takes₂, lie⟩ := read
  refine lineEnd_tracks.bind fun _ passed₃ mid₃ moves₃ ends => ?_
  obtain ⟨spacing, blanks, splits, none⟩ := ends
  refine (indented_tracks (lines_tracks fun inner _ => recordMember_tracks)).bind
    fun members passed₄ mid₄ moves₄ left => ?_
  obtain ⟨inner, read, rfl⟩ := left
  refine freshId_tracks.bind fun number passed₅ after moves₅ fresh => .spanSince_bind (.pure ?_)
  obtain ⟨rfl, same⟩ := fresh
  have whole := moves.trans (moves₁.trans (moves₂.trans (moves₃.trans (moves₄.trans moves₅))))
  have words : solid (passed ++ (passed₁ ++ (passed₂ ++ (passed₃ ++ (passed₄ ++ []))))) =
      state.current :: (solid passed₁ ++ (solid passed₂ ++ solid passed₄)) := by
    simp [used, spacing]
  intro decls grown
  obtain ⟨turns, lays⟩ := read decls (moves₅.decls.trans grown)
  have parts : LieIn (parent.toList.map Name.outline ++ members.map (Parse.Member.outline decls))
      (state.current :: (solid passed₁ ++ (solid passed₂ ++ solid passed₄))) := by
    have members := (turns.map (Parse.Member.outline decls)).lieIn
    exact ((lie.append members).prepend (solid passed₁)).prepend [state.current]
  refine ⟨?_, fun depth column => ?_⟩
  · rw [OrderedRecord.CoversIn, RecordDecl.outline, List.append_nil, words]
    exact (covers_node (whole.goesOver words) parts).toOver
  · obtain ⟨line, splits', words'⟩ := (takes.trans (takes₁.trans takes₂)).splits splits
    rw [none, List.append_nil] at words'
    have deeper : mid₃.deeper.indent = stepWidth * (depth + 1) := by
      simp [deeper, Nat.mul_add, moves₃.indent, moves₂.indent, moves₁.indent, moves.indent, column]
    rw [OrderedRecord.headers, RecordDecl.headers, same]
    refine .cons splits' ⟨column, ?_⟩ (lays (depth + 1) deeper)
    rw [words']
    refine ⟨⟨_, _, rfl, word, rfl⟩, (lie.prepend (solid passed₁)).prepend _, ?_⟩
    intro properties methods
    have empty : members = [] :=
      OrderedRecord.members_eq_nil ⟨_, members, rfl, rfl⟩ properties methods
    subst empty
    have no : solid passed₄ = [] := turns
    simp only [no, List.append_nil] at words whole
    exact whole.goesOver words

end Records

end Offside
