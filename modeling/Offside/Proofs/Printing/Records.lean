import Offside.Proofs.Printing.Statements

/-! # Printed functions and record types are read back

Their numbers are handed out in the order in which their ends are read, so that those of the methods
of a record type come before its own.
-/

namespace Offside

open Parse ParseState Word TokenKind

/-- The next numbers to be handed out are the new ones of some numbers. -/
def Numbered (ρ : Renaming) (state : ParseState) (numbers : List Nat) : Prop :=
  numbers.map ρ.number = List.range' state.nextId numbers.length

namespace Numbered

variable {program : Program} {ρ : Renaming} {state mid after : ParseState} {handles : List VarId}
  {numbers numbers' : List Nat}

theorem passes (h : Numbered ρ state numbers) (forward : state.Passes after) :
    Numbered ρ after numbers := by
  rw [Numbered, forward.nextId]
  exact h

theorem split (h : Numbered ρ state (numbers ++ numbers')) :
    numbers.map ρ.number = List.range' state.nextId numbers.length ∧
      numbers'.map ρ.number = List.range' (state.nextId + numbers.length) numbers'.length := by
  rw [Numbered, List.map_append, List.length_append, ← List.range'_append_1] at h
  exact List.append_inj h (by simp)

theorem left (h : Numbered ρ state (numbers ++ numbers')) : Numbered ρ state numbers :=
  h.split.1

/-- Once as many numbers have been handed out as stand first, the others are next. -/
theorem right_of_nextId (h : Numbered ρ state (numbers ++ numbers'))
    (nextId : mid.nextId = state.nextId + numbers.length) : Numbered ρ mid numbers' := by
  rw [Numbered, nextId]
  exact h.split.2

theorem right (h : Numbered ρ state (numbers ++ numbers'))
    (done : Redeclares program ρ state handles numbers.length mid) : Numbered ρ mid numbers' :=
  h.right_of_nextId done.nextId

theorem number_eq {number : Nat} (h : Numbered ρ state [number]) :
    ρ.number number = state.nextId := by
  rw [Numbered, List.map_singleton, List.length_singleton, List.range'_one, List.cons.injEq] at h
  exact h.1

end Numbered

section Functions

variable {decimal : Number.Binary64 → String} {program : Program} {ρ : Renaming}
  {state : ParseState} {tail : List Word} {level : Nat}

theorem freshId_reads :
    Reads Leads freshId state fun number after => number = state.nextId ∧
      after.words = state.words ∧ Redeclares program ρ state [] 1 after :=
  fun _ => ⟨⟨List.suffix_rfl, rfl, rfl, rfl, List.prefix_rfl, Nat.le_succ _⟩, rfl, rfl,
    ⟨[], by simp, rfl⟩, rfl⟩

/-- A printed parameter is read back. -/
theorem param_reads {param : Param} (due : Due program ρ state [param.decl])
    (plain : ∃ decl, program.decls[param.decl.index]? = some decl ∧ decl.init = none)
    (words : state.words = param.decl.words decimal program ++ tail)
    (next : headKind tail = comma ∨ headKind tail = closeParen) :
    Reads Leads Parse.param state fun param' after =>
      param'.renamed .same = param.renamed ρ ∧ Redeclares program ρ state [param.decl] 0 after ∧
        after.words = tail := by
  obtain ⟨decl, found, none⟩ := plain
  obtain ⟨decl', found', same, spelled⟩ := due.found param.decl (by simp)
  obtain rfl : decl' = decl := Option.some.inj (found'.symm.trans found)
  simp only [VarId.words, found', Option.map_some, Option.getD_some, VarDecl.words, none,
    List.cons_append, List.append_assoc, List.nil_append] at words
  have ends : Ends tail := by
    rcases next with next | next <;> rw [Ends, next] <;> rfl
  have other : headKind (skip tail) ≠ closeBracket := by
    rw [ends.skip_eq]
    rcases next with next | next <;> rw [next] <;> simp
  apply (expect_reads words rfl (by simp [Word.name])).lift.bind
  intro label named _ taken
  obtain ⟨toColon, written, ahead⟩ := taken
  rw [skip_of_not_blank rfl] at ahead
  apply (mark_reads ahead (by simp)).lift.bind
  intro _ behind _ taken
  obtain ⟨toType, ahead⟩ := taken
  rw [skip_cons_of_blank rfl, spelled.type.skip_words] at ahead
  apply (typeSpec_reads spelled.type ahead other).lift.bind
  intro type typed _ read
  obtain ⟨toEnd, rfl, ahead⟩ := read
  have passes := (toColon.trans toType).trans toEnd
  have value : label.value = decl'.name := congrArg Word.value written
  apply Runs.spanSince_bind
  intro span
  rw [value]
  apply (declareVar_reads (due.passes passes) found' same (by rw [none])).bind
  intro id after _ read
  obtain ⟨rfl, redeclares, words⟩ := read
  rw [ahead, ends.skip_eq] at words
  exact .pure ⟨rfl, redeclares.after_passes passes, words⟩

/-- A type that a function returns can be read, since nothing is null. -/
theorem spelled_returnType {type : DataType} (h : type = .null ∨ type.Spelled Admits) :
    type.Spelled Admits := by
  rcases h with rfl | spelled
  · exact ⟨nullWord, "null", 0, .inr rfl, rfl, rfl⟩
  · exact spelled

/-- The printed type that a function returns is read back. -/
theorem returnType_reads {type : DataType} (spelled : type.Spelled Admits)
    (words : state.words = type.words ++ mark newline :: tail) :
    Reads Passes returnType state fun type' after =>
      type' = type ∧ after.words = mark newline :: tail := by
  have starts : headKind state.words ≠ newline ∧ headKind state.words ≠ eof := by
    obtain ⟨word, rest, printed, starts⟩ := spelled.head
    rw [words, printed, List.cons_append, headKind]
    constructor <;> intro same <;> simp [same] at starts
  apply Reads.kind_bind
  split
  · next line => exact absurd line starts.1
  · next eof => exact absurd eof starts.2
  · exact typeSpec_reads spelled words (by simp [skip, mark, isBlank])

variable (decimal) in
theorem params_start {params : List Param} (plain : ∀ param ∈ params, ∃ decl,
    program.decls[param.decl.index]? = some decl ∧ decl.init = none) :
    ∀ param ∈ params, ∃ word rest, param.decl.words decimal program = word :: rest ∧
      word.kind ≠ closeParen ∧ word.kind.isBlank = false := by
  intro param listed
  obtain ⟨decl, found, _⟩ := plain param listed
  obtain ⟨rest, words⟩ := VarId.head decimal (show program.decl? param.decl = some decl from found)
  exact ⟨_, _, words, by simp [Word.name], rfl⟩

/-- Printed parameters are read back. -/
theorem params_read {params : List Param} (plain : ∀ param ∈ params, ∃ decl,
      program.decls[param.decl.index]? = some decl ∧ decl.init = none)
    (due : Due program ρ state (params.map Param.decl))
    (words : state.words = separated (params.map fun param => param.decl.words decimal program) ++
      mark closeParen :: tail) :
    Reads Leads (commaSeparated closeParen Parse.param) state fun params' after =>
      after.words = mark closeParen :: tail ∧
        params'.map (Param.renamed .same) = params.map (Param.renamed ρ) ∧
        Redeclares program ρ state (params.map Param.decl) 0 after := by
  apply commaSeparated_reads (fun param => param.decl.words decimal program)
    (fun sources items after =>
      items.map (Param.renamed .same) = sources.map (Param.renamed ρ) ∧
        Redeclares program ρ state (sources.map Param.decl) 0 after)
  · intro sources items mid after passes held
    exact ⟨held.1, held.2.before_passes passes⟩
  · exact params_start decimal plain
  · simp
  · intro front param back items inner behind all _ words next held
    rw [all, List.map_append, List.map_cons, ← List.singleton_append] at due
    apply (param_reads (due.right held.2).left (plain param (by simp [all])) words next).mono
    intro param' after _ read
    obtain ⟨same, redeclares, words⟩ := read
    refine ⟨words, ?_, ?_⟩
    · simp only [List.map_append, List.map_cons, List.map_nil, held.1, same]
    · rw [List.map_append]
      exact held.2.trans redeclares
  · exact words
  · exact ⟨rfl, .nothing rfl rfl⟩

/-- A printed function is read back. -/
theorem function_reads (faithful : Faithful decimal) {function : Function}
    (spelled : function.Spelled Admits program.decls)
    (due : Due program ρ state function.handles)
    (numbered : Numbered ρ state [function.id.number])
    (words : state.words = function.words decimal program level ++ tail)
    (indent : state.indent = stepWidth * level) (outside : Outside (level + 1) tail) :
    Reads Leads Parse.function state fun function' after =>
      function'.renamed .same = function.renamed ρ ∧ after.words = tail ∧
        Redeclares program ρ state function.handles 1 after := by
  simp only [Function.words, List.cons_append, List.append_assoc] at words
  have spelledType := spelled_returnType spelled.returnType
  apply (take_reads words (by simp [mark])).lift.bind
  intro word s₁ leads₁ taken
  obtain ⟨passes₁, _, ahead⟩ := taken
  rw [skip_cons_of_blank rfl, skip_of_not_blank rfl] at ahead
  apply (expect_reads ahead rfl (by simp [Word.name])).lift.bind
  intro name s₂ leads₂ taken
  obtain ⟨passes₂, named, ahead⟩ := taken
  rw [skip_of_not_blank rfl] at ahead
  apply (mark_reads ahead (by simp)).lift.bind
  intro _ s₃ leads₃ read
  obtain ⟨passes₃, ahead⟩ := read
  rw [skip_separated _ (params_start decimal spelled.params) rfl] at ahead
  have opens := (passes₁.trans passes₂).trans passes₃
  apply (params_read spelled.params (due.left.passes opens) ahead).bind
  intro params s₄ leads₄ read
  obtain ⟨ahead, keptParams, declared⟩ := read
  apply (mark_reads ahead (by simp)).lift.bind
  intro _ s₅ leads₅ read
  obtain ⟨passes₅, ahead⟩ := read
  rw [skip_of_not_blank rfl] at ahead
  apply (mark_reads ahead (by simp)).lift.bind
  intro _ s₆ leads₆ read
  obtain ⟨passes₆, ahead⟩ := read
  rw [skip_cons_of_blank rfl, spelledType.skip_words] at ahead
  apply (returnType_reads spelledType ahead).lift.bind
  intro type s₇ leads₇ read
  obtain ⟨passes₇, rfl, ahead⟩ := read
  apply Runs.spanSince_bind
  intro span
  apply (lineEnd_reads ahead).lift.bind
  intro _ s₈ leads₈ read
  obtain ⟨passes₈, ahead⟩ := read
  have header := ((passes₅.trans passes₆).trans passes₇).trans passes₈
  replace declared := (declared.after_passes opens).before_passes header
  have indent : s₈.indent = stepWidth * level :=
    header.indent.trans (leads₄.indent.trans (opens.indent.trans indent))
  apply (block_reads faithful spelled.body (due.right declared) ahead indent outside).bind
  intro body s₉ _ read
  have declaredBody := declared.trans read.redeclares
  apply freshId_reads.bind
  intro number after _ handed
  obtain ⟨rfl, ahead, counted⟩ := handed
  apply Runs.spanSince_bind
  intro span'
  refine .pure ⟨?_, ahead.trans read.words, ?_⟩
  · have number : ρ.number function.id.number = s₉.nextId := by
      rw [numbered.number_eq, declaredBody.nextId]
      rfl
    have value : name.value = function.name := congrArg Word.value named
    rw [Function.renamed, Function.renamed, keptParams, read.same, number, value]
    rfl
  · have all := declaredBody.trans counted
    rw [List.append_nil] at all
    exact all

end Functions

section Members

variable (decimal : Number.Binary64 → String) (program : Program) (ρ : Renaming)

/-- The words of a line of the body of a record type. -/
def Parse.Member.words : Member → List Word
  | .property id => id.words decimal program ++ [mark newline]
  | .method function => function.words decimal program 1

/-- A member of a record type without its spans, renamed. -/
def Parse.Member.renamed : Member → Member
  | .property id => .property (ρ.decl id)
  | .method function => .method (function.renamed ρ)

/-- The members of a record type, in the order in which they are printed. -/
def RecordDecl.members (record : RecordDecl) : List Member :=
  record.properties.map .property ++ record.methods.map .method

variable {decimal program ρ}

theorem property?_renamed (member : Member) :
    (member.renamed ρ).property? = member.property?.map ρ.decl := by
  cases member <;> rfl

theorem method?_renamed (member : Member) :
    (member.renamed ρ).method? = member.method?.map (Function.renamed ρ) := by
  cases member <;> rfl

/-- Members that are the same give the same properties and methods. -/
theorem properties_of_members {members members' : List Member}
    (same : members'.map (Member.renamed .same) = members.map (Member.renamed ρ)) :
    members'.filterMap Member.property? = (members.filterMap Member.property?).map ρ.decl := by
  have found := congrArg (List.filterMap Member.property?) same
  simp only [List.filterMap_map, Function.comp_def, property?_renamed] at found
  rw [List.map_filterMap, ← found]
  exact List.filterMap_congr fun member _ => (congrFun Option.map_id _).symm

theorem methods_of_members {members members' : List Member}
    (same : members'.map (Member.renamed .same) = members.map (Member.renamed ρ)) :
    (members'.filterMap Member.method?).map (Function.renamed .same) =
      (members.filterMap Member.method?).map (Function.renamed ρ) := by
  have found := congrArg (List.filterMap Member.method?) same
  simp only [List.filterMap_map, Function.comp_def, method?_renamed] at found
  rw [List.map_filterMap, List.map_filterMap, found]

namespace RecordDecl

variable (record : RecordDecl)

theorem members_properties : record.members.filterMap Member.property? = record.properties := by
  simp [members, List.filterMap_map, Function.comp_def, Member.property?]

theorem members_methods : record.members.filterMap Member.method? = record.methods := by
  simp [members, List.filterMap_map, Function.comp_def, Member.method?]

theorem members_handles : record.members.flatMap Member.handles = record.handles := by
  simp [members, List.flatMap_map, Member.handles, handles]

theorem members_numbers :
    record.members.flatMap Member.numbers ++ [record.id.number] = record.numbers := by
  rw [numbers_of_members, members_methods, numbers]

theorem members_words :
    record.words decimal program = mark hotpotWord :: mark space :: Word.name record.name ::
      (parentWords record.parent ++ mark newline ::
        record.members.flatMap fun member => margin 1 ++ member.words decimal program) := by
  simp [RecordDecl.words, members, List.flatMap_map, Member.words]

end RecordDecl

end Members

section Records

variable {decimal : Number.Binary64 → String} {program : Program} {ρ : Renaming}
  {state : ParseState} {tail : List Word}

/-- A printed member of a record type is read back. -/
theorem recordMember_reads (faithful : Faithful decimal) {member : Member}
    (spelled : ∀ method, member = .method method → method.Spelled Admits program.decls)
    (due : Due program ρ state member.handles) (numbered : Numbered ρ state member.numbers)
    (words : state.words = member.words decimal program ++ tail)
    (indent : state.indent = stepWidth * 1) (after : After 1 tail) :
    Reads Leads recordMember state fun member' last =>
      member'.renamed .same = member.renamed ρ ∧ last.words = tail ∧
        Redeclares program ρ state member.handles member.numbers.length last := by
  intro ready
  refine Runs.get_bind ?_ ready
  rw [ready.kind_eq]
  cases member with
  | method function =>
      rw [Member.words] at words
      rw [words, if_pos (by rfl)]
      apply (function_reads faithful (spelled function rfl) due numbered words indent
        after.outside).bind
      intro function' last _ read
      exact .pure ⟨by rw [Member.renamed, Member.renamed, read.1], read.2⟩
  | property id =>
      obtain ⟨decl, found, _⟩ := due.found id (by simp [Member.handles])
      obtain ⟨rest, printed⟩ := VarId.head decimal found
      rw [Member.words, List.append_assoc] at words
      have starts : state.startsDeclaration = true := by
        rw [startsDeclaration_eq ready, words, printed]
        rfl
      have other : headKind state.words ≠ defWord := by
        rw [words, printed]
        simp [Word.name]
      rw [if_neg other, if_pos starts]
      apply (varDecl_reads faithful due words rfl (by simp [mark])).bind
      intro id' mid _ read
      obtain ⟨rfl, redeclares, ahead⟩ := read
      apply (lineEnd_reads ahead).lift.bind
      intro _ last _ ended
      exact .pure ⟨rfl, ended.2, redeclares.before_passes ended.1⟩

/-- The printed name of a parent is read back. -/
theorem recordParent_reads {parent : Option Name}
    (words : state.words = parentWords parent ++ mark newline :: tail) :
    Reads Passes recordParent state fun parent' after =>
      parent'.map Name.bare = parent.map Name.bare ∧ after.words = mark newline :: tail := by
  apply Reads.kind_bind
  rw [words]
  cases parent with
  | none => exact .pure ⟨rfl, words⟩
  | some name =>
      simp only [parentWords, List.cons_append, List.nil_append] at words
      apply (take_reads words (by simp [mark])).discard.bind
      intro _ mid _ taken
      obtain ⟨_, _, ahead⟩ := taken
      rw [skip_cons_of_blank rfl, skip_of_not_blank rfl] at ahead
      apply Reads.kind_bind
      rw [ahead]
      apply (take_reads ahead (by simp [Word.name])).bind
      intro token after _ taken
      obtain ⟨named, ahead⟩ := taken
      rw [skip_of_not_blank rfl] at ahead
      have value : token.value = name.text := congrArg Word.value named
      exact .pure ⟨by rw [Option.map_some, Option.map_some, Name.bare, Name.bare, nameOf, value],
        ahead⟩

/-- The printed members of a record type are read back. -/
theorem members_read (faithful : Faithful decimal) {members : List Member}
    (spelled : ∀ method, .method method ∈ members → method.Spelled Admits program.decls)
    (due : Due program ρ state (members.flatMap Member.handles))
    (numbered : Numbered ρ state (members.flatMap Member.numbers))
    (words : state.words =
      members.flatMap (fun member => margin 1 ++ member.words decimal program) ++ tail)
    (indent : state.indent = stepWidth * 0) (outside : Outside 1 tail) :
    Reads Leads (indented (lines recordMember)) state fun members' after =>
      after.words = tail ∧ members'.map (Member.renamed .same) = members.map (Member.renamed ρ) ∧
        Redeclares program ρ state (members.flatMap Member.handles)
          (members.flatMap Member.numbers).length after := by
  have inside : Reads Leads (lines recordMember) state.deeper fun members' after =>
      after.words = tail ∧ members'.map (Member.renamed .same) = members.map (Member.renamed ρ) ∧
        Redeclares program ρ state.deeper (members.flatMap Member.handles)
          (members.flatMap Member.numbers).length after := by
    apply lines_reads (Member.words decimal program) (fun sources items after =>
      items.map (Member.renamed .same) = sources.map (Member.renamed ρ) ∧
        Redeclares program ρ state.deeper (sources.flatMap Member.handles)
          (sources.flatMap Member.numbers).length after)
    · intro sources items mid after passes held
      exact ⟨held.1, held.2.before_passes passes⟩
    · intro member listed
      cases member with
      | method function => exact ⟨_, _, rfl, rfl, by simp [mark], by simp [mark]⟩
      | property id =>
          obtain ⟨decl, found, _⟩ := due.found id
            (List.mem_flatMap_of_mem listed (by simp [Member.handles]))
          obtain ⟨rest, words⟩ := VarId.head decimal found
          rw [Member.words, words]
          exact ⟨_, _, rfl, rfl, by simp [Word.name], by simp [Word.name]⟩
    · intro front member back items inner behind all _ indent words after held
      rw [all, List.flatMap_append, List.flatMap_cons] at due numbered
      have numbered : Numbered ρ state.deeper _ := numbered
      apply (recordMember_reads faithful (fun method same => spelled method (by simp [all, same]))
        (due.deeper.right held.2).left (numbered.right held.2).left words indent after).mono
      intro member' last _ read
      obtain ⟨same, words, redeclares⟩ := read
      refine ⟨words, ?_, ?_⟩
      · simp only [List.map_append, List.map_cons, List.map_nil, held.1, same]
      · have both := held.2.trans redeclares
        rw [← List.length_append] at both
        simpa using both
    · exact words
    · exact outside
    · rw [Nat.mul_succ, ← indent]
      rfl
    · exact ⟨rfl, .nothing rfl rfl⟩
  exact Runs.indented inside fun members' after read => ⟨read.1, read.2.1, read.2.2.indented⟩

/-- A printed record type is read back. -/
theorem record_reads (faithful : Faithful decimal) {record : RecordDecl}
    (spelled : record.Spelled Admits program.decls) (due : Due program ρ state record.handles)
    (numbered : Numbered ρ state record.numbers)
    (words : state.words = record.words decimal program ++ tail)
    (indent : state.indent = stepWidth * 0) (outside : Outside 1 tail) :
    Reads Leads Parse.record state fun record' after =>
      record'.renamed .same = record.renamed ρ ∧ after.words = tail ∧
        Redeclares program ρ state record.handles record.numbers.length after := by
  rw [← record.members_handles] at due ⊢
  rw [← record.members_numbers] at numbered ⊢
  rw [record.members_words] at words
  simp only [List.cons_append, List.append_assoc] at words
  apply (take_reads words (by simp [mark])).lift.bind
  intro word s₁ _ taken
  obtain ⟨passes₁, _, ahead⟩ := taken
  rw [skip_cons_of_blank rfl, skip_of_not_blank rfl] at ahead
  apply (expect_reads ahead rfl (by simp [Word.name])).lift.bind
  intro name s₂ _ taken
  obtain ⟨passes₂, named, ahead⟩ := taken
  have visible : skip (parentWords record.parent ++ mark newline ::
      (record.members.flatMap (fun member => margin 1 ++ member.words decimal program) ++ tail)) =
      parentWords record.parent ++ mark newline ::
        (record.members.flatMap (fun member => margin 1 ++ member.words decimal program) ++
          tail) := by
    cases record.parent <;> rfl
  rw [visible] at ahead
  apply (recordParent_reads ahead).lift.bind
  intro parent s₃ _ read
  obtain ⟨passes₃, keptParent, ahead⟩ := read
  apply (lineEnd_reads ahead).lift.bind
  intro _ s₄ _ read
  obtain ⟨passes₄, ahead⟩ := read
  have header := ((passes₁.trans passes₂).trans passes₃).trans passes₄
  have spelledMethods : ∀ method, .method method ∈ record.members →
      method.Spelled Admits program.decls := by
    intro method listed
    apply spelled.methods
    rw [← record.members_methods]
    exact List.mem_filterMap.2 ⟨_, listed, rfl⟩
  apply (members_read faithful spelledMethods (due.passes header) (numbered.left.passes header)
    ahead (header.indent.trans indent) outside).bind
  intro members s₅ _ read
  obtain ⟨ahead, same, declared⟩ := read
  replace declared := declared.after_passes header
  apply freshId_reads.bind
  intro number after _ handed
  obtain ⟨rfl, words, counted⟩ := handed
  apply Runs.spanSince_bind
  intro span
  refine .pure ⟨?_, words.trans ahead, ?_⟩
  · have number : ρ.number record.id.number = s₅.nextId := (numbered.right declared).number_eq
    have value : name.value = record.name := congrArg Word.value named
    rw [RecordDecl.renamed, RecordDecl.renamed, number, value, keptParent,
      properties_of_members same, methods_of_members same, record.members_properties,
      record.members_methods]
    simp [Renaming.same]
  · have all := declared.trans counted
    rw [List.append_nil] at all
    rw [List.length_append]
    exact all

end Records

end Offside
