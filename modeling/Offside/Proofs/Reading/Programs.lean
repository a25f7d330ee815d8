import Offside.Proofs.Lexing.Values
import Offside.Proofs.Reading.Statements
import Offside.Grammar.Program

/-! # Programs are read safely

A line of the outermost block adds one thing to the program, and with it everything that reading the
line has added. So a program that has been read is sound: nothing in it is dangling, repeated or out
of place.
-/

namespace Offside

open Parse ParseState

/-- The numbers in a record type: those of its methods and then its own. -/
def RecordDecl.numbers (record : RecordDecl) : List Nat :=
  record.methods.map (fun method => method.id.number) ++ [record.id.number]

/-- The numbers of the functions, methods and record types of a program. -/
def Program.numbers (program : Program) : List Nat :=
  program.records.flatMap RecordDecl.numbers ++
    program.functions.map (fun function => function.id.number) ++
    program.main.toList.map fun function => function.id.number

/-- The trees of a program can be read. Outside of functions, statements declare nothing themselves.
-/
structure Program.Spelled (good : TokenKind → String → Prop) (program : Program) : Prop where
  decls : ∀ decl ∈ program.decls, decl.Spelled good
  records : ∀ record ∈ program.records, record.Spelled good program.decls
  functions : ∀ function ∈ program.functions, function.Spelled good program.decls
  main : ∀ function ∈ program.main, function.Spelled good program.decls
  statements : ∀ stmt ∈ program.statements, stmt.Spelled good ∧ stmt.declared? = none

/-- No two things of a kind have the same name, and none has a name that is taken. -/
structure Program.Distinct (program : Program) : Prop where
  globals : ((program.globals.filterMap program.decl?).map VarDecl.name).Nodup
  records : (DataType.builtinNames ++ program.records.map RecordDecl.name).Nodup
  functions : (program.functions.map Function.name).Nodup
  others : ∀ function ∈ program.functions, function.name ≠ Program.mainName
  main : ∀ function ∈ program.main, function.name = Program.mainName

/-- Every declaration has its index as its handle and is held in one place, and so many numbers have
been handed out, each to one function or record type. -/
structure Program.Counted (program : Program) (count : Nat) : Prop where
  ids : program.decls.toList.map VarDecl.id = program.validHandles
  handles : program.handles.Perm program.validHandles
  numbers : program.numbers.Perm (List.range count)

/-- A program that has been read. -/
structure Program.Sound (good : TokenKind → String → Prop) (program : Program) (count : Nat) :
    Prop where
  spelled : program.Spelled good
  distinct : program.Distinct
  counted : program.Counted count

variable {good : TokenKind → String → Prop} {state : ParseState}

section Stays

variable {decls others : Array VarDecl}

/-- A declaration stays where it is while more are added. -/
theorem getElem?_of_prefix {index : Nat} {decl : VarDecl} (grown : decls.toList <+: others.toList)
    (h : decls[index]? = some decl) : others[index]? = some decl := by
  rw [← Array.getElem?_toList] at h ⊢
  obtain ⟨more, same⟩ := grown
  obtain ⟨inside, -⟩ := List.getElem?_eq_some_iff.1 h
  rw [← same, List.getElem?_append_left inside, h]

theorem Function.Spelled.mono {function : Function} (h : function.Spelled good decls)
    (grown : decls.toList <+: others.toList) : function.Spelled good others := by
  refine ⟨h.name, fun param member => ?_, h.returnType, h.body⟩
  obtain ⟨decl, found, none⟩ := h.params param member
  exact ⟨decl, getElem?_of_prefix grown found, none⟩

theorem RecordDecl.Spelled.mono {record : RecordDecl} (h : record.Spelled good decls)
    (grown : decls.toList <+: others.toList) : record.Spelled good others :=
  ⟨h.name, h.parent, fun method member => (h.methods method member).mono grown, h.numbers⟩

end Stays

section Parts

theorem freshId_safe :
    Safe good Leads freshId state fun number after =>
      Adds good state [] [number] after ∧ after.rest = state.rest ∧
        after.program = state.program :=
  fun _ => ⟨⟨List.suffix_rfl, rfl, rfl, rfl, List.prefix_rfl, Nat.le_succ _⟩,
    ⟨⟨[], by simp, by simp, by simp, by simp⟩, by simp, by simp⟩, rfl, rfl⟩

/-- A parameter is a declaration without a first value. -/
theorem param_safe :
    Safe good Leads param state fun param after => Adds good state [param.decl] [] after ∧
      ∃ decl, after.program.decls[param.decl.index]? = some decl ∧ decl.init = none := by
  refine (expect_safe (by simp)).lift.bind fun label named _ ⟨passes, _, spelled, _⟩ => ?_
  refine (expect_safe (by simp)).lift.discard.bind fun _ behind _ ⟨_, passes', _⟩ => ?_
  refine typeSpec_safe.lift.bind fun type typed _ ⟨passes'', _, spelled'⟩ => ?_
  refine .spanSince_bind fun span => (declareVar_safe fun id => ⟨spelled, spelled', by simp⟩).bind
    fun id after _ ⟨adds, _, found⟩ => .pure ⟨?_, _, found, rfl⟩
  exact adds.after_passes ((passes.trans passes').trans passes'')

theorem returnType_safe :
    Safe good Passes returnType state fun type _ => type = .null ∨ type.Spelled good := by
  refine .kind_bind ?_
  split
  · exact .pure (.inl rfl)
  · exact .pure (.inl rfl)
  · exact typeSpec_safe.mono fun type after _ read => .inr read.2

/-- A function is read from one state up to another. -/
structure Function.ReadFrom (good : TokenKind → String → Prop) (state : ParseState)
    (function : Function) (after : ParseState) : Prop where
  shorter : after.rest.length < state.rest.length
  spelled : function.Spelled good after.program.decls
  adds : Adds good state function.handles [function.id.number] after

theorem function_safe :
    Safe good Leads function state (Function.ReadFrom good state) := by
  refine take_safe.lift.bind fun token taken _ ⟨passes, _⟩ => ?_
  have opened := passes.rest.length_le
  refine (expect_safe (by simp)).lift.bind fun name named _ ⟨passes₁, _, spelledName, shorter₁⟩ => ?_
  refine (expect_safe (by simp)).lift.discard.bind fun _ opened _ ⟨_, passes₂, _⟩ => ?_
  refine (commaSeparated_safe (fun params inner =>
    Adds good opened (params.map Param.decl) [] inner ∧ ∀ param ∈ params, ∃ decl,
      inner.program.decls[param.decl.index]? = some decl ∧ decl.init = none)
    (fun params s s' passes kept => ⟨kept.1.before_passes passes, passes.program ▸ kept.2⟩)
    (fun params inner within kept => ?_) ⟨.nothing rfl rfl, by simp⟩).bind
    fun params listed leads ⟨adds, plain⟩ => ?_
  · refine param_safe.mono fun param after leads ⟨adds, plain⟩ => ⟨?_, ?_⟩
    · simpa using kept.1.trans adds
    · simp only [List.forall_mem_append, List.forall_mem_singleton]
      refine ⟨fun param member => ?_, plain⟩
      obtain ⟨decl, found, none⟩ := kept.2 param member
      exact ⟨decl, getElem?_of_prefix leads.decls found, none⟩
  have within := leads.rest.length_le
  refine (expect_safe (by simp)).lift.discard.bind fun _ closed _ ⟨_, passes₃, _⟩ => ?_
  refine (expect_safe (by simp)).lift.discard.bind fun _ colon _ ⟨_, passes₄, _⟩ => ?_
  refine returnType_safe.lift.bind fun type typed _ ⟨passes₅, spelledType⟩ => .spanSince_bind ?_
  intro span
  refine lineEnd_safe.lift.bind fun _ begun _ ⟨passes₆, _⟩ => ?_
  refine block_safe.bind fun body mid leads₇ read => ?_
  refine freshId_safe.bind fun number after leads₈ ⟨numbered, rest, _⟩ =>
    .spanSince_bind fun span' => .pure ?_
  have header := ((passes₃.trans passes₄).trans passes₅).trans passes₆
  have opens := passes.trans (passes₁.trans passes₂)
  refine ⟨?_, ⟨spelledName, fun param member => ?_, spelledType, read.spelled⟩, ?_⟩
  · have behind := (passes₂.leads.trans (leads.trans (header.leads.trans leads₇))).rest.length_le
    rw [rest]
    omega
  · obtain ⟨decl, found, none⟩ := plain param member
    refine ⟨decl, getElem?_of_prefix (header.leads.trans (leads₇.trans leads₈)).decls found, none⟩
  · simpa [Function.handles] using (adds.after_passes opens).trans
      ((read.adds.after_passes header).trans numbered)

/-- The handles in a member of a record type. -/
def Parse.Member.handles : Member → List VarId
  | .property decl => [decl]
  | .method function => function.handles

/-- The number of a member of a record type, if it is a method. -/
def Parse.Member.numbers : Member → List Nat
  | .property _ => []
  | .method function => [function.id.number]

theorem recordMember_safe :
    Safe good Leads recordMember state fun member after =>
      after.rest.length < state.rest.length ∧
        Adds good state member.handles member.numbers after ∧
          ∀ method, member = .method method → method.Spelled good after.program.decls := by
  refine .get_bind ?_
  split
  · refine function_safe.bind fun function after _ read => .pure ?_
    exact ⟨read.shorter, read.adds, by rintro _ ⟨⟩; exact read.spelled⟩
  split
  · refine varDecl_safe.bind fun decl mid _ ⟨shorter, adds, _⟩ => ?_
    refine lineEnd_safe.lift.bind fun _ after _ ⟨passes, _⟩ => .pure ?_
    have := passes.rest.length_le
    exact ⟨by omega, adds.before_passes passes, by simp⟩
  · exact .failHere fun _ => by simp [ErrorCause.category]

theorem recordParent_safe :
    Safe good Passes recordParent state fun parent _ =>
      ∀ name, parent = some name → good .identifier name.text := by
  refine .kind_bind ?_
  split
  · refine take_safe.discard.bind fun _ after _ _ => .kind_bind ?_
    split
    · next found =>
      refine take_safe.bind fun token _ _ ⟨same, taken⟩ => .pure ?_
      rintro _ ⟨⟩
      obtain ⟨spelled, -⟩ := taken (by simp [found])
      rwa [same, found] at spelled
    · exact .pure (by simp)
  · exact .pure (by simp)

/-- A record type is read from one state up to another. -/
structure RecordDecl.ReadFrom (good : TokenKind → String → Prop) (state : ParseState)
    (record : RecordDecl) (after : ParseState) : Prop where
  shorter : after.rest.length < state.rest.length
  spelled : record.Spelled good after.program.decls
  adds : Adds good state record.handles record.numbers after

/-- Properties and methods are listed apart from each other, with the same handles in all. -/
theorem handles_perm_of_members (members : List Member) :
    (members.flatMap Member.handles).Perm (members.filterMap Member.property? ++
      (members.filterMap Member.method?).flatMap Function.handles) := by
  induction members with
  | nil => exact .refl _
  | cons member rest ih =>
      cases member with
      | property decl => exact ih.cons decl
      | method function =>
          refine (ih.append_left function.handles).trans ?_
          simp only [Member.property?, Member.method?, List.filterMap_cons, List.flatMap_cons]
          rw [← List.append_assoc, ← List.append_assoc]
          exact List.perm_append_comm.append_right _

theorem numbers_of_members (members : List Member) :
    members.flatMap Member.numbers =
      (members.filterMap Member.method?).map fun method => method.id.number := by
  induction members with
  | nil => rfl
  | cons member rest ih =>
      cases member <;> simp [Member.numbers, Member.method?, List.filterMap_cons, ih]

theorem record_safe :
    Safe good Leads record state (RecordDecl.ReadFrom good state) := by
  refine take_safe.lift.bind fun token taken _ ⟨passes, _⟩ => ?_
  have opened := passes.rest.length_le
  refine (expect_safe (by simp)).lift.bind fun name named _ ⟨passes₁, _, spelledName, shorter₁⟩ => ?_
  refine recordParent_safe.lift.bind fun parent opened _ ⟨passes₂, spelledParent⟩ => ?_
  refine lineEnd_safe.lift.bind fun _ begun _ ⟨passes₃, _⟩ => ?_
  have members : Safe good Leads (indented (lines recordMember)) begun fun members after =>
      Adds good begun (members.flatMap Member.handles) (members.flatMap Member.numbers) after ∧
        ∀ method ∈ members.filterMap Member.method?, method.Spelled good after.program.decls := by
    have inside : Safe good Leads (lines recordMember) begun.deeper fun members after =>
        Adds good begun (members.flatMap Member.handles) (members.flatMap Member.numbers) after ∧
          ∀ method ∈ members.filterMap Member.method?, method.Spelled good after.program.decls := by
      refine lines_safe _ (fun members s s' passes kept =>
        ⟨kept.1.before_passes passes, passes.program ▸ kept.2⟩)
        (fun members inner within kept => ?_) ⟨.nothing rfl rfl, by simp⟩
      refine recordMember_safe.mono fun member after leads ⟨shorter, adds, spelled⟩ =>
        ⟨shorter, by simpa using kept.1.trans adds, ?_⟩
      intro method listed
      simp only [List.filterMap_append, List.mem_append, List.mem_filterMap] at listed
      rcases listed with listed | ⟨other, listed, same⟩
      · exact (kept.2 method (List.mem_filterMap.2 listed)).mono leads.decls
      · cases List.mem_singleton.1 listed
        cases member with
        | property decl => cases same
        | method function =>
            cases same
            exact spelled _ rfl
    exact Runs.indented inside fun members after kept => ⟨kept.1.shallower, kept.2⟩
  refine members.bind fun members mid leads₄ ⟨adds, methods⟩ => ?_
  refine freshId_safe.bind fun number after leads₅ ⟨numbered, rest, same⟩ =>
    .spanSince_bind fun span => .pure ?_
  have within := leads₄.rest.length_le
  have header := ((passes₁.trans passes₂).trans passes₃)
  have within' := (passes₂.trans passes₃).rest.length_le
  refine ⟨by rw [rest]; omega, ⟨spelledName, spelledParent, fun method listed =>
    (methods method listed).mono leads₅.decls, ?_⟩, ?_⟩
  · intro method listed
    have taken : method.id.number ∈ members.flatMap Member.numbers := by
      rw [numbers_of_members]
      exact List.mem_map_of_mem listed
    have last : mid.nextId ≤ number := numbered.first_le (by simp)
    exact Nat.lt_of_lt_of_le (adds.lt_nextId taken) last
  have all := (adds.after_passes (passes.trans header)).trans numbered
  rw [List.append_nil, numbers_of_members] at all
  exact all.perm (handles_perm_of_members members) (.refl _)

end Parts

section Registration

variable {program next : Program} {mid : ParseState} {handles : List VarId} {numbers : List Nat}

/-- Registering leaves the declarations as they are, or else fails as registering does. -/
def Registers (program : Program) : Except Error Program → Prop
  | .ok next => next.decls = program.decls
  | .error error => error.cause.category = .registration

theorem insertFunction_registers (function : Function) :
    Registers program (program.insertFunction function) := by
  unfold Program.insertFunction
  split <;> split <;> rfl

theorem insertRecord_registers (record : RecordDecl) :
    Registers program (program.insertRecord record) := by
  unfold Program.insertRecord
  split <;> rfl

theorem insertGlobal_registers {id : VarId} (valid : (program.decl? id).isSome) :
    Registers program (program.insertGlobal id) := by
  obtain ⟨decl, found⟩ := Option.isSome_iff_exists.1 valid
  simp only [Program.insertGlobal, Program.decl, found]
  split <;> rfl

theorem register_safe {add : Program → Except Error Program}
    (registers : Registers state.program (add state.program)) :
    Safe good Leads (register add) state fun _ after => after.rest = state.rest ∧
      after.nextId = state.nextId ∧ add state.program = .ok after.program := by
  refine .get_bind ?_
  cases added : add state.program with
  | ok next =>
      rw [added] at registers
      have same : state.program.decls.toList <+: next.decls.toList :=
        (show next.decls = state.program.decls from registers) ▸ List.prefix_rfl
      exact fun _ => ⟨⟨List.suffix_rfl, rfl, rfl, rfl, same, Nat.le_refl _⟩, rfl, rfl, rfl⟩
  | error error =>
      rw [added] at registers
      have ordinary : error.cause.category ≠ .internal := by
        rw [show error.cause.category = .registration from registers]
        simp
      exact fun _ => ⟨(Passes.refl state).leads, ordinary⟩

theorem validHandles_append {new : List VarDecl}
    (h : next.decls = program.decls ++ new.toArray) :
    next.validHandles = program.validHandles ++
      (List.range' program.decls.size new.length).map VarId.mk := by
  simp only [Program.validHandles, h, Array.size_append, List.size_toArray, List.range_eq_range',
    ← List.map_append]
  rw [← List.range'_append_1, Nat.zero_add]

/-- What has been read is counted once it is in the program. -/
theorem Program.Counted.add (counted : state.program.Counted state.nextId) (next : Program)
    (adds : Adds good state handles numbers mid) (decls : next.decls = mid.program.decls)
    (held : next.handles.Perm (state.program.handles ++ handles))
    (numbered : next.numbers.Perm (state.program.numbers ++ numbers)) :
    next.Counted mid.nextId := by
  obtain ⟨⟨new, grown, ids, listed, -⟩, taken, nextId⟩ := adds
  rw [grown] at decls
  have valid : next.validHandles = state.program.validHandles ++ _ := validHandles_append decls
  refine ⟨?_, ?_, ?_⟩
  · rw [valid, decls]
    simp [counted.ids, ids]
  · rw [valid, ← ids]
    exact held.trans (counted.handles.append listed)
  · rw [nextId, List.range_eq_range', ← List.range'_append_1, Nat.zero_add]
    refine numbered.trans (List.Perm.append ?_ taken)
    rw [← List.range_eq_range']
    exact counted.numbers

/-- The trees of a program can still be read when declarations have been added. -/
theorem Program.Spelled.add (spelled : state.program.Spelled good)
    (adds : Adds good state handles numbers mid) : mid.program.Spelled good := by
  obtain ⟨⟨new, grown, -, -, spelledNew⟩, -, -⟩ := adds
  have longer : state.program.decls.toList <+: mid.program.decls.toList := by simp [grown]
  rw [grown] at longer ⊢
  refine ⟨?_, fun record member => (spelled.records record member).mono longer,
    fun function member => (spelled.functions function member).mono longer,
    fun function member => (spelled.main function member).mono longer, spelled.statements⟩
  intro decl member
  simp only [Array.mem_append, List.mem_toArray] at member
  exact member.elim (spelled.decls decl) (spelledNew decl)

theorem Program.Counted.decl?_isSome {count : Nat} (counted : program.Counted count) {id : VarId}
    (held : id ∈ program.handles) : (program.decl? id).isSome :=
  Program.mem_validHandles.1 (counted.handles.mem_iff.1 held)

/-- Names stay distinct when declarations have been added. -/
theorem Program.Distinct.add (distinct : state.program.Distinct)
    (counted : state.program.Counted state.nextId) (adds : Adds good state handles numbers mid) :
    mid.program.Distinct := by
  obtain ⟨⟨new, grown, -, -, -⟩, -, -⟩ := adds
  have longer : state.program.decls.toList <+: mid.program.decls.toList := by simp [grown]
  have same : ∀ id ∈ state.program.globals, mid.program.decl? id = state.program.decl? id := by
    intro id member
    have held : id ∈ state.program.handles := by simp [Program.handles, member]
    obtain ⟨decl, found⟩ := Option.isSome_iff_exists.1 (counted.decl?_isSome held)
    rw [found]
    exact getElem?_of_prefix longer found
  have globals : mid.program.globals = state.program.globals := by rw [grown]
  refine ⟨?_, ?_, ?_, ?_, ?_⟩
  · rw [globals, List.filterMap_congr same]
    exact distinct.globals
  · rw [grown]
    exact distinct.records
  · rw [grown]
    exact distinct.functions
  · rw [grown]
    exact distinct.others
  · rw [grown]
    exact distinct.main

/-- Where an item stands among others does not change which handles there are. -/
theorem perm_of_count {α : Type} [BEq α] [LawfulBEq α] {front back : List α}
    (h : ∀ item, front.count item = back.count item) : front.Perm back :=
  List.perm_iff_count.2 h

theorem insertFunction_sound {function : Function} (sound : state.program.Sound good state.nextId)
    (adds : Adds good state function.handles [function.id.number] mid)
    (spelled : function.Spelled good mid.program.decls)
    (h : mid.program.insertFunction function = .ok next) : next.Sound good mid.nextId := by
  have trees := sound.spelled.add adds
  have names := sound.distinct.add sound.counted adds
  have counts := fun decls held numbered =>
    sound.counted.add next adds decls held numbered
  obtain ⟨⟨new, grown, -, -, -⟩, -, -⟩ := adds
  unfold Program.insertFunction at h
  split at h
  · next named =>
    split at h
    · cases h
    · next free =>
      cases h
      have none : state.program.main = none := by simpa [grown] using free
      refine ⟨⟨trees.decls, trees.records, trees.functions, ?_, trees.statements⟩,
        ⟨names.globals, names.records, names.functions, names.others, ?_⟩, counts rfl ?_ ?_⟩
      · rintro _ ⟨⟩
        exact spelled
      · rintro _ ⟨⟩
        exact named
      · refine perm_of_count fun id => ?_
        simp [Program.handles, grown, none, List.count_append]
        omega
      · simp [Program.numbers, grown, none]
  · next other =>
    split at h
    · cases h
    · next free =>
      cases h
      refine ⟨⟨trees.decls, trees.records, ?_, trees.main, trees.statements⟩,
        ⟨names.globals, names.records, ?_, ?_, names.main⟩, counts rfl ?_ ?_⟩
      · simp only [List.forall_mem_append, List.forall_mem_singleton]
        exact ⟨trees.functions, spelled⟩
      · rw [List.map_append]
        refine List.nodup_append'.2 ⟨names.functions, List.nodup_singleton _, ?_⟩
        intro name listed same
        obtain ⟨earlier, member, rfl⟩ := List.mem_map.1 listed
        have unlike := List.find?_eq_none.1 (Option.not_isSome_iff_eq_none.1 free) earlier member
        exact unlike (by simpa using same)
      · simp only [List.forall_mem_append, List.forall_mem_singleton]
        exact ⟨names.others, other⟩
      · refine perm_of_count fun id => ?_
        simp [Program.handles, grown, List.count_append]
        omega
      · refine perm_of_count fun number => ?_
        simp [Program.numbers, grown, List.count_append, List.count_cons]

theorem insertRecord_sound {record : RecordDecl} (sound : state.program.Sound good state.nextId)
    (adds : Adds good state record.handles record.numbers mid)
    (spelled : record.Spelled good mid.program.decls)
    (h : mid.program.insertRecord record = .ok next) : next.Sound good mid.nextId := by
  have trees := sound.spelled.add adds
  have names := sound.distinct.add sound.counted adds
  have counts := fun decls held numbered =>
    sound.counted.add next adds decls held numbered
  obtain ⟨⟨new, grown, -, -, -⟩, -, -⟩ := adds
  unfold Program.insertRecord at h
  split at h
  · cases h
  · next free =>
    cases h
    refine ⟨⟨trees.decls, ?_, trees.functions, trees.main, trees.statements⟩,
      ⟨names.globals, ?_, names.functions, names.others, names.main⟩, counts rfl ?_ ?_⟩
    · simp only [List.forall_mem_append, List.forall_mem_singleton]
      exact ⟨trees.records, spelled⟩
    · rw [List.map_append, ← List.append_assoc]
      refine List.nodup_append'.2 ⟨names.records, List.nodup_singleton _, ?_⟩
      intro name listed same
      cases List.mem_singleton.1 same
      simp only [Program.takenNames, List.contains_eq_mem, decide_eq_true_eq] at free
      exact free listed
    · refine perm_of_count fun id => ?_
      simp [Program.handles, grown, List.count_append]
      omega
    · refine perm_of_count fun number => ?_
      simp [Program.numbers, grown, List.count_append]
      omega

theorem insertGlobal_sound {id : VarId} (sound : state.program.Sound good state.nextId)
    (adds : Adds good state [id] [] mid) (h : mid.program.insertGlobal id = .ok next) :
    next.Sound good mid.nextId := by
  have trees := sound.spelled.add adds
  have names := sound.distinct.add sound.counted adds
  have counts := fun decls held numbered =>
    sound.counted.add next adds decls held numbered
  obtain ⟨⟨new, grown, -, -, -⟩, -, -⟩ := adds
  unfold Program.insertGlobal Program.decl at h
  cases found : mid.program.decl? id with
  | none => simp [found] at h
  | some decl =>
      simp only [found] at h
      split at h
      · cases h
      · next free =>
        cases h
        refine ⟨⟨trees.decls, trees.records, trees.functions, trees.main, trees.statements⟩,
          ⟨?_, names.records, names.functions, names.others, names.main⟩, counts rfl ?_ ?_⟩
        · have last : [id].filterMap mid.program.decl? = [decl] := by simp [found]
          change (List.map VarDecl.name
            ((mid.program.globals ++ [id]).filterMap mid.program.decl?)).Nodup
          rw [List.filterMap_append, last, List.map_append]
          refine List.nodup_append'.2 ⟨names.globals, List.nodup_singleton _, ?_⟩
          intro name listed same
          obtain ⟨earlier, member, rfl⟩ := List.mem_map.1 listed
          have unlike := List.find?_eq_none.1 (Option.not_isSome_iff_eq_none.1 free) earlier member
          exact unlike (by simpa using same)
        · refine perm_of_count fun id => ?_
          simp [Program.handles, grown, List.count_append, List.count_cons]
          omega
        · simp [Program.numbers, grown]

theorem insertStmt_sound {stmt : Stmt} (sound : state.program.Sound good state.nextId)
    (adds : Adds good state stmt.handles [] mid) (spelled : stmt.Spelled good)
    (silent : stmt.declared? = none) : (mid.program.insertStmt stmt).Sound good mid.nextId := by
  have trees := sound.spelled.add adds
  have names := sound.distinct.add sound.counted adds
  have counts := fun decls held numbered =>
    sound.counted.add (mid.program.insertStmt stmt) adds decls held numbered
  obtain ⟨⟨new, grown, -, -, -⟩, -, -⟩ := adds
  refine ⟨⟨trees.decls, trees.records, trees.functions, trees.main, ?_⟩,
    ⟨names.globals, names.records, names.functions, names.others, names.main⟩, counts rfl ?_ ?_⟩
  · simp only [Program.insertStmt, List.forall_mem_append, List.forall_mem_singleton]
    exact ⟨trees.statements, spelled, silent⟩
  · refine perm_of_count fun id => ?_
    simp [Program.handles, Program.insertStmt, Stmt.listHandles_eq_flatMap, grown]
  · simp [Program.numbers, Program.insertStmt, grown]

end Registration

/-- A line of the outermost block leaves a sound program. -/
theorem topLevel_safe (sound : state.program.Sound good state.nextId) :
    Safe good Leads topLevel state fun _ after =>
      after.rest.length < state.rest.length ∧ after.program.Sound good after.nextId := by
  refine .get_bind ?_
  split
  · refine function_safe.bind fun function mid _ read => ?_
    refine (register_safe (insertFunction_registers function)).mono
      fun _ after _ ⟨rest, nextId, added⟩ => ⟨rest ▸ read.shorter, ?_⟩
    rw [nextId]
    exact insertFunction_sound sound read.adds read.spelled added
  · refine record_safe.bind fun record mid _ read => ?_
    refine (register_safe (insertRecord_registers record)).mono
      fun _ after _ ⟨rest, nextId, added⟩ => ⟨rest ▸ read.shorter, ?_⟩
    rw [nextId]
    exact insertRecord_sound sound read.adds read.spelled added
  · split
    · refine varDecl_safe.bind fun decl mid _ ⟨shorter, adds, found⟩ => ?_
      refine lineEnd_safe.lift.bind fun _ behind _ ⟨passes, _⟩ => ?_
      refine (register_safe (insertGlobal_registers (passes.program ▸ found))).mono
        fun _ after _ ⟨rest, nextId, added⟩ => ⟨?_, ?_⟩
      · have := passes.rest.length_le
        rw [rest]
        omega
      · rw [nextId]
        exact insertGlobal_sound sound (adds.before_passes passes) added
    · next expression =>
      refine stmtLine_safe.bind fun stmt mid _ read => ?_
      refine Runs.mono (register_safe rfl) fun _ after _ ⟨rest, nextId, added⟩ => ⟨rest ▸ read.shorter, ?_⟩
      rw [nextId, ← Except.ok.inj added]
      exact insertStmt_sound sound read.adds read.spelled
        (read.declared (by simpa using expression))

/-- The program that nothing has been added to is sound. -/
theorem empty_sound : Program.Sound good .empty 0 := by
  refine ⟨⟨?_, ?_, ?_, ?_, ?_⟩, ⟨?_, ?_, ?_, ?_, ?_⟩, ⟨?_, ?_, ?_⟩⟩ <;>
    simp [Program.empty, Program.validHandles, Program.handles, Program.numbers, Stmt.listHandles,
      DataType.builtinNames]

theorem program_safe (sound : state.program.Sound good state.nextId) :
    Safe good Leads program state fun program after => program.Sound good after.nextId := by
  refine (lines_safe (fun _ inner => inner.program.Sound good inner.nextId)
    (fun _ s s' passes kept => ?_) (fun _ inner _ kept => topLevel_safe kept) sound).discard.bind
    fun _ after _ ⟨_, kept⟩ => .get_bind (.pure kept)
  rw [passes.program, passes.nextId]
  exact kept

section Results

variable {tokens : List Token} {file : String} {program : Program} {count : Nat}

/-- Before a list of tokens that ends with the end of the input. -/
theorem ofTokens_append_eof {front : List Token} {last : Token} {file : String}
    (ends : last.kind = .eof) :
    ParseState.ofTokens (front ++ [last]) file =
      { rest := front, closing := last, lastEnd := Position.ofByte file 0 } := by
  unfold ParseState.ofTokens
  simp [ends]

theorem ready_ofTokens (h : ∀ token ∈ tokens, good token.kind token.value) :
    (ParseState.ofTokens tokens file).Ready good := by
  unfold ParseState.ofTokens
  split
  · exact ⟨rfl, rfl, by simp⟩
  · next last _ =>
    split
    · next closes =>
      exact ⟨closes, rfl, fun token member => h token (List.dropLast_subset _ member)⟩
    · exact ⟨rfl, rfl, h⟩

/-- Before some tokens, nothing has been read yet. -/
theorem sound_ofTokens (tokens : List Token) (file : String) :
    (ParseState.ofTokens tokens file).program.Sound good
      (ParseState.ofTokens tokens file).nextId := by
  unfold ParseState.ofTokens
  split
  · exact empty_sound
  · split <;> exact empty_sound

/-- The program that good tokens spell is sound, and if they spell none, no internal error is to
blame. -/
theorem ofTokens_outcome (h : ∀ token ∈ tokens, good token.kind token.value) :
    match Program.ofTokens tokens file with
    | .ok program => ∃ count, program.Sound good count
    | .error error => error.cause.category ≠ .internal := by
  have safe := program_safe (sound_ofTokens tokens file) (ready_ofTokens h)
  have run : Program.ofTokens tokens file =
      (Parse.program.run.run (ParseState.ofTokens tokens file)).1 := rfl
  unfold Action.Ensures at safe
  rw [run]
  generalize Parse.program.run.run (ParseState.ofTokens tokens file) = outcome at safe ⊢
  match outcome, safe with
  | (.ok _, after), ⟨_, sound⟩ => exact ⟨after.nextId, sound⟩
  | (.error error, after), ⟨_, ordinary⟩ => exact ordinary

/-- What comes of a source text: a sound program, or an error for which the text is to blame. -/
theorem ofSource_outcome (source file : String) :
    match Program.ofSource source file with
    | .ok program => ∃ count, program.Sound TokenKind.Admits count
    | .error error => error.cause.category ≠ .internal := by
  have scanned := scan_outcome source file
  unfold Program.ofSource
  cases scan : Token.scan source file with
  | error error =>
      rw [scan] at scanned
      change error.cause.category ≠ .internal
      rw [show error.cause.category = .lex from scanned]
      simp
  | ok tokens =>
      rw [scan] at scanned
      exact ofTokens_outcome scanned

/-- The program that a source text spells is sound. -/
theorem Program.sound_of_ofSource {source file : String} {program : Program}
    (read : Program.ofSource source file = .ok program) :
    ∃ count, program.Sound TokenKind.Admits count := by
  have outcome := ofSource_outcome source file
  rw [read] at outcome
  exact outcome

/-- A sound program is coherent. -/
theorem Program.Sound.coherent (sound : program.Sound good count) : program.Coherent := by
  refine ⟨fun {id decl} found => ?_, sound.counted.handles,
    (List.nodup_append'.1 sound.distinct.records).2.1⟩
  have listed : program.validHandles[id.index]? = some decl.id := by
    rw [← sound.counted.ids, List.getElem?_map, Array.getElem?_toList]
    rw [Program.decl?] at found
    simp [found]
  have inside : id.index < program.decls.size := by
    unfold Program.decl? at found
    exact (Array.getElem?_eq_some_iff.1 found).1
  simpa [Program.validHandles, inside] using listed.symm

end Results

end Offside
