import Offside.Proofs.Comparing.Declarations
import Offside.Proofs.Reading.Entries

/-! # Comparing the reading of programs

What a line of the outermost block says is read side by side. Whether it can be entered on both sides
depends on what has been entered there, so that is asked for.
-/

namespace Offside

open Parse ParseState

/-- What is entered at another place. -/
def Entry.moved (move : Relocation) : Entry → Entry
  | .record added => .record (added.moved move)
  | .function added => .function (added.moved move)
  | .main added => .main (added.moved move)
  | .global id => .global (move.decl id)
  | .statement stmt => .statement (stmt.moved move)

theorem Entry.moved_ofFunction (move : Relocation) (function : Function) :
    (ofFunction function).moved move = ofFunction (function.moved move) := by
  unfold ofFunction
  rw [Function.name_moved]
  split <;> rfl

theorem Entry.moved_same (entry : Entry) : entry.moved .same = entry := by
  cases entry with
  | record added => rw [moved, added.moved_same]
  | function added => rw [moved, added.moved_same]
  | main added => rw [moved, added.moved_same]
  | global id => rfl
  | statement stmt => rw [moved, stmt.moved_same]

namespace Comparison

variable {c : Comparison} (lawful : c.Lawful) {started : Prop} {state state' : ParseState}

include lawful

/-- What a line of the outermost block says is read side by side. -/
theorem entry_follows (h : c.Abreast started c.inLine state state') :
    c.Follows entry entry state state'
      (c.Gives (Entry.moved c.left) (Entry.moved c.right) c.atLine) := by
  apply Follows.get_bind
  apply Follows.ite (h.kind_iff lawful rfl)
  · intro word
    apply (function_follows lawful h (word ▸ rfl)).bind
    rintro function function' after after' _ _ ⟨same, next⟩
    exact .pure ⟨by rw [Entry.moved_ofFunction, Entry.moved_ofFunction, same], next⟩
  intro _
  apply Follows.ite (h.kind_iff lawful rfl)
  · intro word
    apply (record_follows lawful h (word ▸ rfl)).bind
    rintro record record' after after' _ _ ⟨same, next⟩
    exact .pure ⟨congrArg Entry.record same, next⟩
  intro _
  apply Follows.ite (by rw [h.startsDeclaration_eq lawful])
  · intro _
    apply (varDecl_follows lawful h).bind
    rintro decl decl' mid mid' _ _ ⟨same, here⟩
    apply (lineEnd_follows lawful here).bind
    intro _ _ after after' _ _ next
    exact .pure ⟨congrArg Entry.global same, next⟩
  · intro _
    apply (stmtLine_follows lawful h).bind
    rintro stmt stmt' after after' _ _ ⟨given, -⟩
    exact .pure ⟨congrArg Entry.statement given.1, given.2⟩

/-- What the next line of the outermost block says is read side by side. -/
theorem nextEntry_follows (h : c.Abreast started c.atLine state state')
    (inside : c.beyond → state.passBlankLines.rest = [] → 0 < state.indent) :
    c.Follows nextEntry nextEntry state state'
      (Rounds state state' (c.Abreast started c.atLine) fun entry entry' after after' =>
        entry.moved c.left = entry'.moved c.right ∧ c.Abreast True c.atLine after after') := by
  apply (moreLines_follows lawful h inside).bind
  rintro more more' mid mid' stays stays' ⟨rfl, ahead⟩
  cases more with
  | false => exact .pure (ahead.imp And.right)
  | true =>
      have here : c.Abreast started c.inLine mid mid' := ahead
      apply ((entry_follows lawful here).both here.ready.1 here.ready.2 entry_safe entry_safe).bind
      rintro entry entry' after after' _ _ ⟨⟨same, next⟩, ⟨shorter, -⟩, shorter', -⟩
      exact .pure ⟨Nat.lt_of_lt_of_le shorter stays.rest, Nat.lt_of_lt_of_le shorter' stays'.rest,
        same, next⟩

/-- Where a line is read on the left and the right has no errors of its own, a line that says the
same is read on the right. -/
theorem exists_nextEntry (h : c.Abreast started c.atLine state state')
    (inside : c.beyond → state.passBlankLines.rest = [] → 0 < state.indent)
    (never : ∀ error, ¬ c.late error) {entry : Entry} {mid : ParseState}
    (read : nextEntry.run.run state = (.ok (some entry), mid)) :
    ∃ entry' mid', nextEntry.run.run state' = (.ok (some entry'), mid') ∧ state.Stays mid ∧
      entry.moved c.left = entry'.moved c.right ∧ c.Abreast True c.atLine mid mid' := by
  obtain ⟨next?, mid', read', stays, -, goesOn⟩ :=
    (nextEntry_follows lawful h inside).exists_of_ok read never
  cases next? with
  | none => exact goesOn.elim
  | some entry' => exact ⟨entry', mid', read', stays, goesOn.2.2⟩

omit lawful in
/-- What is entered on both sides leaves programs that correspond. -/
theorem register_follows {entry entry' : Entry} {cursor : List Token → List Token → Prop}
    (h : c.Abreast started cursor state state')
    (enters : c.Alike c.programs (entry.insert state.program) (entry'.insert state'.program)) :
    c.Follows (register fun program => entry.insert program)
      (register fun program => entry'.insert program) state state' fun _ _ after after' =>
        c.Abreast started cursor after after' ∧ after.rest = state.rest ∧
          after'.rest = state'.rest := by
  apply Follows.get_bind
  beta_reduce
  generalize entry.insert state.program = result at enters
  generalize entry'.insert state'.program = result' at enters
  cases result with
  | ok program =>
      cases result' with
      | ok program' =>
          exact ⟨⟨Nat.le_refl _, rfl⟩, ⟨Nat.le_refl _, rfl⟩, h.withProgram enters, rfl, rfl⟩
      | error error' => exact enters
  | error error =>
      cases result' with
      | ok program' => exact enters.elim
      | error error' => exact enters

/-- What is entered on one side can be entered on the other. -/
def Enters (c : Comparison) : Prop :=
  ∀ {program program' : Program} {entry entry' : Entry}, c.programs program program' →
    entry.moved c.left = entry'.moved c.right →
    (∀ id, entry = .global id → (program.decl? id).isSome) →
    (∀ id, entry' = .global id → (program'.decl? id).isSome) →
    c.Alike c.programs (entry.insert program) (entry'.insert program')

/-- A line of the outermost block is read side by side, and passes a token. -/
theorem topLevel_follows (enters : c.Enters) (h : c.Abreast started c.inLine state state') :
    c.Follows topLevel topLevel state state' fun _ _ after after' =>
      c.Abreast True c.atLine after after' ∧ after.rest.length < state.rest.length ∧
        after'.rest.length < state'.rest.length := by
  rw [topLevel_eq]
  apply ((entry_follows lawful h).both h.ready.1 h.ready.2 entry_safe entry_safe).bind
  rintro entry entry' mid mid' _ _ ⟨⟨same, next⟩, ⟨shorter, _, valid⟩, shorter', _, valid'⟩
  apply (register_follows next (enters next.program same valid valid')).mono
  rintro _ _ after after' _ _ ⟨last, rest, rest'⟩
  exact ⟨last, rest ▸ shorter, rest' ▸ shorter'⟩

/-- A whole program is read side by side. -/
theorem program_follows (enters : c.Enters) (inside : ¬ c.beyond)
    (h : c.Abreast started c.atLine state state') :
    c.Follows program program state state' fun program program' _ _ =>
      c.programs program program' := by
  have rows : c.Follows (lines topLevel) (lines topLevel) state state' fun _ _ after after' =>
      c.Abreast started c.atLine after after' := by
    refine (lines_follows lawful (fun _ => ()) (fun _ => ()) h (fun more => absurd more inside)
      ?_).mono fun _ _ _ _ _ _ held => held.2
    intro inner inner' _ _ here
    apply (topLevel_follows lawful enters here).mono
    rintro _ _ after after' _ _ ⟨next, shorter⟩
    exact ⟨rfl, next.weaken fun _ => trivial, shorter⟩
  apply rows.discard.bind
  rintro _ _ after after' _ _ ⟨_, _, last⟩
  exact .get_bind (.pure last.program)

end Comparison

section Forgetting

variable (move : Relocation) (program : Program) (entry : Entry)

theorem Program.decl?_moved (id : VarId) :
    (program.moved move).decl? id = (program.decl? id).map (VarDecl.moved move) := by
  unfold Program.decl? Program.moved
  rw [Array.getElem?_map]

theorem Program.moved_insertDecl (name : String) (type : DataType) (init : Option Expr)
    (span : Span) :
    (program.insertDecl name type init span).moved move =
      { program.moved move with
        decls := (program.moved move).decls.push
          ⟨move.decl program.nextDecl, name, type, init.map (Expr.moved move), span.moved move⟩ } := by
  simp [Program.insertDecl, Program.moved, VarDecl.moved]

theorem Program.nextDecl_eq_of_moved {move : Relocation} {program program' : Program}
    (h : program.moved move = program'.moved move) : program.nextDecl = program'.nextDecl := by
  have size := congrArg (Array.size ∘ Program.decls) h
  simp only [Function.comp_apply, Program.moved, Array.size_map] at size
  exact congrArg VarId.mk size

theorem Program.insertDecl_congr {move : Relocation} {program program' : Program}
    (h : program.moved move = program'.moved move) {name : String} {type : DataType}
    {init init' : Option Expr} {span span' : Span}
    (inits : init.map (Expr.moved move) = init'.map (Expr.moved move))
    (spans : span.moved move = span'.moved move) :
    (program.insertDecl name type init span).moved move =
      (program'.insertDecl name type init' span').moved move := by
  rw [moved_insertDecl, moved_insertDecl, h, nextDecl_eq_of_moved h, inits, spans]

theorem Entry.enter_moved :
    (entry.enter program).moved move = (entry.moved move).enter (program.moved move) := by
  cases entry <;> simp [Entry.enter, Entry.moved, Program.moved]

@[simp] theorem Entry.isReserved_moved : (entry.moved move).isReserved = entry.isReserved := by
  cases entry <;> rfl

@[simp] theorem Entry.complaint_moved : (entry.moved move).complaint = entry.complaint := by
  cases entry <;> rfl

variable {move} (stays : move.decl = id)

include stays

/-- Things are entered under the same labels wherever they were written. -/
theorem Program.labels_moved : (program.moved move).labels = program.labels := by
  have globals : (program.moved move).globalNames = program.globalNames := by
    unfold Program.globalNames
    rw [funext (program.decl?_moved move)]
    unfold Program.moved
    rw [stays, List.map_id]
    simp [List.map_filterMap, Function.comp_def]
  unfold Program.labels
  rw [globals]
  simp [Program.moved, Option.toList_map, Function.comp_def]

theorem Entry.label?_moved :
    (entry.moved move).label? (program.moved move) = entry.label? program := by
  cases entry with
  | global id =>
      change ((program.moved move).decl? (move.decl id)).map _ = (program.decl? id).map _
      rw [program.decl?_moved, stays, Option.map_map]
      rfl
  | _ => rfl

end Forgetting

/-- Where handles stay the same on both sides, what is entered on one side can be entered on the
other. -/
theorem Comparison.enters_of_moved {c : Comparison} {move : Relocation} (left : c.left = move)
    (right : c.right = move) (stays : move.decl = id)
    (programs : ∀ program program', c.programs program program' ↔
      program.moved move = program'.moved move) : c.Enters := by
  intro program program' entry entry' h same valid valid'
  rw [left, right] at same
  rw [programs] at h
  have reserved : entry.isReserved = entry'.isReserved := by
    rw [← entry.isReserved_moved move, same, Entry.isReserved_moved]
  have labels : program.labels = program'.labels := by
    rw [← program.labels_moved stays, h, Program.labels_moved _ stays]
  have label : entry.label? program = entry'.label? program' := by
    rw [← entry.label?_moved program stays, same, h, Entry.label?_moved _ _ stays]
  by_cases taken : entry.isReserved = true ∨ ∃ label ∈ entry.label? program,
      label ∈ program.labels
  · obtain ⟨error, failed, named, _⟩ := Entry.insert_of_taken taken
    rw [reserved, labels, label] at taken
    obtain ⟨error', failed', named', _⟩ := Entry.insert_of_taken taken
    rw [failed, failed']
    left
    rw [named, named', ← entry.complaint_moved move, same, Entry.complaint_moved]
  · rw [not_or, Bool.not_eq_true] at taken
    have free : ∀ label ∈ entry.label? program, label ∉ program.labels := by
      intro label found listed
      exact taken.2 ⟨label, found, listed⟩
    rw [Entry.insert_of_free taken.1 free valid]
    rw [reserved] at taken
    rw [labels, label] at free
    rw [Entry.insert_of_free taken.1 free valid']
    exact (programs _ _).2 (by rw [Entry.enter_moved, Entry.enter_moved, same, h])

end Offside
