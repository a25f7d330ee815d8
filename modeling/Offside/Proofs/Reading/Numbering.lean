import Offside.Proofs.Reading.Programs

/-! # Handles and numbers of what is read

Reading hands out handles and numbers as it goes on, whatever the tokens are. In the program that
comes of it each declaration is held in one place, and the numbers have been counted off without a
gap.
-/

namespace Offside

variable {program : Program} {count : Nat} {good : TokenKind → String → Prop} {id : VarId}

/-- What a source text spells is spelled by its tokens. -/
theorem Program.exists_tokens_of_ofSource {source file : String}
    (h : Program.ofSource source file = .ok program) :
    ∃ tokens, Token.scan source file = .ok tokens ∧ Program.ofTokens tokens file = .ok program := by
  unfold Program.ofSource at h
  cases scan : Token.scan source file with
  | error error =>
      rw [scan] at h
      cases h
  | ok tokens =>
      rw [scan] at h
      exact ⟨tokens, rfl, h⟩

theorem Program.ofSource_of_scan {source file : String} {tokens : List Token}
    (h : Token.scan source file = .ok tokens) :
    Program.ofSource source file = Program.ofTokens tokens file := by
  unfold Program.ofSource
  rw [h]
  rfl

theorem Program.Coherent.count_handles (coherent : program.Coherent)
    (valid : (program.decl? id).isSome) : program.handles.count id = 1 :=
  List.count_eq_one_of_mem coherent.nodup_handles (coherent.mem_handles.2 valid)

theorem Program.Counted.length_numbers (counted : program.Counted count) :
    program.numbers.length = count := by
  rw [counted.numbers.length_eq, List.length_range]

/-- In the program that some tokens spell, every declaration is found under its own handle, every
handle in use is that of a declaration, and every declaration is held in exactly one place. The
numbers of functions, methods and record types are those below their count, each for one of them,
and a method has a smaller one than the record type it belongs to. -/
theorem Program.ofTokens_numbered {tokens : List Token} {file : String}
    (h : Program.ofTokens tokens file = .ok program) :
    (∀ id decl, program.decl? id = some decl → decl.id = id) ∧
    (∀ id ∈ program.handles, (program.decl? id).isSome) ∧
    (∀ id, (program.decl? id).isSome → program.handles.count id = 1) ∧
    program.numbers.Perm (List.range program.numbers.length) ∧
    ∀ record ∈ program.records, ∀ method ∈ record.methods,
      method.id.number < record.id.number := by
  have outcome := @ofTokens_outcome (fun _ _ => True) tokens file fun _ _ => trivial
  rw [h] at outcome
  obtain ⟨count, sound⟩ := outcome
  have coherent := sound.coherent
  refine ⟨fun _ _ found => coherent.id_eq found, fun _ => coherent.mem_handles.1,
    fun _ => coherent.count_handles, ?_, ?_⟩
  · rw [sound.counted.length_numbers]
    exact sound.counted.numbers
  · intro record listed
    exact (sound.spelled.records record listed).numbers

/-- Methods are numbered before their record type, and a loop and a block hold declarations of their
own. -/
theorem Program.ofTokens_numbered_methods : ∃ tokens program,
    Token.scan ("hotpot Pot\n    size: int = 1\n    def a(x: int):\n        x\n    def b():\n" ++
      "        y: int\nfor i: int, i < 2, i = i + 1:\n    if true:\n        z: int\n" ++
      "def main():\n    1\n") "pots" = .ok tokens ∧
    Program.ofTokens tokens "pots" = .ok program ∧
    (∀ id decl, program.decl? id = some decl → decl.id = id) ∧
    (∀ id ∈ program.handles, (program.decl? id).isSome) ∧
    (∀ id, (program.decl? id).isSome → program.handles.count id = 1) ∧
    program.numbers.Perm (List.range program.numbers.length) ∧
    ∀ record ∈ program.records, ∀ method ∈ record.methods,
      method.id.number < record.id.number := by
  have reads : (Program.ofSource
      ("hotpot Pot\n    size: int = 1\n    def a(x: int):\n        x\n    def b():\n" ++
      "        y: int\nfor i: int, i < 2, i = i + 1:\n    if true:\n        z: int\n" ++
      "def main():\n    1\n") "pots").isOk = true := by
    decide +kernel
  obtain ⟨program, read⟩ := exists_ok_of_isOk reads
  obtain ⟨tokens, scanned, spelled⟩ := Program.exists_tokens_of_ofSource read
  exact ⟨tokens, program, scanned, spelled, Program.ofTokens_numbered spelled⟩

end Offside
