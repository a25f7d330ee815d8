import Offside.Proofs.Comparing.Statements
import Offside.Proofs.Reading.Programs

/-! # Comparing the reading of functions and record types

A function or record type takes its number once its body has been read, so the numbers of the two
sides go on to correspond.
-/

namespace Offside

open Parse ParseState

/-- A member of a record type at another place. -/
def Parse.Member.moved (move : Relocation) : Member → Member
  | .property decl => .property (move.decl decl)
  | .method function => .method (function.moved move)

theorem Parse.Member.properties_moved (move : Relocation) (members : List Member) :
    (members.map (Member.moved move)).filterMap Member.property? =
      (members.filterMap Member.property?).map move.decl := by
  induction members with
  | nil => rfl
  | cons member rest ih =>
      cases member with
      | property decl => exact congrArg (move.decl decl :: ·) ih
      | method function => exact ih

theorem Parse.Member.methods_moved (move : Relocation) (members : List Member) :
    (members.map (Member.moved move)).filterMap Member.method? =
      (members.filterMap Member.method?).map (Function.moved move) := by
  induction members with
  | nil => rfl
  | cons member rest ih =>
      cases member with
      | property decl => exact ih
      | method function => exact congrArg (function.moved move :: ·) ih

/-- A function that names no type to return has its line end there. -/
theorem Parse.returnType_eq :
    returnType = (do if (← kind).endsLine then return .null else typeSpec) := by
  unfold returnType
  congr 1
  funext kind
  cases kind <;> rfl

namespace Comparison

variable {c : Comparison} (lawful : c.Lawful) {started : Prop} {state state' : ParseState}

include lawful

theorem param_follows (h : c.Abreast started c.inLine state state') :
    c.Follows param param state state' (c.Gives (Param.moved c.left) (Param.moved c.right) c.inLine) := by
  apply (expect_follows lawful h rfl).bind
  intro label label' named named' _ _ taken
  apply (expect_follows lawful taken.abreast rfl).discard.bind
  rintro _ _ behind behind' _ _ ⟨_, _, colon⟩
  apply (typeSpec_follows lawful colon.abreast).bind
  rintro type _ typed typed' _ _ ⟨rfl, here⟩
  apply Follows.spanSince_bind
  have span := here.spanSince (congrArg Span.start taken.span)
  rw [← taken.value]
  apply (declareVar_follows lawful here rfl span).bind
  rintro id id' after after' _ _ ⟨same, next⟩
  exact .pure ⟨by rw [Param.moved, Param.moved, same, span], next⟩

theorem returnType_follows (h : c.Abreast True c.inLine state state') :
    c.Follows returnType returnType state state' fun type type' after after' =>
      type = type' ∧ c.Abreast True c.inLine after after' := by
  rw [returnType_eq]
  apply Follows.kind_bind
  apply Follows.ite (by rw [h.kind_congr lawful TokenKind.endsLine rfl])
  · intro _
    exact .pure ⟨rfl, h⟩
  · intro _
    exact typeSpec_follows lawful h

/-- A function is read side by side. -/
theorem function_follows (h : c.Abreast started c.inLine state state')
    (visible : state.kind.startsLine = true) :
    c.Follows function function state state'
      (c.Gives (Function.moved c.left) (Function.moved c.right) c.atLine) := by
  apply (take_follows lawful h visible).bind
  intro word word' taken taken' _ _ passed
  have start := congrArg Span.start passed.span
  apply (expect_follows lawful passed.abreast rfl).bind
  intro name name' named named' _ _ called
  apply (expect_follows lawful called.abreast rfl).discard.bind
  rintro _ _ opened opened' _ _ ⟨_, _, paren⟩
  apply (commaSeparated_follows lawful (Param.moved c.left) (Param.moved c.right) paren.abreast rfl
    fun inner inner' _ _ here => param_follows lawful here).bind
  rintro params params' listed listed' _ _ ⟨sameParams, here⟩
  apply (expect_follows lawful here rfl).discard.bind
  rintro _ _ closed closed' _ _ ⟨_, _, paren⟩
  apply (expect_follows lawful paren.abreast rfl).discard.bind
  rintro _ _ behind behind' _ _ ⟨_, _, colon⟩
  apply (returnType_follows lawful colon.abreast).bind
  rintro returns _ typed typed' _ _ ⟨rfl, here⟩
  apply Follows.spanSince_bind
  have signed := here.spanSince start
  apply (lineEnd_follows lawful here).bind
  intro _ _ begun begun' _ _ next
  apply (block_follows lawful next).bind
  rintro body body' ended ended' _ _ ⟨sameBody, next⟩
  apply (freshId_follows lawful next).bind
  rintro number number' after after' _ _ ⟨sameNumber, last⟩
  apply Follows.spanSince_bind
  refine .pure ⟨?_, last⟩
  rw [Function.moved, Function.moved, Signature.moved, Signature.moved, sameNumber, sameBody,
    last.spanSince start, signed, sameParams, called.value]

theorem recordMember_follows (h : c.Abreast True c.inLine state state') :
    c.Follows recordMember recordMember state state'
      (c.Gives (Member.moved c.left) (Member.moved c.right) c.atLine) := by
  apply Follows.get_bind
  apply Follows.ite (h.kind_iff lawful rfl)
  · intro word
    apply (function_follows lawful h (word ▸ rfl)).bind
    rintro function function' after after' _ _ ⟨same, next⟩
    exact .pure ⟨congrArg Member.method same, next⟩
  intro _
  apply Follows.ite (by rw [h.startsDeclaration_eq lawful])
  · intro _
    apply (varDecl_follows lawful h).bind
    rintro decl decl' declared declared' _ _ ⟨same, here⟩
    apply (lineEnd_follows lawful here).bind
    intro _ _ after after' _ _ next
    exact .pure ⟨congrArg Member.property same, next⟩
  · intro _
    exact .failHere fun _ _ => rfl

theorem recordParent_follows (h : c.Abreast True c.inLine state state') :
    c.Follows recordParent recordParent state state'
      (c.Gives (Option.map (Name.moved c.left)) (Option.map (Name.moved c.right)) c.inLine) := by
  apply Follows.kind_bind
  apply Follows.ite (h.kind_iff lawful rfl)
  · intro colon
    apply (take_follows lawful h (colon ▸ rfl)).discard.bind
    rintro _ _ behind behind' _ _ ⟨_, _, passed⟩
    have here := passed.abreast
    apply Follows.kind_bind
    apply Follows.ite (here.kind_iff lawful rfl)
    · intro name
      apply (take_follows lawful here (name ▸ rfl)).bind
      intro token token' after after' _ _ named
      exact .pure ⟨congrArg some (moved_nameOf named.value named.span), named.abreast⟩
    · intro _
      exact .pure ⟨rfl, here⟩
  · intro _
    exact .pure ⟨rfl, h⟩

/-- A record type is read side by side. -/
theorem record_follows (h : c.Abreast started c.inLine state state')
    (visible : state.kind.startsLine = true) :
    c.Follows record record state state'
      (c.Gives (RecordDecl.moved c.left) (RecordDecl.moved c.right) c.atLine) := by
  apply (take_follows lawful h visible).bind
  intro word word' taken taken' _ _ passed
  have start := congrArg Span.start passed.span
  apply (expect_follows lawful passed.abreast rfl).bind
  intro name name' named named' _ _ called
  apply (recordParent_follows lawful called.abreast).bind
  rintro parent parent' opened opened' _ _ ⟨sameParent, here⟩
  apply (lineEnd_follows lawful here).bind
  intro _ _ begun begun' _ _ next
  have members : c.Follows (indented (lines recordMember)) (indented (lines recordMember)) begun
      begun' fun members members' after after' =>
        members.map (Member.moved c.left) = members'.map (Member.moved c.right) ∧
          c.Abreast True c.atLine after after' := by
    refine (lines_follows lawful (Member.moved c.left) (Member.moved c.right) next.deeper
      (fun _ => Nat.succ_pos _) ?_).indented _ fun _ _ _ _ held => ⟨held.1, held.2.shallower⟩
    intro inner inner' _ _ here
    apply ((recordMember_follows lawful here).both here.ready.1 here.ready.2 recordMember_safe
      recordMember_safe).mono
    rintro member member' after after' _ _ ⟨given, read, read'⟩
    exact ⟨given.1, given.2, read.1, read'.1⟩
  apply members.bind
  rintro members members' ended ended' _ _ ⟨same, next⟩
  apply (freshId_follows lawful next).bind
  rintro number number' after after' _ _ ⟨sameNumber, last⟩
  apply Follows.spanSince_bind
  refine .pure ⟨?_, last⟩
  rw [RecordDecl.moved, RecordDecl.moved, ← Member.properties_moved, ← Member.properties_moved,
    ← Member.methods_moved, ← Member.methods_moved, same, sameParent, sameNumber,
    last.spanSince start, called.value]

end Comparison

end Offside
