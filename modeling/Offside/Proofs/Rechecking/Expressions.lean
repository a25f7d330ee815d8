import Offside.Proofs.Rechecking.Filling
import Mathlib.Data.List.Forall2

/-! # Expressions cell by cell

The visit of an expression tells its type and, if it is a reference, the declaration that it is to.
Both stand in the cells of the expression once it has been visited. They stand there as long as the
check goes on, so that the rule for the expression around it reads what it would have been told.
-/

namespace Offside

namespace Cells

/-- The declaration that has been learned from the visit of a reference stands in its cell. From
other expressions no declaration is learned. -/
def Links (decl? : Option VarId) (address : Address) (held : Annotations) : Expr → Prop
  | .reference .. => ∃ id, decl? = some id ∧ held.link? address = some id
  | _ => decl? = none

/-- What is learned from the visit of an expression stands in the cells at its address. -/
def Tells (expr : Expr) (typed : Typed) (address : Address) (held : Annotations) : Prop :=
  held.type? address = some typed.type ∧ Links typed.decl? address held expr

theorem Tells.keptBy {expr : Expr} {typed : Typed} {address : Address} {held later : Annotations}
    (h : Tells expr typed address held) (kept : held.KeptBy later) :
    Tells expr typed address later := by
  obtain ⟨type, link⟩ := h
  refine ⟨kept.type type, ?_⟩
  cases expr with
  | reference =>
      obtain ⟨id, same, set⟩ := link
      exact ⟨id, same, kept.link set⟩
  | _ => exact link

theorem Tells.link? {expr : Expr} {typed : Typed} {address : Address} {held : Annotations}
    (h : Tells expr typed address held) : Cells.link? held expr address = typed.decl? := by
  obtain ⟨-, link⟩ := h
  cases expr with
  | reference =>
      obtain ⟨id, same, set⟩ := link
      exact set.trans same.symm
  | _ => exact link.symm

variable {annotations : Annotations} {given : Prop} {state : TraversalState TypingState}

/-- Parts of two visits that are of the same expression, of which the second fills in the cells. -/
def PartFills (annotations : Annotations) (part : Part TypingState Typed)
    (other : Part TypingState Address) : Prop :=
  part.expr = other.expr ∧
    ∀ state, Fills annotations True state part.visit other.visit (Tells other.expr)

section Actions

variable {address : Address} {type : DataType} {expr : Expr}

theorem run_typeAt (set : (held annotations state.inner).type? address = some type) :
    (typeAt annotations address).run.run state = (.ok type, state) := by
  change (Except.ok (((held annotations state.inner).type? address).getD .unresolved), state) = _
  rw [set, Option.getD_some]

theorem run_linkAt {typed : Typed}
    (tells : Tells expr typed address (held annotations state.inner)) :
    (linkAt annotations expr address).run.run state = (.ok typed.decl?, state) := by
  change (Except.ok (link? (held annotations state.inner) expr address), state) = _
  rw [tells.link?]

instance : Inhabited Address :=
  ⟨.ofRoot default⟩

/-- Filling in the type of anything but a reference. -/
theorem settle_fills {span : Span} (other : ∀ held, Links none address held expr) :
    Fills annotations given state (Rules.settle address span type)
      (settle annotations address span type) (Tells expr) := by
  refine (Fills.fill (.type address type span.start)).bind fun _ _ mid => .pure ?_
  rintro ⟨-, -, set⟩
  exact ⟨set, other _⟩

theorem requireAgreement_fills {expected : DataType}
    (set : given → (held annotations state.inner).type? address = some type) :
    Fills annotations given state (Rules.requireAgreement expr type expected)
      (requireAgreementAt annotations expr address expected) fun _ _ _ => True :=
  .read_bind type (fun holds => run_typeAt (set holds))
    (.same (silent_requireAgreement _ _ _) fun _ _ _ => trivial)

end Actions

section Handlers

variable (program : Program) (lookup : LocalLookup) {address : Address}
  {part left right : Part TypingState Typed} {other left' right' : Part TypingState Address}
  {parts : List (Part TypingState Typed)}
  {others : List (Part TypingState Address)}

/-- What is learned from the visits of some expressions stands in the cells at their addresses. -/
def TellAll (typed : List (Expr × DataType)) (visited : List (Expr × Address))
    (held : Annotations) : Prop :=
  List.Forall₂ (fun entry entry' => entry.1 = entry'.1 ∧ held.type? entry'.2 = some entry.2) typed
    visited

theorem TellAll.keptBy {typed : List (Expr × DataType)} {visited : List (Expr × Address)}
    {held later : Annotations} (h : TellAll typed visited held) (kept : held.KeptBy later) :
    TellAll typed visited later :=
  h.imp fun _ _ entry => ⟨entry.1, kept.type entry.2⟩

theorem elements_fill (inner : Option DataType)
    (h : List.Forall₂ (PartFills annotations) parts others) :
    Fills annotations given state (Rules.elements inner parts) (elements inner others) TellAll := by
  induction h generalizing given state with
  | nil => exact .pure fun _ => .nil
  | @cons part other rest rest' first _ ih =>
      obtain ⟨same, visits⟩ := first
      have visited (given : Prop) (state : TraversalState TypingState) :
          Fills annotations given state
            (do let typed ← part.visit
                return (other.expr, typed.type) :: (← Rules.elements inner rest))
            (do let address ← other.visit
                return (other.expr, address) :: (← elements inner rest')) TellAll := by
        refine (visits state).whatever.bind fun typed address mid => ih.bind fun _ _ after => ?_
        exact .pure fun ⟨⟨_, _, tells⟩, grown, all⟩ =>
          .cons ⟨rfl, (tells.keptBy (held_keptBy grown)).1⟩ all
      simp only [Rules.elements, elements, same]
      exact .ite _ (.same_bind (silent_setPending inner) fun _ _ => visited _ _) (visited _ _)

theorem arguments_fill (h : List.Forall₂ (PartFills annotations) parts others) :
    Fills annotations given state (Rules.arguments parts) (arguments others)
      fun _ _ _ => True := by
  induction h generalizing given state with
  | nil => exact .pure fun _ => trivial
  | cons first _ ih => exact (first.2 _).whatever.discard.bind fun _ _ _ => ih

theorem agreements_fill_of_kept {typed : List (Expr × DataType)} {visited : List (Expr × Address)}
    {before : Annotations} {element : DataType} (all : TellAll typed visited before)
    (kept : given → before.KeptBy (held annotations state.inner)) :
    Fills annotations given state
      (typed.forM fun (value, type) => Rules.requireAgreement value type element)
      (visited.forM fun (value, address) => requireAgreementAt annotations value address element)
      fun _ _ _ => True := by
  induction all generalizing given state with
  | nil => exact .pure fun _ => trivial
  | @cons entry entry' _ _ first _ ih =>
      obtain ⟨same, type⟩ := first
      have agreement : Fills annotations given state
          (Rules.requireAgreement entry.1 entry.2 element)
          (requireAgreementAt annotations entry'.1 entry'.2 element) fun _ _ _ => True :=
        same ▸ requireAgreement_fills fun holds => (kept holds).type type
      exact agreement.bind fun _ _ _ => ih fun ⟨holds, grown, _⟩ =>
        (kept holds).trans (held_keptBy grown)

theorem agreements_fill {typed : List (Expr × DataType)} {visited : List (Expr × Address)}
    {element : DataType} (all : given → TellAll typed visited (held annotations state.inner)) :
    Fills annotations given state
      (typed.forM fun (value, type) => Rules.requireAgreement value type element)
      (visited.forM fun (value, address) => requireAgreementAt annotations value address element)
      fun _ _ _ => True :=
  .of_silent (silent_forM _ fun _ => silent_requireAgreement _ _ _) fun holds =>
    agreements_fill_of_kept (all holds) fun _ => .refl _

theorem array_fills {values : List Expr} (span : Span)
    (h : List.Forall₂ (PartFills annotations) parts others) :
    Fills annotations given state ((Rules.exprs program lookup).array address parts span)
      ((exprs annotations program lookup).array address others span)
      (Tells (.array values span)) := by
  refine .same_bind silent_takePending fun declared _ =>
    (elements_fill _ h).bind fun typed visited mid =>
      .read_bind (declared.getD ((typed.head?.map Prod.snd).getD .unresolved)) ?_ ?_
  · rintro ⟨-, -, all⟩
    cases declared with
    | some element => rfl
    | none =>
        cases all with
        | nil => rfl
        | cons first => exact run_typeAt first.2
  · refine (agreements_fill ?_).bind fun _ _ _ => settle_fills fun _ => rfl
    rintro ⟨-, -, all⟩
    exact all

theorem reference_fills (name : String) (span : Span) :
    Fills annotations given state ((Rules.exprs program lookup).reference address name span)
      ((exprs annotations program lookup).reference address name span)
      (Tells (.reference name span)) := by
  refine .same_bind silent_context fun context _ => .same_bind silent_inner fun inner _ => ?_
  generalize (lookup.find? program context inner.environments name).bind program.decl? = found
  cases found with
  | none => exact .fail _ _
  | some decl =>
      simp only [Rules.settle, settle, bind_assoc, pure_bind]
      refine (Fills.fill (.link address decl.id name span.start)).bind fun _ _ mid => ?_
      refine (Fills.fill (.type address decl.type span.start)).bind fun _ _ after => ?_
      exact .pure fun ⟨⟨_, _, link⟩, grown, type⟩ =>
        ⟨type, decl.id, rfl, (held_keptBy grown).link link⟩

theorem binary_fills (operator : Operator) (span : Span) (h : PartFills annotations left left')
    (h' : PartFills annotations right right') :
    Fills annotations given state
      ((Rules.exprs program lookup).binary address operator left right span)
      ((exprs annotations program lookup).binary address operator left' right' span)
      (Tells (.binary operator left'.expr right'.expr span)) := by
  simp only [Rules.exprs, exprs, h.1, h'.1]
  refine (h.2 state).whatever.bind fun typed at₁ mid => ?_
  refine (h'.2 mid).whatever.bind fun typed' at₂ after => ?_
  refine .read_bind typed.type ?_ <| .read_bind typed'.type ?_ ?_
  · rintro ⟨⟨-, -, tells⟩, grown, -⟩
    exact run_typeAt (tells.keptBy (held_keptBy grown)).1
  · rintro ⟨-, -, tells⟩
    exact run_typeAt tells.1
  · exact .same_bind (silent_binaryType _ _ _ _ _) fun _ _ => settle_fills fun _ => rfl

theorem unary_fills (operator : Operator) (span : Span) (h : PartFills annotations part other) :
    Fills annotations given state
      ((Rules.exprs program lookup).unary address operator part span)
      ((exprs annotations program lookup).unary address operator other span)
      (Tells (.unary operator other.expr span)) := by
  simp only [Rules.exprs, exprs, h.1]
  refine (h.2 state).whatever.bind fun typed at' mid => .read_bind typed.type ?_ ?_
  · rintro ⟨-, -, tells⟩
    exact run_typeAt tells.1
  · exact .same_bind (silent_unaryType _ _ _) fun _ _ => settle_fills fun _ => rfl

theorem call_fills {args : List Arg} (callee : Name) (span : Span)
    (h : List.Forall₂ (PartFills annotations) parts others) :
    Fills annotations given state
      ((Rules.exprs program lookup).call address callee parts span)
      ((exprs annotations program lookup).call address callee others span)
      (Tells (.call callee args span)) := by
  refine (arguments_fill h).bind fun _ _ _ => .ite _ ?_ ?_
  · exact (Fills.fill (.constructor address)).bind fun _ _ _ => settle_fills fun _ => rfl
  · refine .same_bind silent_context fun context _ => ?_
    generalize program.callee? context.record callee.text = found
    cases found with
    | none => exact .fail _ _
    | some function => exact settle_fills fun _ => rfl

theorem method_fills {args : List Arg} (callee : Name) (span : Span)
    (h : PartFills annotations part other)
    (h' : List.Forall₂ (PartFills annotations) parts others) :
    Fills annotations given state
      ((Rules.exprs program lookup).method address part callee parts span)
      ((exprs annotations program lookup).method address other callee others span)
      (Tells (.method other.expr callee args span)) := by
  simp only [Rules.exprs, exprs, h.1]
  refine (h.2 state).whatever.bind fun typed at' mid => (arguments_fill h').bind fun _ _ after =>
    .read_bind typed.decl? ?_ ?_
  · rintro ⟨⟨-, -, tells⟩, grown, -⟩
    exact run_linkAt (tells.keptBy (held_keptBy grown))
  · have same : Rules.ownerOf? program { type := .unresolved, decl? := typed.decl? } =
        Rules.ownerOf? program typed := rfl
    rw [same]
    generalize Rules.ownerOf? program typed = owner
    cases owner with
    | none => exact .fail _ _
    | some record =>
        dsimp only
        generalize program.methodOf? record callee.text = found
        cases found with
        | none => exact .fail _ _
        | some function => exact settle_fills fun _ => rfl

theorem property_fills (member : Name) (span : Span) (h : PartFills annotations part other) :
    Fills annotations given state
      ((Rules.exprs program lookup).property address part member span)
      ((exprs annotations program lookup).property address other member span)
      (Tells (.property other.expr member span)) := by
  refine (h.2 state).whatever.bind fun typed at' mid => .read_bind typed.decl? ?_ ?_
  · rintro ⟨-, -, tells⟩
    exact run_linkAt tells
  · have same : Rules.ownerOf? program { type := .unresolved, decl? := typed.decl? } =
        Rules.ownerOf? program typed := rfl
    rw [same]
    generalize (Rules.ownerOf? program typed).bind _ = found
    cases found with
    | none => exact .fail _ _
    | some decl => exact settle_fills fun _ => rfl

end Handlers

section Trees

variable {program : Program} {lookup : LocalLookup}

mutual

/-- The visit of an expression fills in the cells of what the rules find out about it. -/
theorem traverseExpr_fills (address : Address) : (expr : Expr) →
    (state : TraversalState TypingState) →
    Fills annotations True state (traverseExpr (Rules.exprs program lookup) address expr)
      (traverseExpr (exprs annotations program lookup) address expr) (Tells expr)
  | .literal .., _ => settle_fills fun _ => rfl
  | .array values _, _ => array_fills program lookup _ (elementParts_fill address 0 values)
  | .reference .., _ => reference_fills program lookup _ _
  | .binary _ left right _, _ =>
    binary_fills program lookup _ _ ⟨rfl, traverseExpr_fills _ left⟩
      ⟨rfl, traverseExpr_fills _ right⟩
  | .unary _ operand _, _ => unary_fills program lookup _ _ ⟨rfl, traverseExpr_fills _ operand⟩
  | .call _ args _, _ => call_fills program lookup _ _ (argumentParts_fill address 0 args)
  | .method receiver _ args _, _ =>
    method_fills program lookup _ _ ⟨rfl, traverseExpr_fills _ receiver⟩
      (argumentParts_fill address 0 args)
  | .property receiver _ _, _ =>
    property_fills program lookup _ _ ⟨rfl, traverseExpr_fills _ receiver⟩

theorem elementParts_fill (address : Address) (index : Nat) : (values : List Expr) →
    List.Forall₂ (PartFills annotations)
      (elementParts (Rules.exprs program lookup) address index values)
      (elementParts (exprs annotations program lookup) address index values)
  | [] => .nil
  | value :: rest =>
    .cons ⟨rfl, traverseExpr_fills _ value⟩ (elementParts_fill address (index + 1) rest)

theorem argumentParts_fill (address : Address) (index : Nat) : (args : List Arg) →
    List.Forall₂ (PartFills annotations)
      (argumentParts (Rules.exprs program lookup) address index args)
      (argumentParts (exprs annotations program lookup) address index args)
  | [] => .nil
  | ⟨_, value⟩ :: rest =>
    .cons ⟨rfl, traverseExpr_fills _ value⟩ (argumentParts_fill address (index + 1) rest)

end

end Trees

end Cells

end Offside
