import Offside.Proofs.Ordering.Pieces
import Offside.Proofs.Placing.Nesting

/-! # Where checking fails

A check that fails is at the start of a span of the program. So what is found wrong with a program
that was read from a source text is found at a place of the text.
-/

namespace Offside

/-- A place of a source text, between two of its characters or at its ends. -/
def Position.In (source : List Char) (file : String) (position : Position) : Prop :=
  ∃ front back, source = front ++ back ∧ position = .ofByte file (byteLength front)

variable {source : List Char} {file : String}

theorem Span.Within.start_in {span : Span} (h : span.Within source file) :
    span.start.In source file := by
  obtain ⟨slice, front, back, rfl, rfl⟩ := h.cuts
  exact ⟨front, slice ++ back, rfl, rfl⟩

theorem Outline.NestedIn.start_in {outline : Outline} (h : outline.NestedIn source file) :
    outline.span.start.In source file := by
  cases outline with
  | name text span | node span parts => exact h.1.start_in

theorem Expr.start_in {expr : Expr} (h : expr.outline.NestedIn source file) :
    expr.span.start.In source file := by
  rw [← Expr.outline_span]
  exact h.start_in

namespace Rules

variable {α β : Type} {returns : α → Prop} {ends : β → Prop}

/-- In whatever state it is run, an action returns a value as described or fails at a place of a
source text. -/
def FailsIn (source : List Char) (file : String) (action : Check α) (returns : α → Prop) : Prop :=
  ∀ state, Action.Ensures action state (fun value _ => returns value)
    fun error _ => error.position.In source file

/-- Any value may be returned. -/
abbrev Faults (source : List Char) (file : String) (action : Check α) : Prop :=
  FailsIn source file action fun _ => True

namespace FailsIn

theorem bind {action : Check α} {next : α → Check β} (h : FailsIn source file action returns)
    (hnext : ∀ value, returns value → FailsIn source file (next value) ends) :
    FailsIn source file (action >>= next) ends :=
  fun state => (h state).bind fun value after held => hnext value held after

theorem pure {value : α} (h : returns value) : FailsIn source file (Pure.pure value) returns :=
  fun _ => h

theorem fail {cause : ErrorCause} {position : Position} (h : position.In source file) :
    FailsIn source file (Visit.fail cause position : Check α) returns :=
  fun _ => h

theorem context : Faults source file Visit.context :=
  fun _ => trivial

theorem inner : Faults source file Visit.inner :=
  fun _ => trivial

theorem modifyInner (change : TypingState → TypingState) :
    Faults source file (Visit.modifyInner change) :=
  fun _ => trivial

theorem discard {action : Check α} (h : FailsIn source file action returns) :
    Faults source file (Functor.discard action) := by
  have run : FailsIn source file (action >>= fun _ => Pure.pure ()) fun _ => True :=
    h.bind fun _ _ => pure trivial
  exact run

/-- What is changed around an action makes no difference. -/
theorem between {action : Check α}
    {before : TraversalState TypingState → TraversalState TypingState}
    {after : TraversalState TypingState → TraversalState TypingState → TraversalState TypingState}
    (h : FailsIn source file action returns) :
    FailsIn source file (Visit.between before after action) returns := by
  intro state
  have inside := h (before state)
  unfold Action.Ensures at inside ⊢
  rw [Visit.run_between]
  generalize action.run.run (before state) = outcome at inside ⊢
  obtain ⟨error | value, mid⟩ := outcome <;> exact inside

theorem forM {items : List β} {visit : β → Check PUnit}
    (h : ∀ item ∈ items, Faults source file (visit item)) :
    Faults source file (items.forM visit) := by
  induction items with
  | nil => exact pure trivial
  | cons item rest ih =>
      rw [List.forall_mem_cons] at h
      exact h.1.bind fun _ _ => ih h.2

theorem forM_zipIdx {items : List β} {visit : β × Nat → Check PUnit}
    (h : ∀ item ∈ items, ∀ index, Faults source file (visit (item, index))) :
    Faults source file (items.zipIdx.forM visit) := by
  refine forM fun item listed => h item.1 ?_ item.2
  exact List.mem_of_getElem? (List.mem_zipIdx_iff_getElem?.1 listed)

end FailsIn

section Handlers

variable (program : Program) (lookup : LocalLookup)

theorem settle_faults (address : Address) (span : Span) (type : DataType) :
    Faults source file (settle address span type) :=
  (FailsIn.modifyInner _).bind fun _ _ => .pure trivial

theorem requireKnown_faults {type : DataType} {span : Span} (h : span.start.In source file) :
    Faults source file (requireKnown program type span) := by
  unfold requireKnown
  split
  · exact .pure trivial
  · exact .fail h

theorem requireAgreement_faults {expr : Expr} {type expected : DataType}
    (h : expr.span.start.In source file) :
    Faults source file (requireAgreement expr type expected) := by
  unfold requireAgreement
  split
  · exact .pure trivial
  · exact .fail h

/-- A part of an expression is at a place of the source text, and so is where its visit fails. -/
def PartIn (source : List Char) (file : String) (part : Part TypingState Typed) : Prop :=
  part.expr.span.start.In source file ∧ Faults source file part.visit

variable {parts : List (Part TypingState Typed)} {part left right : Part TypingState Typed}
  {address : Address} {span : Span}

theorem elements_failsIn (element : Option DataType) (h : ∀ part ∈ parts, PartIn source file part) :
    FailsIn source file (elements element parts) fun typed =>
      ∀ pair ∈ typed, pair.1.span.start.In source file := by
  induction parts with
  | nil => exact .pure (List.forall_mem_nil _)
  | cons part rest ih =>
      rw [List.forall_mem_cons] at h
      have visited : FailsIn source file (do
          let typed ← part.visit
          return (part.expr, typed.type) :: (← elements element rest))
          fun typed => ∀ pair ∈ typed, pair.1.span.start.In source file :=
        h.1.2.bind fun typed _ => (ih h.2).bind fun others listed =>
          .pure (List.forall_mem_cons.2 ⟨h.1.1, listed⟩)
      unfold elements
      split
      · exact (FailsIn.modifyInner _).bind fun _ _ => visited
      · exact visited

theorem arguments_faults (h : ∀ part ∈ parts, PartIn source file part) :
    Faults source file (arguments parts) :=
  FailsIn.forM fun part listed => (h part listed).2.discard

theorem takePending_faults : Faults source file takePending :=
  fun _ => trivial

theorem array_faults (h : ∀ part ∈ parts, PartIn source file part) :
    Faults source file ((exprs program lookup).array address parts span) := by
  refine takePending_faults.bind fun declared _ => ?_
  refine (elements_failsIn _ h).bind fun typed listed => ?_
  exact (FailsIn.forM fun pair stands => requireAgreement_faults (listed pair stands)).bind
    fun _ _ => settle_faults _ _ _

theorem reference_faults {name : String} (h : span.start.In source file) :
    Faults source file ((exprs program lookup).reference address name span) := by
  refine FailsIn.context.bind fun context _ => FailsIn.inner.bind fun state _ => ?_
  split
  · exact .fail h
  · exact (FailsIn.modifyInner _).bind fun _ _ => (settle_faults _ _ _).bind fun _ _ => .pure trivial

theorem binaryType_faults {operator : Operator} {left right : Expr} {leftType rightType : DataType}
    (hleft : left.span.start.In source file) (hright : right.span.start.In source file) :
    Faults source file (binaryType operator left right leftType rightType) := by
  unfold binaryType
  cases operator.operatorClass with
  | arithmetic | assignment | comparison =>
      exact (requireAgreement_faults hright).bind fun _ _ => .pure trivial
  | logical =>
      exact (requireAgreement_faults hleft).bind fun _ _ =>
        (requireAgreement_faults hright).bind fun _ _ => .pure trivial

theorem binary_faults {operator : Operator} (hleft : PartIn source file left)
    (hright : PartIn source file right) :
    Faults source file ((exprs program lookup).binary address operator left right span) :=
  hleft.2.bind fun _ _ => hright.2.bind fun _ _ =>
    (binaryType_faults hleft.1 hright.1).bind fun _ _ => settle_faults _ _ _

theorem unaryType_faults {operator : Operator} {operand : Expr} {type : DataType}
    (h : operand.span.start.In source file) :
    Faults source file (unaryType operator operand type) := by
  unfold unaryType
  split
  · exact (requireAgreement_faults h).bind fun _ _ => .pure trivial
  · exact .pure trivial

theorem unary_faults {operator : Operator} (h : PartIn source file part) :
    Faults source file ((exprs program lookup).unary address operator part span) :=
  h.2.bind fun _ _ => (unaryType_faults h.1).bind fun _ _ => settle_faults _ _ _

theorem call_faults {callee : Name} (hcallee : callee.span.start.In source file)
    (h : ∀ part ∈ parts, PartIn source file part) :
    Faults source file ((exprs program lookup).call address callee parts span) := by
  refine (arguments_faults h).bind fun _ _ => ?_
  split
  · exact (FailsIn.modifyInner _).bind fun _ _ => settle_faults _ _ _
  · refine FailsIn.context.bind fun context _ => ?_
    split
    · exact settle_faults _ _ _
    · exact .fail hcallee

theorem method_faults {callee : Name} (hpart : PartIn source file part)
    (hcallee : callee.span.start.In source file) (h : ∀ part ∈ parts, PartIn source file part) :
    Faults source file ((exprs program lookup).method address part callee parts span) := by
  refine hpart.2.bind fun typed _ => (arguments_faults h).bind fun _ _ => ?_
  split
  · exact .fail hpart.1
  · split
    · exact settle_faults _ _ _
    · exact .fail hcallee

theorem property_faults {member : Name} (hpart : PartIn source file part)
    (hmember : member.span.start.In source file) :
    Faults source file ((exprs program lookup).property address part member span) := by
  refine hpart.2.bind fun typed _ => ?_
  split
  · exact settle_faults _ _ _
  · exact .fail hmember

end Handlers

section Exprs

variable (program : Program) (lookup : LocalLookup)

mutual

/-- An expression that is nested in a source text is found wrong at a place of it. -/
theorem traverseExpr_faults (address : Address) : (expr : Expr) →
    expr.outline.NestedIn source file →
    Faults source file (traverseExpr (exprs program lookup) address expr)
  | .literal value span, _ => settle_faults address span _
  | .array values span, h => array_faults program lookup (elementParts_in address 0 values h.parts)
  | .reference name span, h => reference_faults program lookup h.start_in
  | .binary operator left right span, h => by
      have parts := h.parts
      have hleft := parts left.outline (by simp)
      have hright := parts right.outline (by simp)
      exact binary_faults program lookup ⟨Expr.start_in hleft, traverseExpr_faults _ left hleft⟩
        ⟨Expr.start_in hright, traverseExpr_faults _ right hright⟩
  | .unary operator operand span, h => by
      have inside := h.parts operand.outline (by simp)
      exact unary_faults program lookup ⟨Expr.start_in inside, traverseExpr_faults _ operand inside⟩
  | .call callee args span, h => by
      have parts := List.forall_mem_cons.1 h.parts
      exact call_faults program lookup parts.1.start_in (argumentParts_in address 0 args parts.2)
  | .method receiver callee args span, h => by
      have parts := List.forall_mem_cons.1 h.parts
      have others := List.forall_mem_cons.1 parts.2
      exact method_faults program lookup
        ⟨Expr.start_in parts.1, traverseExpr_faults _ receiver parts.1⟩ others.1.start_in
        (argumentParts_in address 0 args others.2)
  | .property receiver member span, h => by
      have parts := List.forall_mem_cons.1 h.parts
      have name := parts.2 member.outline (by simp)
      exact property_faults program lookup
        ⟨Expr.start_in parts.1, traverseExpr_faults _ receiver parts.1⟩ name.start_in

theorem elementParts_in (address : Address) (index : Nat) : (values : List Expr) →
    (∀ part ∈ Expr.outlines values, part.NestedIn source file) →
    ∀ part ∈ elementParts (exprs program lookup) address index values, PartIn source file part
  | [], _ => List.forall_mem_nil _
  | value :: rest, h => by
      rw [Expr.outlines, List.forall_mem_cons] at h
      rw [elementParts, List.forall_mem_cons]
      exact ⟨⟨Expr.start_in h.1, traverseExpr_faults _ value h.1⟩,
        elementParts_in address (index + 1) rest h.2⟩

theorem argumentParts_in (address : Address) (index : Nat) : (args : List Arg) →
    (∀ part ∈ Arg.outlines args, part.NestedIn source file) →
    ∀ part ∈ argumentParts (exprs program lookup) address index args, PartIn source file part
  | [], _ => List.forall_mem_nil _
  | ⟨label, value⟩ :: rest, h => by
      rw [Arg.outlines, List.forall_mem_cons, List.forall_mem_cons] at h
      rw [argumentParts, List.forall_mem_cons]
      exact ⟨⟨Expr.start_in h.2.1, traverseExpr_faults _ value h.2.1⟩,
        argumentParts_in address (index + 1) rest h.2.2⟩

end

end Exprs

section Trees

variable (program : Program) (lookup : LocalLookup)

/-- A handle whose outline is nested is that of a declaration. -/
theorem exists_decl_of_nested {id : VarId} (h : (id.outline program.decls).NestedIn source file) :
    ∃ decl, program.decl id = .ok decl ∧ decl.outline.NestedIn source file := by
  cases found : program.decls[id.index]? with
  | none =>
      rw [VarId.outline, found] at h
      have empty : Position.null.offset < Position.null.offset := h.1.ordered
      exact absurd empty (by decide)
  | some decl =>
      rw [outline_of_grown found List.prefix_rfl] at h
      exact ⟨decl, by rw [Program.decl, Program.decl?, found], h⟩

theorem traverseInit_faults {decl : VarDecl} (h : decl.outline.NestedIn source file) :
    Faults source file (traverseInit (exprs program lookup) decl) := by
  unfold traverseInit
  cases stands : decl.init with
  | none => exact .pure trivial
  | some init =>
      have inside := h.parts init.outline (by simp [stands])
      exact (traverseExpr_faults program lookup _ init inside).bind fun _ _ => .pure trivial

/-- A declaration is found wrong at its own start or at that of its first value. -/
theorem varDecl_faults (seen : Bool) {decl : VarDecl} (h : decl.outline.NestedIn source file) :
    Faults source file
      (varDecl program seen decl (traverseInit (exprs program lookup) decl)) := by
  refine (requireKnown_faults program h.start_in).bind fun _ _ => ?_
  refine (traverseInit_faults program lookup h).between.bind fun typed? _ => ?_
  extract_lets rest
  have rest_faults : Faults source file (rest ()) := by
    refine FailsIn.context.bind fun context _ => (FailsIn.modifyInner _).bind fun _ _ => ?_
    split
    · exact .modifyInner _
    · exact .modifyInner _
    · exact .pure trivial
  split
  · next _ _ init typed stands =>
    have inside := h.parts init.outline (by simp [stands])
    exact (requireAgreement_faults (Expr.start_in inside)).bind fun _ _ => rest_faults
  · exact rest_faults

theorem traverseVarDecl_faults {decl : VarDecl} (h : decl.outline.NestedIn source file) :
    Faults source file (traverseVarDecl (rules program lookup) decl) :=
  varDecl_faults program lookup true h

theorem traverseHandle_faults {id : VarId} (h : (id.outline program.decls).NestedIn source file) :
    Faults source file (traverseHandle (rules program lookup) program id) := by
  obtain ⟨decl, found, inside⟩ := exists_decl_of_nested program h
  unfold traverseHandle
  rw [found]
  exact traverseVarDecl_faults program lookup inside

theorem insideLoop_faults {cause : ErrorCause} {span : Span} (h : span.start.In source file) :
    Faults source file (insideLoop cause span) := by
  refine FailsIn.context.bind fun context _ => ?_
  split
  · exact .fail h
  · exact .pure trivial

theorem returns_faults (address : Address) {value : Expr} {span : Span}
    (h : (Outline.node span [value.outline]).NestedIn source file) :
    Faults source file (Rules.returns (exprPart (exprs program lookup) address value) span) := by
  have inside := h.parts value.outline (by simp)
  refine FailsIn.context.bind fun context _ => ?_
  split
  · exact .fail h.start_in
  · refine (traverseExpr_faults program lookup address value inside).bind fun typed _ => ?_
    split
    · exact .fail (Expr.start_in inside)
    · exact .pure trivial

mutual

/-- A statement that is nested in a source text is found wrong at a place of it. -/
theorem traverseStmt_faults (address : Address) : (stmt : Stmt) →
    (stmt.outline program.decls).NestedIn source file →
    Faults source file (traverseStmt (rules program lookup) program address stmt)
  | .block body, h => traverseBlock_faults _ body h
  | .returns value span, h => returns_faults program lookup _ h
  | .branch branches otherwise span, h => by
      have parts := List.forall_mem_append.1 h.parts
      exact (traverseBranches_faults address 0 branches parts.1).bind fun _ _ =>
        traverseOtherwise_faults address otherwise parts.2
  | .forLoop init condition step body span, h => by
      have parts := h.parts
      simp only [List.forall_mem_cons] at parts
      obtain ⟨hinit, hcondition, hstep, hbody, -⟩ := parts
      exact ((traverseHandle_faults program lookup hinit).bind fun _ _ =>
        (traverseExpr_faults program lookup _ condition hcondition).discard.bind fun _ _ =>
          (traverseExpr_faults program lookup _ step hstep).discard.bind fun _ _ =>
            (traverseBlock_faults _ body hbody).between).between
  | .whileLoop condition body span, h => by
      have parts := h.parts
      simp only [List.forall_mem_cons] at parts
      obtain ⟨hcondition, hbody, -⟩ := parts
      exact (traverseExpr_faults program lookup _ condition hcondition).discard.bind fun _ _ =>
        (traverseBlock_faults _ body hbody).between
  | .expression value, h => (traverseExpr_faults program lookup _ value h).discard
  | .declare id span, h => traverseHandle_faults program lookup (h.parts _ (by simp))
  | .breakLoop span, h | .continueLoop span, h => insideLoop_faults h.start_in

theorem traverseBlock_faults (address : Address) : (block : Block) →
    (block.outline program.decls).NestedIn source file →
    Faults source file (traverseBlock (rules program lookup) program address block)
  | ⟨body, _⟩, h => (traverseStmts_faults address 0 body h.parts).between.between

theorem traverseStmts_faults (address : Address) (index : Nat) : (stmts : List Stmt) →
    (∀ part ∈ Stmt.outlines program.decls stmts, part.NestedIn source file) →
    Faults source file (traverseStmts (rules program lookup) program address index stmts)
  | [], _ => .pure trivial
  | stmt :: rest, h => by
      rw [Stmt.outlines, List.forall_mem_cons] at h
      exact (traverseStmt_faults _ stmt h.1).bind fun _ _ =>
        traverseStmts_faults address (index + 1) rest h.2

theorem traverseBranches_faults (address : Address) (index : Nat) : (branches : List Branch) →
    (∀ part ∈ Branch.outlines program.decls branches, part.NestedIn source file) →
    Faults source file (traverseBranches (rules program lookup) program address index branches)
  | [], _ => .pure trivial
  | ⟨condition, body⟩ :: rest, h => by
      rw [Branch.outlines, List.forall_mem_cons, List.forall_mem_cons] at h
      exact (traverseExpr_faults program lookup _ condition h.1).discard.bind fun _ _ =>
        (traverseBlock_faults _ body h.2.1).bind fun _ _ =>
          traverseBranches_faults address (index + 1) rest h.2.2

theorem traverseOtherwise_faults (address : Address) : (otherwise : Option Block) →
    (∀ part ∈ Block.optionOutlines program.decls otherwise, part.NestedIn source file) →
    Faults source file (traverseOtherwise (rules program lookup) program address otherwise)
  | none, _ => .pure trivial
  | some body, h => traverseBlock_faults _ body (h _ (by simp [Block.optionOutlines]))

end

variable {program}

end Trees

end Rules

end Offside
