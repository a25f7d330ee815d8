import Offside.Proofs.Outcome
import Offside.Traversal.Trace

/-! # What surrounds a visit is restored

Handlers go inside of functions, record types, blocks and loops only for the duration of an action,
and leave what surrounds them alone otherwise. Then every visit ends where it started, also if it
fails deep inside: by induction over the nodes, with the handlers left open.
-/

namespace Offside

variable {σ ρ : Type}

namespace Visit

/-- However an action ends, what surrounds it is then as it was when it started. -/
def Restores {α : Type} (action : Visit σ α) : Prop :=
  ∀ state, (action.run.run state).2.context = state.context

/-- An action that touches what surrounds it only by running others inside of something. It may look
at everything, change the state of its handlers, fail, go on after a failure, and make the visits
that it is given. -/
inductive Orderly (given : ∀ α : Type, Visit σ α → Prop) : ∀ {α : Type}, Visit σ α → Prop where
  | given {α : Type} {visit : Visit σ α} : given α visit → Orderly given visit
  /-- An action of the handler's own that leaves alone what surrounds it. -/
  | own {α : Type} {action : Visit σ α} : action.Restores → Orderly given action
  | bind {α β : Type} {action : Visit σ α} {next : α → Visit σ β} :
    Orderly given action → (∀ value, Orderly given (next value)) → Orderly given (action >>= next)
  | recover {α : Type} {action : Visit σ α} {handle : Error → Visit σ α} :
    Orderly given action → (∀ error, Orderly given (handle error)) →
    Orderly given (tryCatch action handle)
  /-- An action between two changes of the state that the handlers keep. -/
  | between {α : Type} {before after} {action : Visit σ α} :
    (∀ state, (before state).context = state.context) →
    (∀ saved state, (after saved state).context = state.context) →
    Orderly given action → Orderly given (Visit.between before after action)
  | inFunction {α : Type} {function} {action : Visit σ α} :
    Orderly given action → Orderly given (Visit.inFunction function action)
  | inRecord {α : Type} {record} {action : Visit σ α} :
    Orderly given action → Orderly given (Visit.inRecord record action)
  | inBlock {α : Type} {block} {action : Visit σ α} :
    Orderly given action → Orderly given (Visit.inBlock block action)
  | inLoop {α : Type} {loop} {action : Visit σ α} :
    Orderly given action → Orderly given (Visit.inLoop loop action)

variable {α β : Type}

/-- The visits of some parts. -/
inductive OfParts (visits : List (Visit σ β)) : ∀ α : Type, Visit σ α → Prop where
  | listed {visit} : visit ∈ visits → OfParts visits β visit

namespace Restores

theorem pure (value : α) : (Pure.pure value : Visit σ α).Restores :=
  fun _ => rfl

theorem ofExcept (result : Except Error α) : (Visit.ofExcept result : Visit σ α).Restores := by
  cases result <;> exact fun _ => rfl

theorem bind {action : Visit σ α} {next : α → Visit σ β} (h : action.Restores)
    (hnext : ∀ value, (next value).Restores) : (action >>= next).Restores := by
  intro state
  have kept := h state
  rw [Action.run_bind]
  generalize action.run.run state = outcome at kept ⊢
  match outcome, kept with
  | (.ok value, mid), kept => exact (hnext value mid).trans kept
  | (.error _, _), kept => exact kept

theorem discard {action : Visit σ α} (h : action.Restores) : (discard action).Restores := by
  intro state
  have kept := h.bind (fun _ => pure ()) state
  exact kept

theorem recover {action : Visit σ α} {handle : Error → Visit σ α} (h : action.Restores)
    (hhandle : ∀ error, (handle error).Restores) : (tryCatch action handle).Restores := by
  intro state
  have kept := h state
  have run : (tryCatch action handle).run.run state = match action.run.run state with
      | (.ok value, after) => (.ok value, after)
      | (.error error, after) => (handle error).run.run after := by
    simp only [tryCatch, tryCatchThe, MonadExceptOf.tryCatch, ExceptT.tryCatch, ExceptT.mk,
      ExceptT.run, StateT.run, Bind.bind, StateT.bind]
    cases action state with
    | mk result after => cases result <;> rfl
  rw [run]
  generalize action.run.run state = outcome at kept ⊢
  match outcome, kept with
  | (.ok _, _), kept => exact kept
  | (.error error, mid), kept => exact (hhandle error mid).trans kept

/-- Whatever is changed before an action is changed back behind it. -/
theorem between {before : TraversalState σ → TraversalState σ}
    {after : TraversalState σ → TraversalState σ → TraversalState σ} {action : Visit σ α}
    (back : ∀ saved state, state.context = (before saved).context →
      (after saved state).context = saved.context)
    (h : action.Restores) : (Visit.between before after action).Restores :=
  fun state => back state _ (h (before state))

theorem inFunction {function : Option Function} {action : Visit σ α} (h : action.Restores) :
    (Visit.inFunction function action).Restores :=
  h.between fun _ _ kept => by simp only [kept]

theorem inRecord {record : Option RecordDecl} {action : Visit σ α} (h : action.Restores) :
    (Visit.inRecord record action).Restores :=
  h.between fun _ _ kept => by simp only [kept]

theorem inBlock {block : Option Block} {action : Visit σ α} (h : action.Restores) :
    (Visit.inBlock block action).Restores :=
  h.between fun _ _ kept => by simp only [kept]

theorem inLoop {loop : Option Stmt} {action : Visit σ α} (h : action.Restores) :
    (Visit.inLoop loop action).Restores :=
  h.between fun _ _ kept => by simp only [kept]

theorem forM {items : List α} {visit : α → Visit σ PUnit}
    (h : ∀ item ∈ items, (visit item).Restores) : (items.forM visit).Restores := by
  induction items with
  | nil => exact pure _
  | cons item rest ih =>
      rw [List.forall_mem_cons] at h
      exact h.1.bind fun _ => ih h.2

end Restores

theorem Orderly.forM {given : ∀ α : Type, Visit σ α → Prop} {items : List α}
    {visit : α → Visit σ PUnit} (h : ∀ item ∈ items, Orderly given (visit item)) :
    Orderly given (items.forM visit) := by
  induction items with
  | nil => exact .own (.pure _)
  | cons item rest ih =>
      rw [List.forall_mem_cons] at h
      exact h.1.bind fun _ => ih h.2

theorem Orderly.discard {given : ∀ α : Type, Visit σ α → Prop} {action : Visit σ α}
    (h : Orderly given action) : Orderly given (Functor.discard action) := by
  have run := h.bind fun _ => .own (.pure ())
  exact run

/-- An orderly action restores what surrounds it if the visits do that it is given. -/
theorem Orderly.restores {given : ∀ α : Type, Visit σ α → Prop} {action : Visit σ α}
    (h : Orderly given action) (hgiven : ∀ α visit, given α visit → visit.Restores) :
    action.Restores := by
  induction h with
  | given listed => exact hgiven _ _ listed
  | own restores => exact restores
  | bind _ _ first next => exact first.bind next
  | recover _ _ first handle => exact first.recover handle
  | between enters leaves _ ih =>
      exact ih.between fun saved state kept => (leaves saved state).trans (kept.trans (enters saved))
  | inFunction _ ih => exact ih.inFunction
  | inRecord _ ih => exact ih.inRecord
  | inBlock _ ih => exact ih.inBlock
  | inLoop _ ih => exact ih.inLoop

theorem Orderly.restores_of_parts {visits : List (Visit σ β)} {action : Visit σ α}
    (h : Orderly (OfParts visits) action) (hvisits : ∀ visit ∈ visits, visit.Restores) :
    action.Restores := by
  refine h.restores fun _ _ listed => ?_
  cases listed with
  | listed member => exact hvisits _ member

/-- An orderly action restores what surrounds it if the only visit does that it is given. -/
theorem Orderly.restores_of_part {visit : Visit σ β} {action : Visit σ α}
    (h : Orderly (OfParts [visit]) action) (hvisit : visit.Restores) : action.Restores :=
  h.restores_of_parts (List.forall_mem_singleton.2 hvisit)

/-- An orderly action restores what surrounds it if it is given no visits. -/
theorem Orderly.restores_of_none {action : Visit σ α}
    (h : Orderly (OfParts ([] : List (Visit σ β))) action) : action.Restores :=
  h.restores_of_parts (List.forall_mem_nil _)

/-- The only visit that an action is given. -/
theorem Orderly.only {visit : Visit σ β} : Orderly (OfParts [visit]) visit :=
  .given (.listed (by simp))

end Visit

open Visit

/-- Handlers of expressions touch what surrounds them only by going inside of something. -/
structure ExprHandlers.Orderly (handlers : ExprHandlers σ ρ) : Prop where
  expr : ∀ address node visit,
    Visit.Orderly (OfParts [visit]) (handlers.expr address node visit)
  literal : ∀ address value span,
    Visit.Orderly (OfParts ([] : List (Visit σ ρ))) (handlers.literal address value span)
  array : ∀ address values span,
    Visit.Orderly (OfParts (values.map Part.visit)) (handlers.array address values span)
  reference : ∀ address name span,
    Visit.Orderly (OfParts ([] : List (Visit σ ρ))) (handlers.reference address name span)
  binary : ∀ address operator left right span,
    Visit.Orderly (OfParts [left.visit, right.visit])
      (handlers.binary address operator left right span)
  unary : ∀ address operator operand span,
    Visit.Orderly (OfParts [operand.visit]) (handlers.unary address operator operand span)
  call : ∀ address callee args span,
    Visit.Orderly (OfParts (args.map Part.visit)) (handlers.call address callee args span)
  method : ∀ address receiver callee args span,
    Visit.Orderly (OfParts (receiver.visit :: args.map Part.visit))
      (handlers.method address receiver callee args span)
  property : ∀ address receiver member span,
    Visit.Orderly (OfParts [receiver.visit]) (handlers.property address receiver member span)

/-- Handlers touch what surrounds them only by going inside of something. -/
structure Handlers.Orderly (handlers : Handlers σ ρ) : Prop
    extends handlers.toExprHandlers.Orderly where
  decl : ∀ decl visit, Visit.Orderly (OfParts [visit]) (handlers.decl decl visit)
  varDecl : ∀ decl init, Visit.Orderly (OfParts [init]) (handlers.varDecl decl init)
  param : ∀ param decl, Visit.Orderly (OfParts [decl]) (handlers.param param decl)
  signature : ∀ signature params,
    Visit.Orderly (OfParts [params]) (handlers.signature signature params)
  function : ∀ function parts, Visit.Orderly (OfParts [parts]) (handlers.function function parts)
  record : ∀ record members, Visit.Orderly (OfParts [members]) (handlers.record record members)
  stmt : ∀ stmt visit, Visit.Orderly (OfParts [visit]) (handlers.stmt stmt visit)
  block : ∀ block body, Visit.Orderly (OfParts [body]) (handlers.block block body)
  returns : ∀ value span, Visit.Orderly (OfParts [value.visit]) (handlers.returns value span)
  branch : ∀ branches parts, Visit.Orderly (OfParts [parts]) (handlers.branch branches parts)
  forLoop : ∀ parts, Visit.Orderly (OfParts [parts]) (handlers.forLoop parts)
  whileLoop : ∀ parts, Visit.Orderly (OfParts [parts]) (handlers.whileLoop parts)
  expression : ∀ value, Visit.Orderly (OfParts [value.visit]) (handlers.expression value)
  declare : ∀ decl, Visit.Orderly (OfParts [decl]) (handlers.declare decl)
  breakLoop : ∀ span, Visit.Orderly (OfParts ([] : List (Visit σ ρ))) (handlers.breakLoop span)
  continueLoop : ∀ span,
    Visit.Orderly (OfParts ([] : List (Visit σ ρ))) (handlers.continueLoop span)

end Offside
