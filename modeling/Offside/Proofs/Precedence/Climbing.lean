import Mathlib.Data.List.TakeWhile
import Offside.Proofs.Precedence.Trees
import Offside.Proofs.Reading.Expressions

/-! # Precedence climbing

A chain of operands with operators between them is read as the only tree that is grouped as the
precedences say. Climbing takes one operator after the other into the tree on its left. What carries
it is that the next operator binds no tighter than the root of that tree: whatever does is already
in the right operand of the root.
-/

namespace Offside

open Parse ParseState

/-- An operator and the operand behind it, with the state behind both. -/
structure Link where
  operator : Operator
  operand : Expr
  after : ParseState

namespace Link

/-- The state behind some links that follow a state. -/
def behind : ParseState → List Link → ParseState
  | state, [] => state
  | _, link :: links => behind link.after links

/-- The links up to the first operator that binds looser than `least`. -/
def atLeast (least : Nat) (links : List Link) : List Link :=
  links.takeWhile fun link => least ≤ link.operator.level

/-- The links from the first operator on that binds looser than `least`. -/
def fromLooser (least : Nat) (links : List Link) : List Link :=
  links.dropWhile fun link => least ≤ link.operator.level

end Link

open Link

/-- From a state, links follow one another, read by a reader of operands, and behind the last of
them stands nothing that may stand between operands. -/
inductive Follow (operand : ParseM Expr) : ParseState → List Link → Prop where
  | none {state} : state.grammar.precedence? state.kind = none → Follow operand state []
  | link {state link links} : state.kind = .operator link.operator →
    (Grammar.operatorPrecedence? link.operator).isSome →
    operand.run.run state.pass.passBlanks = (.ok link.operand, link.after) →
    Follow operand link.after links → Follow operand state (link :: links)

namespace OperatorTree

/-- A grouped tree has the operands and operators of another one and, behind them, those of some
links. -/
structure Extends (tree left : OperatorTree) (links : List Link) : Prop where
  grouped : tree.IsGrouped
  first : tree.first = left.first
  others : tree.others = left.others ++ links.map fun link => (link.operator, link.operand)

variable {tree mid left : OperatorTree} {links more : List Link}

theorem IsGrouped.extends_nil (h : left.IsGrouped) : left.Extends left [] :=
  ⟨h, rfl, by simp⟩

theorem Extends.trans (h : mid.Extends left links) (h' : tree.Extends mid more) :
    tree.Extends left (links ++ more) :=
  ⟨h'.grouped, h'.first.trans h.first, by rw [h'.others, h.others, List.map_append,
    List.append_assoc]⟩

/-- An operator between a tree that has no looser root and the tighter links behind it. -/
theorem Extends.node {link : Link} {right : OperatorTree} (grouped : left.IsGrouped)
    (fits : ∀ root ∈ left.root?, link.operator.level ≤ root.level)
    (h : right.Extends (.operand link.operand) links)
    (tighter : ∀ next ∈ links, link.operator.level < next.operator.level) :
    (OperatorTree.node link.operator left right).Extends left (link :: links) := by
  have others : right.others = links.map fun link => (link.operator, link.operand) := h.others
  refine ⟨.node grouped h.grouped fits fun root top => ?_, rfl, ?_⟩
  · obtain ⟨expr, member⟩ := exists_mem_others_of_root top
    rw [others, List.mem_map] at member
    obtain ⟨next, inside, same⟩ := member
    obtain ⟨rfl, _⟩ := Prod.mk.inj same
    exact tighter next inside
  · rw [OperatorTree.others, others, h.first]
    rfl

end OperatorTree

/-- A reader goes forward over at least one token when it returns. -/
def GoesForward (reader : ParseM Expr) : Prop :=
  ∀ {state after : ParseState} {expr : Expr}, state.Ready (fun _ _ => True) →
    reader.run.run state = (.ok expr, after) →
    after.Ready (fun _ _ => True) ∧ after.rest.length < state.rest.length

section Chains

variable {operand : ParseM Expr} {state : ParseState} {link : Link} {links more : List Link}

/-- Behind an operator its operand is read, and the other links follow. -/
theorem Follow.tail (h : Follow operand state (link :: links)) :
    operand.run.run state.pass.passBlanks = (.ok link.operand, link.after) ∧
      Follow operand link.after links := by
  cases h with
  | link _ _ reads follow => exact ⟨reads, follow⟩

theorem Follow.append (h : Follow operand state (links ++ more)) :
    Follow operand (behind state links) more := by
  induction links generalizing state with
  | nil => exact h
  | cons link links ih => exact ih h.tail.2

theorem behind_append (state : ParseState) (links more : List Link) :
    behind state (links ++ more) = behind (behind state links) more := by
  induction links generalizing state with
  | nil => rfl
  | cons link links ih => exact ih link.after

/-- The next operator has its precedence from the table of the language. -/
theorem Follow.precedence? (h : Follow operand state (link :: links))
    (grammar : state.grammar = .full) : ∃ precedence,
      state.grammar.precedence? state.kind = some precedence ∧
        precedence.level = link.operator.level := by
  cases h with
  | link kind binds _ _ =>
      obtain ⟨precedence, found⟩ := Option.isSome_iff_exists.1 binds
      refine ⟨precedence, by rw [grammar, kind]; exact found, ?_⟩
      rw [Operator.level, found]
      rfl

/-- An operator is passed with the blanks behind it. -/
theorem Follow.take (h : Follow operand state (link :: links))
    (ready : state.Ready fun _ _ => True) :
    state.pass.passBlanks.Ready (fun _ _ => True) ∧
      state.pass.passBlanks.rest.length < state.rest.length := by
  cases h with
  | link kind _ _ _ =>
      have inside : state.kind ≠ .eof := by simp [kind]
      have passed := passes_passBlanks state.pass
      exact ⟨((passes_pass state).trans passed).leads.ready ready,
        Nat.lt_of_le_of_lt passed.rest.length_le (current_of_ne_eof ready inside).2⟩

/-- No more tokens are left behind some links than before them. -/
theorem Follow.ready_behind (forward : GoesForward operand)
    (h : Follow operand state (links ++ more)) (ready : state.Ready fun _ _ => True) :
    (behind state links).Ready (fun _ _ => True) ∧
      (behind state links).rest.length ≤ state.rest.length := by
  induction links generalizing state with
  | nil => exact ⟨ready, Nat.le_refl _⟩
  | cons link links ih =>
      obtain ⟨passed, shorter⟩ := h.take ready
      obtain ⟨reads, follow⟩ := h.tail
      obtain ⟨readyAfter, shorter'⟩ := forward passed reads
      obtain ⟨readyBehind, shorter''⟩ := ih follow readyAfter
      exact ⟨readyBehind, by simp only [behind]; omega⟩

end Chains

section Splitting

variable {least bound : Nat} {links : List Link}

theorem atLeast_append_fromLooser (least : Nat) (links : List Link) :
    atLeast least links ++ fromLooser least links = links :=
  List.takeWhile_append_dropWhile

theorem le_of_mem_atLeast {link : Link} (h : link ∈ atLeast least links) :
    least ≤ link.operator.level := by
  simpa using List.mem_takeWhile_imp h

theorem lt_of_head_fromLooser {link : Link} (h : link ∈ (fromLooser least links).head?) :
    link.operator.level < least := by
  have looser := List.head?_dropWhile_not (fun link : Link => decide (least ≤ link.operator.level))
    links
  rw [fromLooser] at h
  rw [h] at looser
  simpa using looser

/-- Links that bind tightly come first among those that bind less tightly. -/
theorem atLeast_eq_append (le : least ≤ bound) (links : List Link) :
    atLeast least links = atLeast bound links ++ atLeast least (fromLooser bound links) := by
  conv_lhs => rw [← atLeast_append_fromLooser bound links]
  exact List.takeWhile_append_of_pos fun link inside =>
    decide_eq_true (Nat.le_trans le (le_of_mem_atLeast inside))

theorem atLeast_cons_of_lt {link : Link} (looser : link.operator.level < least) :
    atLeast least (link :: links) = [] :=
  List.takeWhile_cons_of_neg (by simpa using looser)

/-- Behind an operator that binds tightly enough come those that bind tighter than it, and then the
others. -/
theorem atLeast_cons_of_le {link : Link} (tight : least ≤ link.operator.level) :
    atLeast least (link :: links) =
      link :: atLeast (link.operator.level + 1) links ++
        atLeast least (fromLooser (link.operator.level + 1) links) := by
  rw [List.cons_append, ← atLeast_eq_append (by omega)]
  exact List.takeWhile_cons_of_pos (decide_eq_true tight)

theorem atLeast_zero (links : List Link) : atLeast 0 links = links :=
  List.takeWhile_eq_self_iff.2 fun _ _ => decide_eq_true (Nat.zero_le _)

end Splitting

section Climbing

variable {operand : ParseM Expr} {state : ParseState} {link : Link} {links : List Link}
  {left : OperatorTree} {least : Nat}

/-- From a state, an action returns what a grouped tree stands for, which some links that follow the
state are taken into. -/
def TakesIn (action : ParseM Expr) (state : ParseState) (left : OperatorTree)
    (links : List Link) : Prop :=
  ∃ tree : OperatorTree, tree.Extends left links ∧
    action.run.run state = (.ok tree.toExpr, behind state links)

theorem run_take (state : ParseState) :
    take.run.run state = (.ok state.current, state.pass.passBlanks) := rfl

/-- An operand alone is the only tree that nothing is taken into. -/
theorem OperatorTree.Extends.eq_of_nil {tree : OperatorTree} (h : tree.Extends left [])
    (grouped : left.IsGrouped) : tree = left :=
  h.grouped.eq_of_inorder grouped h.first (by rw [h.others, List.map_nil, List.append_nil])

/-- Whether the next operator binds tighter is whether there are links to climb over. -/
theorem Follow.tighter_eq (h : Follow operand state links) (grammar : state.grammar = .full)
    (level : Nat) : ((state.grammar.precedence? state.kind).any fun next => level < next.level) =
      !(atLeast (level + 1) links).isEmpty := by
  cases links with
  | nil =>
      cases h with
      | none ends =>
          rw [ends]
          rfl
  | cons next links =>
      obtain ⟨precedence, found, same⟩ := h.precedence? grammar
      rw [found, Option.any_some, same, atLeast, List.takeWhile_cons]
      by_cases tighter : level + 1 ≤ next.operator.level
      · simp [tighter, Nat.lt_of_succ_le tighter]
      · simp [tighter, Nat.not_lt.2 (Nat.le_of_lt_succ (Nat.not_le.1 tighter))]

/-- One operator is taken into a tree, with its right operand, if climbing from behind the first
operand takes in the operators that bind tighter. -/
theorem binaryWith_eq_node {climb : Nat → Expr → ParseM Expr} {precedence : Precedence}
    (grammar : link.after.grammar = .full) (h : Follow operand state (link :: links))
    (level : precedence.level = link.operator.level)
    (climbs : TakesIn (climb (link.operator.level + 1) link.operand) link.after
      (.operand link.operand) (atLeast (link.operator.level + 1) links)) :
    ∃ right : OperatorTree,
      right.Extends (.operand link.operand) (atLeast (link.operator.level + 1) links) ∧
      (binaryWith operand climb left.toExpr precedence).run.run state =
        (.ok (OperatorTree.node link.operator left right).toExpr,
          behind link.after (atLeast (link.operator.level + 1) links)) := by
  cases h with
  | link kind binds reads follow =>
      obtain ⟨right, takes, run⟩ := climbs
      refine ⟨right, takes, ?_⟩
      have current : state.current.kind = .operator link.operator := kind
      rw [binaryWith, Action.run_bind, run_take]
      simp only [current]
      rw [Action.run_bind, reads]
      simp only [Action.run_bind, Action.run_get, level, follow.tighter_eq grammar]
      by_cases alone : atLeast (link.operator.level + 1) links = []
      · rw [alone] at takes
        rw [alone, takes.eq_of_nil .operand]
        rfl
      · simp only [List.isEmpty_eq_false_iff.2 alone, Bool.not_false, if_true]
        rw [Action.run_bind, run]
        rfl

/-- Climbing stops in front of what is no operator between operands. -/
theorem climbWithin_ends {times : Nat} (ends : state.grammar.precedence? state.kind = none)
    (left : Expr) :
    (climbWithin operand (times + 1) least left).run.run state = (.ok left, state) := by
  rw [climbWithin, Action.run_bind, Action.run_get]
  simp only [ends]
  rfl

/-- Climbing stops in front of an operator that binds looser than `least`. -/
theorem climbWithin_stops {times : Nat} {precedence : Precedence}
    (found : state.grammar.precedence? state.kind = some precedence)
    (looser : precedence.level < least) (left : Expr) :
    (climbWithin operand (times + 1) least left).run.run state = (.ok left, state) := by
  rw [climbWithin, Action.run_bind, Action.run_get]
  simp only [found, looser, if_true]
  rfl

/-- Climbing goes on behind any other operator, with the tree that has taken it in. -/
theorem climbWithin_goesOn {times : Nat} {precedence : Precedence} {left grown : Expr}
    {after : ParseState} (found : state.grammar.precedence? state.kind = some precedence)
    (tight : ¬ precedence.level < least)
    (taken : (binaryWith operand (climbWithin operand times) left precedence).run.run state =
      (.ok grown, after)) :
    (climbWithin operand (times + 1) least left).run.run state =
      (climbWithin operand times least grown).run.run after := by
  rw [climbWithin, Action.run_bind, Action.run_get]
  simp only [found, tight, if_false]
  rw [Action.run_bind, taken]

/-- Climbing takes in the links up to the first operator that binds looser than `least`. -/
theorem climbWithin_takesIn (forward : GoesForward operand) (times : Nat)
    (ready : state.Ready fun _ _ => True) (h : Follow operand state links)
    (enough : state.rest.length < times) (grouped : left.IsGrouped)
    (fits : ∀ root ∈ left.root?, ∀ link ∈ links.head?, link.operator.level ≤ root.level) :
    TakesIn (climbWithin operand times least left.toExpr) state left (atLeast least links) := by
  induction times generalizing state links left least with
  | zero => exact absurd enough (Nat.not_lt_zero _)
  | succ times ih =>
      cases links with
      | nil =>
          cases h with
          | none ends => exact ⟨left, grouped.extends_nil, climbWithin_ends ends _⟩
      | cons link links =>
          obtain ⟨precedence, found, level⟩ := h.precedence? ready.grammar
          by_cases looser : link.operator.level < least
          · rw [atLeast_cons_of_lt looser]
            exact ⟨left, grouped.extends_nil, climbWithin_stops found (level ▸ looser) _⟩
          · obtain ⟨passed, shorter⟩ := h.take ready
            obtain ⟨reads, follow⟩ := h.tail
            obtain ⟨readyAfter, shorter'⟩ := forward passed reads
            -- The right operand takes in what binds tighter than the operator.
            obtain ⟨right, takes, run⟩ := binaryWith_eq_node readyAfter.grammar h level
              (ih readyAfter follow (by omega) .operand (by simp [OperatorTree.root?]))
            have node := OperatorTree.Extends.node grouped
              (fun root top => fits root top link rfl) takes
              fun next inside => le_of_mem_atLeast inside
            -- What is left behind it binds no tighter than the operator, which is the root now.
            rw [← atLeast_append_fromLooser (link.operator.level + 1) links] at follow
            obtain ⟨readyBehind, within⟩ := follow.ready_behind forward readyAfter
            obtain ⟨tree, takes', run'⟩ : TakesIn _ _ _ (atLeast least _) :=
              ih readyBehind follow.append (by omega) node.grouped fun root top next first => by
                cases top
                exact Nat.le_of_lt_succ (lt_of_head_fromLooser first)
            rw [atLeast_cons_of_le (Nat.not_lt.1 looser)]
            refine ⟨tree, node.trans takes', ?_⟩
            rw [climbWithin_goesOn found (level ▸ looser) run, behind_append]
            exact run'

end Climbing

/-- A grouped tree has a first operand and, behind it, the operators and operands of some links. -/
structure OperatorTree.Groups (tree : OperatorTree) (first : Expr) (links : List Link) : Prop where
  grouped : tree.IsGrouped
  first : tree.first = first
  others : tree.others = links.map fun link => (link.operator, link.operand)

theorem OperatorTree.Groups.eq {tree other : OperatorTree} {first : Expr} {links : List Link}
    (h : tree.Groups first links) (h' : other.Groups first links) : tree = other :=
  h.grouped.eq_of_inorder h'.grouped (h.first.trans h'.first.symm) (h.others.trans h'.others.symm)

/-- An operand passes at least one token. -/
theorem operand_goesForward : GoesForward operand := by
  intro state after expr ready run
  obtain ⟨passes, shorter, _⟩ := operand_safe.of_ok ready run
  exact ⟨passes.leads.ready ready, shorter⟩

/-- From a state, an action returns what the only tree stands for that groups an operand and some
links behind it as the precedences say, and stops behind the links. -/
def ReturnsGrouped (action : ParseM Expr) (state start : ParseState) (first : Expr)
    (links : List Link) : Prop :=
  ∃ tree : OperatorTree, (∀ other : OperatorTree, other.Groups first links ↔ other = tree) ∧
    action.run.run state = (.ok tree.toExpr, behind start links)

/-- An operand and the links behind it are grouped, whichever reader reads the operands. -/
theorem exprWith_returnsGrouped {reader : ParseM Expr} (forward : GoesForward reader)
    {state start : ParseState} {first : Expr} {links : List Link}
    (ready : state.Ready fun _ _ => True) (starts : reader.run.run state = (.ok first, start))
    (follow : Follow reader start links) (least : Nat) :
    ReturnsGrouped (exprWith reader least) state start first (atLeast least links) := by
  obtain ⟨readyStart, _⟩ := forward ready starts
  obtain ⟨tree, takes, run⟩ : TakesIn _ start (.operand first) (atLeast least links) :=
    climbWithin_takesIn forward (start.rest.length + 1) readyStart follow (Nat.lt_succ_self _)
      .operand (by simp [OperatorTree.root?])
  have groups : tree.Groups first (atLeast least links) :=
    ⟨takes.grouped, takes.first, takes.others⟩
  refine ⟨tree, fun other => ⟨fun h => h.eq groups, fun same => same ▸ groups⟩, ?_⟩
  rw [exprWith, Action.run_bind, starts]
  exact run

/-- Let an operand be read, and let links follow it up to a token that is no operator between
operands. Then reading an expression from any least precedence on takes in exactly the links up to
the first operator that binds looser, and groups them in the only way that agrees with the
precedences. A whole expression takes in all of them. -/
theorem exprWith_operand_returnsGrouped {state start : ParseState} {first : Expr}
    {links : List Link} (closing : state.closing.kind = .eof) (grammar : state.grammar = .full)
    (starts : operand.run.run state = (.ok first, start)) (follow : Follow operand start links) :
    (∀ least,
      ReturnsGrouped (exprWith operand least) state start first (atLeast least links)) ∧
    ReturnsGrouped expr state start first links := by
  have ready : state.Ready fun _ _ => True := ⟨closing, grammar, fun _ _ => trivial⟩
  have reads := exprWith_returnsGrouped operand_goesForward ready starts follow
  have whole := reads Precedence.default.level
  rw [show Precedence.default.level = 0 from rfl, atLeast_zero] at whole
  exact ⟨reads, whole⟩

/-- `a - b * c`. -/
theorem exprWith_operand_returnsGrouped_product :
    ∃ (state start : ParseState) (first : Expr) (links : List Link),
      links.map Link.operator = [.minus, .star] ∧
      state.closing.kind = .eof ∧ state.grammar = .full ∧
      operand.run.run state = (.ok first, start) ∧ Follow operand start links ∧
      (∀ least,
        ReturnsGrouped (exprWith operand least) state start first (atLeast least links)) ∧
      ReturnsGrouped expr state start first links := by
  let span : Span := ⟨Position.ofByte "names" 0, Position.ofByte "names" 1⟩
  let before (rest : List Token) : ParseState :=
    { rest, closing := .endOfInput span.stop, lastEnd := span.stop }
  let name (text : String) : Token := ⟨.identifier, text, span⟩
  let minus : Token := ⟨.operator .minus, "-", span⟩
  let star : Token := ⟨.operator .star, "*", span⟩
  have starts : operand.run.run (before [name "a", minus, name "b", star, name "c"]) =
      (.ok (.reference "a" span), before [minus, name "b", star, name "c"]) := rfl
  have follow : Follow operand (before [minus, name "b", star, name "c"])
      [⟨.minus, .reference "b" span, before [star, name "c"]⟩,
        ⟨.star, .reference "c" span, before []⟩] :=
    .link rfl rfl rfl (.link rfl rfl rfl (.none rfl))
  exact ⟨_, _, _, _, rfl, rfl, rfl, starts, follow,
    exprWith_operand_returnsGrouped rfl rfl starts follow⟩

end Offside
