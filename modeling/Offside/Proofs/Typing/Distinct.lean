import Offside.Proofs.Typing.Sites

/-! # Cells are distinct

No two sites of a coherent program share a cell. The expressions in a tree lie below its root, at
different addresses, and a declaration is held in one place, where the tree of its first value hangs
by its handle.
-/

namespace Offside

/-- An address is below another one if it leads there and perhaps further down. -/
def Address.Above (address below : Address) : Prop :=
  below.root = address.root ∧ address.steps <:+ below.steps

section Addresses

variable {address below : Address} {step other : Step}

namespace Address

theorem Above.refl (address : Address) : address.Above address := ⟨rfl, List.suffix_rfl⟩

theorem Above.of_part (h : (address.part step).Above below) : address.Above below :=
  ⟨h.1, (List.suffix_cons step address.steps).trans h.2⟩

theorem Above.step_unique (h : (address.part step).Above below)
    (h' : (address.part other).Above below) : step = other := by
  have same : step :: address.steps = other :: address.steps :=
    (List.suffix_of_suffix_length_le h.2 h'.2 (by simp [part])).eq_of_length (by simp [part])
  exact (List.cons.inj same).1

theorem not_part_above : ¬ (address.part step).Above address := fun h => by
  have := h.2.length_le
  simp only [part, List.length_cons] at this
  omega

end Address

end Addresses

/-- A cell is of an expression in a region, or of one of some declarations and the first value of
it. -/
def Cell.Within (region : Address → Prop) (handles : List VarId) : Cell → Prop
  | .type address | .link address => region address ∨ ∃ id ∈ handles, address.root = .initializer id
  | .scope id => id ∈ handles

/-- Some cells are those of the expressions in a region and of some declarations, each once. -/
structure Spread (region : Address → Prop) (handles : List VarId) (cells : List Cell) : Prop where
  nodup : cells.Nodup
  within : ∀ cell ∈ cells, cell.Within region handles
  scopes : ∀ id ∈ handles, .scope id ∈ cells

section Regions

variable {region region' target : Address → Prop} {handles handles' : List VarId}
  {cells cells' : List Cell} {address : Address}

theorem Cell.Within.mono {cell : Cell} (h : cell.Within region handles)
    (regions : ∀ a, region a → region' a) (subset : handles ⊆ handles') :
    cell.Within region' handles' := by
  cases cell with
  | type a | link a =>
      refine h.imp (regions a) ?_
      rintro ⟨id, member, root⟩
      exact ⟨id, subset member, root⟩
  | scope id => exact subset h

/-- Cells of different expressions and different declarations are different. -/
theorem Cell.Within.apart {cell : Cell} (h : cell.Within region handles)
    (h' : cell.Within region' handles') (apart : ∀ a, region a → ¬ region' a)
    (outside : ∀ a, region a ∨ region' a → ∀ id ∈ handles ++ handles', a.root ≠ .initializer id)
    (distinct : (handles ++ handles').Nodup) : False := by
  have disjoint := (List.nodup_append'.1 distinct).2.2
  cases cell with
  | type a | link a =>
      rcases h with h | ⟨id, member, root⟩ <;> rcases h' with h' | ⟨id', member', root'⟩
      · exact apart a h h'
      · exact outside a (.inl h) id' (by simp [member']) root'
      · exact outside a (.inr h') id (by simp [member]) root
      · cases root.symm.trans root'
        exact disjoint member member'
  | scope id => exact disjoint h h'

namespace Spread

theorem nil : Spread region [] [] :=
  ⟨List.nodup_nil, by simp, by simp⟩

theorem mono (h : Spread region handles cells) (regions : ∀ a, region a → region' a) :
    Spread region' handles cells :=
  ⟨h.nodup, fun cell member => (h.within cell member).mono regions (List.Subset.refl _), h.scopes⟩

theorem append (h : Spread region handles cells) (h' : Spread region' handles' cells')
    (apart : ∀ a, region a → ¬ region' a)
    (outside : ∀ a, region a ∨ region' a → ∀ id ∈ handles ++ handles', a.root ≠ .initializer id)
    (distinct : (handles ++ handles').Nodup) :
    Spread (fun a => region a ∨ region' a) (handles ++ handles') (cells ++ cells') := by
  refine ⟨List.nodup_append'.2 ⟨h.nodup, h'.nodup, fun cell member member' => ?_⟩, ?_, ?_⟩
  · exact (h.within cell member).apart (h'.within cell member') apart outside distinct
  · intro cell member
    rcases List.mem_append.1 member with member | member
    · exact (h.within cell member).mono (fun _ => .inl) (List.subset_append_left _ _)
    · exact (h'.within cell member).mono (fun _ => .inr) (List.subset_append_right _ _)
  · intro id member
    exact List.mem_append.2 ((List.mem_append.1 member).imp (h.scopes id) (h'.scopes id))

/-- The cells of a node come on top of those of its parts. -/
theorem node (h : Spread region [] cells) (place : Place) (declared : Option DataType) (expr : Expr)
    (parts : ∀ a, region a → ∃ step, (address.part step).Above a) :
    Spread address.Above [] (cells ++ (Site.expr address place declared expr).cells) := by
  have own : Spread (· = address) [] (Site.expr address place declared expr).cells := by
    cases expr <;> exact ⟨by simp [Site.cells], by simp [Site.cells, Cell.Within], by simp⟩
  refine (h.append own ?_ (by simp) (by simp)).mono ?_
  · rintro a inside rfl
    obtain ⟨step, above⟩ := parts a inside
    exact Address.not_part_above above
  · rintro a (inside | rfl)
    · obtain ⟨step, above⟩ := parts a inside
      exact above.of_part
    · exact .refl a

end Spread

end Regions

section Expressions

mutual

theorem Expr.spread (place : Place) (declared : Option DataType) (address : Address)
    (expr : Expr) :
    Spread address.Above [] ((expr.sites place address declared).flatMap Site.cells) := by
  cases expr with
  | literal value span =>
      have none : Spread (fun _ => False) [] [] := .nil
      simpa [Expr.sites] using none.node place declared (.literal value span) (by simp)
  | reference name span =>
      have none : Spread (fun _ => False) [] [] := .nil
      simpa [Expr.sites] using none.node place declared (.reference name span) (by simp)
  | array values span =>
      simp only [Expr.sites, List.flatMap_append, List.flatMap_singleton]
      refine (Expr.list_spread place (declared.bind DataType.element?) address 0 values).node place
        declared (.array values span) ?_
      rintro a ⟨index, -, above⟩
      exact ⟨_, above⟩
  | binary operator left right span =>
      simp only [Expr.sites, List.flatMap_append, List.flatMap_singleton]
      refine ((left.spread place none (address.part .left)).append
        (right.spread place none (address.part .right)) (fun a above above' => ?_) (by simp)
        (by simp)).node place declared (.binary operator left right span) ?_
      · cases above.step_unique above'
      · rintro a (above | above) <;> exact ⟨_, above⟩
  | unary operator operand span =>
      simp only [Expr.sites, List.flatMap_append, List.flatMap_singleton]
      exact (operand.spread place none (address.part .operand)).node place declared
        (.unary operator operand span) fun a above => ⟨_, above⟩
  | call callee args span =>
      simp only [Expr.sites, List.flatMap_append, List.flatMap_singleton]
      refine (Arg.list_spread place address 0 args).node place declared (.call callee args span) ?_
      rintro a ⟨index, -, above⟩
      exact ⟨_, above⟩
  | method receiver callee args span =>
      simp only [Expr.sites, List.flatMap_append, List.flatMap_singleton]
      refine ((receiver.spread place none (address.part .receiver)).append
        (Arg.list_spread place address 0 args) ?_ (by simp) (by simp)).node place declared
        (.method receiver callee args span) ?_
      · rintro a above ⟨index, -, above'⟩
        cases above.step_unique above'
      · rintro a (above | ⟨index, -, above⟩) <;> exact ⟨_, above⟩
  | property receiver member span =>
      simp only [Expr.sites, List.flatMap_append, List.flatMap_singleton]
      exact (receiver.spread place none (address.part .receiver)).node place declared
        (.property receiver member span) fun a above => ⟨_, above⟩
termination_by sizeOf expr

theorem Expr.list_spread (place : Place) (declared : Option DataType) (address : Address)
    (index : Nat) (values : List Expr) :
    Spread (fun a => ∃ j, index ≤ j ∧ (address.part (.element j)).Above a) []
      ((Expr.listSites place address declared index values).flatMap Site.cells) := by
  cases values with
  | nil => exact .nil
  | cons value rest =>
      simp only [Expr.listSites, List.flatMap_append]
      refine ((value.spread place declared (address.part (.element index))).append
        (Expr.list_spread place declared address (index + 1) rest) ?_ (by simp) (by simp)).mono ?_
      · rintro a above ⟨j, later, above'⟩
        cases above.step_unique above'
        omega
      · rintro a (above | ⟨j, later, above⟩)
        · exact ⟨index, Nat.le_refl index, above⟩
        · exact ⟨j, by omega, above⟩
termination_by sizeOf values

theorem Arg.list_spread (place : Place) (address : Address) (index : Nat) (args : List Arg) :
    Spread (fun a => ∃ j, index ≤ j ∧ (address.part (.argument j)).Above a) []
      ((Arg.listSites place address index args).flatMap Site.cells) := by
  cases args with
  | nil => exact .nil
  | cons arg rest =>
      cases arg with
      | mk label value =>
          simp only [Arg.listSites, List.flatMap_append]
          refine ((value.spread place none (address.part (.argument index))).append
            (Arg.list_spread place address (index + 1) rest) ?_ (by simp) (by simp)).mono ?_
          · rintro a above ⟨j, later, above'⟩
            cases above.step_unique above'
            omega
          · rintro a (above | ⟨j, later, above⟩)
            · exact ⟨index, Nat.le_refl index, above⟩
            · exact ⟨j, by omega, above⟩
termination_by sizeOf args

end

end Expressions

section Statements

variable {program : Program} {region : Address → Prop}

/-- The cells of a declaration belong to its handle alone. -/
theorem VarId.spread (coherent : program.Coherent) (place : Place) (id : VarId)
    (valid : (program.decl? id).isSome) :
    Spread region [id] ((id.sites program place).flatMap Site.cells) := by
  obtain ⟨decl, hdecl⟩ := Option.isSome_iff_exists.1 valid
  cases coherent.id_eq hdecl
  have own : Spread (fun _ => False) [decl.id] [.scope decl.id] :=
    ⟨by simp, by simp [Cell.Within], by simp⟩
  simp only [VarId.sites, hdecl, Option.map_some, Option.getD_some, VarDecl.sites]
  cases decl.init with
  | none => exact own.mono (by simp)
  | some init =>
      have hung := init.spread place (some decl.type) (.ofRoot (.initializer decl.id))
      simp only [List.flatMap_append, List.flatMap_singleton]
      refine ⟨?_, ?_, by simp [Site.cells]⟩
      · refine List.nodup_append'.2 ⟨hung.nodup, own.nodup, fun cell member member' => ?_⟩
        cases List.mem_singleton.1 member'
        simpa [Cell.Within] using hung.within _ member
      · intro cell member
        rcases List.mem_append.1 member with member | member
        · have below := hung.within cell member
          cases cell with
          | type a | link a =>
              rcases below with below | ⟨_, nothing, _⟩
              · exact .inr ⟨decl.id, List.mem_singleton_self _, below.1⟩
              · cases nothing
          | scope other => cases below
        · cases List.mem_singleton.1 member
          exact List.mem_singleton_self _

/-- Parts of a node that is not in the first value of a variable. -/
theorem Spread.join {region' target : Address → Prop} {handles handles' : List VarId}
    {cells cells' : List Cell} {address : Address}
    (h : Spread region handles cells) (h' : Spread region' handles' cells')
    (outside : ∀ id, address.root ≠ .initializer id) (distinct : (handles ++ handles').Nodup)
    (apart : ∀ a, region a → ¬ region' a) (below : ∀ a, region a ∨ region' a → target a)
    (inside : ∀ a, target a → address.Above a) :
    Spread target (handles ++ handles') (cells ++ cells') := by
  refine (h.append h' apart (fun a either id _ root => ?_) distinct).mono below
  exact outside id ((inside a (below a either)).1.symm.trans root)

mutual

theorem Stmt.spread (coherent : program.Coherent) (place : Place) (address : Address)
    (outside : ∀ id, address.root ≠ .initializer id) (stmt : Stmt)
    (valid : ∀ id ∈ stmt.handles, (program.decl? id).isSome) (distinct : stmt.handles.Nodup) :
    Spread address.Above stmt.handles
      ((stmt.sites program place address).flatMap Site.cells) := by
  cases stmt with
  | block body =>
      exact (Block.spread coherent place (address.part (.body 0)) outside body valid
        distinct).mono fun a above => above.of_part
  | returns value span =>
      exact (value.spread place none (address.part .value)).mono fun a above => above.of_part
  | branch branches otherwise span =>
      simp only [Stmt.sites, Stmt.handles, List.flatMap_append, List.forall_mem_append]
        at valid distinct ⊢
      have parts := List.nodup_append'.1 distinct
      refine (Branch.list_spread coherent place address outside 0 branches valid.1 parts.1).join
        (Block.option_spread coherent place (address.part .otherwise) outside otherwise valid.2
          parts.2.1) outside distinct ?_ ?_ fun _ => id
      · rintro a ⟨j, step, -, above, rfl | rfl⟩ above'
        · cases above.step_unique above'
        · cases above.step_unique above'
      · rintro a (⟨j, step, -, above, -⟩ | above) <;> exact above.of_part
  | forLoop init condition step body span =>
      simp only [Stmt.sites, Stmt.handles, List.flatMap_append, List.forall_mem_cons,
        List.append_assoc] at valid distinct ⊢
      have parts := List.nodup_cons.1 distinct
      have bodies := Block.spread coherent (place.within (.header (some init))).repeated
        (address.part (.body 0)) outside body valid.2 parts.2
      have steps := (step.spread (place.within (.header (some init))) none
        (address.part .update)).join bodies outside parts.2
        (fun a above above' => by cases above.step_unique above')
        (fun a => id) (by rintro a (above | above) <;> exact above.of_part)
      have conditions := (condition.spread (place.within (.header (some init))) none
        (address.part (.condition 0))).join steps outside parts.2
        (by rintro a above (above' | above') <;> cases above.step_unique above')
        (fun a => id) (by rintro a (above | above | above) <;> exact above.of_part)
      have inits : Spread (fun _ => False) [init] _ :=
        init.spread coherent (place.within (.header none)) valid.1
      exact inits.join conditions outside distinct (by simp)
        (by rintro a (nowhere | above | above | above)
            · cases nowhere
            all_goals exact above.of_part) fun a => id
  | whileLoop condition body span =>
      simp only [Stmt.sites, Stmt.handles, List.flatMap_append] at valid distinct ⊢
      exact (condition.spread place none (address.part (.condition 0))).join
        (Block.spread coherent place.repeated (address.part (.body 0)) outside body valid distinct)
        outside distinct (fun a above above' => by cases above.step_unique above')
        (by rintro a (above | above) <;> exact above.of_part) fun a => id
  | expression value =>
      exact (value.spread place none (address.part .value)).mono fun a above => above.of_part
  | declare decl span => exact decl.spread coherent place (valid decl (by simp [Stmt.handles]))
  | breakLoop span => exact .nil
  | continueLoop span => exact .nil
termination_by sizeOf stmt

theorem Block.spread (coherent : program.Coherent) (place : Place) (address : Address)
    (outside : ∀ id, address.root ≠ .initializer id) (block : Block)
    (valid : ∀ id ∈ block.handles, (program.decl? id).isSome) (distinct : block.handles.Nodup) :
    Spread address.Above block.handles
      ((block.sites program place address).flatMap Site.cells) := by
  cases block with
  | mk body span =>
      refine (Stmt.list_spread coherent place address outside [] body valid distinct).mono ?_
      rintro a ⟨j, -, above⟩
      exact above.of_part
termination_by sizeOf block

theorem Stmt.list_spread (coherent : program.Coherent) (place : Place) (address : Address)
    (outside : ∀ id, address.root ≠ .initializer id) (before rest : List Stmt)
    (valid : ∀ id ∈ Stmt.listHandles rest, (program.decl? id).isSome)
    (distinct : (Stmt.listHandles rest).Nodup) :
    Spread (fun a => ∃ j, before.length ≤ j ∧ (address.part (.statement j)).Above a)
      (Stmt.listHandles rest)
      ((Stmt.listSites program place address before rest).flatMap Site.cells) := by
  cases rest with
  | nil => exact .nil
  | cons stmt rest =>
      simp only [Stmt.listSites, Stmt.listHandles, List.flatMap_append, List.forall_mem_append]
        at valid distinct ⊢
      have parts := List.nodup_append'.1 distinct
      have others := Stmt.list_spread coherent place address outside (before ++ [stmt]) rest
        valid.2 parts.2.1
      simp only [List.length_append, List.length_singleton] at others
      refine (stmt.spread coherent (place.within (.block before))
        (address.part (.statement before.length)) outside valid.1 parts.1).join others outside
        distinct ?_ ?_ ?_
      · rintro a above ⟨j, later, above'⟩
        cases above.step_unique above'
        omega
      · rintro a (above | ⟨j, later, above⟩)
        · exact ⟨_, Nat.le_refl _, above⟩
        · exact ⟨j, by omega, above⟩
      · rintro a ⟨j, -, above⟩
        exact above.of_part
termination_by sizeOf rest

theorem Branch.list_spread (coherent : program.Coherent) (place : Place) (address : Address)
    (outside : ∀ id, address.root ≠ .initializer id) (index : Nat) (branches : List Branch)
    (valid : ∀ id ∈ Branch.listHandles branches, (program.decl? id).isSome)
    (distinct : (Branch.listHandles branches).Nodup) :
    Spread (fun a => ∃ j step, index ≤ j ∧ (address.part step).Above a ∧
        (step = .condition j ∨ step = .body j)) (Branch.listHandles branches)
      ((Branch.listSites program place address index branches).flatMap Site.cells) := by
  cases branches with
  | nil => exact .nil
  | cons branch rest =>
      cases branch with
      | mk condition body =>
          simp only [Branch.listSites, Branch.listHandles, List.flatMap_append,
            List.forall_mem_append] at valid distinct ⊢
          have parts := List.nodup_append'.1 distinct
          have first := (condition.spread place none (address.part (.condition index))).join
            (Block.spread coherent place (address.part (.body index)) outside body valid.1 parts.1)
            outside parts.1 (fun a above above' => by cases above.step_unique above')
            (fun a => id) (by rintro a (above | above) <;> exact above.of_part)
          refine first.join (Branch.list_spread coherent place address outside (index + 1) rest
            valid.2 parts.2.1) outside distinct ?_ ?_ ?_
          · rintro a (above | above) ⟨j, step, later, above', rfl | rfl⟩ <;>
              cases above.step_unique above' <;> omega
          · rintro a ((above | above) | ⟨j, step, later, above, same⟩)
            · exact ⟨index, _, Nat.le_refl _, above, .inl rfl⟩
            · exact ⟨index, _, Nat.le_refl _, above, .inr rfl⟩
            · exact ⟨j, step, by omega, above, same⟩
          · rintro a ⟨j, step, -, above, -⟩
            exact above.of_part
termination_by sizeOf branches

theorem Block.option_spread (coherent : program.Coherent) (place : Place) (address : Address)
    (outside : ∀ id, address.root ≠ .initializer id) (otherwise : Option Block)
    (valid : ∀ id ∈ Block.optionHandles otherwise, (program.decl? id).isSome)
    (distinct : (Block.optionHandles otherwise).Nodup) :
    Spread address.Above (Block.optionHandles otherwise)
      ((Block.optionSites program place address otherwise).flatMap Site.cells) := by
  cases otherwise with
  | none => exact .nil
  | some body => exact Block.spread coherent place address outside body valid distinct
termination_by sizeOf otherwise

end

end Statements

section Programs

variable {program : Program} {α : Type}

theorem VarId.list_spread (coherent : program.Coherent) (place : Place) (ids : List VarId)
    (valid : ∀ id ∈ ids, (program.decl? id).isSome) (distinct : ids.Nodup) :
    Spread (fun _ => False) ids ((ids.flatMap (VarId.sites program place)).flatMap Site.cells) := by
  induction ids with
  | nil => exact .nil
  | cons id rest ih =>
      simp only [List.forall_mem_cons, List.flatMap_cons, List.flatMap_append] at valid ⊢
      have first : Spread (fun _ => False) [id] _ := id.spread coherent place valid.1
      exact (first.append (ih valid.2 (List.nodup_cons.1 distinct).2) (by simp) (by simp)
        distinct).mono (by simp)

/-- Items whose regions are told apart by their indices. -/
theorem Spread.zipIdx {sites : α → Nat → List Site} {handles : α → List VarId}
    {region : Nat → Address → Prop} (items : List α) (index : Nat)
    (apart : ∀ i j a, region i a → region j a → i = j)
    (outside : ∀ i a, region i a → ∀ id, a.root ≠ .initializer id)
    (h : ∀ item ∈ items, ∀ i, (handles item).Nodup →
      Spread (region i) (handles item) ((sites item i).flatMap Site.cells))
    (distinct : (items.flatMap handles).Nodup) :
    Spread (fun a => ∃ i, index ≤ i ∧ region i a) (items.flatMap handles)
      (((items.zipIdx index).flatMap fun (item, i) => sites item i).flatMap Site.cells) := by
  induction items generalizing index with
  | nil => exact .nil
  | cons item rest ih =>
      simp only [List.forall_mem_cons, List.flatMap_cons, List.zipIdx_cons, List.flatMap_append]
        at h distinct ⊢
      have parts := List.nodup_append'.1 distinct
      refine ((h.1 index parts.1).append (ih (index + 1) h.2 parts.2.1) ?_ ?_ distinct).mono ?_
      · rintro a here ⟨i, later, there⟩
        have := apart _ _ a here there
        omega
      · rintro a (here | ⟨i, -, there⟩) id -
        · exact outside _ a here id
        · exact outside _ a there id
      · rintro a (here | ⟨i, later, there⟩)
        · exact ⟨index, Nat.le_refl _, here⟩
        · exact ⟨i, by omega, there⟩

theorem Function.spread (coherent : program.Coherent) (place : Place) (root : Root)
    (outside : ∀ id, root ≠ .initializer id) (function : Function)
    (valid : ∀ id ∈ function.handles, (program.decl? id).isSome)
    (distinct : function.handles.Nodup) :
    Spread (fun a => a.root = root) function.handles
      ((function.sites program place root).flatMap Site.cells) := by
  simp only [Function.sites, Function.handles, List.flatMap_append, List.forall_mem_append]
    at valid distinct ⊢
  have parts := List.nodup_append'.1 distinct
  have params := VarId.list_spread coherent (place.inFunction function) _ valid.1 parts.1
  rw [List.flatMap_map] at params
  have body := (function.body.spread coherent (place.inFunction function) (.ofRoot root) outside
    valid.2 parts.2.1).mono fun a above => above.1
  exact (params.append body (by simp) (fun a here id _ => by
    rcases here with nowhere | here
    · cases nowhere
    · exact fun root => outside id (here.symm.trans root)) distinct).mono (by simp [Address.ofRoot])

theorem Function.option_spread (coherent : program.Coherent) (root : Root)
    (outside : ∀ id, root ≠ .initializer id) (function? : Option Function)
    (valid : ∀ function ∈ function?.toList, ∀ id ∈ function.handles, (program.decl? id).isSome)
    (distinct : (function?.toList.flatMap Function.handles).Nodup) :
    Spread (fun a => a.root = root) (function?.toList.flatMap Function.handles)
      ((function?.toList.flatMap fun function => function.sites program {} root).flatMap
        Site.cells) := by
  cases function? with
  | none => exact .nil
  | some function =>
      simp only [Option.toList_some, List.flatMap_singleton, List.forall_mem_singleton]
        at valid distinct ⊢
      exact function.spread coherent {} root outside valid distinct

theorem RecordDecl.spread (coherent : program.Coherent) (index : Nat) (record : RecordDecl)
    (valid : ∀ id ∈ record.handles, (program.decl? id).isSome)
    (distinct : record.handles.Nodup) :
    Spread (fun a => ∃ method, a.root = .method index method) record.handles
      ((record.sites program index).flatMap Site.cells) := by
  simp only [RecordDecl.sites, RecordDecl.handles, List.flatMap_append, List.forall_mem_append,
    List.forall_mem_flatMap] at valid distinct ⊢
  have parts := List.nodup_append'.1 distinct
  have properties := VarId.list_spread coherent (Place.inRecord {} record) _ valid.1 parts.1
  have methods := Spread.zipIdx record.methods 0
    (fun i j a here there => by cases here.symm.trans there; rfl)
    (fun i a here id root => by cases here.symm.trans root)
    (fun method member methodIndex => method.spread coherent (Place.inRecord {} record)
      (.method index methodIndex) (by simp) (valid.2 method member)) parts.2.1
  refine (properties.append methods (by simp) ?_ distinct).mono ?_
  · rintro a (nowhere | ⟨method, -, here⟩) id - root
    · cases nowhere
    · cases here.symm.trans root
  · rintro a (nowhere | ⟨method, -, here⟩)
    · cases nowhere
    · exact ⟨method, here⟩

/-- The places where trees hang, by the part of a program that they are in. -/
def Root.rank : Root → Nat
  | .initializer _ => 0
  | .method .. => 1
  | .function _ => 2
  | .main => 3
  | .statement _ => 4

/-- The cells of one part of a program and those of the parts behind it. -/
theorem Spread.front {rank : Nat} {handles handles' : List VarId} {cells cells' : List Cell}
    (h : Spread (fun a => a.root.rank = rank + 1) handles cells)
    (h' : Spread (fun a => rank + 1 < a.root.rank) handles' cells')
    (distinct : (handles ++ handles').Nodup) :
    Spread (fun a => rank < a.root.rank) (handles ++ handles') (cells ++ cells') := by
  have apart : ∀ a : Address, a.root.rank = rank + 1 → ¬ rank + 1 < a.root.rank := by
    intro a here
    omega
  have outside : ∀ a : Address, a.root.rank = rank + 1 ∨ rank + 1 < a.root.rank →
      ∀ id ∈ handles ++ handles', a.root ≠ .initializer id := by
    intro a either id _ root
    rw [root, Root.rank] at either
    omega
  apply (h.append h' apart outside distinct).mono
  intro a either
  omega

/-- The cells of a program are distinct, and the scope of each of its declarations is among them. -/
theorem Program.spread (coherent : program.Coherent) :
    Spread (fun _ => True) program.handles program.cells := by
  have valid : ∀ id ∈ program.handles, (program.decl? id).isSome := fun _ =>
    coherent.mem_handles.1
  have distinct := coherent.nodup_handles
  simp only [Program.cells, Program.sites, Program.handles, Stmt.listHandles_eq_flatMap,
    List.flatMap_append, List.forall_mem_append, List.forall_mem_flatMap, List.append_assoc]
    at valid distinct ⊢
  have behindGlobals := List.nodup_append'.1 distinct
  have behindRecords := List.nodup_append'.1 behindGlobals.2.1
  have behindFunctions := List.nodup_append'.1 behindRecords.2.1
  have behindMain := List.nodup_append'.1 behindFunctions.2.1
  have globals := VarId.list_spread coherent {} _ valid.1 behindGlobals.1
  have records := Spread.zipIdx program.records 0
    (fun i j a here there => by
      obtain ⟨method, here⟩ := here
      obtain ⟨method', there⟩ := there
      cases here.symm.trans there
      rfl)
    (fun i a here id root => by
      obtain ⟨method, here⟩ := here
      cases here.symm.trans root)
    (fun record member index => record.spread coherent index (valid.2.1 record member))
    behindRecords.1
  have functions := Spread.zipIdx program.functions 0
    (fun i j a here there => by cases here.symm.trans there; rfl)
    (fun i a here id root => by cases here.symm.trans root)
    (fun function member index => function.spread coherent {} (.function index) (by simp)
      (valid.2.2.1 function member)) behindFunctions.1
  have main := Function.option_spread coherent .main (by simp) program.main valid.2.2.2.1
    behindMain.1
  have statements := Spread.zipIdx program.statements 0
    (fun i j a here there => by
      have same := here.1.symm.trans there.1
      cases same
      rfl)
    (fun i a here id root => by cases here.1.symm.trans root)
    (fun stmt member index => stmt.spread coherent {} (.ofRoot (.statement index))
      (by simp [Address.ofRoot]) (valid.2.2.2.2 stmt member)) behindMain.2.1
  have last : Spread (fun a => 3 < a.root.rank) _ _ := statements.mono (by
    intro a within
    obtain ⟨i, _, here, _⟩ := within
    simp [here, Root.rank, Address.ofRoot])
  have rest := (main.mono (by
    intro a here
    rw [here]
    rfl)).front last behindFunctions.2.1
  have rest := (functions.mono (by
    intro a within
    obtain ⟨i, _, here⟩ := within
    rw [here]
    rfl)).front rest behindRecords.2.1
  have rest := (records.mono (by
    intro a within
    obtain ⟨i, _, method, here⟩ := within
    rw [here]
    rfl)).front rest behindGlobals.2.1
  have all := globals.append rest (by simp) (by
    intro a within id _ root
    rw [root, Root.rank] at within
    simp at within) distinct
  exact all.mono fun _ _ => trivial

end Programs

end Offside
