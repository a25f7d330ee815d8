import Offside.Proofs.Scoping.Place

/-! # Resolution against scoping

The checker resolves a name through environments that it fills as it goes. An environment that holds
what an enclosure has declared so far answers as the enclosure does, so the variable that is found is
the one that the name refers to.
-/

namespace Offside

section Candidates

variable {α : Type} {condition : α → Bool} {items : List α} {item : α}

theorem find?_eq_some_iff_isFirst :
    items.find? condition = some item ↔ IsFirst condition items item := by
  rw [List.find?_eq_some_iff_append]
  constructor
  · rintro ⟨holds, before, after, split, none⟩
    exact ⟨before, after, split, holds, by simpa using none⟩
  · rintro ⟨before, after, split, holds, none⟩
    exact ⟨holds, before, after, split, by simpa using none⟩

theorem find?_reverse_eq_some_iff_isLast :
    items.reverse.find? condition = some item ↔ IsLast condition items item := by
  rw [find?_eq_some_iff_isFirst]
  constructor
  · rintro ⟨before, after, split, holds, none⟩
    refine ⟨after.reverse, before.reverse, ?_, holds, by simpa using none⟩
    simpa using congrArg List.reverse split
  · rintro ⟨before, after, split, holds, none⟩
    exact ⟨after.reverse, before.reverse, by simp [split], holds, by simpa using none⟩

theorem not_isChosen_nil : ¬ IsChosen [] item := by
  intro chosen
  cases chosen

/-- Alternatives that are tried one after the other find what is chosen among the candidates. -/
theorem or_eq_some_iff_isChosen {first rest : Option α} {candidate : α → Prop}
    {sorts : List (α → Prop)} (hfirst : ∀ item, first = some item ↔ candidate item)
    (hrest : rest = some item ↔ IsChosen sorts item) :
    first.or rest = some item ↔ IsChosen (candidate :: sorts) item := by
  cases h : first with
  | none =>
      have none : ∀ other, ¬ candidate other := by
        intro other
        rw [← hfirst other, h]
        exact Option.some_ne_none other |>.symm
      rw [Option.none_or, hrest]
      constructor
      · exact .later none
      · intro chosen
        cases chosen with
        | here holds => exact absurd holds (none _)
        | later _ chosen => exact chosen
  | some found =>
      have holds : candidate found := (hfirst found).1 h
      rw [Option.some_or, ← h, hfirst]
      constructor
      · exact .here
      · intro chosen
        cases chosen with
        | here holds => exact holds
        | later none _ => exact absurd holds (none found)

end Candidates

namespace Program

variable {program : Program} {α : Type} {own : RecordDecl → Option α}

/-- A record type has or inherits at most one member. -/
theorem Nearest.unique {record : RecordDecl} {a b : α} (ha : program.Nearest own record a)
    (hb : program.Nearest own record b) : a = b := by
  induction ha with
  | own ha =>
      cases hb with
      | own hb => exact Option.some.inj (ha.symm.trans hb)
      | inherited none => rw [none] at ha; cases ha
  | inherited none hparent hfound _ ih =>
      cases hb with
      | own hb => rw [none] at hb; cases hb
      | inherited _ hparent' hfound' hb =>
          rw [hparent] at hparent'
          cases hparent'
          rw [hfound] at hfound'
          cases hfound'
          exact ih hb

/-- Among record types without a member of their own, of which each has its parent among them too,
no member is inherited. -/
theorem not_nearest_of_closed {line : List RecordDecl} (none : ∀ record ∈ line, own record = none)
    (closed : ∀ record ∈ line, ∀ name parent, record.parent = some name →
      program.record? name.text = some parent → parent ∈ line)
    {record : RecordDecl} {member : α} (hrecord : record ∈ line) :
    ¬ program.Nearest own record member := by
  intro nearest
  induction nearest with
  | own hown =>
      rw [none _ hrecord] at hown
      cases hown
  | inherited _ hparent hfound _ ih => exact ih (closed _ hrecord _ _ hparent hfound)

/-- What is found along the ancestors in a pool is what the record type that the line starts with has
or inherits. -/
theorem nearest_of_findSome?_ancestors (coherent : program.Coherent) {pool : List RecordDecl}
    {parent : Option Name} {member : α} (hpool : ∀ record ∈ pool, record ∈ program.records)
    (found : (ancestors pool parent).findSome? own = some member) :
    ∃ name record, parent = some name ∧ program.record? name.text = some record ∧
      program.Nearest own record member := by
  fun_induction ancestors pool parent with
  | case1 => cases found
  | case2 => cases found
  | case3 pool name record hfind ih =>
      have hname : record.name = name.text := by simpa using List.find?_some hfind
      have hmem := hpool record (List.mem_of_find?_eq_some hfind)
      refine ⟨name, record, rfl, hname ▸ coherent.record?_name hmem, ?_⟩
      rw [List.findSome?_cons] at found
      split at found
      · next hown => exact .own (hown.trans found)
      · next hown =>
        obtain ⟨above, ancestor, hparent, habove, nearest⟩ :=
          ih (fun other hother => hpool other (List.mem_of_mem_filter hother)) found
        exact .inherited hown hparent habove nearest

/-- The line of ancestors goes on from each record type in it to the parent, unless the parent has
been passed. -/
theorem ancestors_closed (coherent : program.Coherent) {pool : List RecordDecl}
    (passed : List RecordDecl) {parent : Option Name} (hpool : ∀ record ∈ pool, record ∈ program.records)
    (rest : ∀ record ∈ program.records, record ∈ pool ∨ record ∈ passed)
    (child : Option Name) (hchild : child = parent ∨
      ∃ record ∈ ancestors pool parent, child = record.parent)
    {name : Name} (hname : child = some name) {above : RecordDecl}
    (habove : program.record? name.text = some above) :
    above ∈ passed ∨ above ∈ ancestors pool parent := by
  have hmem := List.mem_of_find?_eq_some habove
  have habovename : above.name = name.text := by simpa using List.find?_some habove
  fun_induction ancestors pool parent generalizing passed child name with
  | case1 => simp_all
  | case2 pool start hfind =>
      have hstart : child = some start := by simpa using hchild
      rw [hname] at hstart
      cases hstart
      left
      refine (rest above hmem).resolve_left fun inpool => ?_
      simpa [habovename] using List.find?_eq_none.1 hfind above inpool
  | case3 pool start record hfind ih =>
      have hrecord := hpool record (List.mem_of_find?_eq_some hfind)
      have hstart : record.name = start.text := by simpa using List.find?_some hfind
      rcases hchild with rfl | hchild
      · cases hname
        right
        rw [← hstart, coherent.record?_name hrecord] at habove
        cases habove
        exact List.mem_cons_self
      · have next := ih (record :: passed)
          (fun other hother => hpool other (List.mem_of_mem_filter hother)) ?_
          child (by simpa [List.exists_mem_cons_iff] using hchild) hname habove habovename
        · rcases next with next | next
          · rcases List.mem_cons.1 next with rfl | next
            · exact .inr List.mem_cons_self
            · exact .inl next
          · exact .inr (List.mem_cons_of_mem _ next)
        · intro other hother
          by_cases same : other.name = record.name
          · right
            have := coherent.record?_name hother
            rw [same, coherent.record?_name hrecord] at this
            cases this
            exact List.mem_cons_self
          · rcases rest other hother with inpool | inpassed
            · exact .inl (List.mem_filter.2 ⟨inpool, by simpa using same⟩)
            · exact .inr (List.mem_cons_of_mem _ inpassed)

/-- Along the ancestry of a record type, the member is found that it has or inherits. -/
theorem findSome?_ancestry_eq_some_iff (coherent : program.Coherent) {record : RecordDecl}
    (hrecord : record ∈ program.records) {member : α} :
    (program.ancestry record).findSome? own = some member ↔
      program.Nearest own record member := by
  have hpool : ∀ other ∈ without program.records record.name, other ∈ program.records :=
    fun other hother => List.mem_of_mem_filter hother
  have sound : ∀ {member}, (program.ancestry record).findSome? own = some member →
      program.Nearest own record member := by
    intro member found
    rw [ancestry, List.findSome?_cons] at found
    split at found
    · next hown => exact .own (hown.trans found)
    · next hown =>
      obtain ⟨name, parent, hparent, hfound, nearest⟩ :=
        nearest_of_findSome?_ancestors coherent hpool found
      exact .inherited hown hparent hfound nearest
  refine ⟨sound, fun nearest => ?_⟩
  cases hfound : (program.ancestry record).findSome? own with
  | some found => rw [(sound hfound).unique nearest]
  | none =>
      have none : ∀ other ∈ program.ancestry record, own other = none :=
        List.findSome?_eq_none_iff.1 hfound
      have rest : ∀ other ∈ program.records,
          other ∈ without program.records record.name ∨ other ∈ [record] := by
        intro other hother
        by_cases same : other.name = record.name
        · have := coherent.record?_name hother
          rw [same, coherent.record?_name hrecord] at this
          cases this
          exact .inr List.mem_cons_self
        · exact .inl (List.mem_filter.2 ⟨hother, by simpa using same⟩)
      refine absurd nearest (not_nearest_of_closed none ?_ List.mem_cons_self)
      intro child hchild name parent hparent hfound
      have line : child.parent = record.parent ∨
          ∃ other ∈ ancestors (without program.records record.name) record.parent,
            child.parent = other.parent := by
        rcases List.mem_cons.1 hchild with rfl | hchild
        · exact .inl rfl
        · exact .inr ⟨child, hchild, rfl⟩
      simpa [ancestry] using
        ancestors_closed coherent [record] hpool rest child.parent line hparent hfound

end Program

namespace Enclosure

variable {program : Program}

/-- The environment that holds what an enclosure has declared. -/
def environment (program : Program) (enclosure : Enclosure) : Environment :=
  ⟨enclosure.declared.reverse.filterMap fun id =>
    (program.decl? id).map fun decl => (decl.name, decl.id)⟩

theorem environment_find? (coherent : program.Coherent) (enclosure : Enclosure) (name : String) :
    (enclosure.environment program).find? name =
      enclosure.declared.reverse.find? (program.declares name) := by
  simp only [environment, Environment.find?]
  induction enclosure.declared.reverse with
  | nil => rfl
  | cons id rest ih =>
      cases hdecl : program.decl? id with
      | none => simpa [hdecl, Program.declares] using ih
      | some decl =>
          have hid := coherent.id_eq hdecl
          by_cases same : decl.name = name
          · simp [hdecl, Program.declares, same, hid]
          · have other : (name == decl.name) = false := by simpa using Ne.symm same
            simpa [hdecl, Program.declares, same, List.lookup_cons, other] using ih

end Enclosure

namespace Place

variable {program : Program} {place : Place} {name : String} {id : VarId}

/-- The environments of the enclosures of a place. -/
def environments (program : Program) (place : Place) : List Environment :=
  place.enclosures.map (Enclosure.environment program)

theorem nearest?_eq_some_iff (coherent : program.Coherent) :
    LocalLookup.nearest? (place.environments program) name = some id ↔
      IsPreceding program place name id := by
  simp only [LocalLookup.nearest?, environments, IsPreceding, List.findSome?_map,
    Function.comp_def, Enclosure.environment_find? coherent, List.findSome?_eq_some_iff,
    find?_reverse_eq_some_iff_isLast, List.find?_eq_none, List.mem_reverse, Bool.not_eq_true]

theorem propertyOf?_eq_some_iff (coherent : program.Coherent)
    (hrecord : ∀ record, place.record = some record → record ∈ program.records) :
    (place.record.bind fun record => (program.propertyOf? record name).map VarDecl.id) = some id ↔
      IsProperty program place name id := by
  simp only [IsProperty, Option.bind_eq_some_iff, Option.map_eq_some_iff]
  constructor
  · rintro ⟨record, hplace, decl, found, rfl⟩
    exact ⟨record, decl, hplace, (Program.findSome?_ancestry_eq_some_iff coherent
      (hrecord record hplace)).1 found, rfl⟩
  · rintro ⟨record, decl, hplace, nearest, rfl⟩
    exact ⟨record, hplace, decl, (Program.findSome?_ancestry_eq_some_iff coherent
      (hrecord record hplace)).2 nearest, rfl⟩

theorem paramOf?_eq_some_iff :
    (place.function.bind fun function => program.paramOf? function name) = some id ↔
      IsParameter program place name id := by
  simp only [IsParameter, Option.bind_eq_some_iff, Program.paramOf?, find?_eq_some_iff_isFirst]

theorem lastDeclared?_eq_some_iff :
    (place.function.bind fun function => program.lastDeclared? function name) = some id ↔
      IsLastInBody program place name id := by
  simp only [IsLastInBody, Option.bind_eq_some_iff, Program.lastDeclared?,
    find?_reverse_eq_some_iff_isLast]

/-- In the environments of a place, a name is resolved to the variable that it refers to. -/
theorem find?_eq_some_iff_refersTo (coherent : program.Coherent)
    (hrecord : ∀ record, place.record = some record → record ∈ program.records)
    (lookup : LocalLookup) (context : Context) (hfunction : context.function = place.function)
    (hcontext : context.record = place.record) :
    lookup.find? program context (place.environments program) name = some id ↔
      RefersTo program place name lookup id := by
  have split : lookup.find? program context (place.environments program) name =
      (place.record.bind fun record => (program.propertyOf? record name).map VarDecl.id).or
        ((place.function.bind fun function => program.paramOf? function name).or
          ((if lookup = .lastInBody then
              place.function.bind fun function => program.lastDeclared? function name
            else none).or
            ((LocalLookup.nearest? (place.environments program) name).or
              (((program.global? name).map VarDecl.id).or none)))) := by
    rw [LocalLookup.find?, hfunction, hcontext]
    cases place.function with
    | none => simp
    | some function => cases lookup <;> simp [LocalLookup.localOf?, Option.or_assoc]
  rw [split]
  refine or_eq_some_iff_isChosen (fun _ => propertyOf?_eq_some_iff coherent hrecord) ?_
  refine or_eq_some_iff_isChosen (fun _ => paramOf?_eq_some_iff) ?_
  refine or_eq_some_iff_isChosen (fun _ => ?_) ?_
  · split
    · next h => simp only [h, true_and, lastDeclared?_eq_some_iff]
    · next h => simp [h]
  refine or_eq_some_iff_isChosen (fun _ => nearest?_eq_some_iff coherent) ?_
  refine or_eq_some_iff_isChosen (fun _ => ?_) ?_
  · simp only [IsGlobal, Option.map_eq_some_iff]
  · simp only [reduceCtorEq, false_iff]
    exact not_isChosen_nil

theorem RefersTo.unique (coherent : program.Coherent)
    (hrecord : ∀ record, place.record = some record → record ∈ program.records)
    {lookup : LocalLookup} {a b : VarId} (ha : RefersTo program place name lookup a)
    (hb : RefersTo program place name lookup b) : a = b := by
  rw [← find?_eq_some_iff_refersTo coherent hrecord lookup
    { function := place.function, record := place.record } rfl rfl] at ha hb
  exact Option.some.inj (ha.symm.trans hb)

end Place

end Offside
