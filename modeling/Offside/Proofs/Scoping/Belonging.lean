import Offside.Proofs.Agreeing.Lookups
import Offside.Proofs.Flow.Execution
import Offside.Proofs.Lineage
import Offside.Proofs.Typing.Sources
import Mathlib.Data.List.Perm.Basic

/-! # What variables belong to

A variable belongs to the function, the record type or the free statement that declares it, or to the
program as a whole. Annotations say so of each declaration, and a reference is only linked to what it
may see: to a local variable of the function that it stands in, to a property of a record type that
the one around it is or inherits from, or to a global variable or one of its own statement.
-/

namespace Offside

/-- The tree at a root stands in a function: it is the body, or the first value of a variable that
the function declares. -/
def Function.Contains (program : Program) (function : Function) (root : Root) : Prop :=
  program.BodyAt root function ∨ ∃ id ∈ function.handles, root = .initializer id

/-- The tree at a root stands in a record type: in a method of it, or as the first value of a property
of it. -/
def RecordDecl.Contains (program : Program) (record : RecordDecl) (root : Root) : Prop :=
  (∃ method ∈ record.methods, method.Contains program root) ∨
    ∃ id ∈ record.properties, root = .initializer id

/-- The tree at a root stands in the free statement at an index: it is the statement, or the first
value of a variable that the statement declares. -/
def Stmt.Contains (index : Nat) (stmt : Stmt) (root : Root) : Prop :=
  root = .statement index ∨ ∃ id ∈ stmt.handles, root = .initializer id

/-- The blocks and loop headers around a place have declared nothing but certain variables. -/
def Place.Confined (place : Place) (handles : List VarId) : Prop :=
  ∀ enclosure ∈ place.enclosures, enclosure.declared ⊆ handles

/-- A site stands in a part of a program, which is in a record type and a function and declares some
variables: its tree hangs where the trees of the part do or is the first value of such a variable,
and what the blocks and loop headers around it have declared is declared by the part. -/
structure Site.LiesIn (record : Option RecordDecl) (function : Option Function)
    (handles : List VarId) (hung : Root → Prop) (site : Site) : Prop where
  record : site.place.record = record
  function : site.place.function = function
  declared : site.place.Confined handles
  root : ∀ address place declared expr, site = .expr address place declared expr →
    hung address.root ∨ ∃ id ∈ handles, address.root = .initializer id

section Sites

variable {program : Program} {handles : List VarId} {hung : Root → Prop} {site : Site}

mutual

/-- The sites in an expression stand where the expression does, in the same tree. -/
theorem Expr.of_mem_sites (place : Place) (address : Address) (declared : Option DataType)
    (expr : Expr) (listed : site ∈ expr.sites place address declared) :
    ∃ below declared node, site = .expr below place declared node ∧ below.root = address.root := by
  cases expr with
  | literal | reference => exact ⟨_, _, _, List.mem_singleton.1 listed, rfl⟩
  | array values =>
      rcases List.mem_append.1 listed with listed | own
      · exact Expr.of_mem_listSites place address _ 0 values listed
      · exact ⟨_, _, _, List.mem_singleton.1 own, rfl⟩
  | binary _ left right =>
      rcases List.mem_append.1 listed with listed | own
      · rcases List.mem_append.1 listed with listed | listed
        · exact Expr.of_mem_sites place (address.part .left) none left listed
        · exact Expr.of_mem_sites place (address.part .right) none right listed
      · exact ⟨_, _, _, List.mem_singleton.1 own, rfl⟩
  | unary _ operand =>
      rcases List.mem_append.1 listed with listed | own
      · exact Expr.of_mem_sites place (address.part .operand) none operand listed
      · exact ⟨_, _, _, List.mem_singleton.1 own, rfl⟩
  | call _ args =>
      rcases List.mem_append.1 listed with listed | own
      · exact Arg.of_mem_listSites place address 0 args listed
      · exact ⟨_, _, _, List.mem_singleton.1 own, rfl⟩
  | method receiver _ args =>
      rcases List.mem_append.1 listed with listed | own
      · rcases List.mem_append.1 listed with listed | listed
        · exact Expr.of_mem_sites place (address.part .receiver) none receiver listed
        · exact Arg.of_mem_listSites place address 0 args listed
      · exact ⟨_, _, _, List.mem_singleton.1 own, rfl⟩
  | property receiver =>
      rcases List.mem_append.1 listed with listed | own
      · exact Expr.of_mem_sites place (address.part .receiver) none receiver listed
      · exact ⟨_, _, _, List.mem_singleton.1 own, rfl⟩
termination_by sizeOf expr

theorem Expr.of_mem_listSites (place : Place) (address : Address) (declared : Option DataType)
    (index : Nat) (values : List Expr)
    (listed : site ∈ Expr.listSites place address declared index values) :
    ∃ below declared node, site = .expr below place declared node ∧ below.root = address.root := by
  cases values with
  | nil => cases listed
  | cons value rest =>
      rcases List.mem_append.1 listed with listed | listed
      · exact Expr.of_mem_sites place (address.part (.element index)) declared value listed
      · exact Expr.of_mem_listSites place address declared (index + 1) rest listed
termination_by sizeOf values

theorem Arg.of_mem_listSites (place : Place) (address : Address) (index : Nat) (args : List Arg)
    (listed : site ∈ Arg.listSites place address index args) :
    ∃ below declared node, site = .expr below place declared node ∧ below.root = address.root := by
  cases args with
  | nil => cases listed
  | cons arg rest =>
      cases arg with
      | mk label value =>
          rcases List.mem_append.1 listed with listed | listed
          · exact Expr.of_mem_sites place (address.part (.argument index)) none value listed
          · exact Arg.of_mem_listSites place address (index + 1) rest listed
termination_by sizeOf args

end

theorem Place.Confined.within {place : Place} {enclosure : Enclosure}
    (h : place.Confined handles) (subset : enclosure.declared ⊆ handles) :
    (place.within enclosure).Confined handles :=
  List.forall_mem_cons.2 ⟨subset, h⟩

theorem Expr.liesIn (place : Place) (address : Address) {declared : Option DataType} {expr : Expr}
    (inside : place.Confined handles)
    (root : hung address.root ∨ ∃ id ∈ handles, address.root = .initializer id)
    (listed : site ∈ expr.sites place address declared) :
    site.LiesIn place.record place.function handles hung := by
  obtain ⟨below, declared, node, rfl, same⟩ := expr.of_mem_sites place address declared listed
  refine ⟨rfl, rfl, inside, ?_⟩
  rintro _ _ _ _ ⟨⟩
  rwa [same]

theorem VarId.liesIn (coherent : program.Coherent) (place : Place) {id : VarId}
    (inside : place.Confined handles) (member : id ∈ handles)
    (listed : site ∈ id.sites program place) :
    site.LiesIn place.record place.function handles hung := by
  rw [VarId.sites] at listed
  cases found : program.decl? id with
  | none => simp [found] at listed
  | some decl =>
      rw [found, Option.map_some, Option.getD_some, VarDecl.sites, coherent.id_eq found] at listed
      rcases List.mem_append.1 listed with listed | own
      · cases init : decl.init with
        | none => simp [init] at listed
        | some init' =>
            rw [init] at listed
            have own : ∃ other ∈ handles, (Address.ofRoot (.initializer id)).root =
                .initializer other := ⟨id, member, rfl⟩
            exact Expr.liesIn place _ inside (.inr own) listed
      · cases List.mem_singleton.1 own
        refine ⟨rfl, rfl, inside, ?_⟩
        rintro _ _ _ _ ⟨⟩

mutual

/-- The sites in a statement stand in the part of the program that the statement is in. -/
theorem Stmt.liesIn (coherent : program.Coherent) (place : Place) (address : Address) (stmt : Stmt)
    (inside : place.Confined handles) (root : hung address.root) (subset : stmt.handles ⊆ handles)
    (listed : site ∈ stmt.sites program place address) :
    site.LiesIn place.record place.function handles hung := by
  cases stmt with
  | block body =>
      exact Block.liesIn coherent place (address.part (.body 0)) body inside root subset listed
  | returns value | expression value =>
      exact Expr.liesIn place (address.part .value) inside (.inl root) listed
  | branch branches otherwise =>
      obtain ⟨first, last⟩ := List.append_subset.1 subset
      rcases List.mem_append.1 listed with listed | listed
      · exact Branch.list_liesIn coherent place address 0 branches inside root first listed
      · exact Block.option_liesIn coherent place (address.part .otherwise) otherwise inside root last
          listed
  | forLoop init condition step body =>
      obtain ⟨member, rest⟩ := List.cons_subset.1 subset
      have before : (place.within (.header none)).Confined handles :=
        inside.within (List.nil_subset _)
      have header : (place.within (.header (some init))).Confined handles :=
        inside.within (by simpa [Enclosure.declared] using member)
      rcases List.mem_append.1 listed with listed | listed
      · rcases List.mem_append.1 listed with listed | listed
        · rcases List.mem_append.1 listed with listed | listed
          · exact VarId.liesIn coherent (place.within (.header none)) before member listed
          · exact Expr.liesIn (place.within (.header (some init))) (address.part (.condition 0))
              header (.inl root) listed
        · exact Expr.liesIn (place.within (.header (some init))) (address.part .update) header
            (.inl root) listed
      · exact Block.liesIn coherent (place.within (.header (some init))).repeated
          (address.part (.body 0)) body header root rest listed
  | whileLoop condition body =>
      rcases List.mem_append.1 listed with listed | listed
      · exact Expr.liesIn place (address.part (.condition 0)) inside (.inl root) listed
      · exact Block.liesIn coherent place.repeated (address.part (.body 0)) body inside root subset
          listed
  | declare decl => exact VarId.liesIn coherent place inside (subset List.mem_cons_self) listed
  | breakLoop | continueLoop => cases listed
termination_by sizeOf stmt

theorem Block.liesIn (coherent : program.Coherent) (place : Place) (address : Address)
    (block : Block) (inside : place.Confined handles) (root : hung address.root)
    (subset : block.handles ⊆ handles) (listed : site ∈ block.sites program place address) :
    site.LiesIn place.record place.function handles hung := by
  cases block with
  | mk body span =>
      exact Stmt.list_liesIn coherent place address [] body inside root (List.nil_subset _) subset
        listed
termination_by sizeOf block

theorem Stmt.list_liesIn (coherent : program.Coherent) (place : Place) (address : Address)
    (before stmts : List Stmt) (inside : place.Confined handles) (root : hung address.root)
    (passed : Stmt.listHandles before ⊆ handles) (subset : Stmt.listHandles stmts ⊆ handles)
    (listed : site ∈ Stmt.listSites program place address before stmts) :
    site.LiesIn place.record place.function handles hung := by
  cases stmts with
  | nil => cases listed
  | cons stmt rest =>
      obtain ⟨here, later⟩ := List.append_subset.1 subset
      rcases List.mem_append.1 listed with listed | listed
      · have block : (place.within (.block before)).Confined handles :=
          inside.within (List.Subset.trans (Block.declared_subset_handles ⟨before, default⟩) passed)
        exact Stmt.liesIn coherent (place.within (.block before))
          (address.part (.statement before.length)) stmt block root here listed
      · refine Stmt.list_liesIn coherent place address (before ++ [stmt]) rest inside root ?_ later
          listed
        rw [Stmt.listHandles_eq_flatMap] at passed ⊢
        rw [List.flatMap_append, List.flatMap_singleton]
        exact List.append_subset.2 ⟨passed, here⟩
termination_by sizeOf stmts

theorem Branch.list_liesIn (coherent : program.Coherent) (place : Place) (address : Address)
    (index : Nat) (branches : List Branch) (inside : place.Confined handles)
    (root : hung address.root) (subset : Branch.listHandles branches ⊆ handles)
    (listed : site ∈ Branch.listSites program place address index branches) :
    site.LiesIn place.record place.function handles hung := by
  cases branches with
  | nil => cases listed
  | cons branch rest =>
      cases branch with
      | mk condition body =>
          obtain ⟨here, later⟩ := List.append_subset.1 subset
          rcases List.mem_append.1 listed with listed | listed
          · rcases List.mem_append.1 listed with listed | listed
            · exact Expr.liesIn place (address.part (.condition index)) inside (.inl root) listed
            · exact Block.liesIn coherent place (address.part (.body index)) body inside root here
                listed
          · exact Branch.list_liesIn coherent place address (index + 1) rest inside root later listed
termination_by sizeOf branches

theorem Block.option_liesIn (coherent : program.Coherent) (place : Place) (address : Address)
    (otherwise : Option Block) (inside : place.Confined handles) (root : hung address.root)
    (subset : Block.optionHandles otherwise ⊆ handles)
    (listed : site ∈ Block.optionSites program place address otherwise) :
    site.LiesIn place.record place.function handles hung := by
  cases otherwise with
  | none => cases listed
  | some body => exact Block.liesIn coherent place address body inside root subset listed
termination_by sizeOf otherwise

end

theorem Function.liesIn (coherent : program.Coherent) (record : Option RecordDecl) {root : Root}
    {function : Function} (listed : site ∈ function.sites program { record } root) :
    site.LiesIn record (some function) function.handles (· = root) := by
  have inside : (Place.inFunction { record } function).Confined function.handles :=
    List.forall_mem_nil _
  rcases List.mem_append.1 listed with listed | listed
  · obtain ⟨param, member, listed⟩ := List.mem_flatMap.1 listed
    exact VarId.liesIn coherent (Place.inFunction { record } function) inside
      (List.mem_append_left _ (List.mem_map_of_mem member)) listed
  · exact Block.liesIn coherent (Place.inFunction { record } function) (.ofRoot root) function.body
      inside rfl (List.subset_append_right _ _) listed

end Sites

/-- The record type around a tree. -/
def Program.recordAt? (program : Program) : Root → Option RecordDecl
  | .method index _ => program.records[index]?
  | .initializer _ | .function _ | .main | .statement _ => none

/-- A part of a program, with the record type and the function that it is in, the variables that it
declares, where its trees hang if not by one of them, and its sites. -/
inductive Program.Part (program : Program) :
    Option RecordDecl → Option Function → List VarId → (Root → Prop) → List Site → Prop where
  | global {id} : id ∈ program.globals →
    Part program none none [id] (fun _ => False) (id.sites program {})
  | property {record id} : record ∈ program.records → id ∈ record.properties →
    Part program (some record) none [id] (fun _ => False)
      (id.sites program (Place.inRecord {} record))
  | body {root function} : program.BodyAt root function →
    Part program (program.recordAt? root) (some function) function.handles (· = root)
      (function.sites program { record := program.recordAt? root } root)
  | statement {index stmt} : program.statements[index]? = some stmt →
    Part program none none stmt.handles (· = .statement index)
      (stmt.sites program {} (.ofRoot (.statement index)))

section Parts

variable {program : Program} {record : Option RecordDecl} {function : Option Function}
  {handles : List VarId} {hung : Root → Prop} {sites : List Site} {site : Site} {id : VarId}

theorem Program.mem_bodies_iff {function : Function} :
    function ∈ program.bodies ↔ ∃ root, program.BodyAt root function := by
  simp only [Program.bodies, List.mem_append, List.mem_flatMap, Option.mem_toList]
  constructor
  · rintro ((⟨record, listed, member⟩ | member) | found)
    · obtain ⟨index, found⟩ := List.mem_iff_getElem?.1 listed
      obtain ⟨methodIndex, found'⟩ := List.mem_iff_getElem?.1 member
      exact ⟨_, .method found found'⟩
    · obtain ⟨index, found⟩ := List.mem_iff_getElem?.1 member
      exact ⟨_, .function found⟩
    · exact ⟨_, .main found⟩
  · rintro ⟨root, function | main | ⟨found, found'⟩⟩
    · exact .inl (.inr (List.mem_of_getElem? ‹_›))
    · exact .inr ‹_›
    · exact .inl (.inl ⟨_, List.mem_of_getElem? found, List.mem_of_getElem? found'⟩)

namespace Program.Part

/-- Every site of a program stands in a part of it. -/
theorem exists_of_mem_sites (listed : site ∈ program.sites) :
    ∃ record function handles hung sites,
      program.Part record function handles hung sites ∧ site ∈ sites := by
  simp only [Program.sites, RecordDecl.sites, List.mem_append, List.mem_flatMap,
    Option.mem_toList, Prod.exists, List.mem_zipIdx_iff_getElem?] at listed
  rcases listed with (((⟨id, member, listed⟩ | ⟨record, index, found, properties | methods⟩) |
    ⟨function, index, found, listed⟩) | ⟨function, found, listed⟩) | ⟨stmt, index, found, listed⟩
  · exact ⟨_, _, _, _, _, .global member, listed⟩
  · obtain ⟨id, member, listed⟩ := properties
    exact ⟨_, _, _, _, _, .property (List.mem_of_getElem? found) member, listed⟩
  · obtain ⟨method, methodIndex, found', listed⟩ := methods
    refine ⟨_, _, _, _, _, .body (.method found found'), ?_⟩
    rw [Program.recordAt?, found]
    exact listed
  · exact ⟨_, _, _, _, _, .body (.function found), listed⟩
  · exact ⟨_, _, _, _, _, .body (.main found), listed⟩
  · exact ⟨_, _, _, _, _, .statement found, listed⟩

theorem sites_subset (part : program.Part record function handles hung sites) :
    sites ⊆ program.sites := by
  intro site listed
  simp only [Program.sites, RecordDecl.sites, List.mem_append, List.mem_flatMap,
    Option.mem_toList, Prod.exists, List.mem_zipIdx_iff_getElem?]
  cases part with
  | global member => exact .inl (.inl (.inl (.inl ⟨_, member, listed⟩)))
  | property member member' =>
      obtain ⟨index, found⟩ := List.mem_iff_getElem?.1 member
      exact .inl (.inl (.inl (.inr ⟨_, index, found, .inl ⟨_, member', listed⟩⟩)))
  | body hangs =>
      cases hangs with
      | function found => exact .inl (.inl (.inr ⟨_, _, found, listed⟩))
      | main found => exact .inl (.inr ⟨_, found, listed⟩)
      | method found found' =>
          rw [Program.recordAt?, found] at listed
          exact .inl (.inl (.inl (.inr ⟨_, _, found, .inr ⟨_, _, found', listed⟩⟩)))
  | statement found => exact .inr ⟨_, _, found, listed⟩

theorem liesIn (coherent : program.Coherent)
    (part : program.Part record function handles hung sites) (listed : site ∈ sites) :
    site.LiesIn record function handles hung := by
  cases part with
  | global => exact VarId.liesIn coherent {} (List.forall_mem_nil _) List.mem_cons_self listed
  | @property record =>
      exact VarId.liesIn coherent (Place.inRecord {} record) (List.forall_mem_nil _)
        List.mem_cons_self listed
  | body => exact Function.liesIn coherent _ listed
  | statement =>
      exact Stmt.liesIn coherent {} (.ofRoot (.statement _)) _ (List.forall_mem_nil _) rfl
        (List.Subset.refl _) listed

theorem handles_sublist (part : program.Part record function handles hung sites) :
    handles.Sublist program.handles := by
  have within : ∀ {α : Type} {items : List α} {item : α} (f : α → List VarId), item ∈ items →
      (f item).Sublist (items.flatMap f) := fun f member =>
    List.sublist_flatten_of_mem (List.mem_map_of_mem member)
  rw [Program.handles, Stmt.listHandles_eq_flatMap]
  simp only [List.append_assoc]
  cases part with
  | global member =>
      exact (List.singleton_sublist.2 member).trans (List.sublist_append_left _ _)
  | property member member' =>
      refine .trans ?_ (List.sublist_append_right _ _)
      refine .trans ?_ (List.sublist_append_left _ _)
      exact (List.singleton_sublist.2 (List.mem_append_left _ member')).trans
        (within RecordDecl.handles member)
  | body hangs =>
      refine .trans ?_ (List.sublist_append_right _ _)
      cases hangs with
      | method found found' =>
          refine .trans ?_ (List.sublist_append_left _ _)
          refine .trans ?_ (within RecordDecl.handles (List.mem_of_getElem? found))
          exact (within Function.handles (List.mem_of_getElem? found')).trans
            (List.sublist_append_right _ _)
      | function found =>
          refine .trans ?_ (List.sublist_append_right _ _)
          exact (within Function.handles (List.mem_of_getElem? found)).trans
            (List.sublist_append_left _ _)
      | main found =>
          refine .trans ?_ (List.sublist_append_right _ _)
          refine .trans ?_ (List.sublist_append_right _ _)
          exact (within Function.handles (Option.mem_toList.2 found)).trans
            (List.sublist_append_left _ _)
  | statement found =>
      iterate 4 refine .trans ?_ (List.sublist_append_right _ _)
      exact within Stmt.handles (List.mem_of_getElem? found)

/-- Every variable that a part declares has the site of its declaration there. -/
theorem declares (coherent : program.Coherent)
    (part : program.Part record function handles hung sites) (member : id ∈ handles) :
    ∃ place, .decl place id ∈ sites := by
  have valid : ∀ id ∈ handles, (program.decl? id).isSome := fun id member =>
    coherent.mem_handles.1 (part.handles_sublist.subset member)
  have distinct : handles.Nodup := part.handles_sublist.nodup coherent.nodup_handles
  refine Site.exists_decl_of_scope_mem ?_
  cases part with
  | @global id' =>
      have spread : Spread (fun _ => False) _ _ := id'.spread coherent {} (valid id' (by simp))
      exact spread.scopes id member
  | @property record id' =>
      have spread : Spread (fun _ => False) _ _ :=
        id'.spread coherent (Place.inRecord {} record) (valid id' (by simp))
      exact spread.scopes id member
  | @body root function hangs =>
      refine (function.spread coherent _ root ?_ valid distinct).scopes id member
      cases hangs <;> simp
  | @statement index stmt =>
      exact (stmt.spread coherent {} (.ofRoot (.statement index)) (by simp [Address.ofRoot]) valid
        distinct).scopes id member

/-- A variable that a part declares is annotated with what the part is in. -/
theorem scope? (coherent : program.Coherent) {lookup : LocalLookup} {annotations : Annotations}
    (annotated : program.Annotated lookup annotations)
    (part : program.Part record function handles hung sites) (member : id ∈ handles) :
    annotations.scope? id = some (Place.scope { record, function }) := by
  obtain ⟨place, listed⟩ := part.declares coherent member
  obtain ⟨sameRecord, sameFunction, -, -⟩ := part.liesIn coherent listed
  rw [annotated.scope place id (part.sites_subset listed), Place.scope, Place.scope,
    ← sameRecord, ← sameFunction]
  rfl

/-- What is in a function is in a part that declares what the function does. -/
theorem handles_eq {around : Function} (part : program.Part record function handles hung sites)
    (same : function = some around) : handles = around.handles := by
  cases part with
  | body => rw [Option.some.inj same]
  | global | property | statement => cases same

/-- What is in a record type is a method of it or the first value of a property. -/
theorem record_contains {around : RecordDecl} {root : Root}
    (part : program.Part record function handles hung sites) (same : record = some around)
    (here : hung root ∨ ∃ id ∈ handles, root = .initializer id) :
    around ∈ program.records ∧ around.Contains program root := by
  cases part with
  | property member member' =>
      cases same
      obtain ⟨id, own, rfl⟩ := here.resolve_left False.elim
      exact ⟨member, .inr ⟨id, List.mem_singleton.1 own ▸ member', rfl⟩⟩
  | body hangs =>
      cases hangs with
      | method found found' =>
          rw [Program.recordAt?, found] at same
          cases same
          refine ⟨List.mem_of_getElem? found, .inl ⟨_, List.mem_of_getElem? found', ?_⟩⟩
          rcases here with rfl | own
          · exact .inl (.method found found')
          · exact .inr own
      | function | main => cases same
  | global | statement => cases same

end Program.Part

/-- The tree at a root may refer to a variable. -/
inductive Program.Sees (program : Program) (root : Root) (id : VarId) : Prop where
  | property {record owner : RecordDecl} :
    record ∈ program.records → record.Contains program root →
    owner ∈ program.ancestry record → id ∈ owner.properties → Sees program root id
  | function {function : Function} :
    function ∈ program.bodies → function.Contains program root → id ∈ function.handles →
    Sees program root id
  | statement {index : Nat} {stmt : Stmt} :
    program.statements[index]? = some stmt → stmt.Contains index root → id ∈ stmt.handles →
    Sees program root id
  | global : id ∈ program.globals → Sees program root id

/-- What stands in a part of a program may refer to what the part declares. -/
theorem Program.Part.sees {root : Root} (part : program.Part record function handles hung sites)
    (here : hung root ∨ ∃ id ∈ handles, root = .initializer id) (member : id ∈ handles) :
    program.Sees root id := by
  cases part with
  | global listed => exact .global (List.mem_singleton.1 member ▸ listed)
  | property listed listed' =>
      obtain ⟨inside, contains⟩ := (Program.Part.property listed listed').record_contains rfl here
      exact .property inside contains List.mem_cons_self (List.mem_singleton.1 member ▸ listed')
  | body hangs =>
      refine .function (Program.mem_bodies_iff.2 ⟨_, hangs⟩) ?_ member
      rcases here with rfl | own
      · exact .inl hangs
      · exact .inr own
  | statement found => exact .statement found here member

end Parts

section References

variable {program : Program} {lookup : LocalLookup} {place : Place} {name : String} {id : VarId}

theorem IsChosen.exists_mem {α : Type} {sorts : List (α → Prop)} {item : α}
    (chosen : IsChosen sorts item) : ∃ candidate ∈ sorts, candidate item := by
  induction chosen with
  | here holds => exact ⟨_, List.mem_cons_self, holds⟩
  | later _ _ ih =>
      obtain ⟨candidate, member, holds⟩ := ih
      exact ⟨candidate, List.mem_cons_of_mem _ member, holds⟩

theorem IsFirst.mem {α : Type} {condition : α → Bool} {items : List α} {item : α}
    (first : IsFirst condition items item) : item ∈ items := by
  obtain ⟨before, after, rfl, -⟩ := first
  simp

theorem IsLast.mem {α : Type} {condition : α → Bool} {items : List α} {item : α}
    (last : IsLast condition items item) : item ∈ items := by
  obtain ⟨before, after, rfl, -⟩ := last
  simp

/-- A property of a record type is a property of one in its ancestry. -/
theorem Program.Nearest.exists_owner (coherent : program.Coherent) {record : RecordDecl}
    (listed : record ∈ program.records) {decl : VarDecl}
    (nearest : program.Nearest (fun record => program.ownProperty? record name) record decl) :
    ∃ owner ∈ program.ancestry record, decl.id ∈ owner.properties := by
  have found := (Program.findSome?_ancestry_eq_some_iff coherent listed).2 nearest
  obtain ⟨owner, member, own⟩ := List.exists_of_findSome?_eq_some found
  obtain ⟨id, property, declared⟩ := List.mem_filterMap.1 (List.mem_of_find?_eq_some own)
  exact ⟨owner, member, coherent.id_eq declared ▸ property⟩

/-- What a name in a tree refers to may be seen from there. -/
theorem Program.sees_of_refersTo (coherent : program.Coherent) {address : Address}
    {declared : Option DataType} {expr : Expr}
    (listed : .expr address place declared expr ∈ program.sites)
    (refers : place.RefersTo program name lookup id) : program.Sees address.root id := by
  obtain ⟨record, function, handles, hung, sites, part, listed⟩ :=
    Program.Part.exists_of_mem_sites listed
  obtain ⟨sameRecord, sameFunction, inside, root⟩ := part.liesIn coherent listed
  have here := root _ _ _ _ rfl
  obtain ⟨candidate, sort, holds⟩ := refers.exists_mem
  simp only [List.mem_cons, List.not_mem_nil, or_false] at sort
  rcases sort with rfl | rfl | rfl | rfl | rfl
  · obtain ⟨around, decl, within, nearest, rfl⟩ := holds
    obtain ⟨declared, contains⟩ := part.record_contains (sameRecord.symm.trans within) here
    obtain ⟨owner, member, property⟩ := nearest.exists_owner coherent declared
    exact .property declared contains member property
  · obtain ⟨around, within, first⟩ := holds
    refine part.sees here ?_
    rw [part.handles_eq (sameFunction.symm.trans within)]
    exact List.mem_append_left _ first.mem
  · obtain ⟨-, around, within, last⟩ := holds
    refine part.sees here ?_
    rw [part.handles_eq (sameFunction.symm.trans within)]
    exact List.mem_append_right _ (around.body.declared_subset_handles last.mem)
  · obtain ⟨inner, enclosure, outer, split, last, -⟩ := holds
    refine part.sees here (inside enclosure ?_ last.mem)
    simp [Site.place, split]
  · obtain ⟨decl, found, rfl⟩ := holds
    obtain ⟨id, member, declared⟩ := List.mem_filterMap.1 (List.mem_of_find?_eq_some found)
    exact .global (coherent.id_eq declared ▸ member)

end References

section Numbers

variable {program : Program} {count : Nat}

/-- No two functions, methods and record types have the same number. -/
theorem Program.Counted.nodup_ids (counted : program.Counted count) :
    (program.bodies.map (fun function => function.id.number) ++
      program.records.map fun record => record.id.number).Nodup := by
  have perm : (program.bodies.map (fun function => function.id.number) ++
      program.records.map fun record => record.id.number).Perm program.numbers := by
    have records := List.flatMap_append_perm program.records
      (fun record => record.methods.map fun method => method.id.number)
      fun record => [record.id.number]
    rw [← List.map_eq_flatMap] at records
    simp only [Program.bodies, Program.numbers, List.map_append, List.map_flatMap, List.append_assoc]
    rw [← List.append_assoc (List.map _ program.functions)]
    refine (List.perm_append_comm.append_left _).trans ?_
    rw [← List.append_assoc]
    exact records.append_right _
  exact (perm.trans counted.numbers).nodup_iff.2 List.nodup_range

theorem Program.Counted.function_eq (counted : program.Counted count) {function other : Function}
    (listed : function ∈ program.bodies) (listed' : other ∈ program.bodies)
    (same : function.id = other.id) : function = other :=
  List.inj_on_of_nodup_map (List.nodup_append'.1 counted.nodup_ids).1 listed listed'
    (congrArg FuncId.number same)

theorem Program.Counted.record_eq (counted : program.Counted count) {record other : RecordDecl}
    (listed : record ∈ program.records) (listed' : other ∈ program.records)
    (same : record.id = other.id) : record = other :=
  List.inj_on_of_nodup_map (List.nodup_append'.1 counted.nodup_ids).2.1 listed listed'
    (congrArg RecordId.number same)

end Numbers

section Sources

variable {program : Program} {lookup : LocalLookup} {annotations : Annotations}
  {source file : String} {id : VarId}

/-- Every declaration is in a function or a free statement, or of a property or a global variable. -/
theorem Program.Coherent.declared_cases (coherent : program.Coherent)
    (valid : (program.decl? id).isSome) :
    (∃ function ∈ program.bodies, id ∈ function.handles) ∨
      (∃ record ∈ program.records, id ∈ record.properties) ∨ id ∈ program.globals ∨
      ∃ stmt ∈ program.statements, id ∈ stmt.handles := by
  have held := coherent.mem_handles.2 valid
  simp only [Program.handles, RecordDecl.handles, Stmt.listHandles_eq_flatMap, List.mem_append,
    List.mem_flatMap] at held
  simp only [Program.bodies, List.mem_append, List.mem_flatMap]
  rcases held with (((global | ⟨record, listed, property | ⟨method, member, held⟩⟩) |
    ⟨function, listed, held⟩) | ⟨function, main, held⟩) | ⟨stmt, listed, held⟩
  · exact .inr (.inr (.inl global))
  · exact .inr (.inl ⟨record, listed, property⟩)
  · exact .inl ⟨method, .inl (.inl ⟨record, listed, member⟩), held⟩
  · exact .inl ⟨function, .inl (.inr listed), held⟩
  · exact .inl ⟨function, .inr main, held⟩
  · exact .inr (.inr (.inr ⟨stmt, listed, held⟩))

/-- In a program that has passed the check, the scope of a declaration is the function whose parameter
it is or in whose body it stands, the record type whose property it is, or else global, which is also
what a free statement declares. A reference that is linked to a local variable stands in the function
it is of; one that is linked to a property stands in a record type that is the owner or inherits from
it; and one that is linked to something global that is not a global variable stands in the same free
statement. -/
theorem Program.checkSource_scoped
    (h : Program.checkSource source file lookup = .ok (program, annotations)) :
    (∀ function ∈ program.bodies, ∀ id ∈ function.handles,
      annotations.scope? id = some (.local function.id)) ∧
    (∀ record ∈ program.records, ∀ id ∈ record.properties,
      annotations.scope? id = some (.property record.id)) ∧
    (∀ id, (id ∈ program.globals ∨ ∃ stmt ∈ program.statements, id ∈ stmt.handles) →
      annotations.scope? id = some .global) ∧
    (∀ id, (program.decl? id).isSome →
      (∃ function ∈ program.bodies, id ∈ function.handles) ∨
        (∃ record ∈ program.records, id ∈ record.properties) ∨ id ∈ program.globals ∨
        ∃ stmt ∈ program.statements, id ∈ stmt.handles) ∧
    ∀ address place declared name span,
      .expr address place declared (.reference name span) ∈ program.sites →
        ∃ id, annotations.link? address = some id ∧ (program.decl? id).isSome ∧
          (∀ function ∈ program.bodies, annotations.scope? id = some (.local function.id) →
            function.Contains program address.root) ∧
          (∀ owner ∈ program.records, annotations.scope? id = some (.property owner.id) →
            ∃ record ∈ program.records, owner ∈ program.ancestry record ∧
              record.Contains program address.root) ∧
          (annotations.scope? id = some .global → id ∈ program.globals ∨
            ∃ (index : Nat) (stmt : Stmt), program.statements[index]? = some stmt ∧
              id ∈ stmt.handles ∧ stmt.Contains index address.root) := by
  have read := (Program.of_checkSource h).1
  have annotated := Program.annotated_of_checkSource h
  obtain ⟨count, sound⟩ := Program.sound_of_ofSource read
  have coherent := sound.coherent
  have counted := sound.counted
  have locals : ∀ function ∈ program.bodies, ∀ id ∈ function.handles,
      annotations.scope? id = some (.local function.id) := by
    intro function member id held
    obtain ⟨root, hangs⟩ := Program.mem_bodies_iff.1 member
    exact (Program.Part.body hangs).scope? coherent annotated held
  have properties : ∀ record ∈ program.records, ∀ id ∈ record.properties,
      annotations.scope? id = some (.property record.id) := fun record listed id property =>
    (Program.Part.property listed property).scope? coherent annotated List.mem_cons_self
  have statements : ∀ {index : Nat} {stmt : Stmt} {id}, program.statements[index]? = some stmt →
      id ∈ stmt.handles → annotations.scope? id = some .global := fun found held =>
    (Program.Part.statement found).scope? coherent annotated held
  have globals : ∀ id ∈ program.globals, annotations.scope? id = some .global := fun id listed =>
    (Program.Part.global listed).scope? coherent annotated List.mem_cons_self
  refine ⟨locals, properties, ?_, fun id valid => coherent.declared_cases valid, ?_⟩
  · rintro id (listed | ⟨stmt, listed, held⟩)
    · exact globals id listed
    · obtain ⟨index, found⟩ := List.mem_iff_getElem?.1 listed
      exact statements found held
  · intro address place declared name span listed
    obtain ⟨id, linked, valid, refers⟩ := annotated.link address place declared name span listed
    refine ⟨id, linked, valid, ?_⟩
    cases program.sees_of_refersTo coherent listed ((refers id).2 rfl) with
    | @property record owner inside contains inherited property =>
        have known : owner ∈ program.records :=
          (Program.along_ancestry coherent.recordNames_nodup inside).listed owner
            (List.mem_append_left _ inherited)
        rw [properties owner known id property]
        refine ⟨nofun, fun other listed same => ?_, nofun⟩
        cases counted.record_eq known listed (Scope.property.inj (Option.some.inj same))
        exact ⟨record, inside, inherited, contains⟩
    | @function function member contains held =>
        rw [locals function member id held]
        refine ⟨fun other listed same => ?_, nofun, nofun⟩
        cases counted.function_eq member listed (Scope.local.inj (Option.some.inj same))
        exact contains
    | statement found contains held =>
        rw [statements found held]
        exact ⟨nofun, nofun, fun _ => .inr ⟨_, _, found, held, contains⟩⟩
    | global listed =>
        rw [globals id listed]
        exact ⟨nofun, nofun, fun _ => .inl listed⟩

/-- A record type that inherits a property which a method of it reads, a function, and a free loop
with a variable in its header and one in its block. -/
def ownersText : String :=
  "hotpot Pot\n    size: int = 1\nhotpot Big: Pot\n    def twice(): int\n" ++
    "        return size + size\ndef grow(by: int): int\n    more: int = by\n    return more\n" ++
    "for i: int = 0, i < 2, i += 1:\n    j: int = i + i\n"

theorem Program.checkSource_scoped_owners : ∃ program annotations,
    Program.checkSource ownersText "owners" .lastInBody = .ok (program, annotations) ∧
      (program.bodies.map Function.name, program.globals.length, program.sites.length) =
        (["twice", "grow"], 0, 21) ∧
      (∀ function ∈ program.bodies, ∀ id ∈ function.handles,
        annotations.scope? id = some (.local function.id)) ∧
      (∀ stmt ∈ program.statements, ∀ id ∈ stmt.handles,
        annotations.scope? id = some .global) ∧
      ∀ address place declared name span,
        .expr address place declared (.reference name span) ∈ program.sites →
          ∃ id, annotations.link? address = some id ∧
            (annotations.scope? id = some .global →
              ∃ (index : Nat) (stmt : Stmt), program.statements[index]? = some stmt ∧
                id ∈ stmt.handles ∧ stmt.Contains index address.root) := by
  have passes : (Program.checkSource ownersText "owners" .lastInBody).toOption.map
      (fun checked => (checked.1.bodies.map Function.name, checked.1.globals.length,
        checked.1.sites.length)) = some (["twice", "grow"], 0, 21) := by
    decide +kernel
  obtain ⟨⟨program, annotations⟩, checked, shape⟩ := exists_ok_of_map_toOption passes
  obtain ⟨locals, -, globals, -, references⟩ := Program.checkSource_scoped checked
  refine ⟨program, annotations, checked, shape, locals,
    fun stmt listed id held => globals id (.inr ⟨stmt, listed, held⟩), ?_⟩
  intro address place declared name span listed
  obtain ⟨id, linked, -, -, -, global⟩ := references address place declared name span listed
  have none : program.globals = [] := List.length_eq_zero_iff.1 (congrArg (·.2.1) shape)
  refine ⟨id, linked, fun scope => (global scope).resolve_left ?_⟩
  simp [none]

end Sources

end Offside
