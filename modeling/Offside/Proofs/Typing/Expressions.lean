import Offside.Proofs.Typing.Visits

/-! # Expressions are judged by the rules

Visiting an expression gives it the type that the rules give it, or fails if they give it none.
-/

namespace Offside

open Rules

variable {program : Program} {lookup : LocalLookup} {place : Place} {sites : List Site}

/-- The declared type of the elements of an expression, if it is an array written out. -/
def Expr.pending (declared : Option DataType) (expr : Expr) : Option DataType :=
  if expr.isArray then declared.bind DataType.element? else none

@[simp] theorem Expr.pending_none (expr : Expr) : expr.pending none = none := by
  simp [pending]

/-- What a visit of an expression teaches agrees with the rules. -/
structure Teaches (program : Program) (lookup : LocalLookup) (place : Place)
    (declared : Option DataType) (expr : Expr) (typed : Typed) : Prop where
  type : HasType program lookup place declared expr typed.type
  decl : ∀ id, typed.decl? = some id ↔ ∃ name span, expr = .reference name span ∧
    place.RefersTo program name lookup id

/-- The visit of an expression at an address is judged by the rules. -/
def Expr.Judged (program : Program) (lookup : LocalLookup) (place : Place) (address : Address)
    (declared : Option DataType) (expr : Expr) : Prop :=
  Judges program lookup place place (expr.pending declared) (expr.sites place address declared)
    ((expr.sites place address declared).flatMap Site.cells)
    (Teaches program lookup place declared expr)
    (∀ type, ¬ HasType program lookup place declared expr type)
    (traverseExpr (exprs program lookup) address expr)

theorem bind_element?_eq_some {declared : Option DataType} {element : DataType} :
    declared.bind DataType.element? = some element ↔ declared = some (.array element) := by
  cases declared with
  | none => simp
  | some type => cases type <;> simp [DataType.element?]

theorem innerElement?_eq (declared : Option DataType) :
    innerElement? declared = declared.bind DataType.element? := by
  cases declared with
  | none => rfl
  | some type => cases type <;> rfl

theorem Place.isOwner_iff {declared : Option DataType} {receiver : Expr} {typed : Typed}
    (learned : Teaches program lookup place declared receiver typed) {record : RecordDecl} :
    ownerOf? program typed = some record ↔ place.IsOwner program lookup receiver record := by
  simp only [ownerOf?, IsOwner, Option.bind_eq_bind, Option.bind_eq_some_iff]
  constructor
  · rintro ⟨id, hid, decl, hdecl, type, htype, hrecord⟩
    obtain ⟨name, span, same, refers⟩ := (learned.decl id).1 hid
    refine ⟨name, span, id, decl, type, same, refers, hdecl, ?_, hrecord⟩
    cases h : decl.type <;> simp_all [DataType.recordName?]
  · rintro ⟨name, span, id, decl, type, same, refers, hdecl, htype, hrecord⟩
    exact ⟨id, (learned.decl id).2 ⟨name, span, same, refers⟩, decl, hdecl, type,
      by rw [htype]; rfl, hrecord⟩

/-- What is settled at the end of a visit is a type of an expression that is no reference. -/
theorem judges_settle_type {address : Address} {span : Span} {declared : Option DataType}
    {expr : Expr} {type : DataType} (hsite : .expr address place declared expr ∈ sites)
    (other : ∀ name span, expr ≠ .reference name span)
    (typed : HasType program lookup place declared expr type) {fails : Prop} :
    Judges program lookup place place none sites [.type address]
      (Teaches program lookup place declared expr) fails (settle address span type) := by
  refine (judges_settle (.expr address place declared expr) hsite rfl (.type typed)).mono
    (fun _ => id) ?_ False.elim
  rintro _ rfl
  refine ⟨typed, fun id => ?_⟩
  simp only [reduceCtorEq, false_iff]
  rintro ⟨name, span, same, _⟩
  exact other name span same

section Nodes

variable {address : Address} {declared : Option DataType} {span : Span}

theorem literal_judged (value : Literal) :
    Expr.Judged program lookup place address declared (.literal value span) := by
  simp only [Expr.Judged, traverseExpr, exprs, Expr.sites, Expr.pending, Expr.isArray]
  refine judges_settle_type List.mem_cons_self (by simp) ?_
  cases value with
  | null => exact .null
  | int => exact .int
  | float => exact .float
  | bool => exact .bool
  | string => exact .string

theorem reference_judged (coherent : program.Coherent) (hplace : place.Declared program)
    (name : String) :
    Expr.Judged program lookup place address declared (.reference name span) := by
  have found : ∀ context : Context, context.function = place.function →
      context.record = place.record → ∀ id,
      lookup.find? program context (place.environments program) name = some id ↔
        place.RefersTo program name lookup id :=
    fun context hfunction hrecord id =>
      Place.find?_eq_some_iff_refersTo coherent hplace lookup context hfunction hrecord
  simp only [Expr.Judged, traverseExpr, exprs, Expr.sites, Expr.pending, Expr.isArray]
  refine judges_context.bind_nil ?_ False.elim
  rintro context ⟨hfunction, hrecord, -⟩
  refine judges_inner.bind_nil ?_ False.elim
  rintro inner henvironments
  rw [henvironments]
  split
  · next missing =>
    refine .fail rfl fun type typed => ?_
    cases typed with
    | @reference _ _ _ id decl refers hdecl =>
        rw [(found context hfunction hrecord id).2 refers, Option.bind_some, hdecl] at missing
        cases missing
  · next decl present =>
    obtain ⟨id, hid, hdecl⟩ := Option.bind_eq_some_iff.1 present
    have refers := (found context hfunction hrecord id).1 hid
    cases coherent.id_eq hdecl
    refine (judges_note _ List.mem_cons_self rfl (.link refers (by rw [hdecl]; rfl))).bind
      (fun _ _ => ?_) False.elim
    refine (judges_settle _ List.mem_cons_self rfl (.type (.reference refers hdecl))).bind_last
      ?_ False.elim
    rintro _ rfl
    refine .pure ⟨.reference refers hdecl, fun other => ?_⟩
    simp only [Option.some.injEq]
    constructor
    · rintro rfl
      exact ⟨name, span, rfl, refers⟩
    · rintro ⟨name', span', same, refers'⟩
      cases same
      exact refers.unique coherent hplace refers'

/-- The operands of a binary operator agree as its class requires. -/
theorem HasType.binary_agrees (coherent : program.Coherent) (hplace : place.Declared program)
    {operator : Operator} {left right : Expr} {leftType rightType type : DataType}
    (typed : HasType program lookup place declared (.binary operator left right span) type)
    (hleft : HasType program lookup place none left leftType)
    (hright : HasType program lookup place none right rightType) :
    if operator.operatorClass = .logical then leftType.agrees .bool ∧ rightType.agrees .bool
    else rightType.agrees leftType := by
  cases typed with
  | arithmetic sort hleft' hright' agrees =>
      rw [hleft.unique coherent hplace hleft', hright.unique coherent hplace hright']
      rcases sort with sort | sort <;> simpa [sort] using agrees
  | comparison sort hleft' hright' agrees =>
      rw [hleft.unique coherent hplace hleft', hright.unique coherent hplace hright']
      simpa [sort] using agrees
  | logical sort hleft' hright' leftAgrees rightAgrees =>
      rw [hleft.unique coherent hplace hleft', hright.unique coherent hplace hright']
      simpa [sort] using ⟨leftAgrees, rightAgrees⟩

theorem binaryType_judged (coherent : program.Coherent) (hplace : place.Declared program)
    {operator : Operator} {left right : Expr} {leftType rightType : DataType}
    (hleft : HasType program lookup place none left leftType)
    (hright : HasType program lookup place none right rightType) :
    Judges program lookup place place none sites []
      (HasType program lookup place declared (.binary operator left right span))
      (∀ type, ¬ HasType program lookup place declared (.binary operator left right span) type)
      (binaryType operator left right leftType rightType) := by
  have agrees := fun type (typed : HasType program lookup place declared
    (.binary operator left right span) type) =>
      typed.binary_agrees coherent hplace hleft hright
  unfold binaryType
  split
  · next sort =>
    exact judges_requireAgreement.bind_nil
      (fun _ holds => .pure (.arithmetic (.inl sort) hleft hright holds))
      fun disagrees type typed => disagrees (by simpa [sort] using agrees type typed)
  · next sort =>
    exact judges_requireAgreement.bind_nil
      (fun _ holds => .pure (.arithmetic (.inr sort) hleft hright holds))
      fun disagrees type typed => disagrees (by simpa [sort] using agrees type typed)
  · next sort =>
    exact judges_requireAgreement.bind_nil
      (fun _ holds => .pure (.comparison sort hleft hright holds))
      fun disagrees type typed => disagrees (by simpa [sort] using agrees type typed)
  · next sort =>
    simp only [sort, if_true] at agrees
    refine judges_requireAgreement.bind_nil (fun _ leftHolds => ?_)
      fun disagrees type typed => disagrees (agrees type typed).1
    exact judges_requireAgreement.bind_nil
      (fun _ rightHolds => .pure (.logical sort hleft hright leftHolds rightHolds))
      fun disagrees type typed => disagrees (agrees type typed).2

theorem unaryType_judged (coherent : program.Coherent) (hplace : place.Declared program)
    {operator : Operator} {operand : Expr} {type : DataType}
    (hoperand : HasType program lookup place none operand type) :
    Judges program lookup place place none sites []
      (HasType program lookup place declared (.unary operator operand span))
      (∀ type, ¬ HasType program lookup place declared (.unary operator operand span) type)
      (unaryType operator operand type) := by
  unfold unaryType
  split
  · refine judges_requireAgreement.bind_nil (fun _ agrees => .pure (.not hoperand agrees)) ?_
    intro disagrees result typed
    cases typed with
    | not hoperand' agrees =>
        exact disagrees (hoperand.unique coherent hplace hoperand' ▸ agrees)
    | signed other _ => exact other rfl
  · next other => exact .pure (.signed other hoperand)

/-- Setting what an array is declared to hold prepares the visit of that array. -/
theorem judges_setPending {α : Type} {expr : Expr} {element : Option DataType} {cells : List Cell}
    {holds : α → Prop} {fails : Prop} {visit : Check α}
    (h : Judges program lookup place place (if expr.isArray then element else none) sites cells
      holds fails visit) :
    Judges program lookup place place none sites cells holds fails
      (if expr.isArray then setPending element >>= fun _ => visit else visit) := by
  split
  · next isArray =>
    rw [if_pos isArray] at h
    intro state hstate
    exact h { state with inner := { state.inner with pendingElement := element } }
      ⟨hstate.declared, hstate.function, hstate.record, hstate.inLoop, hstate.environments, rfl⟩
  · next isOther => rwa [if_neg isOther] at h

theorem elements_cons (element : Option DataType) (part : Part TypingState Typed)
    (rest : List (Part TypingState Typed)) :
    elements element (part :: rest) =
      (if part.expr.isArray then setPending element >>= fun _ => part.visit else part.visit) >>=
        fun typed => elements element rest >>= fun others =>
          pure ((part.expr, typed.type) :: others) := by
  cases h : part.expr.isArray <;> simp [elements, h]

theorem elements_judged {values : List Expr} (index : Nat)
    (ih : ∀ value ∈ values, ∀ address,
      value.Judged program lookup place address declared) :
    Judges program lookup place place none (Expr.listSites place address declared index values)
      ((Expr.listSites place address declared index values).flatMap Site.cells)
      (fun results => results.map Prod.fst = values ∧
        HaveTypes program lookup place declared values (results.map Prod.snd))
      (∀ types, ¬ HaveTypes program lookup place declared values types)
      (elements (declared.bind DataType.element?)
        (elementParts (exprs program lookup) address index values)) := by
  induction values generalizing index with
  | nil =>
      simp only [Expr.listSites, elementParts, elements]
      exact .pure ⟨rfl, .nil⟩
  | cons value rest ihs =>
      have first := ih value List.mem_cons_self (address.part (.element index))
      have others := ihs (index + 1) fun other hother => ih other (List.mem_cons_of_mem _ hother)
      simp only [Expr.listSites, elementParts, elements_cons, List.flatMap_append]
      refine (judges_setPending first).mono (List.subset_append_left _ _)
        (fun _ => id) id |>.bind ?_ ?_
      · intro typed learned
        refine others.mono (List.subset_append_right _ _) (fun _ => id) id |>.bind_last ?_ ?_
        · rintro results ⟨rfl, types⟩
          exact .pure ⟨rfl, .cons learned.type types⟩
        · intro none types typed
          cases typed with
          | cons _ types => exact none _ types
      · intro none types typed
        cases typed with
        | cons typed _ => exact none _ typed

theorem agreements_judged (element : DataType) (results : List (Expr × DataType)) :
    Judges program lookup place place none sites []
      (fun _ => ∀ type ∈ results.map Prod.snd, type.agrees element)
      (¬ ∀ type ∈ results.map Prod.snd, type.agrees element)
      (results.forM fun (value, type) => requireAgreement value type element) := by
  induction results with
  | nil => exact .pure (by simp)
  | cons first rest ih =>
      refine Judges.bind_nil judges_requireAgreement (fun _ holds => ?_) (by simp +contextual)
      exact ih.mono (fun _ => id) (fun _ others => by simpa using ⟨holds, by simpa using others⟩)
        (by simp +contextual)

/-- The rule for arrays, whether or not the elements are declared to have a type. -/
theorem HasType.array_iff (coherent : program.Coherent) (hplace : place.Declared program)
    {values : List Expr} {types : List DataType}
    (htypes : HaveTypes program lookup place (declared.bind DataType.element?) values types)
    {type : DataType} :
    HasType program lookup place declared (.array values span) type ↔
      type = .array ((declared.bind DataType.element?).getD (types.headD .unresolved)) ∧
        ∀ type ∈ types,
          type.agrees ((declared.bind DataType.element?).getD (types.headD .unresolved)) := by
  cases helement : declared.bind DataType.element? with
  | none =>
      have other : ∀ element, declared ≠ some (.array element) := fun element same => by
        rw [bind_element?_eq_some.2 same] at helement
        cases helement
      rw [helement] at htypes
      constructor
      · intro typed
        cases typed with
        | declaredArray => exact absurd rfl (other _)
        | array _ htypes' agrees =>
            cases htypes.unique coherent hplace htypes'
            exact ⟨rfl, agrees⟩
      · rintro ⟨rfl, agrees⟩
        exact .array other htypes agrees
  | some element =>
      rw [helement] at htypes
      cases bind_element?_eq_some.1 helement
      constructor
      · intro typed
        cases typed with
        | declaredArray htypes' agrees =>
            cases htypes.unique coherent hplace htypes'
            exact ⟨rfl, agrees⟩
        | array other => exact absurd rfl (other _)
      · rintro ⟨rfl, agrees⟩
        exact .declaredArray htypes agrees

theorem HasType.array_elements {values : List Expr} {type : DataType}
    (typed : HasType program lookup place declared (.array values span) type) :
    ∃ types, HaveTypes program lookup place (declared.bind DataType.element?) values types := by
  cases typed with
  | declaredArray types _ => exact ⟨_, types⟩
  | @array _ _ _ types other htypes _ =>
      refine ⟨types, ?_⟩
      cases helement : declared.bind DataType.element? with
      | none => exact htypes
      | some element => exact absurd (bind_element?_eq_some.1 helement) (other element)

theorem array_judged (coherent : program.Coherent) (hplace : place.Declared program)
    {values : List Expr} (ih : ∀ declared, ∀ value ∈ values, ∀ address,
      value.Judged program lookup place address declared) :
    Expr.Judged program lookup place address declared (.array values span) := by
  simp only [Expr.Judged, traverseExpr, exprs, Expr.sites, Expr.pending, Expr.isArray, if_true,
    List.flatMap_append]
  refine judges_takePending.bind_nil ?_ False.elim
  rintro _ rfl
  rw [innerElement?_eq]
  refine ((elements_judged 0 (ih _)).mono (List.subset_append_left _ _) (fun _ => id)
    ?_).bind ?_ id
  · intro none type typed
    obtain ⟨types, htypes⟩ := typed.array_elements
    exact none types htypes
  · rintro results ⟨-, htypes⟩
    have head : (results.head?.map Prod.snd).getD .unresolved =
        (results.map Prod.snd).headD .unresolved := by
      cases results <;> rfl
    rw [head]
    refine (agreements_judged _ results).bind_nil (fun _ agrees => ?_) fun disagrees type typed =>
      disagrees ((HasType.array_iff coherent hplace htypes).1 typed).2
    exact judges_settle_type (List.mem_append_right _ List.mem_cons_self) (by simp)
      ((HasType.array_iff coherent hplace htypes).2 ⟨rfl, agrees⟩)

/-- An operand is judged among the sites of the expression that it is part of. -/
theorem Expr.Judged.part {expr : Expr} {fails : Prop}
    (h : expr.Judged program lookup place address none)
    (subset : expr.sites place address none ⊆ sites)
    (hfails : (∀ type, ¬ HasType program lookup place none expr type) → fails) :
    Judges program lookup place place none sites ((expr.sites place address none).flatMap Site.cells)
      (Teaches program lookup place none expr) fails
      (traverseExpr (exprs program lookup) address expr) := by
  have := Judges.mono h subset (fun _ => id) hfails
  rwa [Expr.pending_none] at this

theorem binary_judged (coherent : program.Coherent) (hplace : place.Declared program)
    {operator : Operator} {left right : Expr}
    (ihl : ∀ address, left.Judged program lookup place address none)
    (ihr : ∀ address, right.Judged program lookup place address none) :
    Expr.Judged program lookup place address declared (.binary operator left right span) := by
  simp only [Expr.Judged, traverseExpr, exprs, Expr.sites, Expr.pending, Expr.isArray,
    List.flatMap_append, List.append_assoc]
  refine ((ihl _).part (by simp) fun none type typed => ?_).bind (fun leftTyped hleft => ?_) id
  · cases typed with
    | arithmetic _ hleft | comparison _ hleft | logical _ hleft => exact none _ hleft
  refine ((ihr _).part (by simp) fun none type typed => ?_).bind (fun rightTyped hright => ?_) id
  · cases typed with
    | arithmetic _ _ hright | comparison _ _ hright | logical _ _ hright => exact none _ hright
  refine (binaryType_judged coherent hplace hleft.type hright.type).bind_nil
    (fun type typed => ?_) id
  exact judges_settle_type (by simp) (by simp) typed

theorem unary_judged (coherent : program.Coherent) (hplace : place.Declared program)
    {operator : Operator} {operand : Expr}
    (ih : ∀ address, operand.Judged program lookup place address none) :
    Expr.Judged program lookup place address declared (.unary operator operand span) := by
  simp only [Expr.Judged, traverseExpr, exprs, Expr.sites, Expr.pending, Expr.isArray,
    List.flatMap_append]
  refine ((ih _).part (by simp) fun none type typed => ?_).bind (fun typed hoperand => ?_) id
  · cases typed with
    | not hoperand | signed _ hoperand => exact none _ hoperand
  refine (unaryType_judged coherent hplace hoperand.type).bind_nil (fun type typed => ?_) id
  exact judges_settle_type (by simp) (by simp) typed

theorem arguments_judged {args : List Arg} (index : Nat)
    (ih : ∀ arg ∈ args, ∀ address, arg.value.Judged program lookup place address none) :
    Judges program lookup place place none (Arg.listSites place address index args)
      ((Arg.listSites place address index args).flatMap Site.cells)
      (fun _ => ∃ types, HaveTypes program lookup place none (args.map Arg.value) types)
      (∀ types, ¬ HaveTypes program lookup place none (args.map Arg.value) types)
      (arguments (argumentParts (exprs program lookup) address index args)) := by
  induction args generalizing index with
  | nil =>
      simp only [Arg.listSites, argumentParts, arguments]
      exact .pure ⟨_, .nil⟩
  | cons arg rest ihs =>
      have others := ihs (index + 1) fun other hother => ih other (List.mem_cons_of_mem _ hother)
      have first := ih arg List.mem_cons_self
      obtain ⟨label, value⟩ := arg
      simp only [Arg.listSites, argumentParts, List.flatMap_append]
      refine Judges.bind ((first _).part (List.subset_append_left _ _)
        fun none types typed => ?_).discard (fun _ learned => ?_) id
      · cases typed with
        | cons typed _ => exact none _ typed
      · obtain ⟨typed, learned⟩ := learned
        refine others.mono (List.subset_append_right _ _) ?_ ?_
        · rintro _ ⟨types, htypes⟩
          exact ⟨_, .cons learned.type htypes⟩
        · intro none types typed
          cases typed with
          | cons _ htypes => exact none _ htypes

theorem call_judged (coherent : program.Coherent) (hplace : place.Declared program)
    {callee : Name} {args : List Arg}
    (ih : ∀ arg ∈ args, ∀ address, arg.value.Judged program lookup place address none) :
    Expr.Judged program lookup place address declared (.call callee args span) := by
  simp only [Expr.Judged, traverseExpr, exprs, Expr.sites, Expr.pending, Expr.isArray,
    List.flatMap_append]
  refine ((arguments_judged 0 ih).mono (List.subset_append_left _ _) (fun _ => id)
    fun none type typed => ?_).bind ?_ id
  · cases typed with
    | construct types _ | call types _ _ => exact none _ types
  rintro _ ⟨types, htypes⟩
  split
  · next found =>
    refine (judges_note _ (List.mem_append_right _ List.mem_cons_self) rfl
      (.constructor found)).bind_nil (fun _ _ => ?_) False.elim
    exact judges_settle_type (by simp) (by simp) (.construct htypes found)
  · next missing =>
    have missing : program.record? callee.text = none := by simpa using missing
    refine judges_context.bind_nil ?_ False.elim
    rintro context ⟨-, hrecord, -⟩
    rw [hrecord]
    split
    · next function found =>
      exact judges_settle_type (by simp) (by simp) (.call htypes missing
        ((Place.callee?_eq_some_iff coherent hplace).1 found))
    · next unknown =>
      refine .fail rfl fun type typed => ?_
      cases typed with
      | construct _ found => simp [missing] at found
      | call _ _ callee =>
          rw [(Place.callee?_eq_some_iff coherent hplace).2 callee] at unknown
          cases unknown

theorem Place.IsOwner.mem_records {receiver : Expr} {record : RecordDecl}
    (owner : place.IsOwner program lookup receiver record) : record ∈ program.records := by
  obtain ⟨name, span, id, decl, type, same, refers, hdecl, htype, hrecord⟩ := owner
  exact List.mem_of_find?_eq_some hrecord

theorem method_judged (coherent : program.Coherent) {receiver : Expr} {callee : Name}
    {args : List Arg} (ihr : ∀ address, receiver.Judged program lookup place address none)
    (ih : ∀ arg ∈ args, ∀ address, arg.value.Judged program lookup place address none) :
    Expr.Judged program lookup place address declared (.method receiver callee args span) := by
  simp only [Expr.Judged, traverseExpr, exprs, Expr.sites, Expr.pending, Expr.isArray,
    List.flatMap_append, List.append_assoc]
  refine ((ihr _).part (by simp) fun none type typed => ?_).bind (fun typed hreceiver => ?_) id
  · cases typed with
    | method hreceiver => exact none _ hreceiver
  refine ((arguments_judged 0 ih).mono (by simp) (fun _ => id) fun none type typed => ?_).bind
    ?_ id
  · cases typed with
    | method _ types => exact none _ types
  rintro _ ⟨types, htypes⟩
  have owners : ∀ record, ownerOf? program typed = some record ↔
      place.IsOwner program lookup receiver record := fun _ => Place.isOwner_iff hreceiver
  split
  · next missing =>
    refine .fail rfl fun type typed => ?_
    cases typed with
    | method _ _ owner => simp [(owners _).2 owner] at missing
  · next record found =>
    have owner := (owners record).1 found
    have nearest : ∀ function, program.methodOf? record callee.text = some function ↔
        program.Nearest (fun record => record.method? callee.text) record function :=
      fun _ => Program.findSome?_ancestry_eq_some_iff coherent owner.mem_records
    split
    · next function found =>
      exact judges_settle_type (by simp) (by simp)
        (.method hreceiver.type htypes owner ((nearest _).1 found))
    · next unknown =>
      refine .fail rfl fun type typed => ?_
      cases typed with
      | method _ _ owner' nearest' =>
          cases Option.some.inj (found.symm.trans ((owners _).2 owner'))
          rw [(nearest _).2 nearest'] at unknown
          cases unknown

theorem property_judged (coherent : program.Coherent) {receiver : Expr} {member : Name}
    (ih : ∀ address, receiver.Judged program lookup place address none) :
    Expr.Judged program lookup place address declared (.property receiver member span) := by
  simp only [Expr.Judged, traverseExpr, exprs, Expr.sites, Expr.pending, Expr.isArray,
    List.flatMap_append]
  refine ((ih _).part (by simp) fun none type typed => ?_).bind (fun typed hreceiver => ?_) id
  · cases typed with
    | property hreceiver => exact none _ hreceiver
  have found : ∀ decl, ((ownerOf? program typed).bind fun record =>
      program.propertyOf? record member.text) = some decl ↔
        ∃ record, place.IsOwner program lookup receiver record ∧
          program.Nearest (fun record => program.ownProperty? record member.text) record decl := by
    intro decl
    simp only [Option.bind_eq_some_iff, Place.isOwner_iff hreceiver]
    refine exists_congr fun record => and_congr_right fun owner => ?_
    exact Program.findSome?_ancestry_eq_some_iff coherent owner.mem_records
  split
  · next decl present =>
    obtain ⟨record, owner, nearest⟩ := (found decl).1 present
    exact judges_settle_type (by simp) (by simp) (.property hreceiver.type owner nearest)
  · next missing =>
    refine .fail rfl fun type typed => ?_
    cases typed with
    | property _ owner nearest =>
        rw [(found _).2 ⟨_, owner, nearest⟩] at missing
        cases missing

end Nodes

mutual

/-- Every expression is judged by the rules, wherever it stands. -/
theorem Expr.judged (coherent : program.Coherent) (hplace : place.Declared program)
    (expr : Expr) (declared : Option DataType) (address : Address) :
    expr.Judged program lookup place address declared := by
  cases expr with
  | literal value span => exact literal_judged value
  | array values span =>
      exact array_judged coherent hplace fun declared value hvalue address =>
        Expr.list_judged coherent hplace values declared address value hvalue
  | reference name span => exact reference_judged coherent hplace name
  | binary operator left right span =>
      exact binary_judged coherent hplace (Expr.judged coherent hplace left none)
        (Expr.judged coherent hplace right none)
  | unary operator operand span =>
      exact unary_judged coherent hplace (Expr.judged coherent hplace operand none)
  | call callee args span =>
      exact call_judged coherent hplace fun arg harg address =>
        Arg.list_judged coherent hplace args address arg harg
  | method receiver callee args span =>
      exact method_judged coherent (Expr.judged coherent hplace receiver none)
        fun arg harg address => Arg.list_judged coherent hplace args address arg harg
  | property receiver member span =>
      exact property_judged coherent (Expr.judged coherent hplace receiver none)
termination_by sizeOf expr

theorem Expr.list_judged (coherent : program.Coherent) (hplace : place.Declared program)
    (values : List Expr) (declared : Option DataType) (address : Address) :
    ∀ value ∈ values, value.Judged program lookup place address declared := by
  cases values with
  | nil => simp
  | cons value rest =>
      exact List.forall_mem_cons.2 ⟨Expr.judged coherent hplace value declared address,
        Expr.list_judged coherent hplace rest declared address⟩
termination_by sizeOf values

theorem Arg.list_judged (coherent : program.Coherent) (hplace : place.Declared program)
    (args : List Arg) (address : Address) :
    ∀ arg ∈ args, arg.value.Judged program lookup place address none := by
  cases args with
  | nil => simp
  | cons arg rest =>
      obtain ⟨label, value⟩ := arg
      exact List.forall_mem_cons.2 ⟨Expr.judged coherent hplace value none address,
        Arg.list_judged coherent hplace rest address⟩
termination_by sizeOf args

end

end Offside
