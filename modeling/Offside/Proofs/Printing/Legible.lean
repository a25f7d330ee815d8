import Offside.Proofs.Printing.Printer
import Offside.Proofs.Reading.Programs

/-! # What is printed can be split into words again

No word of a printed program runs into the one behind it. Numbers are printed without a sign of their
own, in a way that is only known to be faithful.
-/

namespace Offside

open Word TokenKind

/-- Numbers that can be read from a decimal are written as a decimal that they can be read from. -/
def Faithful (decimal : Number.Binary64 → String) : Prop :=
  ∀ text value, IsDecimal text → Number.Binary64.read? text = some value →
    IsDecimal (decimal value).toList ∧
      Number.Binary64.read? (decimal value).toList = some value

section Numbers

open Number

theorem bitsOfQuotient_le (numerator denominator : Nat) :
    Binary64.bitsOfQuotient numerator denominator ≤ Binary64.infinityBits := by
  unfold Binary64.bitsOfQuotient
  split
  · exact Nat.zero_le _
  · exact Nat.min_le_right _ _

theorem bitsOfDecimal_le (decimal : Decimal) :
    Binary64.bitsOfDecimal decimal ≤ Binary64.infinityBits := by
  unfold Binary64.bitsOfDecimal
  split
  · exact Nat.zero_le _
  split
  · exact Nat.le_refl _
  split
  · exact bitsOfQuotient_le _ _
  split
  · exact Nat.zero_le _
  · exact bitsOfQuotient_le _ _

theorem named?_le {text : List Char} {bits : Nat} (h : Binary64.named? text = some bits) :
    bits ≤ Binary64.nanBits := by
  unfold Binary64.named? at h
  simp only at h
  split at h
  · cases h
    decide
  split at h
  · cases h
    exact Nat.le_refl _
  · cases h

theorem splitSign_of_digit {first : Char} {rest : List Char} (h : first.isDigit = true) :
    splitSign (first :: rest) = (false, first :: rest) := by
  unfold splitSign
  split
  · next same => cases same; cases h
  · next same => cases same; cases h
  · rfl

/-- A number that is read without a sign is not negative. -/
theorem isNegative_of_read? {text : List Char} {value : Binary64} (h : IsDecimal text)
    (read : Binary64.read? text = some value) : value.isNegative = false := by
  obtain ⟨first, whole, fraction, rfl, digit, -⟩ := h
  rw [List.cons_append] at read
  simp only [Binary64.read?, splitSign_of_digit digit, Option.map_eq_some_iff] at read
  obtain ⟨bits, found, rfl⟩ := read
  have least : bits ≤ Binary64.nanBits := by
    rw [Option.or_eq_some_iff, Option.map_eq_some_iff] at found
    rcases found with ⟨decimal, -, rfl⟩ | ⟨-, found⟩
    · exact Nat.le_trans (bitsOfDecimal_le decimal) (by decide)
    · exact named?_le found
  have small : bits < 2 ^ 64 := Nat.lt_of_le_of_lt least (by decide)
  rw [if_neg (by decide), Binary64.isNegative, decide_eq_false_iff_not, UInt64.le_iff_toNat_le,
    UInt64.toNat_ofNat_of_lt' small, Nat.not_le]
  exact Nat.lt_of_le_of_lt least (by decide)

theorem isNegative_eq_msb (value : Binary64) : value.isNegative = value.bits.toBitVec.msb := by
  rw [BitVec.msb_eq_decide]
  exact decide_eq_decide.2 UInt64.le_iff_toNat_le

theorem isNegative_negate (value : Binary64) : value.negate.isNegative = !value.isNegative := by
  rw [isNegative_eq_msb, isNegative_eq_msb, Binary64.negate, UInt64.toBitVec_xor, BitVec.msb_xor]
  exact Bool.xor_true _

/-- The magnitude of a number that can be read, with or without a minus, can be read. -/
theorem read?_magnitude {decimal : Binary64 → String} (faithful : Faithful decimal)
    {value : Binary64} (spelled : Literal.Spelled Admits (.float value)) :
    IsDecimal (decimal value.magnitude).toList ∧
      Binary64.read? (decimal value.magnitude).toList = some value.magnitude := by
  obtain ⟨text, digits, read⟩ := spelled
  apply faithful text.toList _ digits
  unfold Binary64.magnitude
  rcases read with read | read
  · rw [isNegative_of_read? digits read]
    exact read
  · have negative : value.isNegative = true := by
      have := isNegative_of_read? digits read
      rwa [isNegative_negate, Bool.not_eq_false'] at this
    rw [negative]
    exact read

end Numbers

section Types

theorem isWord_of_all {first : Char} {rest : List Char} {value : String}
    (same : value.toList = first :: rest) (start : Lexeme.isWordStart first = true)
    (parts : rest.all Lexeme.isWordPart = true) : IsWord value.toList :=
  ⟨first, rest, same, start, List.all_eq_true.1 parts⟩

/-- The type that a name denotes is written as a name that denotes it. -/
theorem DataType.words_ofName {kind : TokenKind} {name : String}
    (either : kind = .identifier ∨ kind = .nullWord) (admitted : kind.Admits name) :
    (ofName name = .null ∧ (ofName name).words = [mark .nullWord]) ∨
      ∃ text, (ofName name).words = [Word.name text] ∧ identifier.Admits text ∧
        ofName text = ofName name := by
  unfold ofName
  split
  · exact .inr ⟨"int", rfl, ⟨isWord_of_all rfl rfl rfl, rfl⟩, rfl⟩
  split
  · exact .inr ⟨"float", rfl, ⟨isWord_of_all rfl rfl rfl, rfl⟩, rfl⟩
  split
  · exact .inr ⟨"double", rfl, ⟨isWord_of_all rfl rfl rfl, rfl⟩, rfl⟩
  split
  · exact .inr ⟨"bool", rfl, ⟨isWord_of_all rfl rfl rfl, rfl⟩, rfl⟩
  split
  · exact .inr ⟨"string", rfl, ⟨isWord_of_all rfl rfl rfl, rfl⟩, rfl⟩
  split
  · exact .inl ⟨rfl, rfl⟩
  · next int float double bool string null =>
    rcases either with rfl | rfl
    · refine .inr ⟨name, rfl, admitted, ?_⟩
      rw [if_neg int, if_neg float, if_neg double, if_neg bool, if_neg string, if_neg null]
    · exact absurd (.inl admitted) null

theorem DataType.Spelled.legible {type : DataType} (spelled : type.Spelled Admits)
    {tail : List Word} (follows : Follows tail) : Legible (type.words ++ tail) := by
  obtain ⟨kind, name, levels, either, admitted, rfl⟩ := spelled
  induction levels generalizing tail with
  | zero =>
      rw [DataType.nested]
      rcases DataType.words_ofName either admitted with ⟨-, words⟩ | ⟨text, words, admitted, -⟩
      · rw [words]
        exact follows.keyword rfl
      · rw [words]
        exact follows.name admitted
  | succ levels ih =>
      simp only [DataType.nested, DataType.words, List.cons_append, List.append_assoc]
      exact legible_mark rfl (ih (follows_mark rfl follows.legible))

end Types

section Printed

variable {decimal : Number.Binary64 → String}

theorem Literal.Spelled.legible {tail : List Word} {value : Literal}
    (spelled : value.Spelled Admits) (faithful : Faithful decimal) (follows : Follows tail) :
    Legible (value.words decimal ++ tail) := by
  cases value with
  | null => exact follows.keyword rfl
  | bool value => cases value <;> exact follows.keyword rfl
  | string value => exact follows.string spelled
  | int value =>
      have within := fits_iff.1 spelled
      have fits : value.natAbs ≤ Lexeme.greatestMagnitude := by
        rw [Lexeme.greatestMagnitude]
        omega
      simp only [Literal.words]
      split
      · exact legible_minus_natural fits follows
      · exact follows.natural fits
  | float value =>
      have digits := (read?_magnitude faithful spelled).1
      simp only [Literal.words]
      split
      · exact legible_minus_float digits follows
      · exact follows.float digits

/-- Items with commas between them can be split into words if each item can. -/
theorem legible_separated {tail : List Word} {items : List (List Word)} (follows : Follows tail)
    (h : ∀ item ∈ items, ∀ tail, Follows tail → Legible (item ++ tail)) :
    Legible (separated items ++ tail) := by
  cases items with
  | nil => exact follows.legible
  | cons first rest =>
      rw [separated, List.append_assoc]
      apply h first (by simp)
      replace h := fun item member => h item (List.mem_cons_of_mem first member)
      clear first
      induction rest with
      | nil => exact follows
      | cons item rest ih =>
          rw [afterCommas, List.flatMap_cons, List.cons_append, List.cons_append,
            List.cons_append, List.cons_append, List.append_assoc]
          apply follows_mark rfl
          apply legible_mark rfl
          apply h item (by simp)
          exact ih fun other member => h other (List.mem_cons_of_mem item member)

mutual

theorem Expr.Spelled.legible {tail : List Word} {expr : Expr} (spelled : expr.Spelled Admits)
    (faithful : Faithful decimal) (follows : Follows tail) : Legible (expr.words decimal ++ tail) := by
  cases expr with
  | literal value span =>
      cases spelled with
      | literal spelled => exact spelled.legible faithful follows
  | array values span =>
      cases spelled with
      | array spelled =>
          simp only [Expr.words, List.cons_append, List.append_assoc, List.nil_append]
          apply legible_mark rfl
          apply legible_separated (follows_mark rfl follows.legible)
          exact Expr.list_legible faithful spelled
  | reference name span =>
      cases spelled with
      | reference named => exact follows.name named
  | binary operator left right span =>
      cases spelled with
      | binary _ spelledLeft spelledRight =>
          simp only [Expr.words, List.cons_append, List.append_assoc, List.nil_append]
          apply legible_mark rfl
          apply spelledLeft.legible faithful
          apply follows_mark rfl
          apply legible_mark rfl
          apply Follows.operator
          apply follows_mark rfl
          apply legible_mark rfl
          apply spelledRight.legible faithful
          exact follows_mark rfl follows.legible
  | unary operator operand span =>
      cases spelled with
      | unary _ spelled _ =>
          simp only [Expr.words, List.cons_append, List.append_assoc, List.nil_append]
          apply Follows.operator
          apply follows_mark rfl
          apply spelled.legible faithful
          exact follows_mark rfl follows.legible
  | call callee args span =>
      cases spelled with
      | call named labels spelled =>
          simp only [Expr.words, List.cons_append, List.append_assoc, List.nil_append]
          refine Follows.name ?_ named
          apply follows_mark rfl
          apply legible_separated (follows_mark rfl follows.legible)
          exact Arg.list_legible faithful args labels spelled
  | method receiver callee args span =>
      cases spelled with
      | method spelledReceiver named labels spelled =>
          simp only [Expr.words, List.cons_append, List.append_assoc, List.nil_append]
          apply legible_mark rfl
          apply spelledReceiver.legible faithful
          apply follows_mark rfl
          refine Follows.member ?_ named
          apply follows_mark rfl
          apply legible_separated (follows_mark rfl follows.legible)
          exact Arg.list_legible faithful args labels spelled
  | property receiver member span =>
      cases spelled with
      | property spelled named =>
          simp only [Expr.words, List.cons_append, List.append_assoc, List.nil_append]
          apply legible_mark rfl
          apply spelled.legible faithful
          apply follows_mark rfl
          exact follows.member named
termination_by sizeOf expr

theorem Expr.list_legible (faithful : Faithful decimal) {values : List Expr}
    (spelled : ∀ value ∈ values, value.Spelled Admits) :
    ∀ item ∈ Expr.listWords decimal values, ∀ tail, Follows tail → Legible (item ++ tail) := by
  cases values with
  | nil => simp [Expr.listWords]
  | cons value rest =>
      simp only [Expr.listWords, List.forall_mem_cons] at spelled ⊢
      exact ⟨fun tail follows => spelled.1.legible faithful follows,
        Expr.list_legible faithful spelled.2⟩
termination_by sizeOf values

theorem Arg.list_legible (faithful : Faithful decimal) (args : List Arg) :
    (∀ arg ∈ args, identifier.Admits arg.label.text) →
    (∀ arg ∈ args, arg.value.Spelled Admits) →
    ∀ item ∈ Arg.listWords decimal args, ∀ tail, Follows tail → Legible (item ++ tail) := by
  cases args with
  | nil => simp [Arg.listWords]
  | cons arg rest =>
      obtain ⟨label, value⟩ := arg
      intro labels spelled
      simp only [Arg.listWords, List.forall_mem_cons] at labels spelled ⊢
      have here : value.Spelled Admits := spelled.1
      refine ⟨?_, Arg.list_legible faithful rest labels.2 spelled.2⟩
      intro tail follows
      refine Follows.name ?_ labels.1
      apply follows_mark rfl
      apply legible_mark rfl
      exact here.legible faithful follows
termination_by sizeOf args

end

theorem VarDecl.Spelled.legible {tail : List Word} {decl : VarDecl}
    (spelled : decl.Spelled Admits) (faithful : Faithful decimal) (follows : Follows tail) :
    Legible (decl.words decimal ++ tail) := by
  simp only [VarDecl.words, List.cons_append, List.append_assoc]
  refine Follows.name ?_ spelled.name
  apply follows_mark rfl
  apply legible_mark rfl
  cases init : decl.init with
  | none => exact spelled.type.legible follows
  | some value =>
      apply spelled.type.legible
      apply follows_mark rfl
      apply Follows.operator
      apply follows_mark rfl
      exact (spelled.init value init).legible faithful follows

variable {program : Program}

theorem VarId.legible {tail : List Word} (faithful : Faithful decimal)
    (decls : ∀ decl ∈ program.decls, decl.Spelled Admits) (id : VarId) (follows : Follows tail) :
    Legible (id.words decimal program ++ tail) := by
  unfold VarId.words Program.decl?
  cases found : program.decls[id.index]? with
  | none => exact follows.legible
  | some decl => exact (decls decl (Array.mem_of_getElem? found)).legible faithful follows

theorem legible_margin {tail : List Word} (level : Nat) (legible : Legible tail) :
    Legible (margin level ++ tail) := by
  unfold margin
  induction ParseState.stepWidth * level with
  | zero => exact legible
  | succ columns ih =>
      rw [List.replicate_succ, List.cons_append]
      exact legible_mark rfl ih

mutual

theorem Stmt.Spelled.legible {tail : List Word} {stmt : Stmt} (spelled : stmt.Spelled Admits)
    (faithful : Faithful decimal) (decls : ∀ decl ∈ program.decls, decl.Spelled Admits)
    (level : Nat) (legible : Legible tail) : Legible (stmt.words decimal program level ++ tail) := by
  cases stmt with
  | block body => cases spelled
  | returns value span =>
      cases spelled with
      | returns spelled =>
          simp only [Stmt.words, List.cons_append, List.append_assoc, List.nil_append]
          refine Follows.keyword ?_ rfl
          apply follows_mark rfl
          exact spelled.legible faithful (follows_mark rfl legible)
  | branch branches otherwise span =>
      cases spelled with
      | @branch first others _ _ spelledFirst spelledOthers spelledBody =>
          rw [Stmt.words, List.append_assoc]
          have all := List.forall_mem_cons.2 ⟨spelledFirst, spelledOthers⟩
          refine Branch.list_legible faithful decls (first :: others) level _ all ?_ ?_
          · intro rest follows
            exact follows.keyword rfl
          · exact Block.option_legible faithful decls otherwise level spelledBody legible
  | forLoop init condition step body span =>
      cases spelled with
      | forLoop spelledCondition spelledStep spelledBody =>
          simp only [Stmt.words, List.cons_append, List.append_assoc]
          refine Follows.keyword ?_ rfl
          apply follows_mark rfl
          apply VarId.legible faithful decls
          apply follows_mark rfl
          apply legible_mark rfl
          apply spelledCondition.legible faithful
          apply follows_mark rfl
          apply legible_mark rfl
          apply spelledStep.legible faithful
          apply follows_mark rfl
          apply legible_mark rfl
          exact Block.legible faithful decls body (level + 1) spelledBody legible
  | whileLoop condition body span =>
      cases spelled with
      | whileLoop spelledCondition spelledBody =>
          simp only [Stmt.words, List.cons_append, List.append_assoc]
          refine Follows.keyword ?_ rfl
          apply follows_mark rfl
          apply spelledCondition.legible faithful
          apply follows_mark rfl
          apply legible_mark rfl
          exact Block.legible faithful decls body (level + 1) spelledBody legible
  | expression value =>
      cases spelled with
      | expression spelled =>
          simp only [Stmt.words, List.append_assoc, List.cons_append, List.nil_append]
          exact spelled.legible faithful (follows_mark rfl legible)
  | declare decl span =>
      simp only [Stmt.words, List.append_assoc, List.cons_append, List.nil_append]
      exact VarId.legible faithful decls decl (follows_mark rfl legible)
  | breakLoop span =>
      exact (follows_mark rfl legible).keyword rfl
  | continueLoop span =>
      exact (follows_mark rfl legible).keyword rfl
termination_by sizeOf stmt

theorem Block.legible {tail : List Word} (faithful : Faithful decimal)
    (decls : ∀ decl ∈ program.decls, decl.Spelled Admits) (block : Block) (level : Nat) :
    block.Spelled Admits → Legible tail →
    Legible (block.words decimal program level ++ tail) := by
  obtain ⟨body, span⟩ := block
  intro spelled legible
  cases spelled with
  | mk _ spelled => exact Stmt.list_legible faithful decls spelled level legible
termination_by sizeOf block

theorem Stmt.list_legible {tail : List Word} (faithful : Faithful decimal)
    (decls : ∀ decl ∈ program.decls, decl.Spelled Admits) {body : List Stmt}
    (spelled : ∀ stmt ∈ body, stmt.Spelled Admits) (level : Nat) (legible : Legible tail) :
    Legible (Stmt.listWords decimal program level body ++ tail) := by
  cases body with
  | nil => exact legible
  | cons stmt rest =>
      rw [List.forall_mem_cons] at spelled
      rw [Stmt.listWords, List.append_assoc, List.append_assoc]
      apply legible_margin
      apply spelled.1.legible faithful decls
      exact Stmt.list_legible faithful decls spelled.2 level legible
termination_by sizeOf body

theorem Branch.list_legible {tail : List Word} (faithful : Faithful decimal)
    (decls : ∀ decl ∈ program.decls, decl.Spelled Admits) (branches : List Branch) (level : Nat)
    (opening : List Word) :
    (∀ branch ∈ branches, branch.Spelled Admits) →
    (∀ rest, Follows rest → Legible (opening ++ rest)) → Legible tail →
    Legible (Branch.listWords decimal program level opening branches ++ tail) := by
  cases branches with
  | nil => exact fun _ _ legible => legible
  | cons branch rest =>
      obtain ⟨condition, body⟩ := branch
      intro spelled opens legible
      rw [List.forall_mem_cons] at spelled
      cases spelled.1 with
      | mk spelledCondition spelledBody =>
          simp only [Branch.listWords, List.cons_append, List.append_assoc]
          apply opens
          apply follows_mark rfl
          apply spelledCondition.legible faithful
          apply follows_mark rfl
          apply legible_mark rfl
          apply Block.legible faithful decls body _ spelledBody
          refine Branch.list_legible faithful decls rest level _ spelled.2 ?_ legible
          intro rest follows
          rw [List.append_assoc]
          exact legible_margin level (follows.keyword rfl)
termination_by sizeOf branches

theorem Block.option_legible {tail : List Word} (faithful : Faithful decimal)
    (decls : ∀ decl ∈ program.decls, decl.Spelled Admits) (block? : Option Block) (level : Nat) :
    (∀ body ∈ block?, body.Spelled Admits) → Legible tail →
    Legible (Block.otherwiseWords decimal program level block? ++ tail) := by
  cases block? with
  | none => exact fun _ legible => legible
  | some body =>
      intro spelled legible
      simp only [Block.otherwiseWords, List.cons_append, List.append_assoc]
      apply legible_margin
      refine Follows.keyword ?_ rfl
      apply follows_mark rfl
      apply legible_mark rfl
      exact Block.legible faithful decls body (level + 1) (spelled body rfl) legible
termination_by sizeOf block?

end

theorem Function.Spelled.legible {tail : List Word} {function : Function}
    (spelled : function.Spelled Admits program.decls) (faithful : Faithful decimal)
    (decls : ∀ decl ∈ program.decls, decl.Spelled Admits) (level : Nat) (legible : Legible tail) :
    Legible (function.words decimal program level ++ tail) := by
  have returns : ∀ {rest}, Legible rest →
      Legible (function.signature.returnType.words ++ mark .newline :: rest) := by
    intro rest legible
    rcases spelled.returnType with null | spelled
    · rw [null]
      exact (follows_mark rfl legible).keyword rfl
    · exact spelled.legible (follows_mark rfl legible)
  simp only [Function.words, List.cons_append, List.append_assoc]
  refine Follows.keyword ?_ rfl
  apply follows_mark rfl
  refine Follows.name ?_ spelled.name
  apply follows_mark rfl
  apply legible_separated
  · apply follows_mark rfl
    apply legible_mark rfl
    apply legible_mark rfl
    exact returns (Block.legible faithful decls function.body (level + 1) spelled.body legible)
  · intro item listed rest follows
    obtain ⟨param, _, rfl⟩ := List.mem_map.1 listed
    exact VarId.legible faithful decls param.decl follows

theorem legible_flatMap {tail : List Word} {α : Type} {items : List α} {words : α → List Word}
    (h : ∀ item ∈ items, ∀ tail, Legible tail → Legible (words item ++ tail))
    (legible : Legible tail) : Legible (items.flatMap words ++ tail) := by
  induction items with
  | nil => exact legible
  | cons item rest ih =>
      rw [List.flatMap_cons, List.append_assoc]
      rw [List.forall_mem_cons] at h
      exact h.1 _ (ih h.2)

theorem RecordDecl.Spelled.legible {tail : List Word} {record : RecordDecl}
    (spelled : record.Spelled Admits program.decls) (faithful : Faithful decimal)
    (decls : ∀ decl ∈ program.decls, decl.Spelled Admits) (legible : Legible tail) :
    Legible (record.words decimal program ++ tail) := by
  have members : Legible ((record.properties.flatMap fun id =>
      margin 1 ++ id.words decimal program ++ [mark .newline]) ++
        (record.methods.flatMap fun method =>
          margin 1 ++ method.words decimal program 1) ++ tail) := by
    rw [List.append_assoc]
    apply legible_flatMap
    · intro id _ rest legible
      simp only [List.append_assoc, List.cons_append, List.nil_append]
      apply legible_margin
      exact VarId.legible faithful decls id (follows_mark rfl legible)
    · apply legible_flatMap _ legible
      intro method listed rest legible
      rw [List.append_assoc]
      apply legible_margin
      exact (spelled.methods method listed).legible faithful decls 1 legible
  simp only [RecordDecl.words, List.cons_append, List.append_assoc] at members ⊢
  refine Follows.keyword ?_ rfl
  apply follows_mark rfl
  refine Follows.name ?_ spelled.name
  cases parent : record.parent with
  | none => exact follows_mark rfl members
  | some name =>
      apply follows_mark rfl
      apply legible_mark rfl
      exact (follows_mark rfl members).name (spelled.parent name parent)

/-- What is printed for a program that can be read can be split into words. -/
theorem Program.Spelled.legible (spelled : program.Spelled Admits)
    (faithful : Faithful decimal) : Legible (program.words decimal) := by
  have statements : Legible (program.statements.flatMap (Stmt.words decimal program 0)) := by
    rw [← List.append_nil (program.statements.flatMap _)]
    refine legible_flatMap ?_ trivial
    intro stmt listed tail legible
    exact (spelled.statements stmt listed).1.legible faithful spelled.decls 0 legible
  unfold Program.words
  simp only [List.append_assoc]
  apply legible_flatMap
  · intro record listed tail legible
    exact (spelled.records record listed).legible faithful spelled.decls legible
  apply legible_flatMap
  · intro function listed tail legible
    exact (spelled.functions function listed).legible faithful spelled.decls 0 legible
  apply legible_flatMap
  · intro function listed tail legible
    exact (spelled.main function (Option.mem_toList.1 listed)).legible faithful spelled.decls 0
      legible
  apply legible_flatMap _ statements
  intro id _ tail legible
  rw [List.append_assoc]
  exact VarId.legible faithful spelled.decls id (follows_mark rfl legible)

end Printed

end Offside
