import Offside.Proofs.Lexing.Tiling
import Offside.Proofs.Placing.Programs
import Offside.Proofs.Reading.Numbering
import Offside.Proofs.Typing.Sources

/-! # Spans nest

Each word of a source text is a slice of it, and the words follow each other. What goes from one word
to another is a slice again, so the outline of a tree lies in the text: a node lies inside the node
around it, and behind the parts in front of it.
-/

namespace Offside

open Parse ParseState

/-- A stretch of a source text is a slice of it. -/
def Span.CutsOut (source : List Char) (file : String) (slice : List Char) (span : Span) : Prop :=
  ∃ front back, source = front ++ (slice ++ back) ∧
    span = .ofBytes file (byteLength front) (byteLength slice)

/-- A stretch of a source text that is not empty. -/
structure Span.Within (source : List Char) (file : String) (span : Span) : Prop where
  ordered : span.start.offset < span.stop.offset
  inside : span.stop.offset.toNat ≤ byteLength source
  cuts : ∃ slice, span.CutsOut source file slice

mutual

/-- The nodes of an outline lie inside the nodes around them, each behind those in front of it, and
where a name was read, the source text says that name. -/
def Outline.NestedIn (source : List Char) (file : String) : Outline → Prop
  | .name text span => span.Within source file ∧ span.CutsOut source file text.toList
  | .node span parts => span.Within source file ∧
    NestedBetween source file span.start.offset.toNat span.stop.offset.toNat parts

/-- Some outlines are nested and lie between two places, one after the other. -/
def Outline.NestedBetween (source : List Char) (file : String) (least most : Nat) :
    List Outline → Prop
  | [] => True
  | outline :: rest => least ≤ outline.span.start.offset.toNat ∧
    outline.span.stop.offset.toNat ≤ most ∧ outline.NestedIn source file ∧
    NestedBetween source file outline.span.stop.offset.toNat most rest

end

/-- Words of a source text, one behind the other. -/
structure Strung (source : List Char) (file : String) (words : List Token) : Prop where
  ordered : words.Pairwise fun word later => word.endByte ≤ later.firstByte
  cuts : ∀ word ∈ words, ∃ slice, slice ≠ [] ∧ word.span.CutsOut source file slice ∧
    word.kind.Spells word.value.toList slice

section Slices

variable {source : List Char} {file : String} {slice : List Char} {span : Span}
  {words : List Token} {word : Token} (short : byteLength source < UInt32.size)

include short in
/-- A slice is addressed exactly. -/
theorem Span.CutsOut.bytes (h : span.CutsOut source file slice) :
    ∃ front back, source = front ++ (slice ++ back) ∧
      span.start = .ofByte file (byteLength front) ∧
      span.stop = .ofByte file (byteLength (front ++ slice)) ∧
      span.start.offset.toNat = byteLength front ∧
      span.stop.offset.toNat = byteLength (front ++ slice) := by
  obtain ⟨front, back, rfl, rfl⟩ := h
  simp only [byteLength_append] at short ⊢
  exact ⟨front, back, rfl, rfl, rfl, Token.offset_ofByte (by omega), Token.offset_ofByte (by omega)⟩

include short in
theorem Span.CutsOut.within (h : span.CutsOut source file slice) (filled : slice ≠ []) :
    span.Within source file := by
  obtain ⟨front, back, rfl, -, -, first, last⟩ := h.bytes short
  have some : 0 < byteLength slice := Nat.pos_of_ne_zero (mt byteLength_eq_zero.1 filled)
  refine ⟨?_, ?_, slice, h⟩
  · rw [UInt32.lt_iff_toNat_lt, first, last, byteLength_append]
    omega
  · rw [last]
    simp

namespace Strung

theorem sublist {others : List Token} (h : Strung source file words) (sub : others.Sublist words) :
    Strung source file others :=
  ⟨h.ordered.sublist sub, fun word listed => h.cuts word (sub.subset listed)⟩

include short in
theorem within (h : Strung source file words) (listed : word ∈ words) :
    word.span.Within source file := by
  obtain ⟨slice, filled, cuts, -⟩ := h.cuts word listed
  exact cuts.within short filled

include short in
theorem firstByte_lt (h : Strung source file words) (listed : word ∈ words) :
    word.firstByte < word.endByte :=
  UInt32.lt_iff_toNat_lt.1 (h.within short listed).ordered

include short in
/-- A stretch that goes over words starts no later than any of them, and ends no sooner. -/
theorem bounds (h : Strung source file words) (goes : span.GoesOver words) :
    ∀ word ∈ words, span.start.offset.toNat ≤ word.firstByte ∧
      word.endByte ≤ span.stop.offset.toNat := by
  obtain ⟨starts, ends⟩ := goes
  intro word listed
  constructor
  · cases words with
    | nil => cases starts
    | cons first rest =>
        have start : first.span.start = span.start := Option.some.inj starts
        rw [← start]
        rcases List.mem_cons.1 listed with rfl | behind
        · exact Nat.le_refl _
        · exact Nat.le_trans (Nat.le_of_lt (h.firstByte_lt short (by simp)))
            ((List.pairwise_cons.1 h.ordered).1 word behind)
  · cases last : words.getLast? with
    | none =>
        rw [last] at ends
        cases ends
    | some final =>
        rw [last] at ends
        have stop : final.span.stop = span.stop := Option.some.inj ends
        obtain ⟨front, rfl⟩ := List.getLast?_eq_some_iff.1 last
        rw [← stop]
        rcases List.mem_append.1 listed with before | same
        · have behind := (List.pairwise_append.1 h.ordered).2.2 word before final (by simp)
          exact Nat.le_trans behind (Nat.le_of_lt (h.firstByte_lt short (by simp)))
        · rw [List.mem_singleton.1 same]
          exact Nat.le_refl _

/-- What goes from one place of a text to a later one is a slice of it. -/
theorem exists_slice_between {front front' back back' : List Char} (h : source = front ++ back)
    (h' : source = front' ++ back') (later : byteLength front < byteLength front') :
    ∃ slice, slice ≠ [] ∧ front' = front ++ slice := by
  have before : front <+: source := ⟨back, h.symm⟩
  have before' : front' <+: source := ⟨back', h'.symm⟩
  obtain ⟨slice, rfl⟩ | ⟨slice, rfl⟩ := List.prefix_or_prefix_of_prefix before before'
  · refine ⟨slice, ?_, rfl⟩
    rintro rfl
    simp at later
  · rw [byteLength_append] at later
    omega

include short in
/-- What goes from one word to another is a slice. -/
theorem span_within (h : Strung source file words) (goes : span.GoesOver words) :
    span.Within source file := by
  obtain ⟨first, listed, last, listed', start, stop⟩ := goes.exists_ends
  obtain ⟨own, -, cuts, -⟩ := h.cuts first listed
  obtain ⟨own', -, cuts', -⟩ := h.cuts last listed'
  obtain ⟨front, back, same, place, -, byte, -⟩ := cuts.bytes short
  obtain ⟨front', back', same', -, place', -, byte'⟩ := cuts'.bytes short
  rw [← List.append_assoc] at same'
  have later : byteLength front < byteLength (front' ++ own') := by
    rw [← byte, ← byte', start]
    exact Nat.lt_of_le_of_lt (h.bounds short goes last listed').1 (h.firstByte_lt short listed')
  obtain ⟨slice, filled, whole⟩ := exists_slice_between same same' later
  have cut : span.CutsOut source file slice := by
    refine ⟨front, back', by rw [same', whole, List.append_assoc], ?_⟩
    rw [Span.ofBytes, ← byteLength_append, ← whole, ← place, ← place', start, stop]
  exact cut.within short filled

end Strung

end Slices

namespace Outline

variable {source : List Char} {file : String}

mutual

/-- The outline of what takes up words is nested. -/
theorem Covers.nested {words : List Token} {outline : Outline} (h : outline.Covers words)
    (short : byteLength source < UInt32.size) (strung : Strung source file words) :
    outline.NestedIn source file := by
  cases outline with
  | name text span =>
      rw [Covers] at h
      obtain ⟨word, rfl, kind, rfl, rfl⟩ := h
      obtain ⟨slice, filled, cuts, spells⟩ := strung.cuts word (by simp)
      have same := spells.other (by simp [kind])
      exact ⟨cuts.within short filled, same ▸ cuts⟩
  | node span parts =>
      rw [Covers] at h
      have bounds := strung.bounds short h.1
      exact ⟨strung.span_within short h.1, LieIn.nested h.2 short strung (fun word listed =>
        (bounds word listed).1) fun word listed => (bounds word listed).2⟩
termination_by sizeOf outline

/-- Outlines that lie in words between two places are nested between them. -/
theorem LieIn.nested {words : List Token} {parts : List Outline} (h : LieIn parts words)
    (short : byteLength source < UInt32.size) (strung : Strung source file words) {least most : Nat}
    (above : ∀ word ∈ words, least ≤ word.firstByte)
    (below : ∀ word ∈ words, word.endByte ≤ most) : NestedBetween source file least most parts := by
  cases parts with
  | nil => trivial
  | cons outline rest =>
      rw [LieIn] at h
      obtain ⟨front, own, back, rfl, covers, lie⟩ := h
      obtain ⟨first, listed, last, listed', start, stop⟩ := covers.goesOver.exists_ends
      have inside : Strung source file own := strung.sublist (by simp)
      have behind : Strung source file back := strung.sublist (by simp)
      have later := (List.pairwise_append.1 (List.pairwise_append.1 strung.ordered).2.1).2.2
      refine ⟨?_, ?_, Covers.nested covers short inside, LieIn.nested lie short behind
        (fun word found => ?_) fun word found => below word (by simp [found])⟩
      · rw [← start]
        exact above first (by simp [listed])
      · rw [← stop]
        exact below last (by simp [listed'])
      · rw [← stop]
        exact later last listed' word found
termination_by sizeOf parts

end

end Outline

section Handles

variable {source : List Char} {file : String} {decls : Array VarDecl}

theorem Outline.NestedBetween.nestedIn {parts : List Outline} {least most : Nat}
    (h : NestedBetween source file least most parts) :
    ∀ part ∈ parts, part.NestedIn source file := by
  induction parts generalizing least with
  | nil => exact List.forall_mem_nil _
  | cons first rest ih =>
      obtain ⟨-, -, nested, others⟩ := h
      exact List.forall_mem_cons.2 ⟨nested, ih others⟩

/-- The parts of a node that is nested are nested. -/
theorem Outline.NestedIn.parts {span : Span} {parts : List Outline}
    (h : (Outline.node span parts).NestedIn source file) :
    ∀ part ∈ parts, part.NestedIn source file :=
  h.2.nestedIn

mutual

/-- The declarations in a statement are nested if it is. -/
theorem Stmt.nested_handles (stmt : Stmt) (h : (stmt.outline decls).NestedIn source file) :
    ∀ id ∈ stmt.handles, (id.outline decls).NestedIn source file := by
  cases stmt with
  | block body => exact body.nested_handles h
  | branch branches otherwise span =>
      have parts := List.forall_mem_append.1 h.parts
      rw [Stmt.handles, List.forall_mem_append]
      exact ⟨Branch.nested_handles branches parts.1, Block.option_nested_handles otherwise parts.2⟩
  | forLoop init condition step body span =>
      have parts := h.parts
      rw [Stmt.handles, List.forall_mem_cons]
      exact ⟨parts _ (by simp), body.nested_handles (parts _ (by simp))⟩
  | whileLoop condition body span => exact body.nested_handles (h.parts _ (by simp))
  | declare id span =>
      rw [Stmt.handles, List.forall_mem_singleton]
      exact h.parts _ (by simp)
  | returns | expression | breakLoop | continueLoop => exact List.forall_mem_nil _
termination_by sizeOf stmt

theorem Block.nested_handles (block : Block) : (block.outline decls).NestedIn source file →
    ∀ id ∈ block.handles, (id.outline decls).NestedIn source file := by
  obtain ⟨body, span⟩ := block
  exact fun h => Stmt.list_nested_handles body h.parts
termination_by sizeOf block

theorem Stmt.list_nested_handles (body : List Stmt)
    (h : ∀ part ∈ Stmt.outlines decls body, part.NestedIn source file) :
    ∀ id ∈ Stmt.listHandles body, (id.outline decls).NestedIn source file := by
  cases body with
  | nil => exact List.forall_mem_nil _
  | cons stmt rest =>
      rw [Stmt.outlines, List.forall_mem_cons] at h
      rw [Stmt.listHandles, List.forall_mem_append]
      exact ⟨stmt.nested_handles h.1, Stmt.list_nested_handles rest h.2⟩
termination_by sizeOf body

theorem Branch.nested_handles (branches : List Branch) :
    (∀ part ∈ Branch.outlines decls branches, part.NestedIn source file) →
    ∀ id ∈ Branch.listHandles branches, (id.outline decls).NestedIn source file := by
  cases branches with
  | nil => exact fun _ => List.forall_mem_nil _
  | cons branch rest =>
      obtain ⟨condition, body⟩ := branch
      intro h
      rw [Branch.outlines, List.forall_mem_cons, List.forall_mem_cons] at h
      rw [Branch.listHandles, List.forall_mem_append]
      exact ⟨body.nested_handles h.2.1, Branch.nested_handles rest h.2.2⟩
termination_by sizeOf branches

theorem Block.option_nested_handles (block? : Option Block)
    (h : ∀ part ∈ Block.optionOutlines decls block?, part.NestedIn source file) :
    ∀ id ∈ Block.optionHandles block?, (id.outline decls).NestedIn source file := by
  cases block? with
  | none => exact List.forall_mem_nil _
  | some body =>
      rw [Block.optionOutlines, List.forall_mem_singleton] at h
      exact body.nested_handles h
termination_by sizeOf block?

end

theorem Function.nested_handles {function : Function}
    (h : (function.outline decls).NestedIn source file) :
    ∀ id ∈ function.handles, (id.outline decls).NestedIn source file := by
  have signature := h.parts (function.signature.outline decls) (by simp)
  have body := h.parts (function.body.outline decls) (by simp)
  rw [Function.handles, List.forall_mem_append, List.forall_mem_map]
  refine ⟨fun param listed => ?_, function.body.nested_handles body⟩
  have param := signature.parts (param.outline decls) (List.mem_map_of_mem listed)
  exact param.parts _ (by simp)

/-- The declarations in a record type are nested if it is. -/
theorem OrderedRecord.nested_handles {ordered : OrderedRecord}
    (h : (ordered.record.outline decls ordered.members).NestedIn source file) :
    ∀ id ∈ ordered.record.handles, (id.outline decls).NestedIn source file := by
  have members := (List.forall_mem_append.1 h.parts).2
  rw [List.forall_mem_map] at members
  rw [RecordDecl.handles, List.forall_mem_append]
  refine ⟨fun id listed => members _ (ordered.property_mem listed), fun id listed => ?_⟩
  obtain ⟨method, listed, held⟩ := List.mem_flatMap.1 listed
  exact Function.nested_handles (members _ (ordered.method_mem listed)) id held

/-- The declarations in a program are nested if its items are. -/
theorem Program.Arranged.nested_handles {program : Program} {items : List SourceItem}
    (arranged : program.Arranged items)
    (h : ∀ item ∈ items, (item.outline decls).NestedIn source file) :
    ∀ id ∈ program.handles, (id.outline decls).NestedIn source file := by
  have functions : ∀ function ∈ program.functions ++ program.main.toList, ∀ id ∈ function.handles,
      (id.outline decls).NestedIn source file :=
    fun function listed => Function.nested_handles (h _ (arranged.mem_function listed))
  rw [List.forall_mem_append] at functions
  simp only [handles, List.forall_mem_append]
  refine ⟨⟨⟨⟨fun id listed => h _ (arranged.mem_global listed), ?_⟩, ?_⟩, ?_⟩, ?_⟩
  · intro id listed
    obtain ⟨record, listed, held⟩ := List.mem_flatMap.1 listed
    obtain ⟨ordered, rfl, stands⟩ := arranged.mem_record listed
    exact OrderedRecord.nested_handles (h _ stands) id held
  · intro id listed
    obtain ⟨function, listed, held⟩ := List.mem_flatMap.1 listed
    exact functions.1 function listed id held
  · intro id listed
    obtain ⟨function, listed, held⟩ := List.mem_flatMap.1 listed
    exact functions.2 function listed id held
  · rw [Stmt.listHandles_eq_flatMap]
    intro id listed
    obtain ⟨stmt, listed, held⟩ := List.mem_flatMap.1 listed
    exact stmt.nested_handles (h _ (arranged.mem_statement listed)) id held

end Handles

section Sources

variable {source file : String}

/-- Every token but the last is a slice of the text. -/
theorem Token.Tile.cuts {before text : List Char} {tokens : List Token}
    (h : Tile file before text tokens) : ∀ token ∈ tokens, token.kind ≠ .eof → ∃ slice,
      slice ≠ [] ∧ token.span.CutsOut (before ++ text) file slice ∧
        token.kind.Spells token.value.toList slice := by
  induction h with
  | last isGap =>
      intro token listed inside
      cases List.mem_singleton.1 listed
      exact absurd rfl inside
  | @next before gap slice behind kind value tokens isGap filled inside spells stops rest ih =>
      rw [regroup_tile]
      refine List.forall_mem_cons.2 ⟨fun _ => ⟨slice, filled, ?_, ?_⟩, ih⟩
      · exact ⟨before ++ gap, behind, by simp, rfl⟩
      · rwa [String.toList_ofList]

/-- The words of a source text follow each other. -/
theorem strung_of_scan (short : byteLength source.toList < UInt32.size) {tokens : List Token}
    (h : Token.scan source file = .ok tokens) :
    Strung source.toList file (solid tokens.dropLast) := by
  have tile : Token.Tile file [] source.toList tokens := Token.tile_of_scanFrom h
  obtain ⟨inside, -⟩ := ofTokens_of_scan h
  have ordered := (tile.ordered short).sublist (List.dropLast_sublist tokens)
  refine ⟨ordered.sublist List.filter_sublist, fun word listed => ?_⟩
  have stands := mem_of_mem_solid listed
  exact tile.cuts word (List.dropLast_subset _ stands) (inside word stands)

/-- What a source text spells is arranged from items that follow each other in the text. -/
theorem Program.exists_nested {program : Program} (short : byteLength source.toList < UInt32.size)
    (h : Program.ofSource source file = .ok program) : ∃ items, program.Arranged items ∧
      Outline.NestedBetween source.toList file 0 (byteLength source.toList)
        (items.map (SourceItem.outline program.decls)) := by
  obtain ⟨tokens, scanned, spelled⟩ := Program.exists_tokens_of_ofSource h
  have strung := strung_of_scan short scanned
  obtain ⟨inside, rest, -⟩ := ofTokens_of_scan scanned
  have arranges := ofTokens_arranges file inside
  rw [spelled, rest] at arranges
  obtain ⟨items, arranged, turns, -⟩ := arranges
  refine ⟨items, arranged, (turns.map (SourceItem.outline program.decls)).lieIn.nested short strung
    (fun _ _ => Nat.zero_le _) fun word listed => ?_⟩
  exact (strung.within short listed).inside

/-- Every span in the program that a source text spells is a part of the text that is not empty, and
lies inside the span of the node around it, behind the spans in front of it. Where a name was read,
the text says that name. -/
theorem Program.ofSource_nested {program : Program} (short : byteLength source.toList < UInt32.size)
    (h : Program.ofSource source file = .ok program) :
    (∃ items, program.Arranged items ∧
      Outline.NestedBetween source.toList file 0 (byteLength source.toList)
        (items.map (SourceItem.outline program.decls))) ∧
    ∀ decl ∈ program.decls, decl.outline.NestedIn source.toList file := by
  have coherent := Program.coherent_of_ofSource h
  obtain ⟨items, arranged, nested⟩ := Program.exists_nested short h
  have each := List.forall_mem_map.1 nested.nestedIn
  refine ⟨⟨items, arranged, nested⟩, fun decl listed => ?_⟩
  obtain ⟨index, bound, rfl⟩ := Array.mem_iff_getElem.1 listed
  have found : program.decls[index]? = some program.decls[index] := Array.getElem?_eq_getElem bound
  have held : VarId.mk index ∈ program.handles :=
    coherent.mem_handles.2 (by simp [Program.decl?, found])
  rw [← outline_of_grown found List.prefix_rfl]
  exact arranged.nested_handles each ⟨index⟩ held

/-- A text with parentheses, signs and members, and a string of characters of several bytes. -/
def dottedText : String :=
  "hotpot Pot: Pan\n    name: string = 'héé' # test\n    def a(x: int): int\n        " ++
    "return (x + this.size.of(all: (-1), and: !y)) * - x\n\nfor i: int = 0, i < 2, i = (i) + 1:\n" ++
    "\ta = [i, Pot()]  \n"

/-- Parentheses belong to no span, but signs, arguments and blocks do. -/
theorem Program.ofSource_nested_dotted : ∃ program,
    byteLength dottedText.toList < UInt32.size ∧ Program.ofSource dottedText "pots" = .ok program ∧
    (∃ items, program.Arranged items ∧
      Outline.NestedBetween dottedText.toList "pots" 0 (byteLength dottedText.toList)
        (items.map (SourceItem.outline program.decls))) ∧
    ∀ decl ∈ program.decls, decl.outline.NestedIn dottedText.toList "pots" := by
  have short : byteLength dottedText.toList < UInt32.size := by
    decide +kernel
  have reads : (Program.ofSource dottedText "pots").isOk = true := by
    decide +kernel
  obtain ⟨program, read⟩ := exists_ok_of_isOk reads
  exact ⟨program, short, read, Program.ofSource_nested short read⟩

end Sources

end Offside
