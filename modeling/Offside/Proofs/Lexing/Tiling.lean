import Offside.Proofs.Lexing.Munching
import Offside.Proofs.Outcome

/-! # Tokens tile their source

The tokens of a source text follow each other without overlap, and between them stands nothing but
comments. So the source can be put together again from its tokens and comments. Where splitting a
text fails, all of the text before that place has been split.
-/

namespace Offside

/-- What stands between two tokens: nothing, or one comment. -/
def IsGap (gap behind : List Char) : Prop :=
  gap = [] ∨ IsComment gap behind

/-- No gap stands behind a comment, since the line ends there. -/
theorem IsGap.eq_nil {gap rest : List Char} (h : IsGap gap rest)
    (stops : ∀ c ∈ (gap ++ rest).head?, Lexeme.isLineBreak c = true) : gap = [] := by
  rcases h with rfl | comment
  · rfl
  · have mark := comment.mark
    cases gap with
    | nil => rfl
    | cons c gap =>
        cases mark
        cases stops '#' rfl

namespace Token

/-- The bytes of the source before a token. -/
def firstByte (token : Token) : Nat :=
  token.span.start.offset.toNat

/-- The bytes of the source up to the end of a token. -/
def endByte (token : Token) : Nat :=
  token.span.stop.offset.toNat

/-- The bytes of the source up to the end of some tokens. -/
def reached (tokens : List Token) : Nat :=
  (tokens.getLast?.map endByte).getD 0

/-- Some tokens cover a source text without loss. -/
structure Cover (source : List Char) (tokens : List Token) : Prop where
  /-- The last token and no other marks the end of the input. -/
  closed : ∃ front last, tokens = front ++ [last] ∧ last.kind = .eof ∧
    last.firstByte = byteLength source ∧ last.endByte = byteLength source ∧
    ∀ token ∈ front, token.kind ≠ .eof
  ordered : tokens.Pairwise fun token later => token.endByte ≤ later.firstByte
  /-- Any other token stands for a slice of the source, which could not be longer. -/
  slices : ∀ token ∈ tokens, token.kind ≠ .eof → ∃ before slice behind,
    source = before ++ slice ++ behind ∧ slice ≠ [] ∧ token.firstByte = byteLength before ∧
    token.endByte = byteLength (before ++ slice) ∧
    token.kind.Spells token.value.toList slice ∧ token.kind.Stops slice behind
  /-- Between a token and those before it there is only a gap. -/
  gaps : ∀ front token rest, tokens = front ++ token :: rest → ∃ before gap behind,
    source = before ++ gap ++ behind ∧ byteLength before = reached front ∧
    byteLength (before ++ gap) = token.firstByte ∧ IsGap gap behind

/-- The tokens of a text that stands behind another one, laid out tile by tile. -/
inductive Tile (file : String) : (before text : List Char) → List Token → Prop where
  | last {before gap} :
    IsGap gap [] → Tile file before gap [.endOfInput (.ofByte file (byteLength (before ++ gap)))]
  | next {before gap slice behind kind value tokens} :
    IsGap gap (slice ++ behind) → slice ≠ [] → kind ≠ .eof → kind.Spells value slice →
    kind.Stops slice behind → Tile file (before ++ gap ++ slice) behind tokens →
    Tile file before (gap ++ slice ++ behind)
      (⟨kind, String.ofList value,
        .ofBytes file (byteLength (before ++ gap)) (byteLength slice)⟩ :: tokens)

section Tiles

variable {file : String} {before text gap behind : List Char} {tokens : List Token}

/-- Tokens behind a comment are laid out behind what is before it, too. -/
theorem Tile.of_comment {comment : List Char} (h : Tile file (before ++ comment) text tokens)
    (isComment : IsComment comment text) : Tile file before (comment ++ text) tokens := by
  cases h with
  | @last _ gap isGap =>
      obtain rfl := isGap.eq_nil (by simpa using isComment.stops)
      have tile : Tile file before comment _ := .last (.inr isComment)
      simpa using tile
  | @next _ gap slice behind kind value tokens isGap filled inside spells stops rest =>
      obtain rfl := isGap.eq_nil (by simpa using isComment.stops)
      rw [List.append_nil] at rest
      have tile : Tile file before (comment ++ slice ++ behind) _ :=
        .next (.inr (by simpa using isComment)) filled inside spells stops rest
      simpa using tile

/-- The tokens that a text is split into are laid out tile by tile. -/
theorem tile_of_scanFrom (h : scanFrom file (byteLength before) 0 text = .ok tokens) :
    Tile file before text tokens := by
  induction size : text.length using Nat.strong_induction_on generalizing before text tokens with
  | _ size ih =>
      cases text with
      | nil =>
          cases h
          have tile : Tile file before [] _ := .last (.inl rfl)
          simpa using tile
      | cons c rest =>
          obtain ⟨lexeme, others, read, scanned, rfl⟩ := scanFrom_cons_eq_ok h
          obtain ⟨tail, behind, rfl, slice, fits, -⟩ := Lexeme.read_munches read
          rw [slice, List.length_cons, Nat.add_sub_cancel, scanFrom_inside] at scanned
          have rest : Tile file (before ++ lexeme.slice) behind others := by
            refine ih behind.length (by simp at size; omega) ?_ rfl
            rw [slice, byteLength_append, byteLength_cons, ← Nat.add_assoc]
            exact scanned
          rw [← List.cons_append, ← slice, Lexeme.token?]
          cases kind : lexeme.kind? with
          | none => exact rest.of_comment (fits.comment kind)
          | some kind' =>
              have inside : kind' ≠ .eof := fun same =>
                Lexeme.read_inside read (kind.trans (congrArg some same))
              obtain ⟨spells, stops⟩ := fits.token kind' kind
              have tile : Tile file before ([] ++ lexeme.slice ++ behind) _ :=
                .next (.inl rfl) (slice ▸ List.cons_ne_nil _ _) inside spells stops
                  (by simpa using rest)
              simpa using tile

end Tiles

section Covering

variable {file : String} {before text : List Char} {tokens : List Token}

theorem offset_ofByte {byte : Nat} (short : byte < UInt32.size) :
    (Position.ofByte file byte).offset.toNat = byte :=
  UInt32.toNat_ofNat_of_lt short

/-- The token of a slice knows where the slice starts and ends. -/
theorem bytes_ofSlice (file : String) (kind : TokenKind) (value : List Char)
    {slice behind : List Char}
    (short : byteLength (before ++ slice ++ behind) < UInt32.size) :
    (Token.mk kind (String.ofList value)
        (.ofBytes file (byteLength before) (byteLength slice))).firstByte = byteLength before ∧
      (Token.mk kind (String.ofList value)
        (.ofBytes file (byteLength before) (byteLength slice))).endByte =
        byteLength (before ++ slice) := by
  simp only [byteLength_append] at short ⊢
  exact ⟨offset_ofByte (by omega), offset_ofByte (by omega)⟩

/-- The text before a tile, its gap and its slice, and the text behind it make up the whole. -/
theorem regroup_tile (before gap slice behind : List Char) :
    before ++ (gap ++ slice ++ behind) = before ++ gap ++ slice ++ behind := by
  simp

namespace Tile

theorem closed (h : Tile file before text tokens) :
    ∃ front, tokens = front ++ [.endOfInput (.ofByte file (byteLength (before ++ text)))] ∧
      ∀ token ∈ front, token.kind ≠ .eof := by
  induction h with
  | last isGap => exact ⟨[], rfl, List.forall_mem_nil _⟩
  | @next before gap slice behind kind value tokens isGap filled inside spells stops rest ih =>
      obtain ⟨front, rfl, none⟩ := ih
      rw [regroup_tile]
      exact ⟨_ :: front, rfl, List.forall_mem_cons.2 ⟨inside, none⟩⟩

theorem slices (h : Tile file before text tokens) (short : byteLength (before ++ text) < UInt32.size) :
    ∀ token ∈ tokens, token.kind ≠ .eof → ∃ front slice behind,
      before ++ text = front ++ slice ++ behind ∧ slice ≠ [] ∧
      token.firstByte = byteLength front ∧ token.endByte = byteLength (front ++ slice) ∧
      token.kind.Spells token.value.toList slice ∧ token.kind.Stops slice behind := by
  induction h with
  | last isGap =>
      intro token member inside
      cases List.mem_singleton.1 member
      exact absurd rfl inside
  | @next before gap slice behind kind value tokens isGap filled inside spells stops rest ih =>
      rw [regroup_tile] at short ⊢
      refine List.forall_mem_cons.2 ⟨fun _ => ?_, ih short⟩
      obtain ⟨first, last⟩ := bytes_ofSlice file kind value short
      exact ⟨_, slice, behind, rfl, filled, first, last, by rwa [String.toList_ofList], stops⟩

theorem le_firstByte (h : Tile file before text tokens)
    (short : byteLength (before ++ text) < UInt32.size) :
    ∀ token ∈ tokens, byteLength before ≤ token.firstByte := by
  induction h with
  | @last before gap isGap =>
      intro token member
      cases List.mem_singleton.1 member
      refine Nat.le_trans ?_ (offset_ofByte short).ge
      simp
  | @next before gap slice behind kind value tokens isGap filled inside spells stops rest ih =>
      rw [regroup_tile] at short
      refine List.forall_mem_cons.2 ⟨?_, fun token member => ?_⟩
      · rw [(bytes_ofSlice file kind value short).1]
        simp
      · refine Nat.le_trans ?_ (ih short token member)
        simp only [byteLength_append]
        omega

theorem ordered (h : Tile file before text tokens) (short : byteLength (before ++ text) < UInt32.size) :
    tokens.Pairwise fun token later => token.endByte ≤ later.firstByte := by
  induction h with
  | last isGap => exact List.pairwise_singleton _ _
  | @next before gap slice behind kind value tokens isGap filled inside spells stops rest ih =>
      rw [regroup_tile] at short
      refine List.pairwise_cons.2 ⟨fun later member => ?_, ih short⟩
      rw [(bytes_ofSlice file kind value short).2]
      exact rest.le_firstByte short later member

theorem gaps (h : Tile file before text tokens) (short : byteLength (before ++ text) < UInt32.size) :
    ∀ front token rest, tokens = front ++ token :: rest → ∃ lead gap behind,
      before ++ text = lead ++ gap ++ behind ∧
      byteLength lead = (front.getLast?.map endByte).getD (byteLength before) ∧
      byteLength (lead ++ gap) = token.firstByte ∧ IsGap gap behind := by
  induction h with
  | @last before gap isGap =>
      intro front token rest same
      cases front with
      | nil =>
          cases same
          exact ⟨before, gap, [], by simp, rfl, (offset_ofByte short).symm, isGap⟩
      | cons first front => simp at same
  | @next before gap slice behind kind value tokens isGap filled inside spells stops rest ih =>
      rw [regroup_tile] at short ⊢
      intro front token rest same
      obtain ⟨first, last⟩ := bytes_ofSlice file kind value short
      cases front with
      | nil =>
          cases same
          exact ⟨before, gap, slice ++ behind, by simp, rfl, first.symm, isGap⟩
      | cons other front =>
          cases same
          obtain ⟨lead, gap, behind, whole, reached, start, isGap⟩ := ih short front token _ rfl
          refine ⟨lead, gap, behind, whole, reached.trans ?_, start, isGap⟩
          rw [List.getLast?_cons, ← last]
          cases front.getLast? <;> rfl

/-- Tokens that are laid out tile by tile from the start of a source cover it. -/
theorem cover {source : List Char} (h : Tile file [] source tokens)
    (short : byteLength source < UInt32.size) : Cover source tokens := by
  obtain ⟨front, same, inside⟩ := h.closed
  refine ⟨⟨front, _, same, rfl, offset_ofByte short, offset_ofByte short, inside⟩,
    h.ordered short, h.slices short, h.gaps short⟩

end Tile

end Covering

section Failing

variable {file : String} {text : List Char} {byte inside : Nat} {error : Error}

/-- Where splitting a text fails, the text before that place can be split. -/
theorem exists_scanFrom_of_error (h : scanFrom file byte inside text = .error error) :
    ∃ front back tokens, text = front ++ back ∧ inside ≤ front.length ∧
      error.position = .ofByte file (byte + byteLength front) ∧
      scanFrom file byte inside front = .ok tokens := by
  induction text generalizing byte inside with
  | nil => cases h
  | cons c rest ih =>
      cases inside with
      | succ inside =>
          obtain ⟨front, back, tokens, rfl, long, place, scanned⟩ := ih h
          refine ⟨c :: front, back, tokens, rfl, Nat.succ_le_succ long, ?_, scanned⟩
          rw [place, byteLength_cons, Nat.add_assoc]
      | zero =>
          cases read : Lexeme.read c rest with
          | error cause =>
              simp only [scanFrom, read, Except.error.injEq] at h
              subst h
              exact ⟨[], c :: rest, _, rfl, Nat.le_refl 0, rfl, rfl⟩
          | ok lexeme =>
              have fails : scanFrom file (byte + c.utf8Size) (lexeme.slice.length - 1) rest =
                  .error error := by
                cases scanned : scanFrom file (byte + c.utf8Size) (lexeme.slice.length - 1) rest with
                | ok tokens => simp [scanFrom, read, scanned] at h
                | error other => simpa [scanFrom, read, scanned] using h
              obtain ⟨front, back, tokens, whole, long, place, scanned⟩ := ih fails
              obtain ⟨tail, behind, same, slice, -, again⟩ := Lexeme.read_munches read
              -- The text is cut off behind the lexeme, which is read before the cut as well.
              have tail_before : tail <+: rest := ⟨behind, same.symm⟩
              have cut : tail <+: front := by
                refine List.prefix_of_prefix_length_le tail_before ⟨back, whole.symm⟩ ?_
                rwa [slice, List.length_cons, Nat.add_sub_cancel] at long
              obtain ⟨more, rfl⟩ := cut
              have read' : Lexeme.read c (tail ++ more) = .ok lexeme := by
                have all : tail ++ behind = tail ++ (more ++ back) := by
                  rw [← same, whole, List.append_assoc]
                exact again more back (List.append_cancel_left all)
              refine ⟨c :: (tail ++ more), back, _, congrArg (c :: ·) whole, Nat.zero_le _, ?_,
                scanFrom_cons_of_ok read' scanned⟩
              rw [place, byteLength_cons, Nat.add_assoc]

end Failing

/-- A source text is split without loss into tokens of which none could be longer. If that fails at
some place, the text before the place can be split. -/
theorem scan_cover {source file : String} (short : byteLength source.toList < UInt32.size) :
    (∀ tokens, scan source file = .ok tokens → Cover source.toList tokens) ∧
    ∀ error, scan source file = .error error → ∃ front back,
      source.toList = front ++ back ∧ error.position.offset.toNat = byteLength front ∧
        ∃ tokens, scan (String.ofList front) file = .ok tokens := by
  refine ⟨fun tokens h => ?_, fun error h => ?_⟩
  · have tile : Tile file [] source.toList tokens := tile_of_scanFrom h
    exact tile.cover short
  · obtain ⟨front, back, tokens, whole, -, place, scanned⟩ := exists_scanFrom_of_error h
    rw [whole, byteLength_append] at short
    refine ⟨front, back, whole, ?_, tokens, ?_⟩
    · rw [place, Nat.zero_add]
      exact offset_ofByte (by omega)
    · rwa [scan, String.toList_ofList]

/-- A comment with a quote and dots in it is no token. A text with an open quote can be split up to
that quote. -/
theorem scan_cover_quotes :
    byteLength "a = 1.5 # it's\r\nb ...<".toList < UInt32.size ∧
    (∃ tokens, scan "a = 1.5 # it's\r\nb ...<" "quotes" = .ok tokens ∧
      Cover "a = 1.5 # it's\r\nb ...<".toList tokens) ∧
    byteLength "é == 'open".toList < UInt32.size ∧
    ∃ error, scan "é == 'open" "quotes" = .error error ∧ ∃ front back,
      "é == 'open".toList = front ++ back ∧ error.position.offset.toNat = byteLength front ∧
        ∃ tokens, scan (String.ofList front) "quotes" = .ok tokens := by
  have short : byteLength "a = 1.5 # it's\r\nb ...<".toList < UInt32.size := by decide +kernel
  have short' : byteLength "é == 'open".toList < UInt32.size := by decide +kernel
  have scans : (scan "a = 1.5 # it's\r\nb ...<" "quotes").isOk = true := by decide +kernel
  have fails : (scan "é == 'open" "quotes").isOk = false := by decide +kernel
  obtain ⟨tokens, scanned⟩ := exists_ok_of_isOk scans
  cases failed : scan "é == 'open" "quotes" with
  | ok tokens =>
      rw [failed] at fails
      cases fails
  | error error =>
      exact ⟨short, ⟨tokens, scanned, (scan_cover short).1 tokens scanned⟩, short', error, rfl,
        (scan_cover short').2 error failed⟩

end Token

end Offside
