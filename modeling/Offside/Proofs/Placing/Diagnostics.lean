import Offside.Diagnostic
import Offside.Proofs.Placing.Faults

/-! # Diagnostics point into the source

Whatever is wrong with a source text, be it with its characters, with its grammar or with its types,
is blamed on a place of the text, so a diagnostic can show the line of it.
-/

namespace Offside

open Parse ParseState

section Places

variable {source file : String} {text : List Char} {error : Error} {position : Position}

/-- A token starts at a place of the text that it is in. -/
theorem Token.Tile.start_in {before text : List Char} {tokens : List Token}
    (h : Tile file before text tokens) :
    ∀ token ∈ tokens, token.span.start.In (before ++ text) file := by
  induction h with
  | @last before gap isGap =>
      rw [List.forall_mem_singleton]
      exact ⟨before ++ gap, [], by simp, rfl⟩
  | @next before gap slice behind kind value tokens isGap filled inside spells stops rest ih =>
      rw [regroup_tile]
      exact List.forall_mem_cons.2 ⟨⟨before ++ gap, slice ++ behind, by simp, rfl⟩, ih⟩

end Places

end Offside
