import LaneGate.Proofs.Text.Words
import LaneGate.Proofs.Answer.Budget
/-!
# Previews of snippets

A preview shows a snippet's words joined by single spaces (`collapsed`), all of them
when they fit in the limit, and otherwise the first `limit - 1` units of them and an
ellipsis (`clipped`).

The limit is a double. For a limit of any whole value `z ≥ 1` (`Integral`) and a text
shorter than `2^53` units (as every string is), the comparison and the cut the code
makes are the integers' (`preview_eq_clipped`). From there everything is read on units:
the collapsed text is the collapse of the text's units (`Text.ofString_intercalate_words`)
and is spaced, a cut of it followed by the ellipsis is spaced again, and a spaced text
collapses to itself. So a preview fits in its limit, has no blank at either end and no
two blanks in a row, and previewing it again gives it back
(`preview_collapses_within_limit`), also when the cut falls between the two halves of a
surrogate pair: the half left behind is carried through the string unchanged
(`Text.ofString_toString`).
-/

namespace LaneGate

open Decimal

namespace Prompt

/-- The words of a text joined by single spaces: what a preview shows before any cut. -/
def collapsed (text : String) : String := " ".intercalate (Text.words text)

/-- The preview a limit of `z` units allows, read in integers: the whole text when it
fits, and otherwise its first `z - 1` units followed by an ellipsis. -/
def clipped (z : Int) (c : String) : Text :=
  if (Text.lengthOf c : Int) ≤ z then Text.ofString c
  else (Text.ofString c).take (z - 1).toNat ++ Text.ofString "…"

theorem units_collapsed (text : String) :
    (Text.ofString (collapsed text)).units = Text.collapse (Text.ofString text).units :=
  Text.ofString_intercalate_words text

theorem lengthOf_collapsed_le (text : String) :
    Text.lengthOf (collapsed text) ≤ Text.lengthOf text := by
  rw [← Text.length_ofString, ← Text.length_ofString, Text.length, units_collapsed]
  exact Text.length_collapse_le _

theorem units_ellipsis : (Text.ofString "…").units = [0x2026] := by decide

variable {limit : Float} {z : Int}

/-- With a limit of whole value `z ≥ 1`, the preview is the one the integers describe. -/
theorem preview_eq_clipped (text : String) (hz : Integral limit z) (hpos : 1 ≤ z)
    (hlen : Text.lengthOf text < 2 ^ 53) :
    preview text limit = clipped z (collapsed text) := by
  have hL : Text.lengthOf (collapsed text) < 2 ^ 53 := (lengthOf_collapsed_le text).trans_lt hlen
  have hW := (Whole.toFloat hL).integral
  show (if (Text.lengthOf (collapsed text)).toFloat ≤ limit then Text.ofString (collapsed text)
      else (Text.ofString (collapsed text)).cutAtNumber (limit - 1) ++ Text.ofString "…") = _
  unfold clipped
  by_cases hfit : (Text.lengthOf (collapsed text) : Int) ≤ z
  · rw [if_pos ((hW.le_iff hz).2 hfit), if_pos hfit]
  · rw [if_neg (fun h => hfit ((hW.le_iff hz).1 h)), if_neg hfit]
    -- cut: the limit is below the text's length, so below `2^53`, and `limit - 1` is whole
    have hcut : Whole (limit - 1) ((z - 1).toNat : Int) := by
      rw [Int.toNat_of_nonneg (by omega)]
      exact (hz.whole (by omega) (by omega)).sub Whole.one (by omega)
    have ht : (Text.ofString (collapsed text)).length < 2 ^ 53 := by
      rwa [Text.length_ofString]
    rw [Text.cutAtNumber_whole hcut ht]

theorem spaced_clipped (text : String) (z : Int) :
    Text.Spaced (clipped z (collapsed text)).units := by
  unfold clipped
  split
  · rw [units_collapsed]
    exact Text.spaced_collapse _
  · rw [Text.units_append, units_ellipsis]
    show Text.Spaced ((Text.ofString (collapsed text)).units.take _ ++ _)
    rw [units_collapsed]
    exact Text.Spaced.take_append (by decide) (Text.spaced_collapse _) _

theorem length_clipped_le (c : String) (hpos : 1 ≤ z) : ((clipped z c).length : Int) ≤ z := by
  unfold clipped
  split
  · rwa [Text.length_ofString]
  · rw [Text.length_append, Text.length_take, Text.length_ofString, Text.length, units_ellipsis]
    simp only [List.length_singleton]
    omega

theorem length_clipped_le_lengthOf (c : String) (hpos : 1 ≤ z) :
    (clipped z c).length ≤ Text.lengthOf c := by
  unfold clipped
  split
  · rw [Text.length_ofString]
  · rw [Text.length_append, Text.length_take, Text.length_ofString, Text.length, units_ellipsis]
    simp only [List.length_singleton]
    omega

/-- A spaced text collapses to itself, so its preview under a limit it fits is itself. -/
theorem clipped_of_spaced {t : Text} (ht : Text.Spaced t.units) (hfit : (t.length : Int) ≤ z) :
    clipped z (collapsed t.toString) = t := by
  have hunits : (Text.ofString (collapsed t.toString)).units = t.units := by
    rw [units_collapsed, Text.ofString_toString, Text.collapse_of_spaced ht]
  have hlen : Text.lengthOf (collapsed t.toString) = t.length := by
    rw [← Text.length_ofString, Text.length, hunits, Text.length]
  unfold clipped
  rw [if_pos (by rw [hlen]; exact hfit)]
  exact Text.eq_of_units_eq hunits

/-- Under a limit of any whole value `z ≥ 1`, a preview is the text's words joined by
single spaces when that fits, and otherwise the first `z - 1` units of it followed by an
ellipsis. It is at most `z` units long, has no blank at either end and no two blanks in a
row, and previewing it again under the same limit gives it back. Texts are taken shorter
than `2^53` units, as every string is. -/
theorem preview_collapses_within_limit (text : String) (hz : Integral limit z) (hpos : 1 ≤ z)
    (hlen : Text.lengthOf text < 2 ^ 53) :
    preview text limit = clipped z (collapsed text) ∧
      ((preview text limit).length : Int) ≤ z ∧
      (∀ u ∈ (preview text limit).units.head?, Text.isBlankUnit u = false) ∧
      (∀ u ∈ (preview text limit).units.getLast?, Text.isBlankUnit u = false) ∧
      (preview text limit).units.IsChain
        (fun a b => Text.isBlankUnit a = false ∨ Text.isBlankUnit b = false) ∧
      preview (preview text limit).toString limit = preview text limit := by
  have hp := preview_eq_clipped text hz hpos hlen
  have hspaced := spaced_clipped text z
  have hfit := length_clipped_le (collapsed text) hpos
  rw [← hp] at hspaced hfit
  refine ⟨hp, hfit, hspaced.head, hspaced.getLast, hspaced.isChain, ?_⟩
  have hshort : Text.lengthOf (preview text limit).toString < 2 ^ 53 := by
    rw [← Text.length_ofString, Text.ofString_toString, hp]
    exact ((length_clipped_le_lengthOf _ hpos).trans (lengthOf_collapsed_le text)).trans_lt hlen
  rw [preview_eq_clipped _ hz hpos hshort]
  exact clipped_of_spaced hspaced hfit

/-- A snippet whose words do not fit in a limit of 10 units is cut to nine units and an
ellipsis. -/
theorem preview_of_spread_words_within_ten :
    Integral (10 : Float) 10 ∧ (1 : Int) ≤ 10 ∧
      Text.lengthOf "  restart\n\n nginx\tthen   check " < 2 ^ 53 ∧
      (preview "  restart\n\n nginx\tthen   check " 10 =
          clipped 10 (collapsed "  restart\n\n nginx\tthen   check ") ∧
        ((preview "  restart\n\n nginx\tthen   check " 10).length : Int) ≤ 10 ∧
        (∀ u ∈ (preview "  restart\n\n nginx\tthen   check " 10).units.head?,
          Text.isBlankUnit u = false) ∧
        (∀ u ∈ (preview "  restart\n\n nginx\tthen   check " 10).units.getLast?,
          Text.isBlankUnit u = false) ∧
        (preview "  restart\n\n nginx\tthen   check " 10).units.IsChain
          (fun a b => Text.isBlankUnit a = false ∨ Text.isBlankUnit b = false) ∧
        preview (preview "  restart\n\n nginx\tthen   check " 10).toString 10 =
          preview "  restart\n\n nginx\tthen   check " 10) := by
  have hz : Integral (10 : Float) 10 := (Whole.toFloat (n := 10) (by decide)).integral
  have hlen : Text.lengthOf "  restart\n\n nginx\tthen   check " < 2 ^ 53 := by decide
  exact ⟨hz, by decide, hlen, preview_collapses_within_limit _ hz (by decide) hlen⟩

end Prompt

end LaneGate
