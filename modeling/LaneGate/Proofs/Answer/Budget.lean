import LaneGate.Answer.Prompt
import LaneGate.Proofs.Decimal.Whole
/-!
# The budget of a grounded prompt

A grounded prompt is its head, a line feed and its tail. When the whole prompt is
longer than the budget, the head is kept whole and the tail is cut to the budget
less the head and a margin of 20 units, never below nothing.

The budget is a double. For a budget of any whole value (`Integral`: a finite double
with no fraction, of any size and either sign) and a prompt shorter than `2^53`
units (longer than any string can be), every comparison and difference on the way is
exact, so the prompt is the one `budgeted` describes in integers
(`build_prompt_eq_budgeted`). From that it starts with the whole head, and it fits in
the budget unless the head alone does not (`prompt_keeps_head_within_budget`).
-/

namespace LaneGate

open Decimal

namespace Text

theorem widthsOf_append (a b : List Char) : widthsOf (a ++ b) = widthsOf a + widthsOf b := by
  induction a with
  | nil => simp [widthsOf]
  | cons c r ih => simp [widthsOf, ih, Nat.add_assoc]

theorem lengthOf_append (s t : String) : lengthOf (s ++ t) = lengthOf s + lengthOf t := by
  simp only [lengthOf, String.toList_append, widthsOf_append]

theorem ofString_append (s t : String) : ofString (s ++ t) = ofString s ++ ofString t := by
  simp only [ofString, String.toList_append, List.flatMap_append]
  rfl

theorem length_take (t : Text) (n : Nat) : (t.take n).length = min n t.length :=
  List.length_take

theorem take_of_length_le {t : Text} {n : Nat} (h : t.length ≤ n) : t.take n = t := by
  cases t
  exact congrArg Text.mk (List.take_of_length_le h)

theorem append_take_zero (a t : Text) : a ++ t.take 0 = a := by
  cases a
  exact congrArg Text.mk (List.append_nil _)

/-- Cutting at a double of whole value `n` keeps the first `n` units. -/
theorem cutAtNumber_whole {t : Text} {x : Float} {n : Nat} (hx : Whole x n)
    (ht : t.length < 2 ^ 53) : t.cutAtNumber x = t.take n := by
  have hL := Whole.toFloat ht
  unfold cutAtNumber
  by_cases hall : t.length ≤ n
  · rw [if_pos ((hL.le_iff hx).2 (by exact_mod_cast hall)), take_of_length_le hall]
  · -- a cut inside the text: the position is neither past the end nor before the start
    have hneg := hL.neg (by omega)
    rw [if_neg (fun h => hall (by exact_mod_cast (hL.le_iff hx).1 h)),
      if_neg (fun h => by have := (hx.le_iff hneg).1 h; omega)]
    have hpos : positionOf x = n := by
      unfold positionOf
      rw [if_neg (by rw [hx.isNaN]; exact Bool.false_ne_true),
        if_neg (fun h => by have := (hx.lt_iff Whole.zero).1 h; omega), hx.toUInt64]
    rw [hpos, cut, if_neg (by omega)]
    rfl

end Text

namespace Prompt

/-- The head of a grounded prompt as one text. -/
def headText (question : String) (hasSnippets : Bool) : String :=
  "\n".intercalate (head question hasSnippets)

/-- The tail of a grounded prompt as one text. -/
def tailText (snippets : List Snippet) : String := "\n".intercalate (tail snippets)

/-- The prompt a budget of `z` units allows: all of it when it fits, and otherwise the
head, a line feed, and as much of the tail as the budget less the head and the margin
of 20 leaves, none when that is below zero. -/
def budgeted (z : Int) (headText tailText : String) : Text :=
  if (Text.lengthOf (headText ++ "\n" ++ tailText) : Int) ≤ z then
    Text.ofString (headText ++ "\n" ++ tailText)
  else
    Text.ofString (headText ++ "\n") ++
      (Text.ofString tailText).take (z - Text.lengthOf headText - 20).toNat

theorem budgeted_prefix (z : Int) (h t : String) :
    ∃ rest, budgeted z h t = Text.ofString (h ++ "\n") ++ rest := by
  unfold budgeted
  split
  · exact ⟨Text.ofString t, Text.ofString_append _ _⟩
  · exact ⟨_, rfl⟩

/-- A budgeted prompt fits, unless the budget does not exceed the head: then it is the
head and its line feed. -/
theorem length_budgeted (z : Int) (h t : String) :
    ((budgeted z h t).length : Int) ≤ z ∨
      (z ≤ Text.lengthOf h ∧ budgeted z h t = Text.ofString (h ++ "\n")) := by
  have hnl : Text.lengthOf "\n" = 1 := by decide
  unfold budgeted
  split
  · case isTrue hfit =>
    left
    rwa [Text.length_ofString]
  · case isFalse =>
    by_cases hz : z ≤ Text.lengthOf h
    · right
      refine ⟨hz, ?_⟩
      rw [Int.toNat_of_nonpos (by omega), Text.append_take_zero]
    · left
      rw [Text.length_append, Text.length_take, Text.length_ofString, Text.lengthOf_append, hnl]
      omega

theorem intercalate_head_tail (question : String) (hasSnippets : Bool) (snippets : List Snippet) :
    "\n".intercalate (head question hasSnippets ++ tail snippets) =
      headText question hasSnippets ++ "\n" ++ tailText snippets :=
  String.intercalate_append_of_ne_nil (by simp [head]) (by simp [tail])

theorem lengthOf_headText_pos (question : String) (hasSnippets : Bool) :
    0 < Text.lengthOf (headText question hasSnippets) := by
  have hsys : Text.lengthOf "SYSTEM:\n" = 8 := by decide
  simp only [headText, head, String.intercalate_cons_cons, Text.lengthOf_append, hsys]
  omega

theorem build_citations (maxChars : Float) (question : String) (snippets : List Snippet) :
    (build maxChars question snippets).citations =
      snippets.map fun s => ⟨s.id, s.source, preview s.content⟩ := by
  simp only [build]
  split <;> rfl

variable {maxChars : Float} {z : Int}

/-- What a budget of whole value `z` leaves for the tail after a head of `n` units and
the margin is a whole number: `z - n - 20`, or nothing when that is below zero. -/
theorem budget_whole {n : Nat} (hm : Integral maxChars z) (hz : z < 2 ^ 53) (hn : 0 < n)
    (hn' : n < 2 ^ 53) : Whole (max (maxChars - n.toFloat - cutMargin) 0) (z - n - 20).toNat := by
  have hN := Whole.toFloat hn'
  have hc : Whole cutMargin 20 := Whole.toFloat (n := 20) (by decide)
  by_cases hroom : (n : Int) ≤ z
  · -- the budget is a positive whole number too, and both differences are exact
    have hd := ((hm.whole (by omega) hz).sub hN (by omega)).sub hc (by omega)
    exact hd.max_zero
  · -- a budget below the head leaves a difference below zero, however far below
    have hlt : maxChars - n.toFloat < 0 :=
      (sub_lt_zero_iff hm.isNaN hN.isNaN).2 ((hm.lt_iff hN.integral).2 (by omega))
    have hneg : maxChars - n.toFloat - cutMargin < 0 :=
      (sub_lt_zero_iff (isNaN_eq_false_of_lt hlt) hc.isNaN).2 (lt_of_lt_zero hlt hc (by decide))
    rw [max_zero_of_lt hneg, Int.toNat_of_nonpos (by omega)]
    exact Whole.zero

/-- With a budget of whole value, the prompt is the one the integers describe. -/
theorem build_prompt_eq_budgeted (question : String) (snippets : List Snippet)
    (hm : Integral maxChars z)
    (hlen : Text.lengthOf (headText question (!snippets.isEmpty) ++ "\n" ++ tailText snippets) < 2 ^ 53) :
    (build maxChars question snippets).prompt =
      budgeted z (headText question (!snippets.isEmpty)) (tailText snippets) := by
  have hW := (Whole.toFloat hlen).integral
  have hnl : Text.lengthOf "\n" = 1 := by decide
  have hparts := hlen
  rw [Text.lengthOf_append, Text.lengthOf_append, hnl] at hparts
  simp only [build, budgeted, intercalate_head_tail]
  by_cases hfit : (Text.lengthOf (headText question (!snippets.isEmpty) ++ "\n" ++ tailText snippets) : Int) ≤ z
  · rw [if_neg (fun h => by have := (hm.lt_iff hW).1 h; omega), if_pos hfit]
  · rw [if_pos ((hm.lt_iff hW).2 (by omega)), if_neg hfit]
    have hz : z < 2 ^ 53 := by omega
    have hb := budget_whole hm hz (lengthOf_headText_pos question (!snippets.isEmpty)) (by omega)
    have ht : (Text.ofString (tailText snippets)).length < 2 ^ 53 := by
      rw [Text.length_ofString]
      omega
    exact congrArg (Text.ofString _ ++ ·) (Text.cutAtNumber_whole hb ht)

/-- Under a budget of any whole value, a grounded prompt keeps its head whole: it is the
head, a line feed and a prefix of the tail, all of the tail when the whole prompt fits
and otherwise as much as the budget less the head and the margin of 20 leaves. It fits
in the budget unless the budget does not exceed the head, and then it is the head and
its line feed. Each snippet gives one citation, in order, and the prompt's size is its
length. Prompts are taken shorter than `2^53` units, as every string is. -/
theorem prompt_keeps_head_within_budget (question : String) (snippets : List Snippet)
    (hm : Integral maxChars z)
    (hlen : Text.lengthOf (headText question (!snippets.isEmpty) ++ "\n" ++ tailText snippets) < 2 ^ 53) :
    (build maxChars question snippets).prompt =
        budgeted z (headText question (!snippets.isEmpty)) (tailText snippets) ∧
      (∃ rest, (build maxChars question snippets).prompt =
        Text.ofString (headText question (!snippets.isEmpty) ++ "\n") ++ rest) ∧
      (((build maxChars question snippets).prompt.length : Int) ≤ z ∨
        (z ≤ Text.lengthOf (headText question (!snippets.isEmpty)) ∧
          (build maxChars question snippets).prompt =
            Text.ofString (headText question (!snippets.isEmpty) ++ "\n"))) ∧
      (build maxChars question snippets).citations =
        snippets.map (fun s => ⟨s.id, s.source, preview s.content⟩) ∧
      (build maxChars question snippets).charEstimate =
        (build maxChars question snippets).prompt.length := by
  have hp := build_prompt_eq_budgeted question snippets hm hlen
  refine ⟨hp, ?_, ?_, build_citations maxChars question snippets, rfl⟩
  · rw [hp]
    exact budgeted_prefix z _ _
  · rw [hp]
    exact length_budgeted z _ _

/-- A question without snippets under a budget of 400 units, which is more than the
head and less than the whole prompt. -/
theorem prompt_of_disk_question_within_four_hundred :
    Integral (400 : Float) 400 ∧
      Text.lengthOf (headText "Disk full on db-1?" false ++ "\n" ++ tailText []) < 2 ^ 53 ∧
      ((build 400 "Disk full on db-1?" []).prompt =
          budgeted 400 (headText "Disk full on db-1?" false) (tailText []) ∧
        (∃ rest, (build 400 "Disk full on db-1?" []).prompt =
          Text.ofString (headText "Disk full on db-1?" false ++ "\n") ++ rest) ∧
        (((build 400 "Disk full on db-1?" []).prompt.length : Int) ≤ 400 ∨
          ((400 : Int) ≤ Text.lengthOf (headText "Disk full on db-1?" false) ∧
            (build 400 "Disk full on db-1?" []).prompt =
              Text.ofString (headText "Disk full on db-1?" false ++ "\n"))) ∧
        (build 400 "Disk full on db-1?" []).citations = [] ∧
        (build 400 "Disk full on db-1?" []).charEstimate =
          (build 400 "Disk full on db-1?" []).prompt.length) := by
  have hm : Integral (400 : Float) 400 := (Whole.toFloat (n := 400) (by decide)).integral
  -- measured literal by literal, since the cost of decoding a literal grows faster than its length
  have hlen : Text.lengthOf (headText "Disk full on db-1?" false ++ "\n" ++ tailText []) < 2 ^ 53 := by
    unfold headText tailText head tail systemInstruction answerInstructions
    simp only [List.map_nil, List.nil_append, String.intercalate_cons_cons, String.intercalate_singleton,
      Text.lengthOf_append]
    cbv
  exact ⟨hm, hlen, prompt_keeps_head_within_budget "Disk full on db-1?" [] hm hlen⟩

end Prompt

end LaneGate
