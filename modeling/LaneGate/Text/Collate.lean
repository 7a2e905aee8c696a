/-!
# Ordering keys as people read them

Object keys are put in a reader's order, the default collation of Unicode text,
rather than by code unit. Two texts are compared in two passes:

1. by their base weights: controls are ignored; white space comes first, then
   punctuation and symbols (in the order `_ - , ; : ! ? . ' " ( ) [ ] { } @ * / \ & # %`,
   then a backquote, `^ + < = > | ~ $`), then digits, then letters with case ignored
   (`a` and `A` weigh the same), then every other character by code point;
2. when the base weights are equal, by case: a lowercase letter before its capital.

Texts equal in both passes compare equal, and a stable sort keeps their order.
-/

namespace LaneGate.Collate

/-- White space, punctuation, symbols and digits of ASCII in collation order. -/
def symbolOrder : List Char :=
  ['\t', '\n', '\x0b', '\x0c', '\r', ' ', '_', '-', ',', ';', ':', '!', '?', '.', '\x27', '\x22',
   '(', ')', '[', ']', '\x7b', '\x7d', '@', '*', '/', '\x5c', '&', '#', '%', '\x60', '^', '+', '<',
   '=', '>', '|', '~', '$', '0', '1', '2', '3', '4', '5', '6', '7', '8', '9']

/-- The base weight of a character, none for an ignored control. -/
def baseWeight (c : Char) : Option Nat :=
  match symbolOrder.idxOf? c with
  | some i => some i
  | none =>
    if 'a' ≤ c ∧ c ≤ 'z' then some (100 + (c.toNat - 'a'.toNat))
    else if 'A' ≤ c ∧ c ≤ 'Z' then some (100 + (c.toNat - 'A'.toNat))
    else if c.toNat < 0x80 then none
    else some (1000 + c.toNat)

/-- The case weight of a character: capitals after everything else. -/
def caseWeight (c : Char) : Nat := if 'A' ≤ c ∧ c ≤ 'Z' then 1 else 0

/-- Lexicographic comparison of weight lists; a proper prefix comes first. -/
def compareWeights : List Nat → List Nat → Ordering
  | [], [] => .eq
  | [], _ :: _ => .lt
  | _ :: _, [] => .gt
  | x :: xs, y :: ys => if x < y then .lt else if y < x then .gt else compareWeights xs ys

/-- The collation order of two texts. -/
def compare (a b : String) : Ordering :=
  let kept (s : String) := s.toList.filter fun c => (baseWeight c).isSome
  match compareWeights ((kept a).filterMap baseWeight) ((kept b).filterMap baseWeight) with
  | .eq => compareWeights ((kept a).map caseWeight) ((kept b).map caseWeight)
  | o => o

/-- Inserts an item after every item that does not come after it. -/
def insertBy {α : Type} (key : α → String) (x : α) : List α → List α
  | [] => [x]
  | y :: ys => if compare (key x) (key y) == .lt then x :: y :: ys else y :: insertBy key x ys

/-- A stable sort in collation order of a key. -/
def sortBy {α : Type} (key : α → String) (xs : List α) : List α :=
  xs.foldl (fun acc x => insertBy key x acc) []

end LaneGate.Collate
