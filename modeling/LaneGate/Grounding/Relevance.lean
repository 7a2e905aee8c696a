import LaneGate.Decimal.Log
import LaneGate.Text.Case
import LaneGate.Text.Blank
import LaneGate.Sorting
/-!
# Keyword relevance

A text's keywords are the runs of ASCII letters, digits, `_` and `-` of its lowered
form that are at least two characters long. A snippet's relevance to a query is
the sum, over the query's keywords (repeats counted), of
`tf / √length · ln((N + 1) / (df + 0.5))`: `tf` is how often the keyword occurs in
the snippet, `length` the snippet's number of keywords (at least 1), `N` the number
of snippets considered (at least 1) and `df` in how many of them the keyword occurs.
Snippets of relevance 0 are dropped; the rest are ordered best first, equal ones in
their given order.
-/

namespace LaneGate.Relevance

/-- Whether a character can be part of a keyword. -/
def isWordChar (c : Char) : Bool :=
  c.isAlphanum || c == '_' || c == '-'

/-- The maximal runs of word characters, in order. -/
def runs (cs : List Char) : List (List Char) :=
  ((Text.splitWhere (fun c => !isWordChar c) cs).filter (!·.isEmpty))

/-- The keywords of a text. -/
def keywords (text : String) : List String :=
  ((runs (Text.lower text).toList).filter (·.length ≥ 2)).map String.ofList

/-- How often a keyword occurs in a list. -/
def countOf (w : String) (ws : List String) : Nat := ws.count w

/-- A snippet as keywords: its id, its keywords in order. -/
structure Doc (α : Type) where
  /-- The snippet's id. -/
  id : α
  /-- Its keywords, in order. -/
  words : List String

/-- The number of keywords of a snippet, at least 1. -/
def Doc.length {α : Type} (d : Doc α) : Nat := max d.words.length 1

/-- In how many snippets a keyword occurs. -/
def docFrequency {α : Type} (docs : List (Doc α)) (w : String) : Nat :=
  (docs.filter (fun d => d.words.contains w)).length

/-- The weight of a keyword: `ln((N + 1) / (df + 0.5))`. -/
def inverseFrequency {α : Type} (docs : List (Doc α)) (w : String) : Float :=
  let total := max docs.length 1
  Decimal.naturalLog ((total + 1).toFloat / ((docFrequency docs w).toFloat + 0.5))

/-- The relevance of one snippet to the query keywords, summed in query order. -/
def score {α : Type} (docs : List (Doc α)) (query : List String) (d : Doc α) : Float :=
  query.foldl
    (fun acc w =>
      let tf := countOf w d.words
      if tf > 0 then acc + tf.toFloat / (d.length.toFloat).sqrt * inverseFrequency docs w
      else acc)
    0

/-- The snippets of positive relevance with their scores, best first. -/
def rank {α : Type} (query : List String) (snippets : List (α × String)) : List (α × Float) :=
  if query.isEmpty then []
  else
    let docs := snippets.map fun (id, content) => (⟨id, keywords content⟩ : Doc α)
    let scored := docs.map fun d => (d.id, score docs query d)
    Sorting.sort (fun a b => b.2 - a.2) (scored.filter (·.2 > 0))

end LaneGate.Relevance
