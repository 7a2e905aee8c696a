import LaneGate.Store.Tables
import LaneGate.Grounding.Relevance
import LaneGate.Text.Blank
/-!
# Runbooks

Runbooks are stored as passages. Ingesting a runbook trims its source name and its
passages, drops blank passages, and stores the rest in order; a blank source, or no
passage left, is refused with a hint-free validation error.

Retrieval scores the most recent passages (400 by default) against the keywords of
the question and returns the best `topK` of those that score, best first; a scan
limit the store refuses as a row count fails the retrieval.
-/

namespace LaneGate.Runbooks

open Store

/-- How many recent passages retrieval looks at by default. -/
def defaultScanLimit : Float := 400

/-- Stores the passages of a runbook, returning their ids in order. -/
def ingest (t : Tables) (source : String) (contents : List String) (createdAt : String) :
    Except Fault (List Nat × Tables) :=
  let source := Text.trim source
  if source.isEmpty then .error (.inputValidation "Runbook source must not be empty." [])
  else
    let passages := (contents.map Text.trim).filter (!·.isEmpty)
    if passages.isEmpty then
      .error (.inputValidation "At least one non-empty runbook chunk is required." [])
    else
      .ok (passages.foldl
        (fun (acc : List Nat × Tables) p =>
          let (id, t) := acc.2.insertChunk source p createdAt
          (acc.1 ++ [id], t))
        ([], t))

/-- The passages with the given ids, in the order of the ids (unknown ids skipped,
repeated ids repeated). The store is asked with the values the ids were handed over
as (`bound`); only an id that is a number (`ids`, none for any other) then finds its
passage among those returned: a text that the store would read as one does not. -/
def byIds (t : Tables) (bound : List Cell) (ids : List (Option Float)) : List ChunkRow :=
  let found := t.chunksByIds bound
  ids.filterMap fun
    | some x => found.find? (·.id.toFloat == x)
    | none => none

/-- How many items a count asks for: its integer part, not below zero (a count past
every list is as good as all). -/
def countOf (n : Float) : Nat :=
  if n.isNaN || n ≤ 0 then 0 else n.toUInt64.toNat

/-- The best `topK` of the most recent `scanLimit` passages for a question, with
their scores, best first. -/
def retrieve (t : Tables) (scanLimit : Float) (question : String) (topK : Float) :
    Except Fault (List (ChunkRow × Float)) := do
  let candidates ← t.recentChunks scanLimit
  let scored := Relevance.rank (Relevance.keywords (Text.trim question))
    (candidates.map fun c => (c, c.content))
  pure (scored.take (countOf topK))

end LaneGate.Runbooks
