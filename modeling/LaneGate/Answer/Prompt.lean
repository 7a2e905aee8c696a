import LaneGate.Text.Units
import LaneGate.Text.Blank
import LaneGate.Json.Shown
/-!
# Prompts

The prompts sent to a model.

* A grounded prompt has a head (the system instruction, the trimmed question, and
  a heading that says whether snippets follow) and a tail (each snippet under its
  citation mark, then the answer instructions), all parts joined by line feeds.
  Over the budget the head is kept whole and the tail is cut to the budget less
  the head and a margin of 20 units.
* A cloud prompt is a fixed instruction and the trimmed question.
* A preview of a snippet is its words joined by single spaces, cut to a limit and
  then ending in `…` (the cut keeps one unit less than the limit).

A snippet's id and source are values the prompt only shows (`Json.shown`) in its
citation mark and hands back in its citation: stored passages have a number and a
text there, but any value is carried through unchanged.
-/

namespace LaneGate.Prompt

/-- The system instruction of a grounded prompt. -/
def systemInstruction : String :=
  "You are an incident/runbook assistant. Use ONLY the provided runbook snippets when possible. " ++
  "If the runbooks do not contain enough information, say you are not confident. " ++
  "Do not invent commands, credentials, or unsafe actions. " ++
  "Prefer step-by-step, operationally safe guidance with verification steps."

/-- The closing instructions of a grounded prompt. -/
def answerInstructions : String :=
  "INSTRUCTIONS:\n- Answer using the snippets, cite chunk ids like [chunk:123].\n" ++
  "- If not enough info, say you cannot answer confidently and summarize the closest snippets.\n"

/-- The default budget of a grounded prompt, in units. -/
def defaultMaxChars : Float := 6500

/-- The default length of a preview, in units. -/
def defaultPreviewLimit : Float := 160

/-- The margin kept free when the tail of a prompt is cut. -/
def cutMargin : Float := 20

/-- A retrieved runbook snippet. -/
structure Snippet where
  /-- The snippet's id. -/
  id : Json
  /-- The runbook it comes from. -/
  source : Json
  /-- Its text. -/
  content : String

/-- A reference to a snippet that an answer may cite. -/
structure Citation where
  /-- The snippet's id. -/
  chunkId : Json
  /-- The runbook it comes from. -/
  source : Json
  /-- A short preview of its text. -/
  preview : Text

/-- A grounded prompt and the citations it offers. -/
structure Grounded where
  /-- The prompt text. -/
  prompt : Text
  /-- The snippets offered for citation, in order. -/
  citations : List Citation

/-- The size of a grounded prompt, in units. -/
def Grounded.charEstimate (g : Grounded) : Nat := g.prompt.length

/-- The words of a text joined by single spaces, cut to `limit` units with `…`. -/
def preview (text : String) (limit : Float := defaultPreviewLimit) : Text :=
  let collapsed := " ".intercalate (Text.words text)
  if (Text.lengthOf collapsed).toFloat ≤ limit then Text.ofString collapsed
  else (Text.ofString collapsed).cutAtNumber (limit - 1) ++ Text.ofString "…"

/-- The citation mark of a snippet. -/
def mark (id source : Json) : String :=
  "[chunk:" ++ Json.shown id ++ " source:" ++ Json.shown source ++ "]"

/-- The head of a grounded prompt. -/
def head (question : String) (hasSnippets : Bool) : List String :=
  [ "SYSTEM:\n" ++ systemInstruction ++ "\n",
    "QUESTION:\n" ++ Text.trim question ++ "\n",
    if hasSnippets then "RUNBOOK SNIPPETS (with citations):\n"
    else "RUNBOOK SNIPPETS: (none available)\n" ]

/-- The tail of a grounded prompt. -/
def tail (snippets : List Snippet) : List String :=
  snippets.map (fun s => mark s.id s.source ++ "\n" ++ Text.trim s.content ++ "\n") ++
    [answerInstructions]

/-- The grounded prompt of a question and its snippets, within a budget. -/
def build (maxChars : Float) (question : String) (snippets : List Snippet) : Grounded :=
  let citations := snippets.map fun s => ⟨s.id, s.source, preview s.content⟩
  let h := head question !snippets.isEmpty
  let t := tail snippets
  let whole := "\n".intercalate (h ++ t)
  if (Text.lengthOf whole).toFloat > maxChars then
    let headText := "\n".intercalate h
    let budget := max (maxChars - (Text.lengthOf headText).toFloat - cutMargin) 0
    ⟨Text.ofString (headText ++ "\n") ++ (Text.ofString ("\n".intercalate t)).cutAtNumber budget,
      citations⟩
  else ⟨Text.ofString whole, citations⟩

/-- The prompt of the cloud lane. -/
def cloud (question : String) : String :=
  "You are an incident assistant. Provide a safe, operational answer. If unsure, say so.\n\n" ++
  "QUESTION:\n" ++ Text.trim question ++ "\n"

/-- The first lines of the answer given when no model answer can be trusted. -/
def fallbackHeader : String :=
  "I can't confidently answer based on the runbook evidence.\n\nMost relevant runbook snippets:\n"

/-- The answer given when no model answer can be trusted: the header, then one line
per citation with its mark and preview. -/
def fallbackAnswer (citations : List Citation) : Text :=
  citations.foldl
    (fun acc c => acc ++ Text.ofString ("- " ++ mark c.chunkId c.source ++ " ") ++ c.preview ++
      Text.ofString "\n")
    (Text.ofString fallbackHeader)

end LaneGate.Prompt
