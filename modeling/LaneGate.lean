import LaneGate.Answer.Confidence
import LaneGate.Answer.Lane
import LaneGate.Answer.Model
import LaneGate.Answer.Prompt
import LaneGate.Answer.Runtime
import LaneGate.Answer.Service
import LaneGate.Api.Body
import LaneGate.Api.Control
import LaneGate.Api.Fields
import LaneGate.Api.Message
import LaneGate.Api.Route
import LaneGate.Api.Signature
import LaneGate.Backend.Model
import LaneGate.Breaker.Config
import LaneGate.Breaker.Machine
import LaneGate.Breaker.Registry
import LaneGate.Call.Backoff
import LaneGate.Call.Retry
import LaneGate.Call.Timer
import LaneGate.Clock
import LaneGate.Clock.Reading
import LaneGate.Config.Schema
import LaneGate.Config.Settings
import LaneGate.Config.Sources
import LaneGate.Crypto.Sha256
import LaneGate.Decimal.Binary
import LaneGate.Decimal.Format
import LaneGate.Decimal.Log
import LaneGate.Decimal.Parse
import LaneGate.Decimal.Power
import LaneGate.Decimal.Read
import LaneGate.Decimal.Remainder
import LaneGate.Decimal.Shortest
import LaneGate.Fault
import LaneGate.Grounding.Relevance
import LaneGate.Grounding.Runbooks
import LaneGate.Json.Key
import LaneGate.Json.Order
import LaneGate.Json.Primitive
import LaneGate.Json.Reader
import LaneGate.Json.Record
import LaneGate.Json.Shown
import LaneGate.Json.Value
import LaneGate.Json.Writer
import LaneGate.Redact
import LaneGate.Routing.Balance
import LaneGate.Routing.Cost
import LaneGate.Routing.Provider
import LaneGate.Routing.Router
import LaneGate.Routing.Strategy
import LaneGate.Script.Backends
import LaneGate.Script.Breakers
import LaneGate.Script.Calls
import LaneGate.Script.Decode
import LaneGate.Script.Encode
import LaneGate.Script.Http
import LaneGate.Script.Pure
import LaneGate.Script.Respond
import LaneGate.Script.Routing
import LaneGate.Script.Runtime
import LaneGate.Script.Service
import LaneGate.Script.Settings
import LaneGate.Script.Store
import LaneGate.Setting
import LaneGate.Sorting
import LaneGate.Store.Cell
import LaneGate.Store.Tables
import LaneGate.Store.Telemetry
import LaneGate.Text.Blank
import LaneGate.Text.Case
import LaneGate.Text.Collate
import LaneGate.Text.Units
import LaneGate.Wire.Answer
import LaneGate.Wire.Breaker
import LaneGate.Wire.Control
import LaneGate.Wire.Routing
import LaneGate.Proofs.Breaker.Steps
import LaneGate.Proofs.Breaker.Sequential
import LaneGate.Proofs.Breaker.Interleaved
import LaneGate.Proofs.Sorting.Permutation
import LaneGate.Proofs.Routing.Candidates
import LaneGate.Proofs.Routing.Route
import LaneGate.Proofs.Clock.Calendar
import LaneGate.Proofs.Routing.Ledger
import LaneGate.Proofs.Routing.Feedback
import LaneGate.Proofs.Answer.Reports
import LaneGate.Proofs.Call.Retries
import LaneGate.Proofs.Answer.Attempts
import LaneGate.Proofs.Answer.Ask
import LaneGate.Proofs.Breaker.Effects
import LaneGate.Proofs.Breaker.Events
import LaneGate.Proofs.Api.Refusals
import LaneGate.Proofs.Decimal.Order
import LaneGate.Proofs.Decimal.Signs
import LaneGate.Proofs.Sorting.Merge
import LaneGate.Proofs.Sorting.Search
import LaneGate.Proofs.Sorting.MergeFront
import LaneGate.Proofs.Sorting.MergeBack
import LaneGate.Proofs.Sorting.Runs
import LaneGate.Proofs.Sorting.Stable
import LaneGate.Proofs.Routing.Strategies
import LaneGate.Proofs.Call.Schedule
import LaneGate.Proofs.Redact.Patterns
import LaneGate.Proofs.Redact.Passes
import LaneGate.Proofs.Redact.Clean
import LaneGate.Proofs.Redact.Secrets
import LaneGate.Proofs.Redact.Scrub
import LaneGate.Proofs.Call.Watch
import LaneGate.Proofs.Breaker.Registry
import LaneGate.Proofs.Answer.Startup
import LaneGate.Proofs.Decimal.Scaled
import LaneGate.Proofs.Decimal.Shortest
import LaneGate.Proofs.Decimal.Nearest
import LaneGate.Proofs.Json.Strings
import LaneGate.Proofs.Json.Numbers
import LaneGate.Proofs.Json.Roundtrip
import LaneGate.Proofs.Json.KeyOrder
import LaneGate.Proofs.Api.Signed
import LaneGate.Proofs.Config.Merge
import LaneGate.Proofs.Decimal.Whole
import LaneGate.Proofs.Routing.Turns
import LaneGate.Proofs.Answer.Budget
import LaneGate.Proofs.Clock.Iso
import LaneGate.Proofs.Routing.Summary
import LaneGate.Proofs.Text.Words
import LaneGate.Proofs.Answer.Preview
import LaneGate.Proofs.Backend.Outcomes
import LaneGate.Proofs.Decimal.Integers
import LaneGate.Proofs.Store.Newest
import LaneGate.Proofs.Store.Retention
import LaneGate.Proofs.Routing.Picks
import LaneGate.Proofs.Routing.Tracking
import LaneGate.Proofs.Decimal.Rounding
import LaneGate.Proofs.Decimal.Logarithm
import LaneGate.Proofs.Decimal.Floor
import LaneGate.Proofs.Grounding.Retrieval
