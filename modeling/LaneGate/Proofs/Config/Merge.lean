import LaneGate.Script.Settings
import LaneGate.Proofs.Json.Roundtrip
/-!
# Settings files merged with their defaults

`Settings.merge` turns whatever value a settings file holds into settings: each of the
24 settings is found under its section and key (`Field`, listed in `fields` in the order
the settings are written), and it is taken when it has the setting's kind (`Kind.takes`):
a text, a finite number, a boolean, one of the two on-device modes, or a finite deadline.
Anything else, a missing section, a section or a whole file that is not an object
included, gives the default's value.

Main statements:

* `at?_merge`: every setting is the file's value at its place when its kind takes it,
  and the default's otherwise;
* `merge_wellTyped`: merged settings are well typed (`Settings.WellTyped`): finite
  numbers, an unset or finite deadline, and texts that are strings of UTF-16 texts;
* `merge_settingsJson`: well-typed settings, written as a value, merge back to
  themselves, so merging is a retraction onto the well-typed settings and merging twice
  changes nothing (`merge_merge`);
* `parse_render_settingsJson`: well-typed settings written as JSON text and read back
  merge to themselves, every negative zero read as zero.

The deadline is the one setting whose default, `null`, is not a value of its kind: it is
kept apart from the numbers, which all fall back to finite defaults.
-/

namespace LaneGate.Config

open Json Script

/-! ## The settings of a file -/

/-- The kind of a setting: what a value found for it must be to be taken. -/
inductive Kind where
  /-- A text. -/
  | text
  /-- A finite number. -/
  | number
  /-- A boolean. -/
  | flag
  /-- `ollama` or `stub`. -/
  | mode
  /-- A finite number; unset (`null`) by default. -/
  | deadline
  deriving DecidableEq

/-- Whether a value found in the file is taken for a setting of a kind. -/
def Kind.takes : Kind → Json → Bool
  | .text, .str _ => true
  | .number, .num x => Decimal.isFinite x
  | .flag, .bool _ => true
  | .mode, .str t => t == Text.ofString "ollama" || t == Text.ofString "stub"
  | .deadline, .num x => Decimal.isFinite x
  | _, _ => false

/-- A setting: the section and the key it is found under, and its kind. -/
structure Field where
  /-- The section. -/
  group : String
  /-- The key inside the section. -/
  key : String
  /-- Its kind. -/
  kind : Kind

/-- The settings, section by section, in the order they are written. -/
def fields : List Field :=
  [⟨"runtime", "apiSecret", .text⟩, ⟨"runtime", "apiPort", .number⟩, ⟨"runtime", "dbPath", .text⟩,
   ⟨"orchestrator", "timeoutMs", .number⟩, ⟨"orchestrator", "maxRetries", .number⟩,
   ⟨"orchestrator", "backoffBaseMs", .number⟩, ⟨"orchestrator", "backoffMaxMs", .number⟩,
   ⟨"orchestrator", "requestDeadlineMs", .deadline⟩, ⟨"orchestrator", "topK", .number⟩,
   ⟨"orchestrator", "minAnswerChars", .number⟩,
   ⟨"breakers", "failureThreshold", .number⟩, ⟨"breakers", "successThreshold", .number⟩,
   ⟨"breakers", "recoveryTimeoutMs", .number⟩,
   ⟨"lanes", "enableCloudLane", .flag⟩, ⟨"lanes", "onDeviceMode", .mode⟩,
   ⟨"providers", "ollamaBaseUrl", .text⟩, ⟨"providers", "ollamaModel", .text⟩,
   ⟨"providers", "cloudApiBaseUrl", .text⟩, ⟨"providers", "cloudApiKey", .text⟩,
   ⟨"providers", "cloudModel", .text⟩,
   ⟨"routing", "defaultStrategy", .text⟩,
   ⟨"budget", "dailyLimitUsd", .number⟩, ⟨"budget", "monthlyLimitUsd", .number⟩,
   ⟨"budget", "alertThreshold", .number⟩]

/-- The value at a setting's place: the member `key` of the member `group` of an object
(none when either is missing or not inside an object). -/
def at? (v : Json) (f : Field) : Option Json := (v.get? f.group).bind (·.get? f.key)

/-- The places of the members of the sections of an object, in order. -/
def places (v : Json) : List (String × String) :=
  match v with
  | .obj ms => ms.flatMap fun m => ((m.2.obj?.getD []).map fun n => (m.1, n.1))
  | _ => []

/-! ## Well-typed settings -/

namespace Settings

/-- The numbers of the settings, the deadline apart. -/
def numbers (c : Settings) : List Float :=
  [c.runtime.apiPort, c.orchestrator.timeoutMs, c.orchestrator.maxRetries,
   c.orchestrator.backoffBaseMs, c.orchestrator.backoffMaxMs, c.orchestrator.topK,
   c.orchestrator.minAnswerChars, c.breakers.failureThreshold, c.breakers.successThreshold,
   c.breakers.recoveryTimeoutMs, c.budget.dailyLimitUsd, c.budget.monthlyLimitUsd,
   c.budget.alertThreshold]

/-- The texts of the settings. -/
def texts (c : Settings) : List String :=
  [c.runtime.apiSecret, c.runtime.dbPath, c.providers.ollamaBaseUrl, c.providers.ollamaModel,
   c.providers.cloudApiBaseUrl, c.providers.cloudApiKey, c.providers.cloudModel,
   c.routing.defaultStrategy]

/-- Settings as the service holds them: every number finite, the deadline unset or
finite, and every text the string of a UTF-16 text (a `String` stands for the text it
encodes, and only such strings stand for one). -/
structure WellTyped (c : Settings) : Prop where
  /-- Every number is finite. -/
  finite : ∀ x ∈ c.numbers, Decimal.isFinite x = true
  /-- The deadline is unset or finite. -/
  deadline : ∀ x ∈ c.orchestrator.requestDeadlineMs, Decimal.isFinite x = true
  /-- Every text is the string of a text. -/
  texts : ∀ s ∈ c.texts, (Text.ofString s).toString = s

/-- The settings with every negative zero read as zero. -/
def unsignZeros (c : Settings) : Settings :=
  let z := Json.unsignZero
  { runtime := { c.runtime with apiPort := z c.runtime.apiPort }
    orchestrator :=
      { c.orchestrator with
        timeoutMs := z c.orchestrator.timeoutMs, maxRetries := z c.orchestrator.maxRetries
        backoffBaseMs := z c.orchestrator.backoffBaseMs
        backoffMaxMs := z c.orchestrator.backoffMaxMs
        requestDeadlineMs := c.orchestrator.requestDeadlineMs.map z
        topK := z c.orchestrator.topK, minAnswerChars := z c.orchestrator.minAnswerChars }
    breakers :=
      { failureThreshold := z c.breakers.failureThreshold
        successThreshold := z c.breakers.successThreshold
        recoveryTimeoutMs := z c.breakers.recoveryTimeoutMs }
    lanes := c.lanes
    providers := c.providers
    routing := c.routing
    budget :=
      { dailyLimitUsd := z c.budget.dailyLimitUsd, monthlyLimitUsd := z c.budget.monthlyLimitUsd
        alertThreshold := z c.budget.alertThreshold } }

end Settings

/-! ## What merging reads -/

/-- The section `merge` reads a setting from holds the members at that setting's places. -/
theorem get?_part (v : Json) (group key : String) :
    (part (if v.isObject then v else .obj []) group).get? key = (v.get? group).bind (·.get? key) := by
  cases v with
  | obj ms =>
    show (part (.obj ms) group).get? key = _
    unfold part
    cases (Json.obj ms).get? group with
    | none => rfl
    | some w => cases w <;> rfl
  | _ => rfl

/-- A text setting is the text found, when one is, or the fallback. -/
theorem ofString_textOr (j : Json) (key fallback : String) :
    Json.ofString (textOr j key fallback) =
      ((j.get? key).filter Kind.text.takes).getD (Json.ofString fallback) := by
  unfold textOr
  cases j.get? key with
  | none => rfl
  | some w =>
    cases w with
    | str t => simp [Option.filter_some, Kind.takes, Json.ofString, Text.ofString_toString]
    | _ => rfl

/-- A number setting is the finite number found, when one is, or the fallback. -/
theorem num_numberOr (j : Json) (key : String) (fallback : Float) :
    Json.num (numberOr j key fallback) =
      ((j.get? key).filter Kind.number.takes).getD (.num fallback) := by
  unfold numberOr
  cases j.get? key with
  | none => rfl
  | some w =>
    cases w with
    | num x => by_cases hx : Decimal.isFinite x <;> simp [Option.filter_some, hx, Kind.takes]
    | _ => rfl

/-- A flag is the boolean found, when one is, or the fallback. -/
theorem bool_flagOr (j : Json) (key : String) (fallback : Bool) :
    Json.bool (flagOr j key fallback) =
      ((j.get? key).filter Kind.flag.takes).getD (.bool fallback) := by
  unfold flagOr
  cases j.get? key with
  | none => rfl
  | some w =>
    cases w with
    | bool b => simp [Option.filter_some, Kind.takes]
    | _ => rfl

/-- A text's string is a given string of a text exactly when the text is that string's. -/
theorem toString_eq_iff {t : Text} {s : String} (hs : (Text.ofString s).toString = s) :
    t.toString = s ↔ t = Text.ofString s := by
  constructor
  · intro h
    rw [← h, Text.ofString_toString]
  · rintro rfl
    exact hs

/-- The on-device mode is taken when it is exactly one of the two modes' names. -/
theorem merge_onDeviceMode (v : Json) :
    Json.ofString (Settings.merge v).lanes.onDeviceMode.name =
      ((at? v ⟨"lanes", "onDeviceMode", .mode⟩).filter Kind.mode.takes).getD (Json.ofString "ollama") := by
  dsimp only [Settings.merge]
  rw [get?_part]
  unfold at?
  cases (v.get? "lanes").bind (·.get? "onDeviceMode") with
  | none => rfl
  | some w =>
    cases w with
    | str t =>
      have hO : (Text.ofString "ollama").toString = "ollama" := by decide
      have hS : (Text.ofString "stub").toString = "stub" := by decide
      have ho := toString_eq_iff (t := t) hO
      have hs := toString_eq_iff (t := t) hS
      by_cases h1 : t = Text.ofString "ollama"
      · subst h1
        simp [hO, Option.filter_some, Kind.takes, OnDeviceMode.name, Json.ofString]
      · by_cases h2 : t = Text.ofString "stub"
        · subst h2
          simp [hS, Option.filter_some, Kind.takes, OnDeviceMode.name, Json.ofString]
        · simp [mt ho.1 h1, mt hs.1 h2, h1, h2, Option.filter_some, Kind.takes, OnDeviceMode.name]
    | _ => rfl

/-- The deadline is taken when it is a finite number; it is unset otherwise. -/
theorem merge_requestDeadlineMs (v : Json) :
    Json.ofOption .num (Settings.merge v).orchestrator.requestDeadlineMs =
      ((at? v ⟨"orchestrator", "requestDeadlineMs", .deadline⟩).filter Kind.deadline.takes).getD .null := by
  dsimp only [Settings.merge]
  rw [get?_part]
  unfold at?
  cases (v.get? "orchestrator").bind (·.get? "requestDeadlineMs") with
  | none => rfl
  | some w =>
    cases w with
    | num x => by_cases hx : Decimal.isFinite x <;> simp [hx, Option.filter_some, Kind.takes, Json.ofOption]
    | _ => rfl

theorem get?_obj_cons (k key : String) (w : Json) (ms : List (String × Json)) :
    (Json.obj ((k, w) :: ms)).get? key = if k = key then some w else (Json.obj ms).get? key := by
  by_cases h : k = key <;> simp [Json.get?, h]

/-- **Every setting is the file's value at its place when its kind takes it, and the
default's otherwise.** -/
theorem at?_merge (v : Json) : ∀ f ∈ fields,
    at? (settingsJson (Settings.merge v)) f =
      ((at? v f).filter f.kind.takes).or (at? (settingsJson {}) f) := by
  simp only [fields, List.forall_mem_cons, List.not_mem_nil, IsEmpty.forall_iff, implies_true,
    and_true]
  refine ⟨?_, ?_, ?_, ?_, ?_, ?_, ?_, ?_, ?_, ?_, ?_, ?_, ?_, ?_, ?_, ?_, ?_, ?_, ?_, ?_, ?_, ?_,
    ?_, ?_⟩ <;>
  simp +decide only [at?, settingsJson, get?_obj_cons, ite_true, ite_false, Option.bind_some,
    Option.or_some] <;>
  simp only [↓merge_onDeviceMode, ↓merge_requestDeadlineMs, Settings.merge, ofString_textOr,
    num_numberOr, bool_flagOr, get?_part] <;> rfl

/-- The table lists every setting written, in the order written. -/
theorem places_settingsJson (c : Settings) :
    places (settingsJson c) = fields.map fun f => (f.group, f.key) := rfl

/-! ## Merged settings are well typed -/

theorem numberOr_isFinite (j : Json) (key : String) {fallback : Float}
    (h : Decimal.isFinite fallback = true) : Decimal.isFinite (numberOr j key fallback) = true := by
  unfold numberOr
  split
  · split
    · assumption
    · exact h
  · exact h

theorem textOr_isText (j : Json) (key : String) {fallback : String}
    (h : (Text.ofString fallback).toString = fallback) :
    (Text.ofString (textOr j key fallback)).toString = textOr j key fallback := by
  unfold textOr
  split
  · exact congrArg Text.toString (Text.ofString_toString _)
  · exact h

/-- **Merged settings are well typed**: every number falls back to a finite default,
the deadline is set only to a finite number, and every text is read from a text or is a
default. -/
theorem merge_wellTyped (v : Json) : (Settings.merge v).WellTyped where
  finite := by
    simp only [Settings.numbers, Settings.merge, List.forall_mem_cons, List.not_mem_nil,
      IsEmpty.forall_iff, implies_true, and_true]
    refine ⟨?_, ?_, ?_, ?_, ?_, ?_, ?_, ?_, ?_, ?_, ?_, ?_, ?_⟩ <;>
      exact numberOr_isFinite _ _ (by decide)
  deadline := by
    intro x hx
    simp only [Settings.merge] at hx
    split at hx
    · split at hx
      · cases hx
        assumption
      · cases hx
    · cases hx
  texts := by
    simp only [Settings.texts, Settings.merge, List.forall_mem_cons, List.not_mem_nil,
      IsEmpty.forall_iff, implies_true, and_true]
    refine ⟨?_, ?_, ?_, ?_, ?_, ?_, ?_, ?_⟩ <;> exact textOr_isText _ _ (by decide)

/-! ## Merging is a retraction -/

/-- **Well-typed settings written as a value merge back to themselves**: every setting
is found at its place and has its kind. -/
theorem merge_settingsJson {c : Settings} (hc : c.WellTyped) : Settings.merge (settingsJson c) = c := by
  obtain ⟨hf, hd, ht⟩ := hc
  obtain ⟨⟨apiSecret, apiPort, dbPath⟩, ⟨timeoutMs, maxRetries, backoffBaseMs, backoffMaxMs, deadline,
    topK, minAnswerChars⟩, ⟨failureThreshold, successThreshold, recoveryTimeoutMs⟩,
    ⟨enableCloudLane, onDeviceMode⟩, ⟨ollamaBaseUrl, ollamaModel, cloudApiBaseUrl, cloudApiKey,
    cloudModel⟩, ⟨defaultStrategy⟩, ⟨dailyLimitUsd, monthlyLimitUsd, alertThreshold⟩⟩ := c
  simp only [Settings.numbers, Settings.texts, List.forall_mem_cons, List.not_mem_nil,
    IsEmpty.forall_iff, implies_true, and_true] at hf ht
  obtain ⟨f1, f2, f3, f4, f5, f6, f7, f8, f9, f10, f11, f12, f13⟩ := hf
  obtain ⟨t1, t2, t3, t4, t5, t6, t7, t8⟩ := ht
  have hdl : ∀ x, deadline = some x → Decimal.isFinite x = true := hd
  cases deadline <;> cases onDeviceMode <;>
  simp +decide [Settings.merge, settingsJson, Json.isObject, part, get?_obj_cons, textOr, numberOr,
    flagOr, Json.ofString, Json.ofOption, OnDeviceMode.name, f1, f2, f3, f4, f5, f6, f7, f8, f9, f10,
    f11, f12, f13, t1, t2, t3, t4, t5, t6, t7, t8, hdl]

/-- **Merging twice changes nothing.** -/
theorem merge_merge (v : Json) : Settings.merge (settingsJson (Settings.merge v)) = Settings.merge v :=
  merge_settingsJson (merge_wellTyped v)

/-! ## Settings written as JSON text and read back -/

theorem isFinite_unsignZero {x : Float} (hx : Decimal.isFinite x = true) :
    Decimal.isFinite (Json.unsignZero x) = true := by
  unfold Json.unsignZero
  split
  · decide
  · exact hx

theorem unsignZeros_wellTyped {c : Settings} (hc : c.WellTyped) : c.unsignZeros.WellTyped where
  finite := by
    have hf := hc.finite
    simp only [Settings.numbers, Settings.unsignZeros, List.forall_mem_cons, List.not_mem_nil,
      IsEmpty.forall_iff, implies_true, and_true] at hf ⊢
    obtain ⟨f1, f2, f3, f4, f5, f6, f7, f8, f9, f10, f11, f12, f13⟩ := hf
    exact ⟨isFinite_unsignZero f1, isFinite_unsignZero f2, isFinite_unsignZero f3,
      isFinite_unsignZero f4, isFinite_unsignZero f5, isFinite_unsignZero f6, isFinite_unsignZero f7,
      isFinite_unsignZero f8, isFinite_unsignZero f9, isFinite_unsignZero f10,
      isFinite_unsignZero f11, isFinite_unsignZero f12, isFinite_unsignZero f13⟩
  deadline := by
    intro x hx
    obtain ⟨y, hy, rfl⟩ := Option.map_eq_some_iff.1 hx
    exact isFinite_unsignZero (hc.deadline y hy)
  texts := hc.texts

/-- The written settings have finite numbers, so their text reads back. -/
theorem allFinite_settingsJson {c : Settings} (hc : c.WellTyped) :
    (settingsJson c).allFinite = true := by
  have hf := hc.finite
  simp only [Settings.numbers, List.forall_mem_cons, List.not_mem_nil, IsEmpty.forall_iff,
    implies_true, and_true] at hf
  obtain ⟨f1, f2, f3, f4, f5, f6, f7, f8, f9, f10, f11, f12, f13⟩ := hf
  cases hd : c.orchestrator.requestDeadlineMs with
  | none =>
    simp [settingsJson, hd, allFinite, allFiniteMembers, Json.ofString, Json.ofOption, f1, f2, f3, f4,
      f5, f6, f7, f8, f9, f10, f11, f12, f13]
  | some x =>
    simp [settingsJson, hd, allFinite, allFiniteMembers, Json.ofString, Json.ofOption, f1, f2, f3, f4,
      f5, f6, f7, f8, f9, f10, f11, f12, f13, hc.deadline x hd]

/-- The written settings' objects have distinct keys. -/
theorem distinctKeys_settingsJson (c : Settings) : (settingsJson c).distinctKeys = true := by
  cases hd : c.orchestrator.requestDeadlineMs <;>
  simp +decide [settingsJson, hd, distinctKeys, distinctKeysMembers, Json.ofString, Json.ofOption]

/-- Reading zeros as unsigned commutes with writing the settings. -/
theorem unsignZeros_settingsJson (c : Settings) :
    (settingsJson c).unsignZeros = settingsJson c.unsignZeros := by
  cases hd : c.orchestrator.requestDeadlineMs <;>
  simp [settingsJson, Settings.unsignZeros, hd, unsignZeros, unsignZerosMembers, Json.ofString,
    Json.ofOption]

/-- **Well-typed settings written as JSON text and read back merge to themselves**, every
negative zero read as zero. -/
theorem parse_render_settingsJson {c : Settings} (hc : c.WellTyped) :
    (Json.parse (Json.render (settingsJson c))).map Settings.merge = some c.unsignZeros := by
  rw [parse_render (allFinite_settingsJson hc) (distinctKeys_settingsJson c), Option.map_some,
    unsignZeros_settingsJson, merge_settingsJson (unsignZeros_wellTyped hc)]

/-! ## Merging is a retraction onto well-typed settings -/

/-- **Merging a settings file is a retraction onto the well-typed settings.** For every
value: the merged settings are well typed; they are written at the places the table lists,
each the value at that place when its kind takes it and the default's otherwise; and
merging them again gives them back. Well-typed settings written as JSON text and read back
merge to themselves, negative zeros read as zero. -/
theorem merge_retracts_onto_wellTyped :
    (∀ v : Json,
      (Settings.merge v).WellTyped ∧
      places (settingsJson (Settings.merge v)) = fields.map (fun f => (f.group, f.key)) ∧
      (∀ f ∈ fields, at? (settingsJson (Settings.merge v)) f =
        ((at? v f).filter f.kind.takes).or (at? (settingsJson {}) f)) ∧
      Settings.merge (settingsJson (Settings.merge v)) = Settings.merge v) ∧
    ∀ c : Settings, c.WellTyped →
      (Json.parse (Json.render (settingsJson c))).map Settings.merge = some c.unsignZeros :=
  ⟨fun v => ⟨merge_wellTyped v, places_settingsJson _, at?_merge v, merge_merge v⟩,
    fun _ hc => parse_render_settingsJson hc⟩

/-- A port given as a negative zero is written `0` and read back as zero. -/
theorem negative_zero_port_reads_as_zero :
    ({ runtime := { apiPort := -0.0 } } : Settings).WellTyped ∧
      (Json.parse (Json.render (settingsJson { runtime := { apiPort := -0.0 } }))).map Settings.merge =
        some ({ runtime := { apiPort := -0.0 } } : Settings).unsignZeros :=
  have hc : ({ runtime := { apiPort := -0.0 } } : Settings).WellTyped := ⟨by decide, by decide, by decide⟩
  ⟨hc, merge_retracts_onto_wellTyped.2 _ hc⟩

end LaneGate.Config
