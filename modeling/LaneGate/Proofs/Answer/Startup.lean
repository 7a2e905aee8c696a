import LaneGate.Answer.Runtime
import LaneGate.Proofs.Breaker.Registry
/-!
# Building the application from its configuration

`Runtime.create` reads its settings from the environment and the settings file, then
builds two things that can refuse them: the router, whose strategy must name one of
the six strategies once trimmed and lowered (`Strategy.parse`), and the answering
service, whose lane breakers must pass the checks of `Breaker.Config.make`. The
breaker numbers come through `Sources.number`, which falls back to its default for a
missing value and for text that does not read as a finite number, so only three
things can be wrong with them: a threshold that is not a whole number of at least
one, or a recovery time below zero (`Sources.Misconfigured`).

Main statement, `create_fails_iff_misconfigured`: building fails exactly on such a
configuration, always with a configuration fault; otherwise the router holds the
on-device backend and the cloud one exactly when a cloud key is set, and the service
has the grounded lane and the cloud lane exactly when the cloud lane is enabled, a
breaker for each of those lanes and no other, and a lane policy that reads the same
flag.

The router's two backend descriptions are fixed but for their model names, which
nothing checks: that both pass `Provider.make` is a computation the kernel does
once (`routerOf_of_parse`).
-/

namespace LaneGate

/-! ## Settings read from the sources -/

namespace Config.Sources

/-- A number read from the sources is finite when its fallback is. -/
theorem number_isFinite (s : Sources) (key : String) {fallback : Float}
    (h : Decimal.isFinite fallback = true) : Decimal.isFinite (s.number key fallback) = true := by
  unfold number
  split
  · exact h
  · dsimp only
    split
    · assumption
    · exact h

/-- The configurations that building the application refuses: a routing strategy
that, trimmed and lowered, names none of the strategies; a failure or success
threshold that is not a whole number of at least one; or a negative recovery time
(each read as the application reads it, with its default). -/
def Misconfigured (s : Sources) : Prop :=
  Strategy.ofName? (Text.lower (Text.trim (s.valueD "ROUTING_STRATEGY" "balanced"))) = none ∨
    (Given.num (s.number "BREAKER_FAILURE_THRESHOLD" 3)).isCount = false ∨
    (Given.num (s.number "BREAKER_SUCCESS_THRESHOLD" 2)).isCount = false ∨
    s.number "BREAKER_RECOVERY_TIMEOUT_MS" 60000 < 0

instance : DecidablePred Misconfigured := fun _ => inferInstanceAs (Decidable (_ ∨ _ ∨ _ ∨ _))

/-- The lane breakers' settings pass exactly when both thresholds are whole numbers of
at least one and the recovery time is not negative: being read through `number`,
all three are finite already. -/
theorem passes_pipeline_iff (s : Sources) :
    Breaker.Config.Passes s.pipeline.failureThreshold.given s.pipeline.successThreshold.given
        s.pipeline.recoveryTimeoutMs.given ↔
      (Given.num (s.number "BREAKER_FAILURE_THRESHOLD" 3)).isCount = true ∧
        (Given.num (s.number "BREAKER_SUCCESS_THRESHOLD" 2)).isCount = true ∧
        ¬ s.number "BREAKER_RECOVERY_TIMEOUT_MS" 60000 < 0 := by
  have hfin : Decimal.isFinite (s.number "BREAKER_RECOVERY_TIMEOUT_MS" 60000) = true :=
    s.number_isFinite _ (by decide)
  have hzero : (0 : Float).isNaN = false := by decide
  have hle := (Decimal.not_le_iff_lt hzero (Decimal.isNaN_eq_false hfin)).not_right
  simp only [Breaker.Config.Passes, pipeline, Primitive.given, Primitive.toNumber, Option.getD_some,
    Given.isDuration, hfin, Bool.true_and, decide_eq_true_eq]
  exact and_congr_right fun _ => and_congr_right fun _ => hle

/-- A configuration is refused for its strategy name or for its breaker settings. -/
theorem misconfigured_iff (s : Sources) :
    s.Misconfigured ↔
      Strategy.ofName? (Text.lower (Text.trim (s.valueD "ROUTING_STRATEGY" "balanced"))) = none ∨
        ¬ Breaker.Config.Passes s.pipeline.failureThreshold.given s.pipeline.successThreshold.given
          s.pipeline.recoveryTimeoutMs.given := by
  rw [Misconfigured, passes_pipeline_iff]
  simp only [not_and_or, Bool.not_eq_true, not_not]

end Config.Sources

open Config

/-! ## The strategy -/

namespace Strategy

/-- A strategy name is refused exactly when, trimmed and lowered, it names none. -/
theorem parse_error_iff (raw : String) :
    (∃ f, parse raw = .error f) ↔ ofName? (Text.lower (Text.trim raw)) = none := by
  unfold parse
  cases ofName? (Text.lower (Text.trim raw)) with
  | some st => simp
  | none => simp

/-- A refused strategy name is a configuration fault. -/
theorem parse_error {raw : String} {f : Fault} (h : parse raw = .error f) :
    ∃ message, f = .configuration message := by
  unfold parse at h
  split at h
  · cases h
  · cases h
    exact ⟨_, rfl⟩

end Strategy

/-! ## The lane breakers of a new service -/

namespace Service

/-- The lane breakers a new service obtains, one per answerer in turn. -/
def obtainLanes (config : PipelineConfig) (now : Float) (as : List Answerer) (reg : Breaker.Registry) :
    Except Fault Breaker.Registry :=
  as.foldlM (fun (reg : Breaker.Registry) a => do
      let (_, reg) ← reg.obtain (Key.ofString a.lane.name) (laneBreakerConfig config) now
      pure reg) reg

variable {config : PipelineConfig} {now : Float}

/-- A new service keeps its answerers in lane order and obtains their breakers. -/
theorem create_eq (policy : LanePolicy String) (answerers : List Answerer) (grounding : Grounding)
    (confidence : Confidence.Policy) (router : Option Router) (tables : Store.Tables)
    (breakers : Breaker.Registry) (secrets : List Text) :
    create config policy answerers grounding confidence router tables breakers secrets now =
      (obtainLanes config now (Lane.all.filterMap fun l => answerers.find? (·.lane == l)) breakers).map
        fun breakers =>
          { config := config
            policy := policy
            answerers := Lane.all.filterMap fun l => answerers.find? (·.lane == l)
            grounding := grounding
            confidence := confidence
            secrets := secrets
            now := now
            breakers := breakers
            router := router
            tables := tables } := by
  unfold create
  change obtainLanes config now _ breakers >>= _ = _
  cases obtainLanes config now (Lane.all.filterMap fun l => answerers.find? (·.lane == l)) breakers <;> rfl

/-- The settings of a lane breaker are made as they pass. -/
theorem laneBreakerConfig_ok_iff (k : Key) :
    (∃ c, laneBreakerConfig config k = .ok c) ↔
      Breaker.Config.Passes config.failureThreshold.given config.successThreshold.given
        config.recoveryTimeoutMs.given :=
  Breaker.Config.make_ok_iff

theorem obtainLanes_of_error {a : Answerer} {as : List Answerer} {reg : Breaker.Registry} {f : Fault}
    (h : reg.obtain (Key.ofString a.lane.name) (laneBreakerConfig config) now = .error f) :
    obtainLanes config now (a :: as) reg = .error f := by
  simp only [obtainLanes, List.foldlM_cons, h]
  rfl

theorem obtainLanes_of_ok {a : Answerer} {as : List Answerer} {reg reg' : Breaker.Registry} {b : Breaker.Breaker}
    (h : reg.obtain (Key.ofString a.lane.name) (laneBreakerConfig config) now = .ok (b, reg')) :
    obtainLanes config now (a :: as) reg = obtainLanes config now as reg' := by
  simp only [obtainLanes, List.foldlM_cons, h]
  rfl

/-- With settings that do not pass, the breaker of the first lane, missing, is refused
with a configuration fault, and nothing is built. -/
theorem obtainLanes_refused {a : Answerer} {as : List Answerer} {reg : Breaker.Registry}
    (hno : ¬ Breaker.Config.Passes config.failureThreshold.given config.successThreshold.given
      config.recoveryTimeoutMs.given)
    (hm : reg.has (Key.ofString a.lane.name) = false) :
    ∃ message, obtainLanes config now (a :: as) reg = .error (.configuration message) := by
  cases hmake : laneBreakerConfig config (Key.ofString a.lane.name) with
  | ok c => exact absurd ((laneBreakerConfig_ok_iff _).1 ⟨c, hmake⟩) hno
  | error f =>
    obtain ⟨message, rfl⟩ := Breaker.Config.make_error hmake
    refine ⟨message, obtainLanes_of_error ?_⟩
    rw [Breaker.Registry.obtain_of_find?_none (Breaker.Registry.has_eq_false_iff.1 hm), hmake]
    rfl

/-- With settings that pass, every lane's breaker is obtained: a filed one as it is,
a missing one made. -/
theorem obtainLanes_ok
    (hyes : Breaker.Config.Passes config.failureThreshold.given config.successThreshold.given
      config.recoveryTimeoutMs.given) :
    ∀ (as : List Answerer) (reg : Breaker.Registry), ∃ reg', obtainLanes config now as reg = .ok reg'
  | [], reg => ⟨reg, rfl⟩
  | a :: as, reg => by
    obtain ⟨b, reg₁, hob⟩ : ∃ b reg₁,
        reg.obtain (Key.ofString a.lane.name) (laneBreakerConfig config) now = .ok (b, reg₁) := by
      cases hf : reg.find? (Key.ofString a.lane.name) with
      | some b => exact ⟨b, reg, Breaker.Registry.obtain_of_find? hf⟩
      | none =>
        obtain ⟨c, hc⟩ := (laneBreakerConfig_ok_iff (Key.ofString a.lane.name)).2 hyes
        exact ⟨_, _, by rw [Breaker.Registry.obtain_of_find?_none hf, hc]; rfl⟩
    rw [obtainLanes_of_ok hob]
    exact obtainLanes_ok hyes as reg₁

/-- Lanes whose names are missing and apart each get a new breaker, filed at the end
in turn. -/
theorem obtainLanes_names :
    ∀ (as : List Answerer) (reg : Breaker.Registry) {reg' : Breaker.Registry},
      (∀ a ∈ as, reg.has (Key.ofString a.lane.name) = false) →
      (as.map fun a => Key.ofString a.lane.name).Pairwise (fun x y => (x == y) = false) →
      obtainLanes config now as reg = .ok reg' →
      reg'.names = reg.names ++ as.map fun a => Key.ofString a.lane.name
  | [], reg, reg', _, _, h => by
    cases h
    simp
  | a :: as, reg, reg', hm, hapart, h => by
    have hf := Breaker.Registry.has_eq_false_iff.1 (hm a List.mem_cons_self)
    cases hmake : laneBreakerConfig config (Key.ofString a.lane.name) with
    | error f =>
      rw [obtainLanes_of_error (by rw [Breaker.Registry.obtain_of_find?_none hf, hmake]; rfl)] at h
      cases h
    | ok c =>
      have hkey : (Breaker.Breaker.create c now).key = Key.ofString a.lane.name :=
        Breaker.Registry.key_of_make hmake
      have hob : reg.obtain (Key.ofString a.lane.name) (laneBreakerConfig config) now =
          .ok (Breaker.Breaker.create c now, ⟨reg.breakers ++ [Breaker.Breaker.create c now]⟩) := by
        rw [Breaker.Registry.obtain_of_find?_none hf, hmake]
        rfl
      rw [obtainLanes_of_ok hob] at h
      have hapart' := List.pairwise_cons.1 hapart
      have hm' : ∀ a' ∈ as, (⟨reg.breakers ++ [Breaker.Breaker.create c now]⟩ : Breaker.Registry).has
          (Key.ofString a'.lane.name) = false := by
        intro a' ha'
        rw [Breaker.Registry.has_eq, Breaker.Registry.names, List.map_append, List.any_append,
          ← Breaker.Registry.names, ← Breaker.Registry.has_eq, hm a' (List.mem_cons_of_mem _ ha')]
        simp [hkey, hapart'.1 _ (List.mem_map_of_mem ha')]
      rw [obtainLanes_names as _ hm' hapart'.2 h, Breaker.Registry.names, List.map_append,
        List.map_singleton, hkey]
      simp [Breaker.Registry.names]

/-- An answerer found for a lane is on that lane. -/
theorem lane_of_find? {answerers : List Answerer} {l : Lane} {a : Answerer}
    (h : answerers.find? (·.lane == l) = some a) : a.lane = l := by
  simpa using List.find?_some h

/-- A service keeps one answerer per lane, so their breakers' names are apart. -/
theorem lanes_apart (answerers : List Answerer) :
    ((Lane.all.filterMap fun l => answerers.find? (·.lane == l)).map
      fun a => Key.ofString a.lane.name).Pairwise (fun x y => (x == y) = false) := by
  simp only [Lane.all, List.filterMap_cons, List.filterMap_nil]
  cases h₁ : answerers.find? (·.lane == .onDeviceRag) with
  | none => cases answerers.find? (·.lane == .cloudDirect) <;> simp
  | some a₁ =>
    cases h₂ : answerers.find? (·.lane == .cloudDirect) with
    | none => simp
    | some a₂ =>
      simp only [List.map_cons, List.map_nil, lane_of_find? h₁, lane_of_find? h₂]
      decide

/-- A service given answerers keeps at least one. -/
theorem filterMap_lanes_ne_nil {answerers : List Answerer} (hne : answerers ≠ []) :
    (Lane.all.filterMap fun l => answerers.find? (·.lane == l)) ≠ [] := by
  obtain ⟨a, ha⟩ := List.exists_mem_of_ne_nil answerers hne
  have hfound : (answerers.find? (·.lane == a.lane)).isSome := List.find?_isSome.2 ⟨a, ha, by simp⟩
  have hall : a.lane ∈ Lane.all := by cases a.lane <;> decide
  intro hnil
  rw [List.filterMap_eq_nil_iff] at hnil
  rw [hnil a.lane hall] at hfound
  cases hfound

variable {policy : LanePolicy String} {answerers : List Answerer} {grounding : Grounding}
  {confidence : Confidence.Policy} {router : Option Router} {tables : Store.Tables}
  {secrets : List Text}

/-- A new service with answerers and no breakers yet, whose breaker settings do not
pass, is refused with a configuration fault. -/
theorem create_refused (hne : answerers ≠ [])
    (hno : ¬ Breaker.Config.Passes config.failureThreshold.given config.successThreshold.given
      config.recoveryTimeoutMs.given) :
    ∃ message, create config policy answerers grounding confidence router tables {} secrets now =
      .error (.configuration message) := by
  obtain ⟨a, as, hcons⟩ := List.exists_cons_of_ne_nil (filterMap_lanes_ne_nil hne)
  obtain ⟨message, hm⟩ := @obtainLanes_refused config now a as {} hno rfl
  refine ⟨message, ?_⟩
  rw [create_eq, hcons, hm]
  rfl

/-- A new service is refused only when its breaker settings do not pass. -/
theorem create_error {f : Fault}
    (h : create config policy answerers grounding confidence router tables {} secrets now = .error f) :
    ¬ Breaker.Config.Passes config.failureThreshold.given config.successThreshold.given
      config.recoveryTimeoutMs.given := by
  intro hyes
  obtain ⟨reg', hreg'⟩ := obtainLanes_ok hyes (Lane.all.filterMap fun l => answerers.find? (·.lane == l)) {}
  rw [create_eq, hreg'] at h
  cases h

/-- A new service with answerers is refused only with a configuration fault. -/
theorem create_error_configuration {f : Fault} (hne : answerers ≠ [])
    (h : create config policy answerers grounding confidence router tables {} secrets now = .error f) :
    ∃ message, f = .configuration message := by
  obtain ⟨message, hm⟩ := create_refused hne (create_error h)
  rw [hm] at h
  cases h
  exact ⟨message, rfl⟩

/-- A new service with answerers is built only when its breaker settings pass. -/
theorem create_passes {svc : Service} (hne : answerers ≠ [])
    (h : create config policy answerers grounding confidence router tables {} secrets now = .ok svc) :
    Breaker.Config.Passes config.failureThreshold.given config.successThreshold.given
      config.recoveryTimeoutMs.given := by
  by_contra hno
  obtain ⟨message, hm⟩ := create_refused hne hno
  rw [hm] at h
  cases h

/-- A new service built without breakers has its answerers in lane order, a breaker for
each of their lanes and no other, and the policy and router given. -/
theorem create_ok {svc : Service}
    (h : create config policy answerers grounding confidence router tables {} secrets now = .ok svc) :
    svc.answerers = (Lane.all.filterMap fun l => answerers.find? (·.lane == l)) ∧
      svc.breakers.names = svc.answerers.map (fun a => Key.ofString a.lane.name) ∧
      svc.policy = policy ∧ svc.router = router := by
  rw [create_eq] at h
  cases hl : obtainLanes config now (Lane.all.filterMap fun l => answerers.find? (·.lane == l)) {} with
  | error f =>
    rw [hl] at h
    cases h
  | ok reg' =>
    rw [hl] at h
    cases h
    refine ⟨rfl, ?_, rfl, rfl⟩
    rw [obtainLanes_names _ {} (fun _ _ => rfl) (lanes_apart answerers) hl]
    rfl

end Service

/-! ## The application -/

namespace Runtime

variable {s : Sources} {now : Float}

theorem routerOf_of_parse_error {f : Fault}
    (h : Strategy.parse (s.valueD "ROUTING_STRATEGY" "balanced") = .error f) :
    routerOf s now = .error f := by
  unfold routerOf
  rw [show ({} : RoutingSettings).defaultStrategy = "balanced" from rfl, h]
  rfl

/-- With a known strategy the router is built, holding the on-device backend and, when
a cloud key is set, the cloud one after it. -/
theorem routerOf_of_parse {st : Strategy}
    (h : Strategy.parse (s.valueD "ROUTING_STRATEGY" "balanced") = .ok st) :
    ∃ r, routerOf s now = .ok r ∧
      r.providers.entries.map (·.provider.name) = Sources.onDeviceProviderName ::
        if (s.value? "CLOUD_API_KEY").isSome then [Sources.cloudProviderName] else [] := by
  unfold routerOf
  rw [show ({} : RoutingSettings).defaultStrategy = "balanced" from rfl, h]
  cases hk : (s.value? "CLOUD_API_KEY").isSome with
  | true =>
    simp only [Sources.defaultProviders, hk, if_true]
    exact ⟨_, rfl, rfl⟩
  | false =>
    simp only [Sources.defaultProviders, hk]
    exact ⟨_, rfl, rfl⟩

variable {given : Replacements} {persist : Bool} {secrets : List Text}

/-- The lanes an application answers on: the grounded lane, then the cloud lane when
it is enabled. -/
def lanesOf (s : Sources) : List Lane := .onDeviceRag :: if s.cloudLaneEnabled then [.cloudDirect] else []

/-- With its router built, an application is refused only when the lane breakers'
settings do not pass, and then with a configuration fault. -/
theorem create_error_of_routerOf {router : Router} {f : Fault} (hrouter : routerOf s now = .ok router)
    (h : create s given persist secrets now = .error f) :
    ¬ Breaker.Config.Passes s.pipeline.failureThreshold.given s.pipeline.successThreshold.given
        s.pipeline.recoveryTimeoutMs.given ∧
      ∃ message, f = .configuration message := by
  unfold create at h
  rw [hrouter] at h
  simp only [bind, Except.bind] at h
  split at h
  next hsvc =>
    cases h
    exact ⟨Service.create_error hsvc, Service.create_error_configuration (by split <;> simp) hsvc⟩
  next => cases h

/-- With its router built, an application that is built has its breaker settings
passed, the router, the lanes of `lanesOf` with an answerer and a breaker each and no
other breaker, and a lane policy that reads the same flag. -/
theorem create_ok_of_routerOf {router : Router} {rt : Runtime} (hrouter : routerOf s now = .ok router)
    (h : create s given persist secrets now = .ok rt) :
    Breaker.Config.Passes s.pipeline.failureThreshold.given s.pipeline.successThreshold.given
        s.pipeline.recoveryTimeoutMs.given ∧
      rt.service.router = some router ∧
      rt.service.answerers.map (·.lane) = lanesOf s ∧
      rt.service.breakers.names = (lanesOf s).map (fun l => Key.ofString l.name) ∧
      rt.service.policy.enableCloudLane = s.cloudLaneEnabled ∧ rt.persist = persist := by
  unfold create at h
  rw [hrouter] at h
  simp only [bind, Except.bind] at h
  split at h
  next => cases h
  next svc hsvc =>
    cases h
    obtain ⟨hans, hnames, hpolicy, hrouter'⟩ := Service.create_ok hsvc
    refine ⟨Service.create_passes (by split <;> simp) hsvc, hrouter', ?_, ?_, by rw [hpolicy], rfl⟩
    · rw [hans, lanesOf]
      cases s.cloudLaneEnabled <;> rfl
    · rw [hnames, hans, lanesOf]
      cases s.cloudLaneEnabled <;> rfl

/-- Building the application fails exactly on a misconfiguration, and then with a
configuration fault. Built, it routes over the on-device backend, and the cloud one
when a cloud key is set; it answers on the grounded lane, and on the cloud lane when
that is enabled, with one breaker for each of those lanes and no other; its lane
policy reads the same flag, and it persists telemetry as asked. -/
theorem create_fails_iff_misconfigured (s : Sources) (given : Replacements) (persist : Bool)
    (secrets : List Text) (now : Float) :
    ((∃ f, create s given persist secrets now = .error f) ↔ s.Misconfigured) ∧
    (∀ f, create s given persist secrets now = .error f → ∃ message, f = .configuration message) ∧
    (∀ rt, create s given persist secrets now = .ok rt →
      rt.service.router.map (fun r => r.providers.entries.map (·.provider.name)) =
          some (Sources.onDeviceProviderName ::
            if (s.value? "CLOUD_API_KEY").isSome then [Sources.cloudProviderName] else []) ∧
        rt.service.answerers.map (·.lane) = lanesOf s ∧
        rt.service.breakers.names = (lanesOf s).map (fun l => Key.ofString l.name) ∧
        rt.service.policy.enableCloudLane = s.cloudLaneEnabled ∧ rt.persist = persist) := by
  rcases hparse : Strategy.parse (s.valueD "ROUTING_STRATEGY" "balanced") with f | st
  case error =>
    have hcreate : create s given persist secrets now = .error f := by
      unfold create
      rw [routerOf_of_parse_error hparse]
      rfl
    have hbad : s.Misconfigured := Or.inl ((Strategy.parse_error_iff _).1 ⟨f, hparse⟩)
    refine ⟨⟨fun _ => hbad, fun _ => ⟨f, hcreate⟩⟩, fun f' h' => ?_, fun rt h' => ?_⟩
    · rw [hcreate] at h'
      cases h'
      exact Strategy.parse_error hparse
    · rw [hcreate] at h'
      cases h'
  case ok =>
    have hname : Strategy.ofName? (Text.lower (Text.trim (s.valueD "ROUTING_STRATEGY" "balanced"))) ≠ none := by
      intro hnone
      obtain ⟨f, hf⟩ := (Strategy.parse_error_iff _).2 hnone
      rw [hparse] at hf
      cases hf
    obtain ⟨router, hrouter, hproviders⟩ := @routerOf_of_parse s now st hparse
    rcases hcreate : create s given persist secrets now with f | rt
    case error =>
      obtain ⟨hno, hconf⟩ := create_error_of_routerOf hrouter hcreate
      refine ⟨⟨fun _ => (Sources.misconfigured_iff s).2 (Or.inr hno), fun _ => ⟨f, rfl⟩⟩,
        fun f' h' => ?_, fun rt h' => ?_⟩
      · cases h'
        exact hconf
      · cases h'
    case ok =>
      obtain ⟨hyes, hrouter', hlanes, hbreakers, hpolicy, hpersist⟩ := create_ok_of_routerOf hrouter hcreate
      have hgood : ¬ s.Misconfigured := by
        rw [Sources.misconfigured_iff]
        rintro (hnone | hno)
        · exact hname hnone
        · exact hno hyes
      refine ⟨⟨fun hf => ?_, fun hbad => absurd hbad hgood⟩, fun f h' => ?_, fun rt' h' => ?_⟩
      · obtain ⟨f, hf⟩ := hf
        cases hf
      · cases h'
      cases h'
      refine ⟨?_, hlanes, hbreakers, hpolicy, hpersist⟩
      rw [hrouter', Option.map_some, hproviders]

end Runtime

end LaneGate
