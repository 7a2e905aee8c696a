import LaneGate.Proofs.Redact.Clean
import LaneGate.Proofs.Redact.Secrets
/-!
# What scrubbing leaves

`scrub` runs the passes of the secret values, then the key-value pass, then the bearer
pass. For every text and every setting of the secret keys its output has every
key-value pair with the value `[REDACTED]` and no bearer token, each secret value was
looked for literally, and a configured secret survives only where it overlaps text the
scrubber wrote: a `[REDACTED]`, or the `Bearer ` in front of a redacted token
(`scrub_output_redacted`). It does survive there: `[REDACTED]` written in the middle of a
text can complete a longer secret (`scrub_rejoins_secret`).

Scrubbing twice is scrubbing once as long as no secret can overlap what the scrubber
writes (`scrub_idempotent`); each pass leaves its own output as it is, and the first
scrub leaves no secret for the second to find. A secret inside `[REDACTED]` breaks this
(`scrub_twice_rescrubs`).
-/

namespace LaneGate.Redact

/-- The pattern of each secret stands for the secret itself, so `scrub` replaces the
secret values as they are. -/
theorem scrub_eq_passes (secrets : List Text) (t : Text) :
    scrub secrets t = ⟨bearerPass none (keyPass none
      ((secrets.map Text.units).foldl (fun xs n => secretPass n xs) t.units))⟩ := by
  rw [scrub_eq, List.foldl_map]
  simp only [(literalOf_escapePattern _).2]

theorem length_le_of_mem_secretValues {env : String → Option String} {s : Text}
    (hs : s ∈ secretValues env) : minSecretLength ≤ s.units.length := by
  obtain ⟨k, -, v, -, hlen, rfl⟩ := mem_secretValues.1 hs
  rw [← Text.length, Text.length_ofString]
  exact hlen

theorem ne_nil_of_mem_secretValues {env : String → Option String} {s : Text}
    (hs : s ∈ secretValues env) : s.units ≠ [] := by
  have := length_le_of_mem_secretValues hs
  rintro h
  simp [h, minSecretLength] at this

/-- The passes of the secret values leave a text with none of them as it is. -/
theorem secretPasses_eq_self :
    ∀ {needles : List (List UInt16)} {xs : List UInt16}, (∀ n ∈ needles, ¬n <:+: xs) →
      needles.foldl (fun xs n => secretPass n xs) xs = xs
  | [], _, _ => rfl
  | n :: ns, xs, h => by
    rw [List.foldl_cons, secretPass_eq_self (h n (by simp))]
    exact secretPasses_eq_self fun m hm => h m (by simp [hm])

theorem keyValuesRedacted_scrub (secrets : List Text) (t : Text) :
    KeyValuesRedacted none (scrub secrets t).units := by
  rw [scrub_eq]
  exact keyValuesRedacted_bearerPass (keyValuesRedacted_keyPass none _)

theorem bearerFree_scrub (secrets : List Text) (t : Text) :
    BearerFree none (scrub secrets t).units := by
  rw [scrub_eq]
  exact bearerFree_bearerPass none _

/-- A secret value in the output overlaps a written `[REDACTED]` or ends in the `Bearer `
that the bearer pass writes again. -/
theorem overlaps_of_infix_scrub {env : String → Option String} {t s : Text}
    (hs : s ∈ secretValues env) (h : s.units <:+: (scrub (secretValues env) t).units) :
    Overlaps s.units redacted ∨ bearer ++ [unit ' '] <:+ s.units := by
  rw [scrub_eq_passes] at h
  have hne : ∀ n ∈ (secretValues env).map Text.units, n ≠ [] := by
    simp only [List.mem_map]
    rintro n ⟨s', hs', rfl⟩
    exact ne_nil_of_mem_secretValues hs'
  rcases infix_of_rewrites (bearerPass_rewrites none _) (by decide) h with hkey | hmeet
  · rcases infix_of_rewrites (keyPass_rewrites none _) (by decide) hkey with hsec | hmeet
    · exact .inl (overlaps_of_infix_secretPasses hne _ (List.mem_map_of_mem hs) hsec)
    · exact .inl hmeet.overlaps
  · rcases hmeet.overlaps_or_bearer with ho | hb | hshort
    · exact .inl ho
    · exact .inr hb
    · have := length_le_of_mem_secretValues hs
      simp only [minSecretLength] at this
      omega

/-- The scrubber's output: a configured secret survives only overlapping text it wrote,
every key-value pair it finds has the value `[REDACTED]`, it finds no bearer token, and
each secret value is looked for through a literal pattern that stands for the value. -/
theorem scrub_output_redacted (env : String → Option String) (t : Text) :
    (∀ k ∈ Config.secretKeys, ∀ v, env k = some v → minSecretLength ≤ Text.lengthOf v →
      (Text.ofString v).units <:+: (scrub (secretValues env) t).units →
        Overlaps (Text.ofString v).units redacted ∨
          bearer ++ [unit ' '] <:+ (Text.ofString v).units) ∧
    KeyValuesRedacted none (scrub (secretValues env) t).units ∧
    BearerFree none (scrub (secretValues env) t).units ∧
    ∀ v, isLiteral (escapePattern v) = true ∧ literalOf (escapePattern v) = v := by
  refine ⟨?_, keyValuesRedacted_scrub _ t, bearerFree_scrub _ t, literalOf_escapePattern⟩
  intro k hk v hv hlen h
  exact overlaps_of_infix_scrub (mem_secretValues.2 ⟨k, hk, v, hv, hlen, rfl⟩) h

/-- Replacing the shorter secret `abcdefgh` inside `xabcdefghy` writes the longer secret
`x[REDACTED]y`, which stays in the output. -/
theorem scrub_rejoins_secret :
    Text.ofString "x[REDACTED]y" ∈ secretValues (fun k =>
      if k = "API_SECRET" then some "x[REDACTED]y"
      else if k = "CLOUD_API_KEY" then some "abcdefgh" else none) ∧
    (Text.ofString "x[REDACTED]y").units <:+: (scrub (secretValues (fun k =>
      if k = "API_SECRET" then some "x[REDACTED]y"
      else if k = "CLOUD_API_KEY" then some "abcdefgh" else none))
      (Text.ofString "xabcdefghy")).units := by
  decide

/-- Scrubbing is idempotent when no secret can overlap `[REDACTED]` or end in `Bearer `. -/
theorem scrub_idempotent (env : String → Option String) (t : Text)
    (hsafe : ∀ k ∈ Config.secretKeys, ∀ v, env k = some v → minSecretLength ≤ Text.lengthOf v →
      ¬Overlaps (Text.ofString v).units redacted ∧
        ¬bearer ++ [unit ' '] <:+ (Text.ofString v).units) :
    scrub (secretValues env) (scrub (secretValues env) t) = scrub (secretValues env) t := by
  set out := scrub (secretValues env) t
  have hclean : ∀ n ∈ (secretValues env).map Text.units, ¬n <:+: out.units := by
    simp only [List.mem_map]
    rintro n ⟨s, hs, rfl⟩ hin
    obtain ⟨k, hk, v, hv, hlen, rfl⟩ := mem_secretValues.1 hs
    rcases overlaps_of_infix_scrub hs hin with ho | hb
    · exact (hsafe k hk v hv hlen).1 ho
    · exact (hsafe k hk v hv hlen).2 hb
  rw [scrub_eq_passes (secretValues env) out, secretPasses_eq_self hclean,
    keyPass_eq_self (keyValuesRedacted_scrub _ t), bearerPass_eq_self (bearerFree_scrub _ t)]

/-- With one secret, written in digits and small letters, scrubbing a text with a
key-value pair, a bearer token and the secret twice gives the same text. -/
theorem scrub_idempotent_hunter :
    (∀ k ∈ Config.secretKeys, ∀ v,
      (fun k => if k = "API_SECRET" then some "hunter2hunter2" else none) k = some v →
      minSecretLength ≤ Text.lengthOf v →
        ¬Overlaps (Text.ofString v).units redacted ∧
          ¬bearer ++ [unit ' '] <:+ (Text.ofString v).units) ∧
    scrub (secretValues fun k => if k = "API_SECRET" then some "hunter2hunter2" else none)
      (scrub (secretValues fun k => if k = "API_SECRET" then some "hunter2hunter2" else none)
        (Text.ofString "password=abc Bearer abcdefghij hunter2hunter2")) =
    scrub (secretValues fun k => if k = "API_SECRET" then some "hunter2hunter2" else none)
      (Text.ofString "password=abc Bearer abcdefghij hunter2hunter2") := by
  refine ⟨?safe, scrub_idempotent _ _ ?safe⟩
  -- the one secret shares no unit with `[REDACTED]` and does not end in `Bearer `
  intro k _ v hv _
  have hv' : v = "hunter2hunter2" := by
    dsimp only at hv
    split_ifs at hv
    exact (Option.some.inj hv).symm
  subst hv'
  exact ⟨not_overlaps_of_disjoint (forall_mem_of_all (by decide)), by decide⟩

/-- The secret `REDACTED` is scrubbed to `[REDACTED]`, and scrubbing that again wraps the
secret once more. -/
theorem scrub_twice_rescrubs :
    scrub (secretValues fun k => if k = "API_SECRET" then some "REDACTED" else none)
      (Text.ofString "REDACTED") = Text.ofString "[REDACTED]" ∧
    scrub (secretValues fun k => if k = "API_SECRET" then some "REDACTED" else none)
      (scrub (secretValues fun k => if k = "API_SECRET" then some "REDACTED" else none)
        (Text.ofString "REDACTED")) ≠
    scrub (secretValues fun k => if k = "API_SECRET" then some "REDACTED" else none)
      (Text.ofString "REDACTED") := by
  decide

end LaneGate.Redact
