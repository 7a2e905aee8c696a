import Mathlib
import LaneGate.Redact
/-!
# The patterns of redaction

`valueAfter`, `assignmentAt` and `bearerAt` read the key-value pattern and the bearer
pattern at one position of a text. This module gives each its grammar, in both
directions: what it accepts, as a decomposition of the text with conditions on the
pieces.

* A value is a separator (blanks, `=` or `:`, blanks), no quote or a double quote, a
  nonempty run of value characters, and the same quote; without quotes the run is
  maximal.
* The key-value pattern is a maximal run of key characters at a word boundary that
  looks secret, followed by a value.
* The bearer pattern is `Bearer` at a word boundary, a nonempty run of blanks and a
  maximal run of at least 8 token characters.

Both patterns see the unit before the position only through whether it is a word
character (`afterWord`).
-/

namespace LaneGate.Redact

/-! ## Classes of units -/

/-- A fact of every unit of a written list, checked by running `List.all`. Stated for
`decide`: asked for a bounded `∀` over `UInt16` directly, instance search takes the one
that runs through the whole finite type. -/
theorem forall_mem_of_all {l : List UInt16} {P : UInt16 → Prop} [DecidablePred P]
    (h : (l.all fun u => decide (P u)) = true) : ∀ u ∈ l, P u := by
  simpa using h

section Units

variable {u : UInt16}

theorem isValueUnit_of_isKeyUnit (h : isKeyUnit u = true) : isValueUnit u = true := by
  simp only [isKeyUnit, isWordUnit, isAlnum, isValueUnit, Text.isBlankUnit, Text.isBlankCode, unit,
    Bool.or_eq_true, Bool.and_eq_true, beq_iff_eq, Bool.not_eq_true', Bool.or_eq_false_iff,
    decide_eq_true_eq, UInt16.le_iff_toNat_le, ne_eq, UInt16.ext_iff, Char.reduceToNat,
    Bool.and_eq_false_imp, decide_eq_false_iff_not, beq_eq_false_iff_ne, UInt16.toNat_ofNat',
    Nat.toUInt16_eq, Nat.reducePow, Nat.reduceMod] at h ⊢
  omega

theorem isTokenUnit_of_isKeyUnit (h : isKeyUnit u = true) : isTokenUnit u = true := by
  simp only [isKeyUnit, isWordUnit, isAlnum, isTokenUnit, unit, Bool.or_eq_true, Bool.and_eq_true,
    beq_iff_eq, decide_eq_true_eq, UInt16.le_iff_toNat_le, UInt16.ext_iff, Char.reduceToNat,
    UInt16.toNat_ofNat', Nat.toUInt16_eq, Nat.reducePow, Nat.reduceMod, List.contains_cons,
    List.contains_nil, Bool.or_false] at h ⊢
  omega

theorem isValueUnit_of_isTokenUnit (h : isTokenUnit u = true) : isValueUnit u = true := by
  simp only [isTokenUnit, isAlnum, isValueUnit, Text.isBlankUnit, Text.isBlankCode, unit,
    Bool.or_eq_true, Bool.and_eq_true, beq_iff_eq, Bool.not_eq_true', Bool.or_eq_false_iff,
    decide_eq_true_eq, UInt16.le_iff_toNat_le, ne_eq, UInt16.ext_iff, Char.reduceToNat,
    Bool.and_eq_false_imp, decide_eq_false_iff_not, beq_eq_false_iff_ne, UInt16.toNat_ofNat',
    Nat.toUInt16_eq, Nat.reducePow, Nat.reduceMod, List.contains_cons, List.contains_nil,
    Bool.or_false] at h ⊢
  omega

theorem isValueUnit_of_isBlankUnit (h : Text.isBlankUnit u = true) : isValueUnit u = false := by
  simp [isValueUnit, h]

theorem isKeyUnit_of_isBlankUnit (h : Text.isBlankUnit u = true) : isKeyUnit u = false := by
  cases hk : isKeyUnit u
  · rfl
  · simpa [isValueUnit_of_isBlankUnit h] using isValueUnit_of_isKeyUnit hk

theorem isTokenUnit_of_isBlankUnit (h : Text.isBlankUnit u = true) : isTokenUnit u = false := by
  cases ht : isTokenUnit u
  · rfl
  · simpa [isValueUnit_of_isBlankUnit h] using isValueUnit_of_isTokenUnit ht

theorem ne_B_of_not_key (h : isKeyUnit u = false) : u ≠ unit 'B' := by
  rintro rfl
  exact absurd h (by decide)

theorem isBlankUnit_of_isValueUnit (h : isValueUnit u = true) : Text.isBlankUnit u = false := by
  cases hb : Text.isBlankUnit u
  · rfl
  · simp [isValueUnit_of_isBlankUnit hb] at h

end Units

/-! ## Splitting where a class ends -/

section Span

variable {α : Type} {p : α → Bool}

/-- A list splits where its first element outside the class stands. -/
theorem span_append {a b : List α} (ha : ∀ x ∈ a, p x = true)
    (hb : ∀ x ∈ b.head?, p x = false) : (a ++ b).span p = (a, b) := by
  rw [List.span_eq_takeWhile_dropWhile, List.takeWhile_append_of_pos ha,
    List.dropWhile_append_of_pos ha]
  cases b with
  | nil => simp
  | cons x b =>
    have hx : p x = false := hb x rfl
    simp [hx]

theorem eq_append_of_span {xs a b : List α} (h : xs.span p = (a, b)) :
    xs = a ++ b ∧ (∀ x ∈ a, p x = true) ∧ ∀ x ∈ b.head?, p x = false := by
  rw [List.span_eq_takeWhile_dropWhile, Prod.mk.injEq] at h
  obtain ⟨rfl, rfl⟩ := h
  refine ⟨List.takeWhile_append_dropWhile.symm, fun x hx => List.all_eq_true.1 List.all_takeWhile x hx,
    fun x hx => ?_⟩
  have hnot := List.head?_dropWhile_not p xs
  rw [Option.mem_def] at hx
  rwa [hx] at hnot

end Span

/-! ## Word boundaries -/

/-- Whether the unit before a position is a word character. -/
def afterWord (prev : Option UInt16) : Bool := (prev.map isWordUnit).getD false

theorem boundary_eq (prev : Option UInt16) (u : UInt16) :
    boundary prev u = (afterWord prev != isWordUnit u) := rfl

@[simp] theorem afterWord_none : afterWord none = false := rfl

@[simp] theorem afterWord_some (w : UInt16) : afterWord (some w) = isWordUnit w := rfl

/-! ## Values -/

/-- A separator: blanks, `=` or `:`, blanks. -/
def IsSeparator (sep : List UInt16) : Prop :=
  ∃ ws c ws', sep = ws ++ c :: ws' ∧ (∀ u ∈ ws, Text.isBlankUnit u = true) ∧
    (c = unit '=' ∨ c = unit ':') ∧ ∀ u ∈ ws', Text.isBlankUnit u = true

namespace Valued

/-- The units a value is read from, followed by the units after it. -/
def units (v : Valued) : List UInt16 := v.sep ++ v.quote ++ v.value ++ v.quote ++ v.rest

/-- What `valueAfter` accepts: a separator, no quote or a double quote, a nonempty run of
value characters, and, without quotes, no value character after the run. -/
structure Wf (v : Valued) : Prop where
  sep : IsSeparator v.sep
  quote : v.quote = [] ∨ v.quote = [unit '"']
  value_ne : v.value ≠ []
  value : ∀ u ∈ v.value, isValueUnit u = true
  ends : v.quote = [] → ∀ u ∈ v.rest.head?, isValueUnit u = false

/-- A separator holds no key character. -/
theorem Wf.sep_not_key {v : Valued} (hv : v.Wf) : ∀ u ∈ v.sep, isKeyUnit u = false := by
  obtain ⟨ws, c, ws', hsep, hws, hc, hws'⟩ := hv.sep
  intro u hu
  rw [hsep, List.mem_append, List.mem_cons] at hu
  rcases hu with hu | rfl | hu
  · exact isKeyUnit_of_isBlankUnit (hws u hu)
  · rcases hc with rfl | rfl <;> decide
  · exact isKeyUnit_of_isBlankUnit (hws' u hu)

theorem Wf.quote_not_key {v : Valued} (hv : v.Wf) : ∀ u ∈ v.quote, isKeyUnit u = false := by
  rcases hv.quote with hq | hq <;> simp [hq]; decide

/-- A value begins with a blank, `=` or `:`, none of them a key character. -/
theorem Wf.head_not_key {v : Valued} (hv : v.Wf) : ∀ u ∈ v.units.head?, isKeyUnit u = false := by
  obtain ⟨ws, c, ws', hsep, hws, hc, -⟩ := hv.sep
  intro u hu
  simp only [units, hsep, List.append_assoc, List.cons_append] at hu
  cases ws with
  | nil =>
    simp only [List.nil_append, List.head?_cons, Option.mem_def, Option.some.injEq] at hu
    subst hu
    rcases hc with rfl | rfl <;> decide
  | cons w ws =>
    simp only [List.cons_append, List.head?_cons, Option.mem_def, Option.some.injEq] at hu
    subst hu
    exact isKeyUnit_of_isBlankUnit (hws _ List.mem_cons_self)

end Valued

/-- `valueAfter` reads back every well-formed value. -/
theorem valueAfter_units {v : Valued} (hv : v.Wf) : valueAfter v.units = some v := by
  obtain ⟨sep, q, value, rest⟩ := v
  obtain ⟨⟨ws, c, ws', rfl, hws, hc, hws'⟩, hq, hne, hval, hend⟩ := hv
  have hcb : Text.isBlankUnit c = false := by rcases hc with rfl | rfl <;> decide
  have hsep : (c == unit '=' || c == unit ':') = true := by rcases hc with rfl | rfl <;> decide
  obtain ⟨v0, vs, rfl⟩ := List.exists_cons_of_ne_nil hne
  have hv0 : isValueUnit v0 = true := hval v0 List.mem_cons_self
  rcases hq with rfl | rfl
  · -- unquoted: the value runs up to the first unit that is not a value character
    have hq0 : (v0 == unit '"') = false := by
      cases h : v0 == unit '"'
      · rfl
      · rw [beq_iff_eq.1 h] at hv0; exact absurd hv0 (by decide)
    simp only [Valued.units, valueAfter, List.append_assoc, List.cons_append, List.nil_append]
    rw [span_append hws (by simpa using hcb)]
    simp only [hsep, if_true]
    rw [span_append hws' (by simpa using isBlankUnit_of_isValueUnit hv0)]
    simp only [hq0, Bool.false_eq_true, if_false]
    rw [← List.cons_append, span_append hval (hend rfl)]
    simp
  · -- quoted: the closing quote ends the run
    simp only [Valued.units, valueAfter, List.append_assoc, List.cons_append, List.nil_append]
    rw [span_append hws (by simpa using hcb)]
    simp only [hsep, if_true]
    rw [span_append hws' (by simp; decide)]
    simp only [beq_self_eq_true, if_true]
    rw [← List.cons_append, span_append hval (by simp; decide)]
    simp

/-- No value follows blanks and a unit other than `=` and `:`. -/
theorem valueAfter_of_not_separator {ws m : List UInt16} {c : UInt16}
    (hws : ∀ u ∈ ws, Text.isBlankUnit u = true) (hcb : Text.isBlankUnit c = false)
    (hc : c ≠ unit '=' ∧ c ≠ unit ':') : valueAfter (ws ++ c :: m) = none := by
  unfold valueAfter
  rw [span_append hws (by simpa using hcb)]
  simp [hc.1, hc.2]

/-- `valueAfter` finds only well-formed values, read from the front of the text. -/
theorem eq_units_of_valueAfter {xs : List UInt16} {v : Valued} (h : valueAfter xs = some v) :
    xs = v.units ∧ v.Wf := by
  unfold valueAfter at h
  rcases hs : xs.span Text.isBlankUnit with ⟨ws, rest⟩
  obtain ⟨rfl, hws, -⟩ := eq_append_of_span hs
  rw [hs] at h
  simp only at h
  cases rest with
  | nil => simp at h
  | cons c rest =>
    by_cases hc : (c == unit '=' || c == unit ':') = true
    · have hc' : c = unit '=' ∨ c = unit ':' := by simpa using hc
      simp only [hc, if_true] at h
      rcases hs' : rest.span Text.isBlankUnit with ⟨ws', rest'⟩
      obtain ⟨rfl, hws', -⟩ := eq_append_of_span hs'
      rw [hs'] at h
      simp only at h
      cases rest' with
      | nil => simp at h
      | cons q inner =>
        by_cases hq : (q == unit '"') = true
        · rw [beq_iff_eq.1 hq] at h ⊢
          simp only [beq_self_eq_true, if_true] at h
          rcases hv : inner.span isValueUnit with ⟨value, after⟩
          obtain ⟨rfl, hval, -⟩ := eq_append_of_span hv
          rw [hv] at h
          simp only at h
          cases after with
          | nil => simp at h
          | cons e after =>
            simp only [Bool.and_eq_true, Bool.not_eq_true', List.isEmpty_eq_false_iff, beq_iff_eq]
              at h
            split_ifs at h with he
            obtain rfl := Option.some.inj h
            obtain ⟨hne, rfl⟩ := he
            exact ⟨by simp [Valued.units],
              ⟨⟨ws, c, ws', by simp, hws, hc', hws'⟩, .inr rfl, hne, hval, by simp⟩⟩
        · simp only [hq, Bool.false_eq_true, if_false] at h
          rcases hv : (q :: inner).span isValueUnit with ⟨value, after⟩
          obtain ⟨hqi, hval, hend⟩ := eq_append_of_span hv
          rw [hv] at h
          simp only at h
          split_ifs at h with hne
          obtain rfl := Option.some.inj h
          refine ⟨by simp [Valued.units, hqi], ⟨⟨ws, c, ws', by simp, hws, hc', hws'⟩, .inl rfl,
            by simpa using hne, hval, fun _ => hend⟩⟩
    · simp [hc] at h

/-! ## The key-value pattern -/

/-- A key as the pattern reads it: a nonempty run of key characters beginning at a word
boundary. -/
structure KeyRun (prev : Option UInt16) (key : List UInt16) : Prop where
  ne : key ≠ []
  run : ∀ u ∈ key, isKeyUnit u = true
  start : ∀ u ∈ key.head?, boundary prev u = true

/-- At a run of key characters ended by a unit that is not one, the pattern reads the run
as the key. -/
theorem assignmentAt_keyRun {prev : Option UInt16} {u : UInt16} {key after : List UInt16}
    (hk : ∀ w ∈ u :: key, isKeyUnit w = true) (ha : ∀ w ∈ after.head?, isKeyUnit w = false) :
    assignmentAt prev (u :: key ++ after) =
      if boundary prev u && looksSecret (u :: key) then (valueAfter after).map fun v => (u :: key, v)
      else none := by
  have hu : isKeyUnit u = true := hk u List.mem_cons_self
  rw [List.cons_append]
  simp only [assignmentAt, hu, Bool.true_and]
  rw [← List.cons_append, span_append hk ha]
  by_cases hb : boundary prev u <;> simp [hb]

theorem assignmentAt_of_not_key {prev : Option UInt16} {u : UInt16} (xs : List UInt16)
    (hu : isKeyUnit u = false) : assignmentAt prev (u :: xs) = none := by
  simp [assignmentAt, hu]

/-- The key-value pattern matches exactly a secret-looking key run followed by a value. -/
theorem assignmentAt_eq_some_iff {prev : Option UInt16} {xs key : List UInt16} {v : Valued} :
    assignmentAt prev xs = some (key, v) ↔
      xs = key ++ v.units ∧ KeyRun prev key ∧ looksSecret key = true ∧ v.Wf := by
  constructor
  · intro h
    cases xs with
    | nil => simp [assignmentAt] at h
    | cons u rest =>
      simp only [assignmentAt] at h
      split_ifs at h with hub hl
      rcases hs : (u :: rest).span isKeyUnit with ⟨k, after⟩
      obtain ⟨hxs, hk, hend⟩ := eq_append_of_span hs
      rw [hs] at h hl
      simp only at h hl
      obtain ⟨v', hv', hkv⟩ := Option.map_eq_some_iff.1 h
      obtain ⟨rfl, rfl⟩ := Prod.mk.inj hkv
      obtain ⟨rfl, hwf⟩ := eq_units_of_valueAfter hv'
      have hne : k ≠ [] := by
        rintro rfl
        simp only [List.nil_append] at hxs
        have := hwf.head_not_key u (by simp [← hxs])
        simp [Bool.and_eq_true] at hub
        simp_all
      obtain ⟨k0, ks, rfl⟩ := List.exists_cons_of_ne_nil hne
      have hk0 : k0 = u := by simpa using (congrArg List.head? hxs).symm
      subst hk0
      refine ⟨hxs, ⟨hne, hk, ?_⟩, hl, hwf⟩
      simp only [Bool.and_eq_true] at hub
      simpa using hub.2
  · rintro ⟨rfl, ⟨hne, hk, hb⟩, hl, hv⟩
    obtain ⟨k0, ks, rfl⟩ := List.exists_cons_of_ne_nil hne
    rw [assignmentAt_keyRun hk hv.head_not_key]
    have hb0 : boundary prev k0 = true := hb k0 rfl
    simp [hb0, hl, valueAfter_units hv]

theorem assignmentAt_congr {p q : Option UInt16} (h : afterWord p = afterWord q)
    (xs : List UInt16) : assignmentAt p xs = assignmentAt q xs := by
  cases xs with
  | nil => rfl
  | cons u rest => simp only [assignmentAt]; rw [boundary_eq, boundary_eq, h]

/-- Whether a key looks secret depends on no unit before a word it contains. -/
theorem looksSecret_cons {u : UInt16} {key : List UInt16} (h : looksSecret key = true) :
    looksSecret (u :: key) = true := by
  simp only [looksSecret, List.any_eq_true] at h ⊢
  obtain ⟨w, hw, ho⟩ := h
  exact ⟨w, hw, by simp [List.map_cons, Text.occursIn, ho]⟩

/-! ## The bearer pattern -/

namespace Bearing

/-- The units a bearer token is read from, `Bearer` first, followed by the units after it. -/
def units (b : Bearing) : List UInt16 := bearer ++ b.blanks ++ b.token ++ b.rest

/-- What `bearerAt` accepts after `Bearer`: a nonempty run of blanks, then a maximal run of
at least 8 token characters. -/
structure Wf (b : Bearing) : Prop where
  blanks_ne : b.blanks ≠ []
  blanks : ∀ u ∈ b.blanks, Text.isBlankUnit u = true
  token_length : 8 ≤ b.token.length
  token : ∀ u ∈ b.token, isTokenUnit u = true
  ends : ∀ u ∈ b.rest.head?, isTokenUnit u = false

end Bearing

theorem bearer_eq_cons : bearer = unit 'B' :: (Text.ofString "earer").units := by decide

/-- `Bearer` is a run of key characters, with no `B` after the first. -/
theorem isKeyUnit_of_mem_bearer : ∀ u ∈ bearer, isKeyUnit u = true := forall_mem_of_all (by decide)

theorem ne_B_of_mem_earer : ∀ u ∈ (Text.ofString "earer").units, u ≠ unit 'B' :=
  forall_mem_of_all (by decide)

/-- `[REDACTED]` is a run of value characters without a `B`. -/
theorem isValueUnit_of_mem_redacted : ∀ u ∈ redacted, isValueUnit u = true :=
  forall_mem_of_all (by decide)

theorem ne_B_of_mem_redacted : ∀ u ∈ redacted, u ≠ unit 'B' := forall_mem_of_all (by decide)

/-- The bearer pattern matches exactly `Bearer` at a word boundary followed by a
well-formed token. -/
theorem bearerAt_eq_some_iff {prev : Option UInt16} {xs : List UInt16} {b : Bearing} :
    bearerAt prev xs = some b ↔ xs = b.units ∧ boundary prev (unit 'B') = true ∧ b.Wf := by
  constructor
  · intro h
    cases xs with
    | nil => simp [bearerAt] at h
    | cons u rest =>
      simp only [bearerAt] at h
      split_ifs at h with hub hc
      simp only [Bool.and_eq_true, List.isPrefixOf_iff_prefix] at hub
      obtain ⟨hbd, m, hm⟩ := hub
      have hu : u = unit 'B' := by
        rw [bearer_eq_cons, List.cons_append, List.cons.injEq] at hm
        exact hm.1.symm
      subst hu
      rw [← hm, List.drop_left] at h hc
      rcases hs : m.span Text.isBlankUnit with ⟨ws, after⟩
      obtain ⟨rfl, hws, -⟩ := eq_append_of_span hs
      rw [hs] at h hc
      simp only at h hc
      rcases ht : after.span isTokenUnit with ⟨token, rest'⟩
      obtain ⟨rfl, htok, hend⟩ := eq_append_of_span ht
      rw [ht] at h hc
      simp only at h hc
      obtain rfl := Option.some.inj h
      simp only [Bool.and_eq_true, Bool.not_eq_true', List.isEmpty_eq_false_iff,
        decide_eq_true_eq] at hc
      exact ⟨by simp [Bearing.units, ← hm], hbd, ⟨hc.1, hws, hc.2, htok, hend⟩⟩
  · rintro ⟨rfl, hbd, hw⟩
    obtain ⟨t0, ts, ht⟩ := List.exists_cons_of_ne_nil (List.ne_nil_of_length_pos
      (Nat.lt_of_lt_of_le (by decide) hw.token_length))
    have ht0 : Text.isBlankUnit t0 = false :=
      isBlankUnit_of_isValueUnit (isValueUnit_of_isTokenUnit (hw.token t0 (by simp [ht])))
    have hpre : bearer.isPrefixOf b.units = true := by
      simp [Bearing.units, List.isPrefixOf_iff_prefix]
    have hdrop : b.units.drop bearer.length = b.blanks ++ (b.token ++ b.rest) := by
      simp [Bearing.units]
    have hu : b.units =
        unit 'B' :: ((Text.ofString "earer").units ++ (b.blanks ++ (b.token ++ b.rest))) := by
      simp [Bearing.units, bearer_eq_cons]
    rw [hu] at hpre hdrop ⊢
    simp only [bearerAt, hbd, hpre, Bool.and_self, if_true, hdrop]
    rw [span_append hw.blanks (by simpa [ht] using ht0), span_append hw.token hw.ends]
    simp [hw.blanks_ne, hw.token_length]

theorem bearerAt_congr {p q : Option UInt16} (h : afterWord p = afterWord q)
    (xs : List UInt16) : bearerAt p xs = bearerAt q xs := by
  cases xs with
  | nil => rfl
  | cons u rest => simp only [bearerAt]; rw [boundary_eq, boundary_eq, h]

theorem bearerAt_of_ne {prev : Option UInt16} {u : UInt16} (xs : List UInt16)
    (hu : u ≠ unit 'B') : bearerAt prev (u :: xs) = none := by
  have hp : bearer.isPrefixOf (u :: xs) = false := by
    rw [bearer_eq_cons]
    simp [List.isPrefixOf, Ne.symm hu]
  simp [bearerAt, hp]

end LaneGate.Redact
