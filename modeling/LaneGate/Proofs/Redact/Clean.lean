import LaneGate.Proofs.Redact.Passes
/-!
# What the pattern passes leave

After the key-value pass every value the key-value pattern finds, at any position, is
`[REDACTED]` (`KeyValuesRedacted`); after the bearer pass the bearer pattern finds
nothing (`BearerFree`); and the bearer pass keeps the first property. A pass leaves a
text that already has its property as it is, so running it again changes nothing.

The key-value pass works because what it writes is inert: at a written key the pattern
reads the separator, the quotes and `[REDACTED]` back; inside `[REDACTED]` it reads a key
that does not look secret; and where the pass found no value none appears after it,
since a pass keeps where runs of value characters end. The bearer pass writes `Bearer`,
a space and `[REDACTED]`, which hold no token of 8 characters and no secret-looking key.
-/

namespace LaneGate.Redact

/-- Every match of the key-value pattern, at every position of a text that follows the
unit `prev`, has `[REDACTED]` as its value. -/
def KeyValuesRedacted : Option UInt16 → List UInt16 → Prop
  | _, [] => True
  | prev, u :: r =>
    (∀ a ∈ assignmentAt prev (u :: r), a.2.value = redacted) ∧ KeyValuesRedacted (some u) r

/-- The bearer pattern matches at no position of a text that follows the unit `prev`. -/
def BearerFree : Option UInt16 → List UInt16 → Prop
  | _, [] => True
  | prev, u :: r => bearerAt prev (u :: r) = none ∧ BearerFree (some u) r

instance decKeyValuesRedacted : ∀ prev xs, Decidable (KeyValuesRedacted prev xs)
  | _, [] => isTrue trivial
  | prev, u :: r =>
    have := decKeyValuesRedacted (some u) r
    inferInstanceAs (Decidable ((∀ a ∈ assignmentAt prev (u :: r), a.2.value = redacted) ∧ _))

instance decBearerFree : ∀ prev xs, Decidable (BearerFree prev xs)
  | _, [] => isTrue trivial
  | prev, u :: r =>
    have := decBearerFree (some u) r
    inferInstanceAs (Decidable (bearerAt prev (u :: r) = none ∧ _))

theorem redacted_eq_cons : redacted = unit '[' :: redacted.tail := by decide

theorem redacted_getLast? : redacted.getLast? = some (unit ']') := by decide

/-- The unit before what follows a value written as `[REDACTED]` is no word character. -/
theorem afterWord_redacted {q : List UInt16} (hq : q = [] ∨ q = [unit '"']) (l : List UInt16)
    (prev : Option UInt16) : afterWord ((l ++ q ++ redacted ++ q).getLast?.or prev) = false := by
  rcases hq with rfl | rfl
  · simp only [List.append_nil, List.getLast?_append, redacted_getLast?, Option.some_or,
      afterWord_some]
    decide
  · simp only [List.getLast?_append, List.getLast?_singleton, Option.some_or, afterWord_some]
    decide

/-! ## Key-value pairs -/

section KeyValues

variable {prev q : Option UInt16} {u : UInt16} {xs l m : List UInt16}

theorem keyValuesRedacted_cons :
    KeyValuesRedacted prev (u :: xs) ↔
      (∀ a ∈ assignmentAt prev (u :: xs), a.2.value = redacted) ∧ KeyValuesRedacted (some u) xs :=
  Iff.rfl

theorem KeyValuesRedacted.value_eq {key : List UInt16} {v : Valued}
    (h : KeyValuesRedacted prev xs) (ha : assignmentAt prev xs = some (key, v)) :
    v.value = redacted := by
  cases xs with
  | nil => simp [assignmentAt] at ha
  | cons u r => exact h.1 _ ha

theorem keyValuesRedacted_congr (h : afterWord prev = afterWord q) :
    KeyValuesRedacted prev xs ↔ KeyValuesRedacted q xs := by
  cases xs with
  | nil => exact Iff.rfl
  | cons u r => rw [keyValuesRedacted_cons, keyValuesRedacted_cons, assignmentAt_congr h]

/-- At a unit where no key begins the unit before does not matter. -/
theorem keyValuesRedacted_cons_of_not_key (hu : isKeyUnit u = false) :
    KeyValuesRedacted prev (u :: xs) ↔ KeyValuesRedacted (some u) xs := by
  simp [keyValuesRedacted_cons, assignmentAt_of_not_key _ hu]

theorem keyValuesRedacted_append_of_not_key (hl : ∀ w ∈ l, isKeyUnit w = false) :
    KeyValuesRedacted prev (l ++ m) ↔ KeyValuesRedacted (l.getLast?.or prev) m := by
  induction l generalizing prev with
  | nil => simp
  | cons w l ih =>
    rw [List.cons_append, keyValuesRedacted_cons_of_not_key (hl w (by simp)),
      ih (fun x hx => hl x (by simp [hx])), getLast?_cons_or]

theorem KeyValuesRedacted.of_append (h : KeyValuesRedacted prev (l ++ m)) :
    KeyValuesRedacted (l.getLast?.or prev) m := by
  induction l generalizing prev with
  | nil => simpa using h
  | cons w l ih =>
    rw [List.cons_append, keyValuesRedacted_cons] at h
    rw [getLast?_cons_or]
    exact ih h.2

/-- Inside a run of key characters that does not look secret no key-value pair
begins. -/
theorem keyValuesRedacted_keyRun_append (hk : ∀ w ∈ l, isKeyUnit w = true)
    (hs : looksSecret l = false) (hm : ∀ w ∈ m.head?, isKeyUnit w = false) :
    KeyValuesRedacted prev (l ++ m) ↔ KeyValuesRedacted (l.getLast?.or prev) m := by
  induction l generalizing prev with
  | nil => simp
  | cons w l ih =>
    have hnone : assignmentAt prev (w :: l ++ m) = none := by
      rw [assignmentAt_keyRun hk hm]
      simp [hs]
    have hs' : looksSecret l = false := by
      cases h : looksSecret l
      · rfl
      · rw [looksSecret_cons h] at hs
        exact absurd hs (by decide)
    rw [List.cons_append, keyValuesRedacted_cons, ← List.cons_append, hnone,
      ih (fun x hx => hk x (by simp [hx])) hs', getLast?_cons_or]
    simp

/-- `[REDACTED]` holds no key-value pair: its letters do not look secret. -/
theorem keyValuesRedacted_redacted_append :
    KeyValuesRedacted prev (redacted ++ m) ↔ KeyValuesRedacted (some (unit ']')) m := by
  have hR : redacted = unit '[' :: ((Text.ofString "REDACTED").units ++ [unit ']']) := by decide
  rw [hR, List.cons_append, keyValuesRedacted_cons_of_not_key (by decide), List.append_assoc,
    keyValuesRedacted_keyRun_append (forall_mem_of_all (by decide)) (by decide) (by simp; decide),
    List.singleton_append, keyValuesRedacted_cons_of_not_key (by decide)]

/-- A value written as `[REDACTED]` holds no other key-value pair. -/
theorem keyValuesRedacted_units {v : Valued} (hv : v.Wf) (hR : v.value = redacted)
    (hrest : KeyValuesRedacted none v.rest) (prev : Option UInt16) :
    KeyValuesRedacted prev v.units := by
  have hsq : ∀ w ∈ v.sep ++ v.quote, isKeyUnit w = false := by
    simp only [List.mem_append]
    rintro w (hw | hw)
    · exact hv.sep_not_key w hw
    · exact hv.quote_not_key w hw
  have hunits : v.units = (v.sep ++ v.quote) ++ (redacted ++ (v.quote ++ v.rest)) := by
    simp [Valued.units, hR]
  rw [hunits, keyValuesRedacted_append_of_not_key hsq, keyValuesRedacted_redacted_append,
    keyValuesRedacted_append_of_not_key hv.quote_not_key,
    keyValuesRedacted_congr (q := none)
      (by rcases hv.quote with hq | hq <;> simp [hq] <;> decide)]
  exact hrest

/-- At a key run followed by a value written as `[REDACTED]` every match, at the key or
at a boundary inside it, reads that value. -/
theorem keyValuesRedacted_key_append {key : List UInt16} {v : Valued}
    (hk : ∀ w ∈ key, isKeyUnit w = true) (hv : v.Wf) (hR : v.value = redacted)
    (hrest : KeyValuesRedacted none v.rest) (prev : Option UInt16) :
    KeyValuesRedacted prev (key ++ v.units) := by
  induction key generalizing prev with
  | nil => exact keyValuesRedacted_units hv hR hrest prev
  | cons w key ih =>
    rw [List.cons_append, keyValuesRedacted_cons, ← List.cons_append,
      assignmentAt_keyRun hk hv.head_not_key]
    refine ⟨fun a ha => ?_, ih (fun x hx => hk x (by simp [hx])) _⟩
    by_cases hc : (boundary prev w && looksSecret (w :: key)) = true
    · simp only [hc, if_true, valueAfter_units hv, Option.map_some, Option.mem_def,
        Option.some.injEq] at ha
      rw [← ha]
      exact hR
    · simp [hc] at ha

/-- Over a run of key characters where no key finds a value, the key-value pass keeps
the run. -/
theorem keyPass_keyRun {after : List UInt16} (hk : ∀ w ∈ l, isKeyUnit w = true)
    (ha : ∀ w ∈ after.head?, isKeyUnit w = false)
    (hno : looksSecret l = true → valueAfter after = none) (prev : Option UInt16) :
    keyPass prev (l ++ after) = l ++ keyPass (l.getLast?.or prev) after := by
  induction l generalizing prev with
  | nil => simp
  | cons w l ih =>
    have hnone : assignmentAt prev (w :: l ++ after) = none := by
      rw [assignmentAt_keyRun hk ha]
      split_ifs with hc
      · simp only [Bool.and_eq_true] at hc
        simp [hno hc.2]
      · rfl
    rw [List.cons_append, keyPass_cons_of_none (by rwa [← List.cons_append]),
      ih (fun x hx => hk x (by simp [hx])) (fun hl => hno (looksSecret_cons hl)), getLast?_cons_or]
    rfl

/-- Where the key-value pattern found nothing, it finds nothing once the rest of the text
is passed over: the key run is kept, and a value does not appear where there was none. -/
theorem assignmentAt_cons_keyPass {r : List UInt16} (h : assignmentAt prev (u :: r) = none) :
    assignmentAt prev (u :: keyPass (some u) r) = none := by
  by_cases hub : (isKeyUnit u && boundary prev u) = true
  · obtain ⟨hu, hb⟩ : isKeyUnit u = true ∧ boundary prev u = true := by simpa using hub
    rcases hs : r.span isKeyUnit with ⟨kt, after⟩
    obtain ⟨rfl, hkt, hafter⟩ := eq_append_of_span hs
    have hk : ∀ w ∈ u :: kt, isKeyUnit w = true := by
      simpa [hu] using hkt
    rw [← List.cons_append, assignmentAt_keyRun hk hafter] at h
    have hno : looksSecret (u :: kt) = true → valueAfter after = none := by
      intro hl
      simpa [hb, hl] using h
    rw [keyPass_keyRun hkt hafter (fun hl => hno (looksSecret_cons hl)), ← List.cons_append,
      assignmentAt_keyRun hk (by rw [keyPass_head?]; exact hafter)]
    split_ifs with hc
    · simp only [Bool.and_eq_true] at hc
      rw [valueAfter_eq_none_of_keepsValueShape keyPass_keepsValueShape (hno hc.2)]
      rfl
    · rfl
  · simp [assignmentAt, hub]

/-- After the key-value pass every value the key-value pattern finds is
`[REDACTED]`. -/
theorem keyValuesRedacted_keyPass (prev : Option UInt16) (xs : List UInt16) :
    KeyValuesRedacted prev (keyPass prev xs) := by
  refine keyPass_induction (motive := fun prev xs => KeyValuesRedacted prev (keyPass prev xs))
    (fun _ => trivial) ?_ ?_ prev xs
  · intro prev xs key v ha ih
    obtain ⟨-, hk, -, hv⟩ := assignmentAt_eq_some_iff.1 ha
    have hv' : (Valued.mk v.sep v.quote redacted (keyPass none v.rest)).Wf :=
      ⟨hv.sep, hv.quote, show redacted ≠ [] by decide, isValueUnit_of_mem_redacted,
        fun hq => by rw [keyPass_head?]; exact hv.ends hq⟩
    rw [keyPass_of_assignmentAt ha]
    have hout : key ++ v.sep ++ v.quote ++ redacted ++ v.quote ++ keyPass none v.rest =
        key ++ (Valued.mk v.sep v.quote redacted (keyPass none v.rest)).units := by
      simp [Valued.units]
    rw [hout]
    exact keyValuesRedacted_key_append hk.run hv' rfl ih prev
  · intro prev u r ha ih
    rw [keyPass_cons_of_none ha, keyValuesRedacted_cons, assignmentAt_cons_keyPass ha]
    exact ⟨by simp, ih⟩

/-- The key-value pass leaves a text whose values are all `[REDACTED]` as it is. -/
theorem keyPass_eq_self (h : KeyValuesRedacted prev xs) : keyPass prev xs = xs := by
  revert h
  refine keyPass_induction (motive := fun prev xs => KeyValuesRedacted prev xs → keyPass prev xs = xs)
    (fun _ _ => rfl) ?_ ?_ prev xs
  · intro prev xs key v ha ih h
    obtain ⟨hxs, -, -, hv⟩ := assignmentAt_eq_some_iff.1 ha
    have hR := h.value_eq ha
    have hsplit : xs = (key ++ v.sep ++ v.quote ++ redacted ++ v.quote) ++ v.rest := by
      simp [hxs, Valued.units, hR]
    have hrest : KeyValuesRedacted none v.rest := by
      have := (hsplit ▸ h).of_append
      rwa [keyValuesRedacted_congr (q := none)
        (by rw [afterWord_redacted hv.quote]; rfl)] at this
    rw [keyPass_of_assignmentAt ha, ih hrest, hsplit]
  · intro prev u r ha ih h
    rw [keyPass_cons_of_none ha, ih h.2]

end KeyValues

/-! ## Bearer tokens -/

section Bearer

variable {prev q : Option UInt16} {u : UInt16} {xs l m : List UInt16}

theorem bearerFree_cons :
    BearerFree prev (u :: xs) ↔ bearerAt prev (u :: xs) = none ∧ BearerFree (some u) xs :=
  Iff.rfl

theorem BearerFree.bearerAt_eq_none (h : BearerFree prev xs) : bearerAt prev xs = none := by
  cases xs with
  | nil => rfl
  | cons u r => exact h.1

theorem bearerFree_congr (h : afterWord prev = afterWord q) : BearerFree prev xs ↔ BearerFree q xs := by
  cases xs with
  | nil => exact Iff.rfl
  | cons u r => rw [bearerFree_cons, bearerFree_cons, bearerAt_congr h]

theorem bearerFree_append_of_ne (hl : ∀ w ∈ l, w ≠ unit 'B') :
    BearerFree prev (l ++ m) ↔ BearerFree (l.getLast?.or prev) m := by
  induction l generalizing prev with
  | nil => simp
  | cons w l ih =>
    rw [List.cons_append, bearerFree_cons, bearerAt_of_ne _ (hl w (by simp)),
      ih (fun x hx => hl x (by simp [hx])), getLast?_cons_or]
    simp

theorem bearerAt_of_not_prefix (h : ¬bearer <+: xs) : bearerAt prev xs = none := by
  cases xs with
  | nil => rfl
  | cons u r =>
    have hp : bearer.isPrefixOf (u :: r) = false :=
      Bool.eq_false_iff.2 fun h' => h (List.isPrefixOf_iff_prefix.1 h')
    simp [bearerAt, hp]

/-- After `Bearer` the pattern asks only for blanks and the length of the token run after
them. -/
theorem bearerAt_bearer_append_eq_none_iff (xs : List UInt16) :
    bearerAt prev (bearer ++ xs) = none ↔
      ¬(boundary prev (unit 'B') = true ∧ (xs.span Text.isBlankUnit).1 ≠ [] ∧
        8 ≤ ((xs.span Text.isBlankUnit).2.takeWhile isTokenUnit).length) := by
  have hpre : bearer.isPrefixOf (unit 'B' :: ((Text.ofString "earer").units ++ xs)) = true := by
    rw [← List.cons_append, ← bearer_eq_cons]
    simp [List.isPrefixOf_iff_prefix]
  have hdrop : (unit 'B' :: ((Text.ofString "earer").units ++ xs)).drop bearer.length = xs := by
    rw [← List.cons_append, ← bearer_eq_cons, List.drop_left]
  rw [bearer_eq_cons, List.cons_append]
  simp only [bearerAt, hpre, Bool.and_true, hdrop, List.span_eq_takeWhile_dropWhile]
  by_cases hb : boundary prev (unit 'B') = true <;> simp [hb]

/-- The bearer pass leaves no bearer token. -/
theorem bearerFree_bearerPass (prev : Option UInt16) (xs : List UInt16) :
    BearerFree prev (bearerPass prev xs) := by
  refine bearerPass_induction (motive := fun prev xs => BearerFree prev (bearerPass prev xs))
    (fun _ => trivial) ?_ ?_ prev xs
  · intro prev xs b hb ih
    rw [bearerPass_of_bearerAt hb]
    have hnone : bearerAt prev (bearer ++ unit ' ' :: (redacted ++ bearerPass none b.rest)) = none := by
      rw [bearerAt_bearer_append_eq_none_iff, ← List.singleton_append,
        span_append (forall_mem_of_all (by decide)) (by rw [redacted_eq_cons]; simp; decide), redacted_eq_cons]
      simp [List.takeWhile_cons_of_neg (show ¬isTokenUnit (unit '[') = true by decide)]
    have hne : ∀ w ∈ (Text.ofString "earer").units ++ [unit ' '] ++ redacted, w ≠ unit 'B' :=
      forall_mem_of_all (by decide)
    have hsplit : bearer ++ [unit ' '] ++ redacted ++ bearerPass none b.rest =
        unit 'B' :: (((Text.ofString "earer").units ++ [unit ' '] ++ redacted) ++ bearerPass none b.rest) := by
      rw [bearer_eq_cons]
      simp
    rw [hsplit, bearerFree_cons, bearerFree_append_of_ne hne,
      bearerFree_congr (q := none) (by simp [List.getLast?_append]; decide)]
    refine ⟨?_, ih⟩
    rw [← hsplit, List.append_assoc, List.append_assoc, List.singleton_append]
    exact hnone
  · intro prev u r hb ih
    rw [bearerPass_cons_of_none hb, bearerFree_cons]
    refine ⟨?_, ih⟩
    by_cases hu : u = unit 'B'
    · subst hu
      by_cases hpre : (Text.ofString "earer").units <+: r
      · -- `Bearer` is kept, and with it the blanks and the token run after it
        obtain ⟨after, rfl⟩ := hpre
        rw [bearerPass_append_of_ne ne_B_of_mem_earer, ← List.cons_append, ← bearer_eq_cons,
          bearerAt_bearer_append_eq_none_iff, bearerPass_keepsValueShape.span_blank,
          takeWhile_bearerPass]
        rw [← List.cons_append, ← bearer_eq_cons, bearerAt_bearer_append_eq_none_iff] at hb
        exact hb
      · apply bearerAt_of_not_prefix
        rw [bearer_eq_cons, List.cons_prefix_cons]
        rintro ⟨-, hp⟩
        exact hpre ((prefix_bearerPass_iff ne_B_of_mem_earer (some (unit 'B')) r).1 hp)
    · exact bearerAt_of_ne _ hu

/-- The bearer pass leaves a text without bearer tokens as it is. -/
theorem bearerPass_eq_self (h : BearerFree prev xs) : bearerPass prev xs = xs := by
  revert h
  refine bearerPass_induction (motive := fun prev xs => BearerFree prev xs → bearerPass prev xs = xs)
    (fun _ _ => rfl) ?_ ?_ prev xs
  · intro prev xs b hb _ h
    rw [h.bearerAt_eq_none] at hb
    exact absurd hb (by simp)
  · intro prev u r hb ih h
    rw [bearerPass_cons_of_none hb, ih h.2]

/-- Over a run of key characters the bearer pass keeps the run; a match inside it can
only be a `Bearer` ending the run, and then a space and `[REDACTED]` follow. -/
theorem bearerPass_keyRun {after : List UInt16} (hk : ∀ w ∈ l, isKeyUnit w = true)
    (ha : ∀ w ∈ after.head?, isKeyUnit w = false) (prev : Option UInt16) :
    bearerPass prev (l ++ after) = l ++ bearerPass (l.getLast?.or prev) after ∨
      ∃ z, bearerPass prev (l ++ after) = l ++ unit ' ' :: (redacted ++ z) := by
  induction l generalizing prev with
  | nil => left; simp
  | cons w l ih =>
    cases hb : bearerAt prev (w :: l ++ after) with
    | none =>
      rw [List.cons_append, bearerPass_cons_of_none (by rwa [← List.cons_append])]
      rcases ih (fun x hx => hk x (by simp [hx])) (some w) with h | ⟨z, h⟩
      · left
        rw [h, getLast?_cons_or]
        rfl
      · right
        exact ⟨z, by rw [h]; rfl⟩
    | some b =>
      right
      obtain ⟨hxs, -, hw⟩ := bearerAt_eq_some_iff.1 hb
      -- blanks follow `Bearer`, so the key run is exactly `Bearer`
      obtain ⟨c, cs, hc⟩ := List.exists_cons_of_ne_nil hw.blanks_ne
      have hcb : isKeyUnit c = false := isKeyUnit_of_isBlankUnit (hw.blanks c (by simp [hc]))
      have hsplit := congrArg (List.span isKeyUnit) hxs
      rw [span_append hk ha, Bearing.units, List.append_assoc, List.append_assoc,
        span_append isKeyUnit_of_mem_bearer (by simp [hc, hcb])] at hsplit
      obtain ⟨hl, -⟩ := Prod.mk.inj hsplit
      refine ⟨bearerPass none b.rest, ?_⟩
      rw [bearerPass_of_bearerAt hb, hl]
      simp

/-- The bearer pass keeps a value written as `[REDACTED]`. -/
theorem bearerPass_units {v : Valued} (hv : v.Wf) (hR : v.value = redacted) (prev : Option UInt16) :
    ∃ q, bearerPass prev v.units = (Valued.mk v.sep v.quote v.value (bearerPass q v.rest)).units := by
  have hne : ∀ w ∈ v.sep ++ v.quote ++ v.value ++ v.quote, w ≠ unit 'B' := by
    simp only [List.mem_append, hR]
    rintro w (((hw | hw) | hw) | hw)
    · exact ne_B_of_not_key (hv.sep_not_key w hw)
    · exact ne_B_of_not_key (hv.quote_not_key w hw)
    · exact ne_B_of_mem_redacted w hw
    · exact ne_B_of_not_key (hv.quote_not_key w hw)
  exact ⟨_, by rw [Valued.units, bearerPass_append_of_ne hne]; rfl⟩

/-- Where every value found was `[REDACTED]`, the bearer pass over the rest of the text
leaves it so at the front. -/
theorem assignmentAt_cons_bearerPass {r : List UInt16}
    (h : ∀ a ∈ assignmentAt prev (u :: r), a.2.value = redacted) :
    ∀ a ∈ assignmentAt prev (u :: bearerPass (some u) r), a.2.value = redacted := by
  by_cases hub : (isKeyUnit u && boundary prev u) = true
  · obtain ⟨hu, hb⟩ : isKeyUnit u = true ∧ boundary prev u = true := by simpa using hub
    rcases hs : r.span isKeyUnit with ⟨kt, after⟩
    obtain ⟨rfl, hkt, hafter⟩ := eq_append_of_span hs
    have hk : ∀ w ∈ u :: kt, isKeyUnit w = true := by
      simpa [hu] using hkt
    rw [← List.cons_append, assignmentAt_keyRun hk hafter] at h
    rcases bearerPass_keyRun hkt hafter (some u) with hq | ⟨z, hz⟩
    · rw [hq, ← List.cons_append, assignmentAt_keyRun hk (by rw [bearerPass_head?]; exact hafter)]
      split_ifs at h ⊢ with hc
      · cases hva : valueAfter after with
        | none =>
          rw [valueAfter_eq_none_of_keepsValueShape bearerPass_keepsValueShape hva]
          simp
        | some v =>
          have hR : v.value = redacted := h (u :: kt, v) (by simp [hva])
          obtain ⟨rfl, hv⟩ := eq_units_of_valueAfter hva
          obtain ⟨q', hq'⟩ := bearerPass_units hv hR ((kt.getLast?.or (some u)))
          have hv' : (Valued.mk v.sep v.quote v.value (bearerPass q' v.rest)).Wf :=
            ⟨hv.sep, hv.quote, hv.value_ne, hv.value,
              fun hq => by rw [bearerPass_head?]; exact hv.ends hq⟩
          rw [hq', valueAfter_units hv']
          simpa using hR
      · simp
    · -- a bearer token ended the key run: a space and `[` follow it, no separator
      have hnone : valueAfter (unit ' ' :: (redacted ++ z)) = none := by
        have hR : redacted = unit '[' :: (redacted.drop 1) := by decide
        rw [hR, List.cons_append, ← List.singleton_append]
        exact valueAfter_of_not_separator (forall_mem_of_all (by decide)) (by decide) (by decide)
      rw [hz, ← List.cons_append, assignmentAt_keyRun hk (by simp; decide), hnone]
      simp
  · simp [assignmentAt, hub]

/-- The bearer pass keeps every value the key-value pattern finds `[REDACTED]`. -/
theorem keyValuesRedacted_bearerPass (h : KeyValuesRedacted prev xs) :
    KeyValuesRedacted prev (bearerPass prev xs) := by
  revert h
  refine bearerPass_induction (motive := fun prev xs =>
    KeyValuesRedacted prev xs → KeyValuesRedacted prev (bearerPass prev xs)) (fun _ h => h) ?_ ?_
    prev xs
  · intro prev xs b hb ih h
    obtain ⟨rfl, -, hw⟩ := bearerAt_eq_some_iff.1 hb
    have hrest : KeyValuesRedacted none b.rest := by
      have hsuffix := (show KeyValuesRedacted prev ((bearer ++ b.blanks ++ b.token) ++ b.rest) from h).of_append
      cases hr : b.rest with
      | nil => trivial
      | cons w r =>
        have hwk : isKeyUnit w = false := by
          have := hw.ends w (by simp [hr])
          cases hk : isKeyUnit w
          · rfl
          · rw [isTokenUnit_of_isKeyUnit hk] at this; exact absurd this (by decide)
        rw [hr, keyValuesRedacted_cons_of_not_key hwk] at hsuffix
        rwa [keyValuesRedacted_cons_of_not_key hwk]
    rw [bearerPass_of_bearerAt hb, List.append_assoc, List.append_assoc,
      keyValuesRedacted_keyRun_append isKeyUnit_of_mem_bearer (by decide) (by simp; decide), List.singleton_append,
      keyValuesRedacted_cons_of_not_key (by decide), keyValuesRedacted_redacted_append,
      keyValuesRedacted_congr (q := none) (by decide)]
    exact ih hrest
  · intro prev u r hb ih h
    rw [bearerPass_cons_of_none hb, keyValuesRedacted_cons]
    exact ⟨assignmentAt_cons_bearerPass h.1, ih h.2⟩

end Bearer

end LaneGate.Redact
