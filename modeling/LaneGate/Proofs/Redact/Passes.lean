import LaneGate.Proofs.Redact.Patterns
/-!
# The passes of redaction

`scrub` runs three passes, each over the result of the one before. Each scans the text
left to right: where its pattern matches it writes a replacement and goes on after the
match, elsewhere it keeps the unit and goes on after it. This module states each pass
with fuel for the whole text (`keyPass`, `bearerPass`, `secretPass`: `scrub` runs them
so), gives each the two equations of its scan and an induction principle built from
them, and proves what the two pattern passes keep:

* a prefix holding no unit where a match could start is kept;
* the first unit is kept;
* the first run of value characters stays empty or nonempty, and the unit that ends it
  stays a double quote or not (`valueEnd`);
* hence where no value can be read, none can be read after either pass
  (`valueAfter_eq_none_of_keepsValueShape`).
-/

namespace LaneGate.Redact

/-! ## Lengths of what a match leaves -/

theorem assignmentAt_rest_length {prev : Option UInt16} {xs key : List UInt16} {v : Valued}
    (h : assignmentAt prev xs = some (key, v)) : v.rest.length < xs.length := by
  obtain ⟨rfl, hk, -, -⟩ := assignmentAt_eq_some_iff.1 h
  have hne := List.length_pos_of_ne_nil hk.ne
  simp only [Valued.units, List.length_append]
  omega

theorem bearerAt_rest_length {prev : Option UInt16} {xs : List UInt16} {b : Bearing}
    (h : bearerAt prev xs = some b) : b.rest.length < xs.length := by
  obtain ⟨rfl, -, -⟩ := bearerAt_eq_some_iff.1 h
  have : bearer.length = 6 := by decide
  simp only [Bearing.units, List.length_append]
  omega

/-! ## The passes with fuel for the whole text -/

/-- The key-value pass over a whole text. -/
def keyPass (prev : Option UInt16) (xs : List UInt16) : List UInt16 :=
  keyValues (xs.length + 1) prev xs

/-- The bearer pass over a whole text. -/
def bearerPass (prev : Option UInt16) (xs : List UInt16) : List UInt16 :=
  bearerTokens (xs.length + 1) prev xs

/-- The pass that replaces one secret value over a whole text. -/
def secretPass (needle xs : List UInt16) : List UInt16 :=
  replaceAll needle (xs.length + 1) xs

/-- `scrub` is the three passes, one for each secret value first. -/
theorem scrub_eq (secrets : List Text) (t : Text) :
    scrub secrets t = ⟨bearerPass none (keyPass none
      (secrets.foldl (fun xs s => secretPass (literalOf (escapePattern s.units)) xs) t.units))⟩ := rfl

/-- The key-value pass gives the same text for any fuel beyond the length of the text. -/
theorem keyValues_congr_fuel : ∀ {n m : Nat} {prev : Option UInt16} {xs : List UInt16},
    xs.length < n → xs.length < m → keyValues n prev xs = keyValues m prev xs
  | 0, _, _, _, hn, _ => absurd hn (Nat.not_lt_zero _)
  | _, 0, _, _, _, hm => absurd hm (Nat.not_lt_zero _)
  | n + 1, m + 1, prev, [], _, _ => by simp [keyValues]
  | n + 1, m + 1, prev, u :: r, hn, hm => by
    simp only [List.length_cons] at hn hm
    cases ha : assignmentAt prev (u :: r) with
    | none =>
      simp [keyValues, ha, keyValues_congr_fuel (by omega : r.length < n) (by omega : r.length < m)]
    | some a =>
      obtain ⟨key, v⟩ := a
      have hlt := assignmentAt_rest_length ha
      simp only [List.length_cons] at hlt
      simp [keyValues, ha,
        keyValues_congr_fuel (by omega : v.rest.length < n) (by omega : v.rest.length < m)]

theorem keyValues_eq_keyPass {n : Nat} {prev : Option UInt16} {xs : List UInt16}
    (hn : xs.length < n) : keyValues n prev xs = keyPass prev xs :=
  keyValues_congr_fuel hn (Nat.lt_succ_self _)

/-- The bearer pass gives the same text for any fuel beyond the length of the text. -/
theorem bearerTokens_congr_fuel : ∀ {n m : Nat} {prev : Option UInt16} {xs : List UInt16},
    xs.length < n → xs.length < m → bearerTokens n prev xs = bearerTokens m prev xs
  | 0, _, _, _, hn, _ => absurd hn (Nat.not_lt_zero _)
  | _, 0, _, _, _, hm => absurd hm (Nat.not_lt_zero _)
  | n + 1, m + 1, prev, [], _, _ => by simp [bearerTokens]
  | n + 1, m + 1, prev, u :: r, hn, hm => by
    simp only [List.length_cons] at hn hm
    cases ha : bearerAt prev (u :: r) with
    | none =>
      simp [bearerTokens, ha,
        bearerTokens_congr_fuel (by omega : r.length < n) (by omega : r.length < m)]
    | some b =>
      have hlt := bearerAt_rest_length ha
      simp only [List.length_cons] at hlt
      simp [bearerTokens, ha,
        bearerTokens_congr_fuel (by omega : b.rest.length < n) (by omega : b.rest.length < m)]

theorem bearerTokens_eq_bearerPass {n : Nat} {prev : Option UInt16} {xs : List UInt16}
    (hn : xs.length < n) : bearerTokens n prev xs = bearerPass prev xs :=
  bearerTokens_congr_fuel hn (Nat.lt_succ_self _)

/-- Replacing a needle gives the same text for any fuel beyond the length of the text. -/
theorem replaceAll_congr_fuel {needle : List UInt16} : ∀ {n m : Nat} {xs : List UInt16},
    xs.length < n → xs.length < m → replaceAll needle n xs = replaceAll needle m xs
  | 0, _, _, hn, _ => absurd hn (Nat.not_lt_zero _)
  | _, 0, _, _, hm => absurd hm (Nat.not_lt_zero _)
  | n + 1, m + 1, [], _, _ => by simp [replaceAll]
  | n + 1, m + 1, u :: r, hn, hm => by
    simp only [List.length_cons] at hn hm
    by_cases hp : needle ≠ [] ∧ needle.isPrefixOf (u :: r) = true
    · have hlen : ((u :: r).drop needle.length).length ≤ r.length := by
        have := List.length_pos_of_ne_nil hp.1
        simp only [List.length_drop, List.length_cons]
        omega
      simp only [replaceAll, hp, ne_eq, not_false_eq_true, and_self, if_true]
      exact congrArg (redacted ++ ·) (replaceAll_congr_fuel (by omega) (by omega))
    · simp only [replaceAll, hp, if_false]
      rw [replaceAll_congr_fuel (by omega : r.length < n) (by omega : r.length < m)]

theorem replaceAll_eq_secretPass {n : Nat} {needle xs : List UInt16} (hn : xs.length < n) :
    replaceAll needle n xs = secretPass needle xs :=
  replaceAll_congr_fuel hn (Nat.lt_succ_self _)

/-! ## The equations of the scans -/

section Equations

variable {prev : Option UInt16} {u : UInt16} {r xs key : List UInt16} {v : Valued}

@[simp] theorem keyPass_nil (prev : Option UInt16) : keyPass prev [] = [] := rfl

theorem keyPass_of_assignmentAt (h : assignmentAt prev xs = some (key, v)) :
    keyPass prev xs = key ++ v.sep ++ v.quote ++ redacted ++ v.quote ++ keyPass none v.rest := by
  cases xs with
  | nil => simp [assignmentAt] at h
  | cons u r =>
    have hlt := assignmentAt_rest_length h
    simp only [List.length_cons] at hlt
    simp [keyPass, keyValues, h, keyValues_eq_keyPass (by omega : v.rest.length < r.length + 1)]

theorem keyPass_cons_of_none (h : assignmentAt prev (u :: r) = none) :
    keyPass prev (u :: r) = u :: keyPass (some u) r := by
  simp [keyPass, keyValues, h]

@[simp] theorem bearerPass_nil (prev : Option UInt16) : bearerPass prev [] = [] := rfl

theorem bearerPass_of_bearerAt {b : Bearing} (h : bearerAt prev xs = some b) :
    bearerPass prev xs = bearer ++ [unit ' '] ++ redacted ++ bearerPass none b.rest := by
  cases xs with
  | nil => simp [bearerAt] at h
  | cons u r =>
    have hlt := bearerAt_rest_length h
    simp only [List.length_cons] at hlt
    simp [bearerPass, bearerTokens, h,
      bearerTokens_eq_bearerPass (by omega : b.rest.length < r.length + 1)]

theorem bearerPass_cons_of_none (h : bearerAt prev (u :: r) = none) :
    bearerPass prev (u :: r) = u :: bearerPass (some u) r := by
  simp [bearerPass, bearerTokens, h]

@[simp] theorem secretPass_nil (needle : List UInt16) : secretPass needle [] = [] := rfl

theorem secretPass_append {needle : List UInt16} (hne : needle ≠ []) (m : List UInt16) :
    secretPass needle (needle ++ m) = redacted ++ secretPass needle m := by
  obtain ⟨n0, ns, rfl⟩ := List.exists_cons_of_ne_nil hne
  have hp : (n0 :: ns).isPrefixOf (n0 :: (ns ++ m)) = true := by
    simp [List.isPrefixOf_iff_prefix]
  have hdrop : (n0 :: (ns ++ m)).drop (n0 :: ns).length = m := by simp
  rw [secretPass]
  simp only [List.cons_append, replaceAll, ne_eq, reduceCtorEq, not_false_eq_true, hp, and_self,
    if_true, hdrop]
  rw [replaceAll_eq_secretPass (by simp only [List.length_cons, List.length_append]; omega)]

theorem secretPass_cons {needle : List UInt16} (h : ¬(needle ≠ [] ∧ needle <+: u :: r)) :
    secretPass needle (u :: r) = u :: secretPass needle r := by
  have hp : ¬(needle ≠ [] ∧ needle.isPrefixOf (u :: r) = true) := by
    rwa [List.isPrefixOf_iff_prefix]
  simp only [secretPass, List.length_cons, replaceAll, hp, if_false]

end Equations

/-! ## Induction along the scans -/

/-- Induction along the key-value pass: a property of every text follows from the empty
text, a match (from what follows it) and a kept unit (from what follows it). -/
theorem keyPass_induction {motive : Option UInt16 → List UInt16 → Prop}
    (nil : ∀ prev, motive prev [])
    (hit : ∀ prev xs key v, assignmentAt prev xs = some (key, v) → motive none v.rest →
      motive prev xs)
    (miss : ∀ prev u r, assignmentAt prev (u :: r) = none → motive (some u) r →
      motive prev (u :: r))
    (prev : Option UInt16) (xs : List UInt16) : motive prev xs := by
  induction hn : xs.length using Nat.strong_induction_on generalizing prev xs with
  | _ n ih =>
    cases xs with
    | nil => exact nil prev
    | cons u r =>
      cases ha : assignmentAt prev (u :: r) with
      | none => exact miss prev u r ha (ih r.length (by simp [← hn]) (some u) r rfl)
      | some a =>
        obtain ⟨key, v⟩ := a
        exact hit prev _ key v ha (ih _ (hn ▸ assignmentAt_rest_length ha) none v.rest rfl)

/-- Induction along the bearer pass. -/
theorem bearerPass_induction {motive : Option UInt16 → List UInt16 → Prop}
    (nil : ∀ prev, motive prev [])
    (hit : ∀ prev xs b, bearerAt prev xs = some b → motive none b.rest → motive prev xs)
    (miss : ∀ prev u r, bearerAt prev (u :: r) = none → motive (some u) r →
      motive prev (u :: r))
    (prev : Option UInt16) (xs : List UInt16) : motive prev xs := by
  induction hn : xs.length using Nat.strong_induction_on generalizing prev xs with
  | _ n ih =>
    cases xs with
    | nil => exact nil prev
    | cons u r =>
      cases ha : bearerAt prev (u :: r) with
      | none => exact miss prev u r ha (ih r.length (by simp [← hn]) (some u) r rfl)
      | some b => exact hit prev _ b ha (ih _ (hn ▸ bearerAt_rest_length ha) none b.rest rfl)

/-- Induction along the pass of one secret value. -/
theorem secretPass_induction {needle : List UInt16} (hne : needle ≠ [])
    {motive : List UInt16 → Prop}
    (nil : motive [])
    (hit : ∀ m, motive m → motive (needle ++ m))
    (miss : ∀ u r, ¬needle <+: u :: r → motive r → motive (u :: r))
    (xs : List UInt16) : motive xs := by
  induction hn : xs.length using Nat.strong_induction_on generalizing xs with
  | _ n ih =>
    cases xs with
    | nil => exact nil
    | cons u r =>
      by_cases hp : needle <+: u :: r
      · obtain ⟨m, hm⟩ := hp
        rw [← hm]
        have hlen : m.length < n := by
          have := List.length_pos_of_ne_nil hne
          rw [← hn, ← hm, List.length_append]
          omega
        exact hit m (ih m.length hlen m rfl)
      · exact miss u r hp (ih r.length (by simp [← hn]) r rfl)

/-! ## What the pattern passes keep -/

theorem getLast?_cons_or {α : Type} (u : α) (l : List α) (o : Option α) :
    (u :: l).getLast?.or o = l.getLast?.or (some u) := by
  cases h : l.getLast? with
  | none => rw [List.getLast?_eq_none_iff.1 h]; rfl
  | some x => simp [List.getLast?_cons, h]

/-- The bearer pass keeps a prefix without a `B`. -/
theorem bearerPass_append_of_ne {l : List UInt16} (hl : ∀ u ∈ l, u ≠ unit 'B')
    (prev : Option UInt16) (m : List UInt16) :
    bearerPass prev (l ++ m) = l ++ bearerPass (l.getLast?.or prev) m := by
  induction l generalizing prev with
  | nil => simp
  | cons u l ih =>
    rw [List.cons_append, bearerPass_cons_of_none (bearerAt_of_ne _ (hl u (by simp))),
      ih (fun w hw => hl w (by simp [hw])), getLast?_cons_or]
    rfl

theorem keyPass_head? (prev : Option UInt16) (xs : List UInt16) :
    (keyPass prev xs).head? = xs.head? := by
  cases xs with
  | nil => rfl
  | cons u r =>
    cases ha : assignmentAt prev (u :: r) with
    | none => simp [keyPass_cons_of_none ha]
    | some a =>
      obtain ⟨key, v⟩ := a
      obtain ⟨hxs, hk, -, -⟩ := assignmentAt_eq_some_iff.1 ha
      obtain ⟨k0, ks, rfl⟩ := List.exists_cons_of_ne_nil hk.ne
      rw [keyPass_of_assignmentAt ha, hxs]
      simp

theorem bearerPass_head? (prev : Option UInt16) (xs : List UInt16) :
    (bearerPass prev xs).head? = xs.head? := by
  cases xs with
  | nil => rfl
  | cons u r =>
    cases ha : bearerAt prev (u :: r) with
    | none => simp [bearerPass_cons_of_none ha]
    | some b =>
      obtain ⟨hxs, -, -⟩ := bearerAt_eq_some_iff.1 ha
      rw [bearerPass_of_bearerAt ha, hxs]
      simp [Bearing.units, bearer_eq_cons]

/-- The bearer pass keeps whether the text begins with a word without `B`. -/
theorem prefix_bearerPass_iff {l : List UInt16} (hl : ∀ w ∈ l, w ≠ unit 'B')
    (prev : Option UInt16) (xs : List UInt16) : l <+: bearerPass prev xs ↔ l <+: xs := by
  induction l generalizing prev xs with
  | nil => simp
  | cons c l ih =>
    have hc : c ≠ unit 'B' := hl c (by simp)
    cases xs with
    | nil => simp
    | cons x xs =>
      by_cases hx : x = unit 'B'
      · subst hx
        have hhead := bearerPass_head? prev (unit 'B' :: xs)
        obtain ⟨y, ys, hy⟩ := List.exists_cons_of_ne_nil
          (show bearerPass prev (unit 'B' :: xs) ≠ [] from fun h => by simp [h] at hhead)
        rw [hy] at hhead ⊢
        simp only [List.head?_cons, Option.some.injEq] at hhead
        subst hhead
        simp [List.cons_prefix_cons, hc]
      · rw [bearerPass_cons_of_none (bearerAt_of_ne _ hx), List.cons_prefix_cons,
          List.cons_prefix_cons, ih (fun w hw => hl w (by simp [hw]))]

/-- The bearer pass keeps the first run of token characters: a match inside it ends
where the run ends, since blanks follow `Bearer`. -/
theorem takeWhile_bearerPass (prev : Option UInt16) (xs : List UInt16) :
    (bearerPass prev xs).takeWhile isTokenUnit = xs.takeWhile isTokenUnit := by
  refine bearerPass_induction (motive := fun prev xs =>
    (bearerPass prev xs).takeWhile isTokenUnit = xs.takeWhile isTokenUnit) (fun _ => rfl)
    ?_ ?_ prev xs
  · intro prev xs b hb _
    obtain ⟨rfl, -, hw⟩ := bearerAt_eq_some_iff.1 hb
    obtain ⟨w, ws, hws⟩ := List.exists_cons_of_ne_nil hw.blanks_ne
    have hwt : isTokenUnit w = false := isTokenUnit_of_isBlankUnit (hw.blanks w (by simp [hws]))
    have hbt : ∀ u ∈ bearer, isTokenUnit u = true := fun u hu =>
      isTokenUnit_of_isKeyUnit (isKeyUnit_of_mem_bearer u hu)
    rw [bearerPass_of_bearerAt hb, Bearing.units, hws]
    simp only [List.append_assoc, List.takeWhile_append_of_pos hbt, List.cons_append]
    rw [List.takeWhile_cons_of_neg (by decide), List.takeWhile_cons_of_neg (by simp [hwt])]
  · intro prev u r hb ih
    rw [bearerPass_cons_of_none hb]
    by_cases hu : isTokenUnit u = true
    · simp [List.takeWhile_cons_of_pos hu, ih]
    · simp [List.takeWhile_cons_of_neg hu]

/-! ## Where the first run of value characters ends -/

/-- Whether the first run of value characters of a text is empty, and whether a double
quote ends it: all `valueAfter` asks of the text after a separator. -/
def valueEnd (xs : List UInt16) : Bool × Bool :=
  ((xs.span isValueUnit).1.isEmpty, (xs.span isValueUnit).2.head? == some (unit '"'))

section ValueEnd

variable {u : UInt16} {xs ys : List UInt16}

theorem valueEnd_cons_of_value (hu : isValueUnit u = true) :
    valueEnd (u :: xs) = (false, (valueEnd xs).2) := by
  simp [valueEnd, List.span_eq_takeWhile_dropWhile, List.takeWhile_cons_of_pos hu,
    List.dropWhile_cons_of_pos hu]

theorem valueEnd_cons_of_not_value (hu : isValueUnit u = false) :
    valueEnd (u :: xs) = (true, u == unit '"') := by
  simp [valueEnd, List.span_eq_takeWhile_dropWhile, hu]

theorem valueEnd_of_head (h : ∀ w ∈ xs.head?, isValueUnit w = false) :
    valueEnd xs = (true, xs.head? == some (unit '"')) := by
  cases xs with
  | nil => rfl
  | cons w xs => simp [valueEnd_cons_of_not_value (h w rfl)]

/-- Behind a nonempty run of value characters only the end of the rest matters. -/
theorem valueEnd_append_of_values {l : List UInt16} (hne : l ≠ [])
    (hl : ∀ w ∈ l, isValueUnit w = true) : valueEnd (l ++ xs) = (false, (valueEnd xs).2) := by
  induction l with
  | nil => exact absurd rfl hne
  | cons w l ih =>
    rw [List.cons_append, valueEnd_cons_of_value (hl w (by simp))]
    cases l with
    | nil => rfl
    | cons w' l => rw [ih (by simp) (fun x hx => hl x (by simp [hx]))]

/-- Behind a unit that is no value character nothing matters. -/
theorem valueEnd_append_of_not_value {l : List UInt16} (hl : ∃ w ∈ l, isValueUnit w = false) :
    valueEnd (l ++ xs) = valueEnd (l ++ ys) := by
  induction l with
  | nil => simp at hl
  | cons w l ih =>
    simp only [List.cons_append]
    cases hw : isValueUnit w
    · rw [valueEnd_cons_of_not_value hw, valueEnd_cons_of_not_value hw]
    · have hl' : ∃ x ∈ l, isValueUnit x = false := by
        obtain ⟨x, hx, hxv⟩ := hl
        rcases List.mem_cons.1 hx with rfl | hx
        · simp [hw] at hxv
        · exact ⟨x, hx, hxv⟩
      rw [valueEnd_cons_of_value hw, valueEnd_cons_of_value hw, ih hl']

/-- Replacing a nonempty run of value characters by another, with the same end after
it, keeps where the first run ends. -/
theorem valueEnd_replace {s a a' b b' : List UInt16} (ha : a ≠ []) (ha' : a' ≠ [])
    (hav : ∀ w ∈ a, isValueUnit w = true) (hav' : ∀ w ∈ a', isValueUnit w = true)
    (hb : (valueEnd b).2 = (valueEnd b').2) :
    valueEnd (s ++ a ++ b) = valueEnd (s ++ a' ++ b') := by
  by_cases hs : ∀ w ∈ s, isValueUnit w = true
  · have hsa : ∀ w ∈ s ++ a, isValueUnit w = true := by simp only [List.mem_append]; grind
    have hsa' : ∀ w ∈ s ++ a', isValueUnit w = true := by simp only [List.mem_append]; grind
    rw [valueEnd_append_of_values (by simp [ha]) hsa, valueEnd_append_of_values (by simp [ha']) hsa',
      hb]
  · push Not at hs
    simp only [Bool.not_eq_true] at hs
    rw [List.append_assoc, List.append_assoc, valueEnd_append_of_not_value hs]

end ValueEnd

theorem valueEnd_keyPass (prev : Option UInt16) (xs : List UInt16) :
    valueEnd (keyPass prev xs) = valueEnd xs := by
  refine keyPass_induction (motive := fun prev xs => valueEnd (keyPass prev xs) = valueEnd xs)
    (fun _ => rfl) ?_ ?_ prev xs
  · intro prev xs key v ha _
    obtain ⟨rfl, -, -, hv⟩ := assignmentAt_eq_some_iff.1 ha
    have hout : keyPass prev (key ++ v.units) =
        key ++ v.sep ++ v.quote ++ redacted ++ (v.quote ++ keyPass none v.rest) := by
      rw [keyPass_of_assignmentAt ha]
      simp only [List.append_assoc]
    have hin : key ++ v.units = key ++ v.sep ++ v.quote ++ v.value ++ (v.quote ++ v.rest) := by
      simp only [Valued.units, List.append_assoc]
    rw [hout, hin, valueEnd_replace (by decide) hv.value_ne isValueUnit_of_mem_redacted hv.value]
    rcases hv.quote with hq | hq
    · rw [hq, List.nil_append, List.nil_append, valueEnd_of_head (hv.ends hq),
        valueEnd_of_head (by rw [keyPass_head?]; exact hv.ends hq), keyPass_head?]
    · rw [hq, List.singleton_append, List.singleton_append,
        valueEnd_cons_of_not_value (by decide), valueEnd_cons_of_not_value (by decide)]
  · intro prev u r ha ih
    rw [keyPass_cons_of_none ha]
    cases hu : isValueUnit u
    · rw [valueEnd_cons_of_not_value hu, valueEnd_cons_of_not_value hu]
    · rw [valueEnd_cons_of_value hu, valueEnd_cons_of_value hu, ih]

theorem valueEnd_bearerPass (prev : Option UInt16) (xs : List UInt16) :
    valueEnd (bearerPass prev xs) = valueEnd xs := by
  refine bearerPass_induction (motive := fun prev xs => valueEnd (bearerPass prev xs) = valueEnd xs)
    (fun _ => rfl) ?_ ?_ prev xs
  · intro prev xs b hb _
    obtain ⟨rfl, -, hw⟩ := bearerAt_eq_some_iff.1 hb
    obtain ⟨w, ws, hws⟩ := List.exists_cons_of_ne_nil hw.blanks_ne
    have hwb : Text.isBlankUnit w = true := hw.blanks w (by simp [hws])
    have hwq : (w == unit '"') = false := by
      cases h : w == unit '"'
      · rfl
      · rw [beq_iff_eq.1 h] at hwb; exact absurd hwb (by decide)
    have hbv : ∀ u ∈ bearer, isValueUnit u = true := fun u hu =>
      isValueUnit_of_isKeyUnit (isKeyUnit_of_mem_bearer u hu)
    rw [bearerPass_of_bearerAt hb, Bearing.units, hws]
    simp only [List.append_assoc]
    rw [valueEnd_append_of_values (by decide) hbv, valueEnd_append_of_values (by decide) hbv,
      List.singleton_append, List.cons_append, valueEnd_cons_of_not_value (by decide),
      valueEnd_cons_of_not_value (isValueUnit_of_isBlankUnit hwb), hwq]
    rfl
  · intro prev u r hb ih
    rw [bearerPass_cons_of_none hb]
    cases hu : isValueUnit u
    · rw [valueEnd_cons_of_not_value hu, valueEnd_cons_of_not_value hu]
    · rw [valueEnd_cons_of_value hu, valueEnd_cons_of_value hu, ih]

/-! ## No value appears where none was -/

/-- What both pattern passes keep of a text, enough to see that no value can be read
where none could: a unit where no key can begin is kept, the first unit is kept, and the
first run of value characters ends as it did. -/
structure KeepsValueShape (pass : Option UInt16 → List UInt16 → List UInt16) : Prop where
  keep : ∀ prev u xs, isKeyUnit u = false → pass prev (u :: xs) = u :: pass (some u) xs
  head : ∀ prev xs, (pass prev xs).head? = xs.head?
  valueEnd : ∀ prev xs, valueEnd (pass prev xs) = valueEnd xs

theorem keyPass_keepsValueShape : KeepsValueShape keyPass where
  keep _ _ _ hu := keyPass_cons_of_none (assignmentAt_of_not_key _ hu)
  head := keyPass_head?
  valueEnd := valueEnd_keyPass

theorem bearerPass_keepsValueShape : KeepsValueShape bearerPass where
  keep _ u _ hu := bearerPass_cons_of_none (bearerAt_of_ne _ (by rintro rfl; exact absurd hu (by decide)))
  head := bearerPass_head?
  valueEnd := valueEnd_bearerPass

section Keeps

variable {pass : Option UInt16 → List UInt16 → List UInt16} (hp : KeepsValueShape pass)
include hp

theorem KeepsValueShape.nil (prev : Option UInt16) : pass prev [] = [] :=
  List.head?_eq_none_iff.1 (hp.head prev [])

theorem KeepsValueShape.append {l : List UInt16} (hl : ∀ u ∈ l, isKeyUnit u = false)
    (prev : Option UInt16) (m : List UInt16) :
    pass prev (l ++ m) = l ++ pass (l.getLast?.or prev) m := by
  induction l generalizing prev with
  | nil => simp
  | cons u l ih =>
    rw [List.cons_append, hp.keep _ _ _ (hl u (by simp)), ih (fun w hw => hl w (by simp [hw])),
      getLast?_cons_or]
    rfl

theorem KeepsValueShape.exists_cons (prev : Option UInt16) (u : UInt16) (xs : List UInt16) :
    ∃ l, pass prev (u :: xs) = u :: l := by
  have hu := hp.head prev (u :: xs)
  cases hpu : pass prev (u :: xs) with
  | nil => simp [hpu] at hu
  | cons u' l =>
    simp only [hpu, List.head?_cons, Option.some.injEq] at hu
    exact ⟨l, by rw [hu]⟩

/-- A run of blanks at the front stays the run of blanks at the front. -/
theorem KeepsValueShape.span_blank (prev : Option UInt16) (xs : List UInt16) :
    (pass prev xs).span Text.isBlankUnit =
      ((xs.span Text.isBlankUnit).1,
        pass ((xs.span Text.isBlankUnit).1.getLast?.or prev) (xs.span Text.isBlankUnit).2) := by
  rcases hs : xs.span Text.isBlankUnit with ⟨ws, rest⟩
  obtain ⟨rfl, hws, hrest⟩ := eq_append_of_span hs
  rw [hp.append (fun u hu => isKeyUnit_of_isBlankUnit (hws u hu)), span_append hws
    (by rw [hp.head]; exact hrest)]

/-- Where no value follows, none follows after the pass either. -/
theorem valueAfter_eq_none_of_keepsValueShape {xs : List UInt16} (h : valueAfter xs = none)
    (prev : Option UInt16) : valueAfter (pass prev xs) = none := by
  unfold valueAfter at h ⊢
  rw [hp.span_blank]
  rcases hs : xs.span Text.isBlankUnit with ⟨ws, rest⟩
  rw [hs] at h
  simp only at h ⊢
  generalize ws.getLast?.or prev = q
  cases rest with
  | nil => simp [hp.nil]
  | cons c rest =>
    by_cases hc : (c == unit '=' || c == unit ':') = true
    · have hck : isKeyUnit c = false := by
        simp only [Bool.or_eq_true, beq_iff_eq] at hc
        rcases hc with rfl | rfl <;> decide
      rw [hp.keep _ _ _ hck]
      simp only [hc, if_true] at h ⊢
      rw [hp.span_blank]
      rcases hs' : rest.span Text.isBlankUnit with ⟨ws', rest'⟩
      rw [hs'] at h
      simp only at h ⊢
      generalize ws'.getLast?.or (some c) = q'
      cases rest' with
      | nil => simp [hp.nil]
      | cons d inner =>
        by_cases hd : (d == unit '"') = true
        · -- quoted: the run inside keeps its emptiness and whether a quote closes it
          rw [beq_iff_eq.1 hd] at h ⊢
          rw [hp.keep _ _ _ (by decide)]
          simp only [beq_self_eq_true, if_true] at h ⊢
          have he := hp.valueEnd (some (unit '"')) inner
          simp only [valueEnd, Prod.mk.injEq] at he
          revert h he
          cases (pass (some (unit '"')) inner).span isValueUnit with
          | mk value' after' =>
            cases inner.span isValueUnit with
            | mk value after =>
              simp only
              intro h he
              cases after' with
              | nil => rfl
              | cons e' after' =>
                cases after with
                | nil => simp_all
                | cons e after =>
                  have hv_iff : value' = [] ↔ value = [] := by
                    rw [← List.isEmpty_iff, ← List.isEmpty_iff, he.1]
                  have he_iff : e' = unit '"' ↔ e = unit '"' := by simpa using he.2
                  simp only [Bool.and_eq_true, Bool.not_eq_true', List.isEmpty_eq_false_iff,
                    beq_iff_eq] at h ⊢
                  split_ifs at h with hh
                  rw [if_neg]
                  rintro ⟨hv', he'⟩
                  exact hh ⟨fun hv => hv' (hv_iff.2 hv), he_iff.1 he'⟩
        · -- unquoted: nothing was read, so the run is empty and stays empty
          obtain ⟨inner', hinner'⟩ := hp.exists_cons q' d inner
          rw [hinner']
          simp only [hd, Bool.false_eq_true, if_false] at h ⊢
          have he := hp.valueEnd q' (d :: inner)
          rw [hinner'] at he
          simp only [valueEnd, Prod.mk.injEq] at he
          split_ifs at h with hv
          split_ifs with hv'
          · rfl
          · exact absurd (he.1 ▸ hv) (by simpa using hv')
    · obtain ⟨rest', hrest'⟩ := hp.exists_cons q c rest
      rw [hrest']
      simp [hc]

end Keeps

end LaneGate.Redact
