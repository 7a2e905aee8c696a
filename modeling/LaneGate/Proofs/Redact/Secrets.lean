import LaneGate.Proofs.Redact.Passes
/-!
# Secret values after scrubbing

Each pass of `scrub` keeps the text it scans except where it writes: the first two write
`[REDACTED]` in place of a part of the text, the bearer pass writes a space and
`[REDACTED]` after a `Bearer` it keeps (`Rewrites`). So a piece of the output either was
in the input already or shares a position with something a pass wrote
(`infix_of_rewrites`). The pass of a secret value leaves no occurrence of it outside
what it wrote (`overlaps_of_infix_secretPass`), and later passes add none; hence a
configured secret survives scrubbing only by overlapping `[REDACTED]` or by ending in
`Bearer ` (`Proofs/Redact/Scrub`).

Each secret is looked for through the pattern `escapePattern` builds. That pattern is
literal and stands for the value itself (`literalOf_escapePattern`).
-/

namespace LaneGate.Redact

section Occurrences

variable {α : Type}

/-- In some text, an occurrence of `s` and an occurrence of `r` share a position. -/
def Overlaps (s r : List α) : Prop :=
  ∃ x y c d i, x ++ s ++ y = c ++ r ++ d ∧ x.length ≤ i ∧ i < x.length + s.length ∧
    c.length ≤ i ∧ i < c.length + r.length

/-- A list that shares no element with `r` overlaps no occurrence of it. -/
theorem not_overlaps_of_disjoint {s r : List α} (h : ∀ u ∈ s, u ∉ r) : ¬Overlaps s r := by
  rintro ⟨x, y, c, d, i, hT, h1, h2, h3, h4⟩
  have hs : (x ++ s ++ y)[i]? = s[i - x.length]? := by
    rw [List.append_assoc, List.getElem?_append_right h1, List.getElem?_append_left (by omega)]
  have hr : (c ++ r ++ d)[i]? = r[i - c.length]? := by
    rw [List.append_assoc, List.getElem?_append_right h3, List.getElem?_append_left (by omega)]
  rw [hT, hr] at hs
  obtain ⟨u, hu⟩ : ∃ u, r[i - c.length]? = some u := ⟨_, List.getElem?_eq_getElem (by omega)⟩
  exact h u (List.mem_of_getElem? (hs ▸ hu)) (List.mem_of_getElem? hu)

/-- An occurrence of `s` shares a position with an occurrence of `w` that follows `p`. -/
def MeetsAfter (p w s : List α) : Prop :=
  ∃ x y c d i, x ++ s ++ y = c ++ p ++ w ++ d ∧ x.length ≤ i ∧ i < x.length + s.length ∧
    c.length + p.length ≤ i ∧ i < c.length + p.length + w.length

theorem MeetsAfter.overlaps {w s : List α} (h : MeetsAfter [] w s) : Overlaps s w := by
  obtain ⟨x, y, c, d, i, hT, h1, h2, h3, h4⟩ := h
  exact ⟨x, y, c, d, i, by simpa using hT, h1, h2, by simpa using h3, by simpa using h4⟩

theorem infix_of_append_eq {x s y a b : List α} (h : x ++ s ++ y = a ++ b)
    (hx : a.length ≤ x.length) : s <:+: b := by
  rw [List.append_assoc, List.append_eq_append_iff] at h
  rcases h with ⟨a', rfl, hb⟩ | ⟨c', rfl, rfl⟩
  · obtain rfl : a' = [] := by
      simp only [List.length_append] at hx; exact List.eq_nil_of_length_eq_zero (by omega)
    exact ⟨[], y, by simpa using hb⟩
  · exact ⟨c', y, by simp⟩

theorem infix_of_append_eq_left {x s y a b : List α} (h : x ++ s ++ y = a ++ b)
    (hx : x.length + s.length ≤ a.length) : s <:+: a := by
  rw [List.append_eq_append_iff] at h
  rcases h with ⟨a', rfl, -⟩ | ⟨c', hc, -⟩
  · exact ⟨x, a', rfl⟩
  · have hlen := congrArg List.length hc
    simp only [List.length_append] at hlen
    obtain rfl : c' = [] := List.eq_nil_of_length_eq_zero (by omega)
    exact ⟨x, [], by simpa using hc⟩

theorem prefix_of_append_eq {t z a b : List α} (h : t ++ z = a ++ b) (ht : t.length ≤ a.length) :
    t <+: a := by
  rw [List.append_eq_append_iff] at h
  rcases h with ⟨a', rfl, -⟩ | ⟨c', rfl, -⟩
  · exact ⟨a', rfl⟩
  · obtain rfl : c' = [] := by
      simp only [List.length_append] at ht; exact List.eq_nil_of_length_eq_zero (by omega)
    simp

end Occurrences

/-! ## Texts rewritten by a pass -/

/-- `Rewrites p w xs ys`: `ys` is `xs` with some parts, each beginning with `p`, replaced
by `p` followed by `w`, left to right. -/
inductive Rewrites (p w : List UInt16) : List UInt16 → List UInt16 → Prop
  /-- The empty text. -/
  | nil : Rewrites p w [] []
  /-- A unit is kept. -/
  | keep (u : UInt16) {xs ys : List UInt16} : Rewrites p w xs ys → Rewrites p w (u :: xs) (u :: ys)
  /-- A part after `p` is replaced by `w`. -/
  | cut (v : List UInt16) {xs ys : List UInt16} :
      Rewrites p w xs ys → Rewrites p w (p ++ v ++ xs) (p ++ w ++ ys)

section Rewrites

variable {p w : List UInt16}

theorem Rewrites.keep_append {xs ys : List UInt16} (h : Rewrites p w xs ys) :
    ∀ l, Rewrites p w (l ++ xs) (l ++ ys)
  | [] => h
  | u :: l => .keep u (h.keep_append l)

/-- A prefix of the rewritten text is a prefix of the text, or reaches into a written
`w`. -/
theorem Rewrites.prefix_or_reaches {xs ys : List UInt16} (h : Rewrites p w xs ys) {t : List UInt16}
    (ht : t <+: ys) : t <+: xs ∨ ∃ c d, ys = c ++ p ++ w ++ d ∧ c.length + p.length < t.length := by
  induction h generalizing t with
  | nil => exact .inl ht
  | keep u h ih =>
    rcases List.prefix_cons_iff.1 ht with rfl | ⟨t', rfl, ht'⟩
    · exact .inl List.nil_prefix
    · rcases ih ht' with h' | ⟨c, d, rfl, hc⟩
      · exact .inl (List.cons_prefix_cons.2 ⟨rfl, h'⟩)
      · exact .inr ⟨u :: c, d, rfl, by simp; omega⟩
  | @cut v xs ys h ih =>
    obtain ⟨z, hz⟩ := ht
    by_cases hlen : t.length ≤ p.length
    · have hp := prefix_of_append_eq (b := w ++ ys) (by simpa [List.append_assoc] using hz) hlen
      exact .inl (hp.trans ((List.prefix_append p v).trans (List.prefix_append _ xs)))
    · exact .inr ⟨[], ys, by simp, by simp; omega⟩

/-- A piece of the rewritten text was a piece of the text, or shares a position with a
written `w`. -/
theorem infix_of_rewrites {xs ys : List UInt16} (h : Rewrites p w xs ys) (hw : w ≠ [])
    {s : List UInt16} (hs : s <:+: ys) : s <:+: xs ∨ MeetsAfter p w s := by
  have hw1 := List.length_pos_of_ne_nil hw
  induction h generalizing s with
  | nil => exact .inl hs
  | keep u h ih =>
    rcases List.infix_cons_iff.1 hs with hp | hs'
    · rcases List.prefix_cons_iff.1 hp with rfl | ⟨t, rfl, ht⟩
      · exact .inl List.nil_infix
      · rcases h.prefix_or_reaches ht with h' | ⟨c, d, rfl, hc⟩
        · exact .inl (List.cons_prefix_cons.2 ⟨rfl, h'⟩).isInfix
        · -- the occurrence at the front reaches into a written `w`
          obtain ⟨z, hz⟩ := hp
          exact .inr ⟨[], z, u :: c, d, c.length + 1 + p.length, by simpa using hz, by simp,
            by simp; omega, by simp, by simp; omega⟩
    · rcases ih hs' with h' | h'
      · exact .inl (h'.trans (List.suffix_cons u _).isInfix)
      · exact .inr h'
  | @cut v xs ys h ih =>
    by_cases hne : s = []
    · subst hne
      exact .inl List.nil_infix
    have hs1 := List.length_pos_of_ne_nil hne
    obtain ⟨x, y, hxy⟩ := hs
    by_cases hafter : (p ++ w).length ≤ x.length
    · -- the occurrence starts after what was written
      rcases ih (infix_of_append_eq (a := p ++ w) (b := ys) (by simpa [List.append_assoc] using hxy)
        hafter)
        with h' | h'
      · exact .inl (h'.trans (List.suffix_append (p ++ v) xs).isInfix)
      · exact .inr h'
    · by_cases hbefore : x.length + s.length ≤ p.length
      · -- the occurrence lies in the kept `p`
        have hp := infix_of_append_eq_left (b := w ++ ys) (by simpa [List.append_assoc] using hxy)
          hbefore
        exact .inl (hp.trans ((List.prefix_append p v).trans (List.prefix_append _ xs)).isInfix)
      · -- the occurrence shares a position with the written `w`
        simp only [List.length_append] at hafter
        exact .inr ⟨x, y, [], ys, max x.length p.length, by simpa using hxy, by omega, by omega,
          by simp only [List.length_nil]; omega, by simp only [List.length_nil]; omega⟩

end Rewrites

/-! ## The three passes rewrite -/

theorem secretPass_rewrites {needle : List UInt16} (hne : needle ≠ []) (xs : List UInt16) :
    Rewrites [] redacted xs (secretPass needle xs) := by
  refine secretPass_induction hne (motive := fun xs => Rewrites [] redacted xs (secretPass needle xs))
    .nil ?_ ?_ xs
  · intro m h
    rw [secretPass_append hne]
    simpa using Rewrites.cut needle h
  · intro u r hp h
    rw [secretPass_cons (by rintro ⟨-, h'⟩; exact hp h')]
    exact .keep u h

theorem keyPass_rewrites (prev : Option UInt16) (xs : List UInt16) :
    Rewrites [] redacted xs (keyPass prev xs) := by
  refine keyPass_induction (motive := fun prev xs => Rewrites [] redacted xs (keyPass prev xs))
    (fun _ => .nil) ?_ ?_ prev xs
  · intro prev xs key v ha h
    obtain ⟨rfl, -, -, -⟩ := assignmentAt_eq_some_iff.1 ha
    rw [keyPass_of_assignmentAt ha, Valued.units]
    have := (Rewrites.cut (p := []) v.value (h.keep_append v.quote)).keep_append
      (key ++ v.sep ++ v.quote)
    simpa [List.append_assoc] using this
  · intro prev u r _ h
    rw [keyPass_cons_of_none ‹_›]
    exact .keep u h

theorem bearerPass_rewrites (prev : Option UInt16) (xs : List UInt16) :
    Rewrites bearer (unit ' ' :: redacted) xs (bearerPass prev xs) := by
  refine bearerPass_induction
    (motive := fun prev xs => Rewrites bearer (unit ' ' :: redacted) xs (bearerPass prev xs))
    (fun _ => .nil) ?_ ?_ prev xs
  · intro prev xs b hb h
    obtain ⟨rfl, -, -⟩ := bearerAt_eq_some_iff.1 hb
    rw [bearerPass_of_bearerAt hb, Bearing.units]
    simpa [List.append_assoc] using Rewrites.cut (b.blanks ++ b.token) h
  · intro prev u r _ h
    rw [bearerPass_cons_of_none ‹_›]
    exact .keep u h

/-- The pass of a secret value leaves a text without it as it is. -/
theorem secretPass_eq_self {needle : List UInt16} :
    ∀ {xs : List UInt16}, ¬needle <:+: xs → secretPass needle xs = xs
  | [], _ => rfl
  | u :: r, h => by
    rw [secretPass_cons (fun hp => h hp.2.isInfix),
      secretPass_eq_self (fun hr => h (hr.trans (List.suffix_cons u r).isInfix))]

/-- The pass of a secret value leaves no occurrence of it outside what it wrote. -/
theorem overlaps_of_infix_secretPass {needle : List UInt16} (hne : needle ≠ []) (xs : List UInt16)
    (h : needle <:+: secretPass needle xs) : Overlaps needle redacted := by
  have hn1 := List.length_pos_of_ne_nil hne
  have hR : 0 < redacted.length := by decide
  revert h
  refine secretPass_induction hne
    (motive := fun xs => needle <:+: secretPass needle xs → Overlaps needle redacted) ?_ ?_ ?_ xs
  · intro h
    exact absurd (List.eq_nil_of_infix_nil h) hne
  · intro m ih h
    rw [secretPass_append hne] at h
    obtain ⟨x, y, hxy⟩ := h
    by_cases hafter : redacted.length ≤ x.length
    · exact ih (infix_of_append_eq hxy hafter)
    · exact ⟨x, y, [], _, x.length, by simpa using hxy, le_rfl, by omega, by simp, by simp; omega⟩
  · intro u r hp ih h
    rw [secretPass_cons (by rintro ⟨-, h'⟩; exact hp h')] at h
    rcases List.infix_cons_iff.1 h with hpre | hin
    · -- at the front it was no occurrence, so it reaches into a written `[REDACTED]`
      rcases ((secretPass_rewrites hne r).keep u).prefix_or_reaches hpre with h' | ⟨c, d, hcd, hc⟩
      · exact absurd h' hp
      · obtain ⟨z, hz⟩ := hpre
        exact ⟨[], z, c, d, c.length, by simpa [hcd] using hz, by simp, by simpa using hc,
          le_rfl, by omega⟩
    · exact ih hin

/-- Where a secret survives the bearer pass it overlaps `[REDACTED]` or ends in `Bearer `,
unless it is shorter than `Bearer `. -/
theorem MeetsAfter.overlaps_or_bearer {s : List UInt16} (h : MeetsAfter bearer (unit ' ' :: redacted) s) :
    Overlaps s redacted ∨ bearer ++ [unit ' '] <:+ s ∨ s.length ≤ 7 := by
  obtain ⟨x, y, c, d, i, hT, h1, h2, h3, h4⟩ := h
  have hb : bearer.length = 6 := by decide
  have hR : redacted.length = 10 := by decide
  simp only [hb, List.length_cons, hR] at h3 h4
  have hT' : x ++ s ++ y = (c ++ bearer ++ [unit ' ']) ++ redacted ++ d := by simpa using hT
  by_cases hi : c.length + 6 < i
  · -- the shared position lies in `[REDACTED]`
    exact .inl ⟨x, y, c ++ bearer ++ [unit ' '], d, i, hT', h1, h2, by simp [hb]; omega,
      by simp [hb, hR]; omega⟩
  · by_cases hend : c.length + 7 < x.length + s.length
    · -- the occurrence goes on past the space into `[REDACTED]`
      exact .inl ⟨x, y, c ++ bearer ++ [unit ' '], d, c.length + 7, hT', by omega, hend,
        by simp [hb], by simp [hb, hR]⟩
    · -- the occurrence ends at the space
      by_cases hx : x.length ≤ c.length
      · right; left
        have hxs : x ++ s = c ++ (bearer ++ [unit ' ']) := by
          have hT'' : (x ++ s) ++ y = (c ++ (bearer ++ [unit ' '])) ++ (redacted ++ d) := by
            simpa [List.append_assoc] using hT'
          exact (List.append_inj hT'' (by simp [hb]; omega)).1
        rcases List.append_eq_append_iff.1 hxs with ⟨a', -, hs⟩ | ⟨c', hx', hs⟩
        · exact ⟨a', hs.symm⟩
        · have hc' : c' = [] := by
            have := congrArg List.length hx'
            simp only [List.length_append] at this
            exact List.eq_nil_of_length_eq_zero (by omega)
          subst hc'
          exact ⟨[], by simpa using hs⟩
      · right; right
        omega

/-! ## The patterns of the secret values -/

theorem literalOf_cons_of_ne {b : UInt16} (hb : b ≠ unit '\\') (xs : List UInt16) :
    literalOf (b :: xs) = b :: literalOf xs := by
  cases xs with
  | nil => rfl
  | cons u xs => simp [literalOf, hb]

theorem isLiteral_cons_of_ne {b : UInt16} (hb : b ≠ unit '\\') (xs : List UInt16) :
    isLiteral (b :: xs) = (!isSyntaxUnit b && isLiteral xs) := by
  cases xs with
  | nil => simp [isLiteral]
  | cons u xs => simp [isLiteral, hb]

/-- The pattern built for a secret value is literal, and it stands for the value: it
matches exactly the occurrences of the value. -/
theorem literalOf_escapePattern (v : List UInt16) :
    isLiteral (escapePattern v) = true ∧ literalOf (escapePattern v) = v := by
  induction v with
  | nil => exact ⟨rfl, rfl⟩
  | cons u v ih =>
    by_cases hu : isSyntaxUnit u = true
    · have hpat : escapePattern (u :: v) = unit '\\' :: u :: escapePattern v := by
        simp [escapePattern, hu]
      rw [hpat]
      simp [isLiteral, literalOf, hu, ih.1, ih.2]
    · -- a character outside the syntax set is not the backslash either
      have hb : u ≠ unit '\\' := by rintro rfl; exact hu (by decide)
      have hpat : escapePattern (u :: v) = u :: escapePattern v := by
        simp [escapePattern, hu]
      rw [hpat, literalOf_cons_of_ne hb, isLiteral_cons_of_ne hb]
      simp [hu, ih.1, ih.2]

/-! ## The secret values -/

theorem mem_insertLonger {v w : Text} {ws : List Text} : w ∈ insertLonger v ws ↔ w = v ∨ w ∈ ws := by
  induction ws with
  | nil => simp [insertLonger]
  | cons x ws ih =>
    unfold insertLonger
    split_ifs
    · simp
    · simp only [List.mem_cons, ih]
      tauto

/-- The secret values are the values of the secret settings that are long enough. -/
theorem mem_secretValues {env : String → Option String} {s : Text} :
    s ∈ secretValues env ↔ ∃ k ∈ Config.secretKeys, ∃ v, env k = some v ∧
      minSecretLength ≤ Text.lengthOf v ∧ s = Text.ofString v := by
  have hfold : ∀ (vs acc : List Text),
      s ∈ vs.foldl (fun acc v => insertLonger v acc) acc ↔ s ∈ vs ∨ s ∈ acc := by
    intro vs
    induction vs with
    | nil => simp
    | cons v vs ih => intro acc; simp [ih, mem_insertLonger]; tauto
  simp only [secretValues, hfold, List.not_mem_nil, or_false, List.mem_filterMap,
    Option.bind_eq_some_iff]
  constructor
  · rintro ⟨k, hk, v, hv, hs⟩
    split_ifs at hs with hlen
    exact ⟨k, hk, v, hv, hlen, (Option.some.inj hs).symm⟩
  · rintro ⟨k, hk, v, hv, hlen, rfl⟩
    exact ⟨k, hk, v, hv, by simp [hlen]⟩

/-- After the passes of the secret values each of them occurs only overlapping a written
`[REDACTED]`. -/
theorem overlaps_of_infix_secretPasses {needles : List (List UInt16)}
    (hne : ∀ n ∈ needles, n ≠ []) (xs : List UInt16) {n : List UInt16} (hn : n ∈ needles)
    (h : n <:+: needles.foldl (fun xs n => secretPass n xs) xs) : Overlaps n redacted := by
  have hlater : ∀ (ms : List (List UInt16)), (∀ m ∈ ms, m ≠ []) → ∀ ys,
      n <:+: ms.foldl (fun xs n => secretPass n xs) ys → n <:+: ys ∨ Overlaps n redacted := by
    intro ms
    induction ms with
    | nil => exact fun _ _ h => .inl h
    | cons m ms ih =>
      intro hms ys h
      rcases ih (fun m' hm' => hms m' (by simp [hm'])) _ h with h' | h'
      · rcases infix_of_rewrites (secretPass_rewrites (hms m (by simp)) ys) (by decide) h' with
          h'' | h''
        · exact .inl h''
        · exact .inr h''.overlaps
      · exact .inr h'
  obtain ⟨before, after, rfl⟩ := List.append_of_mem hn
  rw [List.foldl_append, List.foldl_cons] at h
  rcases hlater after (fun m hm => hne m (by simp [hm])) _ h with h' | h'
  · exact overlaps_of_infix_secretPass (hne n (by simp)) _ h'
  · exact h'

end LaneGate.Redact
