import LaneGate.Proofs.Json.Strings
import LaneGate.Proofs.Json.Numbers
import Mathlib
/-!
# Values written and read back

`render` writes a value compactly and `parse` reads a JSON text. A value whose
numbers are all finite and whose objects have distinct keys, each the string of a
text, reads back from its text as itself, every negative zero read as zero
(`parse_render`). An infinite number is written `null` and reads back as `null`,
so the condition on numbers cannot be dropped; a value the reader returns always
has distinct keys of that kind (`parse_distinctKeys`), since a key read twice
keeps one place.

The reader runs on a budget of steps, one per nested read; the text's length is
enough (`ValueReads`, `ItemsRead`, `MembersRead` hold at every budget, by
induction on the budget with one step lemma each).
-/

namespace LaneGate.Json

open Text Decimal

/-! ## What reads back -/

mutual
/-- Every number of the value is finite. -/
def allFinite : Json → Bool
  | .num x => isFinite x
  | .arr xs => allFiniteItems xs
  | .obj ms => allFiniteMembers ms
  | _ => true

/-- Every number of the items is finite. -/
def allFiniteItems : List Json → Bool
  | [] => true
  | x :: xs => allFinite x && allFiniteItems xs

/-- Every number of the members' values is finite. -/
def allFiniteMembers : List (String × Json) → Bool
  | [] => true
  | (_, v) :: ms => allFinite v && allFiniteMembers ms
end

mutual
/-- Every object of the value has distinct keys, each the string of a text. -/
def distinctKeys : Json → Bool
  | .arr xs => distinctKeysItems xs
  | .obj ms => decide (ms.map Prod.fst).Nodup && distinctKeysMembers ms
  | _ => true

/-- Every object of the items has distinct keys, each the string of a text. -/
def distinctKeysItems : List Json → Bool
  | [] => true
  | x :: xs => distinctKeys x && distinctKeysItems xs

/-- Every member's key is the string of a text, and its value has distinct keys. -/
def distinctKeysMembers : List (String × Json) → Bool
  | [] => true
  | (k, v) :: ms => ((Text.ofString k).toString == k) && distinctKeys v && distinctKeysMembers ms
end

mutual
/-- The value with every negative zero made zero. -/
def unsignZeros : Json → Json
  | .num x => .num (unsignZero x)
  | .arr xs => .arr (unsignZerosItems xs)
  | .obj ms => .obj (unsignZerosMembers ms)
  | j => j

/-- The items with every negative zero made zero. -/
def unsignZerosItems : List Json → List Json
  | [] => []
  | x :: xs => unsignZeros x :: unsignZerosItems xs

/-- The members with every negative zero made zero. -/
def unsignZerosMembers : List (String × Json) → List (String × Json)
  | [] => []
  | (k, v) :: ms => (k, unsignZeros v) :: unsignZerosMembers ms
end

/-! ## The first character of a text -/

/-- A number's text starts with a minus sign or a digit. -/
theorem readNumber_head {c : Char} {cs : List Char} {p : Float × List Char}
    (h : readNumber (c :: cs) = some p) : c = '-' ∨ c.isDigit = true := by
  by_cases hm : c = '-'
  · exact Or.inl hm
  · right
    have hsign : numberSign (c :: cs) = (false, c :: cs) := by
      unfold numberSign
      split
      · rename_i heq
        exact absurd (List.cons.inj heq).1 hm
      · rfl
    unfold readNumber at h
    rw [hsign] at h
    cases hint : integerDigits (c :: cs) with
    | none => simp [hint] at h
    | some r =>
      unfold integerDigits at hint
      split at hint
      · rename_i heq
        rw [(List.cons.inj heq).1]
        rfl
      · rename_i heq
        obtain ⟨rfl, rfl⟩ := List.cons.inj heq
        split at hint
        · rename_i hdig
          simp only [Char.isDigit, Bool.and_eq_true, decide_eq_true_eq]
          exact ⟨le_trans (by decide) hdig.1, hdig.2⟩
        · cases hint
      · cases hint

theorem numberText_head {x : Float} (hx : isFinite x = true) :
    ∃ c cs, (numberText x).toList = c :: cs ∧ (c = '-' ∨ c.isDigit = true) := by
  have h := @readNumber_numberText x hx [] trivial
  rw [List.append_nil] at h
  cases hl : (numberText x).toList with
  | nil =>
    rw [hl] at h
    simp [readNumber, numberSign, integerDigits] at h
  | cons c cs =>
    rw [hl] at h
    exact ⟨c, cs, rfl, readNumber_head h⟩

theorem skipBlanks_of_head {c : Char} (cs : List Char)
    (h : c ≠ ' ' ∧ c ≠ '\t' ∧ c ≠ '\n' ∧ c ≠ '\r') : skipBlanks (c :: cs) = c :: cs := by
  obtain ⟨h1, h2, h3, h4⟩ := h
  simp [skipBlanks, h1, h2, h3, h4]

/-- A character a written value can start with. -/
def OpensValue (c : Char) : Prop :=
  c = 'n' ∨ c = 't' ∨ c = 'f' ∨ c = '"' ∨ c = '[' ∨ c = '\x7b' ∨ c = '-' ∨ c.isDigit = true

theorem OpensValue.not_blank {c : Char} (h : OpensValue c) :
    c ≠ ' ' ∧ c ≠ '\t' ∧ c ≠ '\n' ∧ c ≠ '\r' := by
  rcases h with rfl | rfl | rfl | rfl | rfl | rfl | rfl | hd
  all_goals try decide
  refine ⟨?_, ?_, ?_, ?_⟩ <;> (rintro rfl; revert hd; decide)

theorem OpensValue.not_close {c : Char} (h : OpensValue c) : c ≠ ']' ∧ c ≠ '\x7d' := by
  rcases h with rfl | rfl | rfl | rfl | rfl | rfl | rfl | hd
  all_goals try decide
  refine ⟨?_, ?_⟩ <;> (rintro rfl; revert hd; decide)

theorem toList_render_arr (xs : List Json) :
    (render (.arr xs)).toList = '[' :: ((renderItems xs).toList ++ [']']) := by
  show ("[" ++ renderItems xs ++ "]").toList = _
  rw [String.toList_append, String.toList_append]
  rfl

theorem toList_render_obj (ms : List (String × Json)) :
    (render (.obj ms)).toList = '\x7b' :: ((renderMembers ms).toList ++ ['\x7d']) := by
  show ("\x7b" ++ renderMembers ms ++ "\x7d").toList = _
  rw [String.toList_append, String.toList_append]
  rfl

theorem toList_renderItems_cons (x y : Json) (ys : List Json) :
    (renderItems (x :: y :: ys)).toList = (render x).toList ++ ',' :: (renderItems (y :: ys)).toList := by
  show (render x ++ "," ++ renderItems (y :: ys)).toList = _
  rw [String.toList_append, String.toList_append, List.append_assoc]
  rfl

theorem toList_renderMembers_single (k : String) (v : Json) :
    (renderMembers [(k, v)]).toList = (quote (Text.ofString k)).toList ++ ':' :: (render v).toList := by
  show (quote (Text.ofString k) ++ ":" ++ render v).toList = _
  rw [String.toList_append, String.toList_append, List.append_assoc]
  rfl

theorem toList_renderMembers_cons (k : String) (v : Json) (m : String × Json) (ms : List (String × Json)) :
    (renderMembers ((k, v) :: m :: ms)).toList = (quote (Text.ofString k)).toList ++ ':' ::
      ((render v).toList ++ ',' :: (renderMembers (m :: ms)).toList) := by
  show (quote (Text.ofString k) ++ ":" ++ render v ++ "," ++ renderMembers (m :: ms)).toList = _
  simp only [String.toList_append, List.append_assoc]
  rfl

theorem toList_quote_head (t : Text) : ∃ cs, (quote t).toList = '"' :: cs ∧ 1 ≤ cs.length := by
  rw [toList_quote]
  exact ⟨_, rfl, by simp⟩

/-- Every written value starts with a character that opens one. -/
theorem render_head (v : Json) : ∃ c cs, (render v).toList = c :: cs ∧ OpensValue c := by
  cases v with
  | null => exact ⟨'n', _, rfl, Or.inl rfl⟩
  | bool b =>
    cases b with
    | false => exact ⟨'f', _, rfl, by simp [OpensValue]⟩
    | true => exact ⟨'t', _, rfl, by simp [OpensValue]⟩
  | num x =>
    by_cases hx : isFinite x = true
    · obtain ⟨c, cs, h, hc⟩ := numberText_head hx
      refine ⟨c, cs, ?_, by unfold OpensValue; tauto⟩
      show (numberJson x).toList = _
      rw [numberJson, if_pos hx, h]
    · refine ⟨'n', ['u', 'l', 'l'], ?_, Or.inl rfl⟩
      show (numberJson x).toList = _
      rw [numberJson, if_neg hx]
      rfl
  | str s =>
    obtain ⟨cs, h, -⟩ := toList_quote_head s
    exact ⟨'"', cs, h, by simp [OpensValue]⟩
  | arr xs => exact ⟨'[', _, toList_render_arr xs, by simp [OpensValue]⟩
  | obj ms => exact ⟨'\x7b', _, toList_render_obj ms, by simp [OpensValue]⟩


/-- A text that starts with a number is read as one. -/
theorem readValue_number {fuel : Nat} {c : Char} {cs r : List Char} {y : Float}
    (hc : c = '-' ∨ c.isDigit = true) (h : readNumber (c :: cs) = some (y, r)) :
    readValue (fuel + 1) (c :: cs) = some (.num y, r) := by
  have ho : OpensValue c := by unfold OpensValue; tauto
  rw [readValue, skipBlanks_of_head cs ho.not_blank]
  split
  all_goals first
    | (rename_i heq; obtain ⟨rfl, -⟩ := List.cons.inj heq; exact absurd hc (by decide))
    | rw [h]; rfl

theorem renderItems_head (x : Json) (xs : List Json) :
    ∃ c cs, (renderItems (x :: xs)).toList = c :: cs ∧ OpensValue c := by
  obtain ⟨c, cs, h, ho⟩ := render_head x
  cases xs with
  | nil => exact ⟨c, cs, h, ho⟩
  | cons y ys => exact ⟨c, _, by rw [toList_renderItems_cons, h, List.cons_append], ho⟩

theorem renderMembers_head (k : String) (v : Json) (ms : List (String × Json)) :
    ∃ cs, (renderMembers ((k, v) :: ms)).toList = '"' :: cs := by
  obtain ⟨cs, h, -⟩ := toList_quote_head (Text.ofString k)
  cases ms with
  | nil => exact ⟨_, by rw [toList_renderMembers_single, h, List.cons_append]⟩
  | cons m ms => exact ⟨_, by rw [toList_renderMembers_cons, h, List.cons_append]⟩

/-- An opening bracket followed by a value starts the items of an array. -/
theorem readValue_bracket (fuel : Nat) {c : Char} (cs : List Char) (ho : OpensValue c) :
    readValue (fuel + 1) ('[' :: c :: cs) = readItems fuel [] (c :: cs) := by
  rw [readValue, skipBlanks_of_head _ (by decide)]
  simp only [skipBlanks_of_head cs ho.not_blank]
  split
  · rename_i heq
    exact absurd (List.cons.inj heq).1 ho.not_close.1
  · rfl

/-- An opening brace followed by a quote starts the members of an object. -/
theorem readValue_brace (fuel : Nat) (cs : List Char) :
    readValue (fuel + 1) ('\x7b' :: '"' :: cs) = readMembers fuel [] ('"' :: cs) := by
  rw [readValue, skipBlanks_of_head _ (by decide)]
  simp [skipBlanks_of_head cs (by decide : '"' ≠ ' ' ∧ '"' ≠ '\t' ∧ '"' ≠ '\n' ∧ '"' ≠ '\r')]

theorem numberEnd_of_mark {c : Char} (cs : List Char) (h : c = ',' ∨ c = ']' ∨ c = '\x7d') :
    NumberEnd (c :: cs) := by
  rcases h with rfl | rfl | rfl <;> exact ⟨by decide, by decide, by decide, by decide⟩

theorem length_render_pos (v : Json) : 1 ≤ (render v).toList.length := by
  obtain ⟨c, cs, h, -⟩ := render_head v
  rw [h, List.length_cons]
  omega

/-- Setting a key an object does not have appends the member. -/
theorem setMember_fresh {ms : List (String × Json)} {key : String} (h : key ∉ ms.map Prod.fst)
    (v : Json) : setMember ms key v = ms ++ [(key, v)] := by
  unfold setMember
  rw [if_neg]
  intro hany
  obtain ⟨m, hm, hk⟩ := List.any_eq_true.1 hany
  exact h (List.mem_map.2 ⟨m, hm, beq_iff_eq.1 hk⟩)

/-! ## Reading a written value -/

/-- At a budget, every value that reads back is read from its text, whatever follows
that cannot continue a number. -/
def ValueReads (fuel : Nat) : Prop :=
  ∀ v : Json, v.allFinite = true → v.distinctKeys = true → (render v).toList.length ≤ fuel →
    ∀ rest, NumberEnd rest → readValue fuel ((render v).toList ++ rest) = some (v.unsignZeros, rest)

/-- At a budget, the items of an array are read from their text up to the closing
bracket, after those read before. -/
def ItemsRead (fuel : Nat) : Prop :=
  ∀ (x : Json) (xs acc : List Json), allFiniteItems (x :: xs) = true →
    distinctKeysItems (x :: xs) = true → (renderItems (x :: xs)).toList.length + 1 ≤ fuel →
    ∀ rest, readItems fuel acc ((renderItems (x :: xs)).toList ++ ']' :: rest) =
      some (.arr (acc.reverse ++ unsignZerosItems (x :: xs)), rest)

/-- At a budget, the members of an object with keys apart from those read before
are read from their text up to the closing brace, after those. -/
def MembersRead (fuel : Nat) : Prop :=
  ∀ (k : String) (v : Json) (ms acc : List (String × Json)), allFiniteMembers ((k, v) :: ms) = true →
    distinctKeysMembers ((k, v) :: ms) = true → (((k, v) :: ms).map Prod.fst).Nodup →
    (∀ key ∈ ((k, v) :: ms).map Prod.fst, key ∉ acc.map Prod.fst) →
    (renderMembers ((k, v) :: ms)).toList.length + 1 ≤ fuel →
    ∀ rest, readMembers fuel acc ((renderMembers ((k, v) :: ms)).toList ++ '\x7d' :: rest) =
      some (.obj (acc ++ unsignZerosMembers ((k, v) :: ms)), rest)

theorem valueReads_succ {fuel : Nat} (hi : ItemsRead fuel) (hm : MembersRead fuel) :
    ValueReads (fuel + 1) := by
  intro v hf hd hlen rest hr
  cases v with
  | null => simp [render, readValue, skipBlanks, startsWithWord, unsignZeros]
  | bool b => cases b <;> simp [render, readValue, skipBlanks, startsWithWord, unsignZeros]
  | num x =>
    have hx : isFinite x = true := by simpa [allFinite] using hf
    obtain ⟨c, cs, hcs, hc⟩ := numberText_head hx
    have hread := readNumber_numberText hx hr
    have hrender : (render (.num x)).toList = (numberText x).toList := by
      show (numberJson x).toList = _
      rw [numberJson, if_pos hx]
    rw [hcs, List.cons_append] at hread
    rw [hrender, hcs, List.cons_append, readValue_number hc hread]
    rfl
  | str s =>
    obtain ⟨cs, hq, -⟩ := toList_quote_head s
    have h := readString_quote s rest
    rw [hq, List.tail_cons] at h
    show readValue (fuel + 1) ((quote s).toList ++ rest) = some (.str s, rest)
    rw [hq, List.cons_append, readValue, skipBlanks_of_head _ (by decide)]
    simp [h]
  | arr xs =>
    rw [toList_render_arr] at hlen ⊢
    cases xs with
    | nil => simp [renderItems, readValue, skipBlanks, unsignZeros, unsignZerosItems]
    | cons x xs =>
      obtain ⟨c, cs, hc, ho⟩ := renderItems_head x xs
      have hitems := hi x xs [] (by simpa [allFinite] using hf) (by simpa [distinctKeys] using hd)
        (by simp only [List.length_cons, List.length_append] at hlen; omega) rest
      rw [List.cons_append, List.append_assoc, List.singleton_append, hc, List.cons_append,
        readValue_bracket _ _ ho, ← List.cons_append, ← hc, hitems]
      rfl
  | obj ms =>
    rw [toList_render_obj] at hlen ⊢
    cases ms with
    | nil => simp [renderMembers, readValue, skipBlanks, unsignZeros, unsignZerosMembers]
    | cons m ms =>
      obtain ⟨k, v⟩ := m
      obtain ⟨cs, hc⟩ := renderMembers_head k v ms
      simp only [distinctKeys, Bool.and_eq_true, decide_eq_true_eq] at hd
      have hmembers := hm k v ms [] (by simpa [allFinite] using hf) hd.2 hd.1 (by simp)
        (by simp only [List.length_cons, List.length_append] at hlen; omega) rest
      rw [List.cons_append, List.append_assoc, List.singleton_append, hc, List.cons_append,
        readValue_brace, ← List.cons_append, ← hc, hmembers]
      rfl


theorem itemsRead_succ {fuel : Nat} (hv : ValueReads fuel) (hi : ItemsRead fuel) :
    ItemsRead (fuel + 1) := by
  intro x xs acc hf hd hlen rest
  simp only [allFiniteItems, distinctKeysItems, Bool.and_eq_true] at hf hd
  cases xs with
  | nil =>
    have hx := hv x hf.1 hd.1 (by change (render x).toList.length + 1 ≤ fuel + 1 at hlen; omega)
      (']' :: rest) (numberEnd_of_mark _ (by simp))
    change readItems (fuel + 1) acc ((render x).toList ++ ']' :: rest) = _
    simp [readItems, hx, skipBlanks, unsignZerosItems]
  | cons y ys =>
    rw [toList_renderItems_cons] at hlen ⊢
    have hpos := length_render_pos x
    simp only [List.length_append, List.length_cons] at hlen
    have hx := hv x hf.1 hd.1 (by omega) (',' :: ((renderItems (y :: ys)).toList ++ ']' :: rest))
      (numberEnd_of_mark _ (by simp))
    have hys := hi y ys (x.unsignZeros :: acc) hf.2 hd.2 (by omega) rest
    rw [List.append_assoc, List.cons_append]
    simp [readItems, hx, skipBlanks, hys, unsignZerosItems]


theorem membersRead_succ {fuel : Nat} (hv : ValueReads fuel) (hm : MembersRead fuel) :
    MembersRead (fuel + 1) := by
  intro k v ms acc hf hd hnd hfresh hlen rest
  simp only [allFiniteMembers, distinctKeysMembers, Bool.and_eq_true, beq_iff_eq] at hf hd
  obtain ⟨⟨hkey, hdv⟩, hdms⟩ := hd
  obtain ⟨cs, hq, -⟩ := toList_quote_head (Text.ofString k)
  have hstr := readString_quote (Text.ofString k)
  rw [hq, List.tail_cons] at hstr
  have hset := setMember_fresh (hfresh k List.mem_cons_self) v.unsignZeros
  have hpos := length_render_pos v
  cases ms with
  | nil =>
    rw [toList_renderMembers_single, hq] at hlen ⊢
    simp only [List.length_append, List.length_cons] at hlen
    have hval := hv v hf.1 hdv (by omega) ('\x7d' :: rest) (numberEnd_of_mark _ (by simp))
    simp [readMembers, skipBlanks, hstr, hval, hkey, hset, unsignZerosMembers]
  | cons m ms =>
    obtain ⟨k', v'⟩ := m
    rw [toList_renderMembers_cons, hq] at hlen ⊢
    simp only [List.length_append, List.length_cons] at hlen
    have hval := hv v hf.1 hdv (by omega)
      (',' :: ((renderMembers ((k', v') :: ms)).toList ++ '\x7d' :: rest)) (numberEnd_of_mark _ (by simp))
    have hfresh' : ∀ key ∈ ((k', v') :: ms).map Prod.fst, key ∉ (acc ++ [(k, v.unsignZeros)]).map Prod.fst := by
      intro key hk hmem
      rw [List.map_append, List.mem_append] at hmem
      rcases hmem with hmem | hmem
      · exact hfresh key (List.mem_cons_of_mem _ hk) hmem
      · simp only [List.map_cons, List.map_nil, List.mem_singleton] at hmem
        subst hmem
        exact (List.nodup_cons.1 hnd).1 hk
    have hrest := hm k' v' ms (acc ++ [(k, v.unsignZeros)]) hf.2 hdms (List.nodup_cons.1 hnd).2 hfresh'
      (by omega) rest
    simp [readMembers, skipBlanks, hstr, hval, hkey, hset, hrest, unsignZerosMembers]


/-- Each budget reads back every text that fits in it. -/
theorem reads_at (fuel : Nat) : ValueReads fuel ∧ ItemsRead fuel ∧ MembersRead fuel := by
  induction fuel with
  | zero =>
    refine ⟨fun v _ _ hlen => ?_, fun _ _ _ _ _ hlen => ?_, fun _ _ _ _ _ _ _ _ hlen => ?_⟩
    · have := length_render_pos v
      omega
    · omega
    · omega
  | succ fuel ih =>
    obtain ⟨hv, hi, hm⟩ := ih
    exact ⟨valueReads_succ hi hm, itemsRead_succ hv hi, membersRead_succ hv hm⟩

/-- **A value whose numbers are finite and whose keys are distinct reads back from its
text**, with every negative zero read as zero. -/
theorem parse_render {v : Json} (hf : v.allFinite = true) (hd : v.distinctKeys = true) :
    parse (render v) = some v.unsignZeros := by
  have h := (reads_at (2 * (render v).toList.length + 2)).1 v hf hd (by omega) [] trivial
  rw [List.append_nil] at h
  simp [parse, h, skipBlanks]


/-! ## What the reader returns -/

theorem distinctKeysItems_iff (xs : List Json) :
    distinctKeysItems xs = true ↔ ∀ x ∈ xs, x.distinctKeys = true := by
  induction xs with
  | nil => simp [distinctKeysItems]
  | cons x xs ih => simp [distinctKeysItems, ih]

theorem distinctKeysMembers_iff (ms : List (String × Json)) :
    distinctKeysMembers ms = true ↔
      ∀ m ∈ ms, (Text.ofString m.1).toString = m.1 ∧ m.2.distinctKeys = true := by
  induction ms with
  | nil => simp [distinctKeysMembers]
  | cons m ms ih =>
    obtain ⟨k, v⟩ := m
    simp [distinctKeysMembers, ih, and_assoc]

/-- A member of an object after a key is set was there before, or is the new one. -/
theorem mem_setMember {ms : List (String × Json)} {key : String} {v : Json} {m : String × Json}
    (h : m ∈ setMember ms key v) : m ∈ ms ∨ m = (key, v) := by
  unfold setMember at h
  split at h
  · obtain ⟨⟨k, w⟩, hmem, rfl⟩ := List.mem_map.1 h
    by_cases hk : k = key
    · subst hk
      right
      simp
    · left
      simpa [hk] using hmem
  · simpa using h

/-- Setting a key keeps the keys of an object distinct. -/
theorem nodup_setMember {ms : List (String × Json)} (h : (ms.map Prod.fst).Nodup) (key : String)
    (v : Json) : ((setMember ms key v).map Prod.fst).Nodup := by
  unfold setMember
  split
  · -- in place: the keys do not change
    rw [List.map_map]
    convert h using 2
    funext m
    obtain ⟨k, w⟩ := m
    simp only [Function.comp_apply]
    split <;> rfl
  · rename_i hany
    rw [List.map_append, List.nodup_append]
    refine ⟨h, by simp, ?_⟩
    intro a ha b hb hab
    simp only [List.map_cons, List.map_nil, List.mem_singleton] at hb
    subst hb hab
    obtain ⟨m, hm, rfl⟩ := List.mem_map.1 ha
    exact hany (List.any_eq_true.2 ⟨m, hm, beq_self_eq_true _⟩)

/-- At a budget, every value read has distinct keys. -/
def ValueApart (fuel : Nat) : Prop :=
  ∀ cs v r, readValue fuel cs = some (v, r) → v.distinctKeys = true

/-- At a budget, an array read after items with distinct keys has distinct keys. -/
def ItemsApart (fuel : Nat) : Prop :=
  ∀ acc cs v r, (∀ x ∈ acc, x.distinctKeys = true) → readItems fuel acc cs = some (v, r) →
    v.distinctKeys = true

/-- At a budget, an object read after members with distinct keys has distinct keys. -/
def MembersApart (fuel : Nat) : Prop :=
  ∀ acc cs v r, (acc.map Prod.fst).Nodup → distinctKeysMembers acc = true →
    readMembers fuel acc cs = some (v, r) → v.distinctKeys = true

theorem valueApart_succ {fuel : Nat} (hi : ItemsApart fuel) (hm : MembersApart fuel) :
    ValueApart (fuel + 1) := by
  intro cs v r h
  rw [readValue] at h
  split at h
  · -- an object
    split at h
    · cases h
      rfl
    · exact hm [] _ v r List.nodup_nil rfl h
  · -- an array
    split at h
    · cases h
      rfl
    · exact hi [] _ v r (by simp) h
  all_goals
    obtain ⟨a, -, ha⟩ := Option.map_eq_some_iff.1 h
    cases ha
    rfl

theorem itemsApart_succ {fuel : Nat} (hv : ValueApart fuel) (hi : ItemsApart fuel) :
    ItemsApart (fuel + 1) := by
  intro acc cs v r hacc h
  rw [readItems] at h
  obtain ⟨⟨x, rest⟩, hx, h⟩ := Option.bind_eq_some_iff.1 h
  have hxd := hv cs x rest hx
  dsimp only at h
  split at h
  · exact hi (x :: acc) _ v r (by simpa [hxd] using hacc) h
  · cases h
    show distinctKeysItems _ = true
    rw [distinctKeysItems_iff]
    intro y hy
    rcases List.mem_cons.1 (List.mem_reverse.1 hy) with rfl | hy
    · exact hxd
    · exact hacc y hy
  · cases h

theorem membersApart_succ {fuel : Nat} (hv : ValueApart fuel) (hm : MembersApart fuel) :
    MembersApart (fuel + 1) := by
  intro acc cs v r hnd hacc h
  rw [readMembers] at h
  split at h
  · obtain ⟨⟨key, rest⟩, -, h⟩ := Option.bind_eq_some_iff.1 h
    dsimp only at h
    split at h
    · obtain ⟨⟨x, rest⟩, hx, h⟩ := Option.bind_eq_some_iff.1 h
      have hxd := hv _ x rest hx
      have hnd' := nodup_setMember hnd key.toString x
      have hacc' : distinctKeysMembers (setMember acc key.toString x) = true := by
        rw [distinctKeysMembers_iff] at hacc ⊢
        intro m hmem
        rcases mem_setMember hmem with hmem | rfl
        · exact hacc m hmem
        · exact ⟨congrArg Text.toString (ofString_toString key), hxd⟩
      dsimp only at h
      split at h
      · exact hm _ _ v r hnd' hacc' h
      · cases h
        simp [distinctKeys, hnd', hacc']
      · cases h
    · cases h
  · cases h

theorem apart_at (fuel : Nat) : ValueApart fuel ∧ ItemsApart fuel ∧ MembersApart fuel := by
  induction fuel with
  | zero =>
    refine ⟨fun _ _ _ h => ?_, fun _ _ _ _ _ h => ?_, fun _ _ _ _ _ _ h => ?_⟩ <;> cases h
  | succ fuel ih =>
    obtain ⟨hv, hi, hm⟩ := ih
    exact ⟨valueApart_succ hi hm, itemsApart_succ hv hi, membersApart_succ hv hm⟩

/-- **Every value the reader returns has distinct keys**, each the string of a text. -/
theorem parse_distinctKeys {s : String} {v : Json} (h : parse s = some v) : v.distinctKeys = true := by
  unfold parse at h
  dsimp only at h
  split at h
  · rename_i v' rest hread
    split at h
    · cases h
      exact (apart_at _).1 _ _ _ hread
    · cases h
  · cases h

end LaneGate.Json
