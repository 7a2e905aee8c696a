import LaneGate.Text.Blank
import LaneGate.Proofs.Json.Strings
/-!
# Words and single spaces

`Text.words` splits a text at every run of blanks and drops the empty pieces; joined
again by single spaces, the words make the text's collapsed form. Cuts are made in
code units, so this module reads both on units. A blank is a character of the Basic
Multilingual Plane and is one unit, and no unit of any other character is blank
(`unitsOf_of_isBlank`, `not_isBlankUnit_of_mem_unitsOf`); so splitting the units of a
text at blanks is splitting its characters and encoding each piece
(`splitOnP_flatMap_unitsOf`), and the collapsed text encodes as the collapsed units
(`ofString_intercalate_words`).

A list of units is `Spaced` when it is words without blanks, none empty, joined by
single spaces. Collapsing gives a spaced list (`spaced_collapse`), leaves a spaced list
as it is (`collapse_of_spaced`) and never lengthens (`length_collapse_le`); a prefix of
a spaced list followed by a unit that is not blank is spaced again
(`Spaced.take_append`). A spaced list neither starts nor ends with a blank and never
has two blanks in a row (`Spaced.head`, `Spaced.getLast`, `Spaced.isChain`).
-/

namespace LaneGate.Text

/-! ### Splitting at a predicate -/

theorem splitWhere_eq_splitOnP (p : Char → Bool) (cs : List Char) :
    splitWhere p cs = cs.splitOnP p := by
  induction cs with
  | nil => rfl
  | cons c rest ih =>
    obtain ⟨first, more, h⟩ := List.exists_cons_of_ne_nil (List.splitOnP_ne_nil p rest)
    cases hc : p c <;> simp [splitWhere, List.splitOnP_cons_eq_if_modifyHead, hc, ih, h]

/-- No piece of a split holds an element it was split at. -/
theorem not_of_mem_splitOnP {α : Type} {p : α → Bool} :
    ∀ {l w : List α}, w ∈ l.splitOnP p → ∀ x ∈ w, p x = false
  | [], w, hw => by
    simp only [List.splitOnP_nil, List.mem_singleton] at hw
    subst hw
    simp
  | x :: xs, w, hw => by
    rw [List.splitOnP_cons_eq_if_modifyHead] at hw
    split at hw
    · rcases List.mem_cons.1 hw with rfl | hw
      · simp
      · exact not_of_mem_splitOnP hw
    · rename_i hx
      obtain ⟨r, rs, hr⟩ := List.exists_cons_of_ne_nil (List.splitOnP_ne_nil p xs)
      rw [hr, List.modifyHead_cons] at hw
      rcases List.mem_cons.1 hw with rfl | hw
      · intro c hc
        rcases List.mem_cons.1 hc with rfl | hc
        · simpa using hx
        · exact not_of_mem_splitOnP (hr ▸ List.mem_cons_self ..) c hc
      · exact not_of_mem_splitOnP (hr ▸ List.mem_cons_of_mem _ hw)

/-- Elements that are not split at join the first piece. -/
theorem splitOnP_append_of_forall {α : Type} {p : α → Bool} {w : List α}
    (h : ∀ x ∈ w, p x = false) (l : List α) :
    (w ++ l).splitOnP p = (l.splitOnP p).modifyHead (w ++ ·) := by
  induction w with
  | nil =>
    obtain ⟨r, rs, hr⟩ := List.exists_cons_of_ne_nil (List.splitOnP_ne_nil p l)
    simp [hr]
  | cons a w ih =>
    simp only [List.mem_cons, forall_eq_or_imp] at h
    rw [List.cons_append, List.splitOnP_cons_eq_if_modifyHead, if_neg (by simp [h.1]), ih h.2,
      List.modifyHead_modifyHead]
    rfl

/-- Words without the separator, joined by it, split back into those words. -/
theorem splitOnP_intercalate {α : Type} {p : α → Bool} {x : α} (hx : p x = true) :
    ∀ {ws : List (List α)}, ws ≠ [] → (∀ w ∈ ws, ∀ y ∈ w, p y = false) →
      ([x].intercalate ws).splitOnP p = ws
  | [w], _, h => by
    rw [List.intercalate_singleton]
    exact List.splitOnP_eq_singleton (h w (List.mem_singleton_self w))
  | w :: w' :: ws, _, h => by
    rw [List.intercalate_cons_cons, List.append_assoc, List.singleton_append,
      List.splitOnP_append_cons_of_forall_mem (h w List.mem_cons_self) x hx,
      splitOnP_intercalate hx (List.cons_ne_nil w' ws) fun v hv => h v (List.mem_cons_of_mem w hv)]

theorem flatMap_intercalate {α β : Type} (f : α → List β) (sep : List α) :
    ∀ ls : List (List α),
      (sep.intercalate ls).flatMap f = (sep.flatMap f).intercalate (ls.map (·.flatMap f))
  | [] => rfl
  | [l] => by simp
  | l :: l' :: ls => by
    rw [List.intercalate_cons_cons, List.map_cons, List.map_cons, List.intercalate_cons_cons,
      List.flatMap_append, List.flatMap_append, ← List.map_cons, flatMap_intercalate f sep (l' :: ls)]

/-- Joined by one separator, the pieces of a split are as long as the list split. -/
theorem length_intercalate_splitOnP {α : Type} (p : α → Bool) (x : α) (l : List α) :
    ([x].intercalate (l.splitOnP p)).length = l.length := by
  induction l with
  | nil => simp
  | cons a l ih =>
    obtain ⟨r, rs, hr⟩ := List.exists_cons_of_ne_nil (List.splitOnP_ne_nil p l)
    rw [List.splitOnP_cons_eq_if_modifyHead]
    split
    · rw [hr, List.intercalate_cons_cons, List.length_append, List.length_append, ← hr, ih]
      simp [Nat.add_comm]
    · rw [hr, List.modifyHead_cons, List.intercalate_cons_cons_left, List.length_cons, ← hr, ih,
        List.length_cons]

theorem length_intercalate_cons {α : Type} (x : α) (l : List α) (ls : List (List α)) :
    ([x].intercalate (l :: ls)).length =
      l.length + if ls = [] then 0 else ([x].intercalate ls).length + 1 := by
  rcases ls with _ | ⟨l', ls⟩
  · simp
  · rw [List.intercalate_cons_cons, if_neg (List.cons_ne_nil l' ls)]
    simp only [List.length_append, List.length_singleton]
    omega

/-- Dropping empty pieces before joining never lengthens the result. -/
theorem length_intercalate_filter_le {α : Type} (x : α) :
    ∀ ls : List (List α),
      ([x].intercalate (ls.filter (!·.isEmpty))).length ≤ ([x].intercalate ls).length
  | [] => le_rfl
  | l :: ls => by
    have ih := length_intercalate_filter_le x ls
    rw [length_intercalate_cons]
    cases l with
    | nil =>
      rw [List.filter_cons_of_neg (by simp)]
      split
      · subst ls
        simp
      · simp only [List.length_nil]
        omega
    | cons a l =>
      rw [List.filter_cons_of_pos (by simp), length_intercalate_cons]
      by_cases hf : ls.filter (!·.isEmpty) = []
      · simp [hf]
      · have hls : ls ≠ [] := by
          rintro rfl
          exact hf rfl
        rw [if_neg hf, if_neg hls]
        omega

/-! ### Blanks as units -/

theorem isBlankCode_lt {n : Nat} (h : isBlankCode n = true) : n < 0x10000 := by
  simp only [isBlankCode, Bool.or_eq_true, Bool.and_eq_true, decide_eq_true_eq, beq_iff_eq] at h
  omega

theorem isBlankCode_surrogate {n : Nat} (h₁ : 0xD800 ≤ n) (h₂ : n ≤ 0xDFFF) : isBlankCode n = false := by
  simp only [isBlankCode, Bool.or_eq_false_iff, Bool.and_eq_false_iff, decide_eq_false_iff_not,
    beq_eq_false_iff_ne]
  omega

theorem isBlankUnit_toUInt16 {n : Nat} (h : n < 0x10000) : isBlankUnit n.toUInt16 = isBlankCode n := by
  simp [isBlankUnit, Nat.mod_eq_of_lt h]

/-- A blank character is one unit, itself blank. -/
theorem unitsOf_of_isBlank {c : Char} (h : isBlank c = true) :
    unitsOf c = [c.toNat.toUInt16] ∧ isBlankUnit c.toNat.toUInt16 = true := by
  have hlt := isBlankCode_lt h
  exact ⟨by simp [unitsOf, hlt], by rw [isBlankUnit_toUInt16 hlt]; exact h⟩

/-- No unit of a character that is not blank is blank: such a character of the Basic
Multilingual Plane is its own unit, and every other unit is a surrogate. -/
theorem not_isBlankUnit_of_mem_unitsOf {c : Char} (h : isBlank c = false) :
    ∀ u ∈ unitsOf c, isBlankUnit u = false := by
  have hc := toNat_lt_of_char c
  unfold unitsOf
  split
  · rename_i hlt
    simp only [List.mem_singleton, forall_eq, isBlankUnit_toUInt16 hlt]
    exact h
  · split
    · rename_i _ hcar
      simp only [isCarrier, Bool.and_eq_true, decide_eq_true_eq] at hcar
      simp only [List.mem_singleton, forall_eq]
      rw [isBlankUnit_toUInt16 (by omega)]
      exact isBlankCode_surrogate (by omega) (by omega)
    · simp only [List.mem_cons, List.not_mem_nil, or_false, forall_eq_or_imp, forall_eq]
      rw [isBlankUnit_toUInt16 (by omega), isBlankUnit_toUInt16 (by omega)]
      exact ⟨isBlankCode_surrogate (by omega) (by omega), isBlankCode_surrogate (by omega) (by omega)⟩

theorem unitsOf_ne_nil (c : Char) : unitsOf c ≠ [] := by
  unfold unitsOf
  split
  · simp
  · split <;> simp

/-- Splitting units at blanks is splitting characters at blanks and encoding the pieces. -/
theorem splitOnP_flatMap_unitsOf (cs : List Char) :
    (cs.flatMap unitsOf).splitOnP isBlankUnit = (cs.splitOnP isBlank).map (·.flatMap unitsOf) := by
  induction cs with
  | nil => simp
  | cons c rest ih =>
    rw [List.flatMap_cons, List.splitOnP_cons_eq_if_modifyHead]
    cases hc : isBlank c
    · -- a character that is not blank joins the first piece
      rw [if_neg (by simp), splitOnP_append_of_forall (not_isBlankUnit_of_mem_unitsOf hc), ih]
      obtain ⟨first, more, h⟩ := List.exists_cons_of_ne_nil (List.splitOnP_ne_nil isBlank rest)
      simp [h]
    · -- a blank ends a piece
      obtain ⟨hu, hb⟩ := unitsOf_of_isBlank hc
      rw [if_pos rfl, hu, List.singleton_append, ← List.nil_append (_ :: _),
        List.splitOnP_append_cons [] _ hb, ih]
      simp

/-! ### Collapsing -/

theorem eq_of_units_eq {t u : Text} (h : t.units = u.units) : t = u := by
  cases t
  cases u
  cases h
  rfl

/-- The words of a list of units: the pieces between runs of blanks, empty ones dropped. -/
def wordsOf (us : List UInt16) : List (List UInt16) :=
  (us.splitOnP isBlankUnit).filter (!·.isEmpty)

/-- The collapsed form of a list of units: its words joined by single spaces. -/
def collapse (us : List UInt16) : List UInt16 := [0x20].intercalate (wordsOf us)

/-- The collapsed text of a string is encoded as the collapse of its encoding. -/
theorem ofString_intercalate_words (s : String) :
    (ofString (" ".intercalate (words s))).units = collapse (ofString s).units := by
  have hsp : " ".toList.flatMap unitsOf = [0x20] := by decide
  have hne : ∀ cs : List Char, (cs.flatMap unitsOf).isEmpty = cs.isEmpty := by
    intro cs
    cases cs with
    | nil => rfl
    | cons c cs =>
      obtain ⟨u, us, h⟩ := List.exists_cons_of_ne_nil (unitsOf_ne_nil c)
      simp [h]
  simp only [ofString, words, String.toList_intercalate, List.map_map, collapse, wordsOf,
    splitWhere_eq_splitOnP, splitOnP_flatMap_unitsOf]
  rw [flatMap_intercalate, hsp, List.filter_map]
  congr 1
  have hcomp : (String.toList ∘ String.ofList : List Char → List Char) = id := by
    funext cs
    simp
  rw [hcomp, List.map_id]
  congr 2
  funext cs
  simp [hne]

/-- Units that are words joined by single spaces, no word empty or holding a blank. -/
def Spaced (us : List UInt16) : Prop :=
  ∃ ws : List (List UInt16), (∀ w ∈ ws, w ≠ [] ∧ ∀ u ∈ w, isBlankUnit u = false) ∧
    us = [0x20].intercalate ws

theorem isBlankUnit_space : isBlankUnit 0x20 = true := by decide

theorem spaced_collapse (us : List UInt16) : Spaced (collapse us) := by
  refine ⟨wordsOf us, fun w hw => ?_, rfl⟩
  obtain ⟨hw, hne⟩ := List.mem_filter.1 hw
  exact ⟨by simpa using hne, not_of_mem_splitOnP hw⟩

theorem collapse_of_spaced {us : List UInt16} (h : Spaced us) : collapse us = us := by
  obtain ⟨ws, hws, rfl⟩ := h
  rcases ws with _ | ⟨w, ws⟩
  · rfl
  · have hsplit := splitOnP_intercalate isBlankUnit_space (List.cons_ne_nil w ws)
      fun v hv => (hws v hv).2
    unfold collapse wordsOf
    rw [hsplit, List.filter_eq_self.2 fun v hv => by simpa using (hws v hv).1]

theorem length_collapse_le (us : List UInt16) : (collapse us).length ≤ us.length :=
  (length_intercalate_filter_le 0x20 _).trans (length_intercalate_splitOnP isBlankUnit 0x20 us).le

theorem collapse_collapse (us : List UInt16) : collapse (collapse us) = collapse us :=
  collapse_of_spaced (spaced_collapse us)

/-! ### Spaced lists -/

namespace Spaced

variable {us : List UInt16}

theorem nil : Spaced [] := ⟨[], by simp, rfl⟩

/-- A spaced list that is not empty has words. -/
theorem words_ne_nil {ws : List (List UInt16)} (hne : [0x20].intercalate ws ≠ []) : ws ≠ [] := by
  rintro rfl
  exact hne rfl

/-- A word, a space and a spaced list that is not empty make a spaced list. -/
theorem cons {w : List UInt16} (hw : w ≠ []) (hb : ∀ u ∈ w, isBlankUnit u = false)
    (h : Spaced us) (hne : us ≠ []) : Spaced (w ++ 0x20 :: us) := by
  obtain ⟨ws, hws, rfl⟩ := h
  refine ⟨w :: ws, ?_, ?_⟩
  · intro v hv
    rcases List.mem_cons.1 hv with rfl | hv
    · exact ⟨hw, hb⟩
    · exact hws v hv
  · rw [List.intercalate_cons_of_ne_nil (words_ne_nil hne), List.append_assoc, List.singleton_append]

/-- A prefix of a spaced list, followed by a unit that is not blank, is spaced: the cut
either ends inside a word, which the unit then ends, or just after a space, where the
unit is a word of its own. -/
theorem take_append {e : UInt16} (he : isBlankUnit e = false) (h : Spaced us) (k : Nat) :
    Spaced (us.take k ++ [e]) := by
  obtain ⟨ws, hws, rfl⟩ := h
  induction ws generalizing k with
  | nil => exact ⟨[[e]], by simp [he], by simp⟩
  | cons w ws ih =>
    have hw := hws w List.mem_cons_self
    have hrest : ∀ v ∈ ws, v ≠ [] ∧ ∀ u ∈ v, isBlankUnit u = false :=
      fun v hv => hws v (List.mem_cons_of_mem w hv)
    rcases ws with _ | ⟨w', ws⟩
    · -- one word: the prefix is a prefix of it
      refine ⟨[w.take k ++ [e]], ?_, by simp⟩
      simp only [List.mem_singleton, forall_eq, ne_eq, List.append_eq_nil_iff, List.cons_ne_self,
        and_false, not_false_eq_true, List.mem_append, List.mem_singleton, true_and]
      rintro u (hu | rfl)
      · exact hw.2 u (List.mem_of_mem_take hu)
      · exact he
    · rw [List.intercalate_cons_cons, List.append_assoc, List.singleton_append, List.take_append]
      by_cases hk : k ≤ w.length
      · -- the cut ends inside the first word
        rw [show k - w.length = 0 by omega, List.take_zero, List.append_nil]
        refine ⟨[w.take k ++ [e]], ?_, by simp⟩
        simp only [List.mem_singleton, forall_eq, ne_eq, List.append_eq_nil_iff, List.cons_ne_self,
          and_false, not_false_eq_true, List.mem_append, true_and]
        rintro u (hu | rfl)
        · exact hw.2 u (List.mem_of_mem_take hu)
        · exact he
      · -- the cut passes the first space: the rest is a cut of the later words
        rw [List.take_of_length_le (by omega), show k - w.length = (k - w.length - 1) + 1 by omega,
          List.take_succ_cons, List.append_assoc, List.cons_append]
        exact cons hw.1 hw.2 (ih _ hrest) (by simp)

theorem head (h : Spaced us) : ∀ u ∈ us.head?, isBlankUnit u = false := by
  obtain ⟨ws, hws, rfl⟩ := h
  rcases ws with _ | ⟨w, ws⟩
  · simp
  · obtain ⟨a, as, rfl⟩ := List.exists_cons_of_ne_nil (hws _ List.mem_cons_self).1
    simp only [List.intercalate_cons_cons_left, List.head?_cons, Option.mem_def, Option.some.injEq,
      forall_eq']
    exact (hws _ List.mem_cons_self).2 a List.mem_cons_self

theorem getLast (h : Spaced us) : ∀ u ∈ us.getLast?, isBlankUnit u = false := by
  obtain ⟨ws, hws, rfl⟩ := h
  induction ws with
  | nil => simp
  | cons w ws ih =>
    have hw := hws w List.mem_cons_self
    rcases ws with _ | ⟨w', ws⟩
    · intro u hu
      rw [List.intercalate_singleton] at hu
      exact hw.2 u (List.mem_of_getLast? hu)
    · rw [List.intercalate_cons_cons, List.getLast?_append_of_ne_nil]
      · exact ih fun v hv => hws v (List.mem_cons_of_mem w hv)
      · obtain ⟨a, as, h⟩ := List.exists_cons_of_ne_nil (hws w' (by simp)).1
        simp [h]

/-- No two blanks stand next to each other in a spaced list. -/
theorem isChain (h : Spaced us) :
    us.IsChain (fun a b => isBlankUnit a = false ∨ isBlankUnit b = false) := by
  obtain ⟨ws, hws, rfl⟩ := h
  induction ws with
  | nil => exact List.IsChain.nil
  | cons w ws ih =>
    have hw := hws w List.mem_cons_self
    have hword : w.IsChain (fun a b => isBlankUnit a = false ∨ isBlankUnit b = false) :=
      List.isChain_iff_forall_rel_of_append_cons_cons.2 fun a b l₁ l₂ he =>
        Or.inl (hw.2 a (by rw [he]; simp))
    rcases ws with _ | ⟨w', ws⟩
    · rw [List.intercalate_singleton]
      exact hword
    · have hrest := ih fun v hv => hws v (List.mem_cons_of_mem w hv)
      rw [List.intercalate_cons_cons, List.append_assoc, List.singleton_append]
      refine List.IsChain.append hword (List.isChain_cons.2 ⟨?_, hrest⟩) ?_
      · -- the space is followed by the first unit of the next word
        intro y hy
        right
        have hs : Spaced ([0x20].intercalate (w' :: ws)) := ⟨_, fun v hv => hws v (List.mem_cons_of_mem w hv), rfl⟩
        exact hs.head y hy
      · intro x hx _ _
        left
        exact hw.2 x (List.mem_of_getLast? hx)

end Spaced

end LaneGate.Text
