/-!
# Sorting by a numeric comparison

Lists here are sorted by a comparison that returns a number: negative when the first
argument goes first. The comparisons the service uses subtract two scores, so they
can return not-a-number (one score missing, or two infinities of one sign), and a
comparison that says "tie" for some pairs is not a consistent order. The result
then depends on which pairs are compared in which order, so this module fixes that
order: a natural merge sort over runs, with binary insertion for short runs and
galloping merges (the scheme known as timsort).

* A verdict that is not a number is a tie: only a negative verdict puts the first
  argument first (`before`).
* The list is cut into runs from the left (`runAt`): the longest stretch that never
  steps down, or the longest that always steps strictly down, which is reversed in
  place. Comparisons always ask whether the later element goes before the earlier.
  A run shorter than the minimum run length (`minRunLength`, at most 64) is
  lengthened to it by binary insertion (`insertFrom`): each element goes after
  every element it does not go before.
* Runs wait on a stack. After each new run the stack is merged until its lengths
  shrink fast enough from the bottom (`collapse`), and at the end it is merged down
  to one run (`forceCollapse`).
* Two neighbouring runs are merged (`mergeAt`) after trimming what is already in
  place, from the front of the shorter side when the first run is shorter
  (`mergeLow`) and from the back otherwise (`mergeHigh`). A merge takes one element
  at a time until one side has won `minGallop` times in a row; it then gallops,
  finding how far that side keeps winning by exponential and then binary search
  (`gallopLeft`, `gallopRight`), for as long as a gallop wins at least 7 elements.
  The threshold `minGallop` starts at 7, drops by one for each gallop and rises by
  one on leaving galloping, and is kept from one merge to the next.

For a list of fewer than 64 elements the whole list is one run, so the sort is the
head run followed by binary insertion of every other element. For a consistent
order every stable sort gives this sort's result.
-/

namespace LaneGate.Sorting

/-- Whether a verdict puts the first argument first: only a negative number does. -/
def before {α : Type} (cmp : α → α → Float) (a b : α) : Bool := cmp a b < 0

/-- The shortest run for a list of `n` elements: `n` halved until below 64, plus one
when any bit shifted out was set (`carry` says whether one already was). -/
def minRunFrom (n : Nat) (carry : Bool) : Nat :=
  if n < 64 then n + (if carry then 1 else 0)
  else minRunFrom (n / 2) (carry || n % 2 == 1)
termination_by n
decreasing_by omega

/-- The shortest run a list of `n` elements is cut into. -/
def minRunLength (n : Nat) : Nat := minRunFrom n false

/-- The number of elements a gallop must win to go on galloping. -/
def gallopWins : Nat := 7

/-- The elements of an array from a position on, as many as asked (fewer at the end). -/
def slice {α : Type} (a : Array α) (start count : Nat) : List α :=
  (a.extract start (start + count)).toList

/-- An array with the elements of a list written from a position on (positions past
the end are left out). -/
def writeFrom {α : Type} (a : Array α) (pos : Nat) : List α → Array α
  | [] => a
  | x :: xs => writeFrom (a.setIfInBounds pos x) (pos + 1) xs

/-- An array with one element written at a signed position (a negative one writes
nothing). -/
def writeAt {α : Type} (a : Array α) (pos : Int) (x : α) : Array α :=
  if pos < 0 then a else a.setIfInBounds pos.toNat x

section Search

variable {α : Type} (cmp : α → α → Float) (d : α)

/-- The element at a position; `d` stands in past the end, which the sort's
invariants never reach. -/
def get (a : Array α) (i : Nat) : α := a.getD i d

/-- Widens a search step from a hint: while the probe at the current offset says
to go on, the last offset becomes the current one and the offset grows to
`2 · offset + 1`, up to `maxOfs`. Returns the last offset and the offset, the
latter at most `maxOfs`. -/
def widen (probe : Nat → Bool) (maxOfs : Nat) : Nat → Nat → Nat → Nat × Nat
  | 0, lastOfs, offset => (lastOfs, min offset maxOfs)
  | fuel + 1, lastOfs, offset =>
    if offset < maxOfs ∧ probe offset then widen probe maxOfs fuel offset (2 * offset + 1)
    else (lastOfs, min offset maxOfs)

/-- Binary search in `[lo, hi)` for the first position whose element does not go
before the key. -/
def searchLeft (a : Array α) (key : α) (base lo hi : Nat) : Nat :=
  if lo < hi then
    let m := lo + (hi - lo) / 2
    if before cmp (get d a (base + m)) key then searchLeft a key base (m + 1) hi
    else searchLeft a key base lo m
  else hi
termination_by hi - lo
decreasing_by all_goals omega

/-- Binary search in `[lo, hi)` for the first position whose element the key goes
before. -/
def searchRight (a : Array α) (key : α) (base lo hi : Nat) : Nat :=
  if lo < hi then
    let m := lo + (hi - lo) / 2
    if before cmp key (get d a (base + m)) then searchRight a key base lo m
    else searchRight a key base (m + 1) hi
  else hi
termination_by hi - lo
decreasing_by all_goals omega

/-- Where a key goes in the sorted stretch of `length` elements from `base`, before
every element it is not after: the number of elements that go before it, found by
galloping from position `hint`. -/
def gallopLeft (a : Array α) (key : α) (base length hint : Nat) : Nat :=
  let at_ (i : Nat) := get d a (base + i)
  if before cmp (at_ hint) key then
    let (lastOfs, offset) :=
      widen (fun o => before cmp (at_ (hint + o)) key) (length - hint) (length + 1) 0 1
    searchLeft cmp d a key base (lastOfs + hint + 1) (offset + hint)
  else
    let (lastOfs, offset) :=
      widen (fun o => !before cmp (at_ (hint - o)) key) (hint + 1) (length + 1) 0 1
    searchLeft cmp d a key base (hint + 1 - offset) (hint - lastOfs)

/-- Where a key goes in the sorted stretch of `length` elements from `base`, after
every element it does not go before, found by galloping from position `hint`. -/
def gallopRight (a : Array α) (key : α) (base length hint : Nat) : Nat :=
  let at_ (i : Nat) := get d a (base + i)
  if before cmp key (at_ hint) then
    let (lastOfs, offset) :=
      widen (fun o => before cmp key (at_ (hint - o))) (hint + 1) (length + 1) 0 1
    searchRight cmp d a key base (hint + 1 - offset) (hint - lastOfs)
  else
    let (lastOfs, offset) :=
      widen (fun o => !before cmp key (at_ (hint + o))) (length - hint) (length + 1) 0 1
    searchRight cmp d a key base (lastOfs + hint + 1) (offset + hint)

end Search

/-- Where a merge stands while it takes elements one at a time, counting the wins
in a row of each side, or while it gallops (the first gallop always runs). -/
inductive Phase where
  /-- One element at a time. -/
  | stepping (winsA winsB : Nat)
  /-- Galloping; `first` marks the first gallop. -/
  | galloping (winsA winsB : Nat) (first : Bool)

/-- How a merge ends: the first side's rest is copied after the output, or the
second side's rest is moved up and the first side's last element put after it. -/
inductive Ending where
  /-- The first side's rest follows. -/
  | restOfFirst
  /-- The second side's rest follows, then the first side's last element. -/
  | lastOfFirst

/-- A merge from the front: the first run copied aside (`temp`), the output written
from `dest`, the second run read from `cursorB`. -/
structure FrontMerge (α : Type) where
  /-- The array being sorted. -/
  work : Array α
  /-- The first run, copied aside. -/
  temp : Array α
  /-- Where the next output element goes. -/
  dest : Nat
  /-- The next element of the first run. -/
  cursorA : Nat
  /-- The next element of the second run. -/
  cursorB : Nat
  /-- Elements of the first run left. -/
  lengthA : Nat
  /-- Elements of the second run left. -/
  lengthB : Nat
  /-- The gallop threshold. -/
  minGallop : Nat

namespace FrontMerge

variable {α : Type} (cmp : α → α → Float) (d : α)

/-- Outputs the next element of the second run. -/
def takeB (s : FrontMerge α) : FrontMerge α :=
  { s with work := s.work.setIfInBounds s.dest (get d s.work s.cursorB), dest := s.dest + 1,
           cursorB := s.cursorB + 1, lengthB := s.lengthB - 1 }

/-- Outputs the next element of the first run. -/
def takeA (s : FrontMerge α) : FrontMerge α :=
  { s with work := s.work.setIfInBounds s.dest (get d s.temp s.cursorA), dest := s.dest + 1,
           cursorA := s.cursorA + 1, lengthA := s.lengthA - 1 }

/-- Outputs the next `k` elements of the first run. -/
def takeManyA (s : FrontMerge α) (k : Nat) : FrontMerge α :=
  { s with work := writeFrom s.work s.dest (slice s.temp s.cursorA k), dest := s.dest + k,
           cursorA := s.cursorA + k, lengthA := s.lengthA - k }

/-- Outputs the next `k` elements of the second run. -/
def takeManyB (s : FrontMerge α) (k : Nat) : FrontMerge α :=
  { s with work := writeFrom s.work s.dest (slice s.work s.cursorB k), dest := s.dest + k,
           cursorB := s.cursorB + k, lengthB := s.lengthB - k }

/-- Runs the merge until it ends; `fuel` bounds its steps (each step but a return
to stepping outputs an element, and each return follows a gallop). -/
def run : Nat → FrontMerge α → Phase → FrontMerge α × Ending
  | 0, s, _ => (s, .restOfFirst)
  | fuel + 1, s, .stepping winsA winsB =>
    if before cmp (get d s.work s.cursorB) (get d s.temp s.cursorA) then
      let s := takeB d s
      if s.lengthB == 0 then (s, .restOfFirst)
      else if winsB + 1 ≥ s.minGallop then
        run fuel { s with minGallop := s.minGallop + 1 } (.galloping 0 (winsB + 1) true)
      else run fuel s (.stepping 0 (winsB + 1))
    else
      let s := takeA d s
      if s.lengthA == 1 then (s, .lastOfFirst)
      else if winsA + 1 ≥ s.minGallop then
        run fuel { s with minGallop := s.minGallop + 1 } (.galloping (winsA + 1) 0 true)
      else run fuel s (.stepping (winsA + 1) 0)
  | fuel + 1, s, .galloping winsA winsB first =>
    if !(winsA ≥ gallopWins || winsB ≥ gallopWins || first) then
      run fuel { s with minGallop := s.minGallop + 1 } (.stepping 0 0)
    else
      let s := { s with minGallop := max 1 (s.minGallop - 1) }
      let winsA := gallopRight cmp d s.temp (get d s.work s.cursorB) s.cursorA s.lengthA 0
      let s := if winsA > 0 then takeManyA s winsA else s
      if winsA > 0 ∧ s.lengthA == 1 then (s, .lastOfFirst)
      else if winsA > 0 ∧ s.lengthA == 0 then (s, .restOfFirst)
      else
        let s := takeB d s
        if s.lengthB == 0 then (s, .restOfFirst)
        else
          let winsB := gallopLeft cmp d s.work (get d s.temp s.cursorA) s.cursorB s.lengthB 0
          let s := if winsB > 0 then takeManyB s winsB else s
          if winsB > 0 ∧ s.lengthB == 0 then (s, .restOfFirst)
          else
            let s := takeA d s
            if s.lengthA == 1 then (s, .lastOfFirst)
            else run fuel s (.galloping winsA winsB false)

/-- The array after a merge ends. -/
def finish (s : FrontMerge α) : Ending → Array α
  | .restOfFirst => writeFrom s.work s.dest (slice s.temp s.cursorA s.lengthA)
  | .lastOfFirst =>
    (writeFrom s.work s.dest (slice s.work s.cursorB s.lengthB)).setIfInBounds
      (s.dest + s.lengthB) (get d s.temp s.cursorA)

end FrontMerge

/-- Merges the runs of `lengthA` elements at `baseA` and `lengthB` at `baseB` from the
front; the first run is the shorter. Returns the array and the gallop threshold. -/
def mergeLow {α : Type} (cmp : α → α → Float) (d : α) (work : Array α) (minGallop : Nat)
    (baseA lengthA baseB lengthB : Nat) : Array α × Nat :=
  let s : FrontMerge α :=
    ⟨work, (work.extract baseA (baseA + lengthA)), baseA, 0, baseB, lengthA, lengthB, minGallop⟩
  let s := FrontMerge.takeB d s
  if s.lengthB == 0 then (FrontMerge.finish d s .restOfFirst, s.minGallop)
  else if s.lengthA == 1 then (FrontMerge.finish d s .lastOfFirst, s.minGallop)
  else
    let (s, e) := FrontMerge.run cmp d (2 * (lengthA + lengthB) + 4) s (.stepping 0 0)
    (FrontMerge.finish d s e, s.minGallop)

/-- A merge from the back: the second run copied aside (`temp`), the output written
downward from `dest`, the first run read downward from `cursorA`. Positions are
signed, since they step below the start of the runs when a side runs out. -/
structure BackMerge (α : Type) where
  /-- The array being sorted. -/
  work : Array α
  /-- The second run, copied aside. -/
  temp : Array α
  /-- Where the next output element goes. -/
  dest : Int
  /-- The next element of the second run. -/
  cursorB : Int
  /-- The next element of the first run. -/
  cursorA : Int
  /-- Elements of the first run left. -/
  lengthA : Nat
  /-- Elements of the second run left. -/
  lengthB : Nat
  /-- The gallop threshold. -/
  minGallop : Nat
  /-- Where the first run starts. -/
  baseA : Nat

namespace BackMerge

variable {α : Type} (cmp : α → α → Float) (d : α)

/-- Outputs the last element left of the first run. -/
def takeA (s : BackMerge α) : BackMerge α :=
  { s with work := writeAt s.work s.dest (get d s.work s.cursorA.toNat), dest := s.dest - 1,
           cursorA := s.cursorA - 1, lengthA := s.lengthA - 1 }

/-- Outputs the last element left of the second run. -/
def takeB (s : BackMerge α) : BackMerge α :=
  { s with work := writeAt s.work s.dest (get d s.temp s.cursorB.toNat), dest := s.dest - 1,
           cursorB := s.cursorB - 1, lengthB := s.lengthB - 1 }

/-- Outputs the last `k` elements left of the first run. -/
def takeManyA (s : BackMerge α) (k : Nat) : BackMerge α :=
  let dest := s.dest - k
  let cursorA := s.cursorA - k
  { s with work := writeFrom s.work (dest + 1).toNat (slice s.work (cursorA + 1).toNat k),
           dest, cursorA, lengthA := s.lengthA - k }

/-- Outputs the last `k` elements left of the second run. -/
def takeManyB (s : BackMerge α) (k : Nat) : BackMerge α :=
  let dest := s.dest - k
  let cursorB := s.cursorB - k
  { s with work := writeFrom s.work (dest + 1).toNat (slice s.temp (cursorB + 1).toNat k),
           dest, cursorB, lengthB := s.lengthB - k }

/-- Runs the merge until it ends (as `FrontMerge.run`, from the back). -/
def run : Nat → BackMerge α → Phase → BackMerge α × Ending
  | 0, s, _ => (s, .restOfFirst)
  | fuel + 1, s, .stepping winsA winsB =>
    if before cmp (get d s.temp s.cursorB.toNat) (get d s.work s.cursorA.toNat) then
      let s := takeA d s
      if s.lengthA == 0 then (s, .restOfFirst)
      else if winsA + 1 ≥ s.minGallop then
        run fuel { s with minGallop := s.minGallop + 1 } (.galloping (winsA + 1) 0 true)
      else run fuel s (.stepping (winsA + 1) 0)
    else
      let s := takeB d s
      if s.lengthB == 1 then (s, .lastOfFirst)
      else if winsB + 1 ≥ s.minGallop then
        run fuel { s with minGallop := s.minGallop + 1 } (.galloping 0 (winsB + 1) true)
      else run fuel s (.stepping 0 (winsB + 1))
  | fuel + 1, s, .galloping winsA winsB first =>
    if !(winsA ≥ gallopWins || winsB ≥ gallopWins || first) then
      run fuel { s with minGallop := s.minGallop + 1 } (.stepping 0 0)
    else
      let s := { s with minGallop := max 1 (s.minGallop - 1) }
      let k := gallopRight cmp d s.work (get d s.temp s.cursorB.toNat) s.baseA s.lengthA (s.lengthA - 1)
      let winsA := s.lengthA - k
      let s := if winsA > 0 then takeManyA s winsA else s
      if winsA > 0 ∧ s.lengthA == 0 then (s, .restOfFirst)
      else
        let s := takeB d s
        if s.lengthB == 1 then (s, .lastOfFirst)
        else
          let k := gallopLeft cmp d s.temp (get d s.work s.cursorA.toNat) 0 s.lengthB (s.lengthB - 1)
          let winsB := s.lengthB - k
          let s := if winsB > 0 then takeManyB s winsB else s
          if winsB > 0 ∧ s.lengthB == 1 then (s, .lastOfFirst)
          else if winsB > 0 ∧ s.lengthB == 0 then (s, .restOfFirst)
          else
            let s := takeA d s
            if s.lengthA == 0 then (s, .restOfFirst)
            else run fuel s (.galloping winsA winsB false)

/-- The array after a merge ends: here the second run's rest goes below the output,
or the first run's rest moves down and the second run's first element goes below
it. -/
def finish (s : BackMerge α) : Ending → Array α
  | .restOfFirst =>
    if s.lengthB > 0 then writeFrom s.work (s.dest - (s.lengthB - 1 : Nat)).toNat (slice s.temp 0 s.lengthB)
    else s.work
  | .lastOfFirst =>
    let dest := s.dest - s.lengthA
    let cursorA := s.cursorA - s.lengthA
    writeAt (writeFrom s.work (dest + 1).toNat (slice s.work (cursorA + 1).toNat s.lengthA)) dest
      (get d s.temp s.cursorB.toNat)

end BackMerge

/-- Merges the runs of `lengthA` elements at `baseA` and `lengthB` at `baseB` from the
back; the second run is the shorter. Returns the array and the gallop threshold. -/
def mergeHigh {α : Type} (cmp : α → α → Float) (d : α) (work : Array α) (minGallop : Nat)
    (baseA lengthA baseB lengthB : Nat) : Array α × Nat :=
  let s : BackMerge α :=
    ⟨work, (work.extract baseB (baseB + lengthB)), (baseB + lengthB - 1 : Nat), (lengthB - 1 : Nat),
      (baseA + lengthA - 1 : Nat), lengthA, lengthB, minGallop, baseA⟩
  let s := BackMerge.takeA d s
  if s.lengthA == 0 then (BackMerge.finish d s .restOfFirst, s.minGallop)
  else if s.lengthB == 1 then (BackMerge.finish d s .lastOfFirst, s.minGallop)
  else
    let (s, e) := BackMerge.run cmp d (2 * (lengthA + lengthB) + 4) s (.stepping 0 0)
    (BackMerge.finish d s e, s.minGallop)

/-- A sort in progress: the array, the stack of runs waiting to be merged (start and
length, bottom first), and the gallop threshold. -/
structure Sorter (α : Type) where
  /-- The array being sorted. -/
  work : Array α
  /-- The runs waiting, bottom first. -/
  runs : Array (Nat × Nat) := #[]
  /-- The gallop threshold. -/
  minGallop : Nat := gallopWins

namespace Sorter

variable {α : Type} (cmp : α → α → Float) (d : α)

/-- The length of the run at a place of the stack. -/
def runLength (s : Sorter α) (i : Nat) : Nat := (s.runs.getD i (0, 0)).2

/-- Merges the runs at places `i` and `i + 1` of the stack. -/
def mergeAt (s : Sorter α) (i : Nat) : Sorter α :=
  let (baseA, lengthA) := s.runs.getD i (0, 0)
  let (baseB, lengthB) := s.runs.getD (i + 1) (0, 0)
  let runs := s.runs.setIfInBounds i (baseA, lengthA + lengthB)
  let runs := if i + 3 == s.runs.size then runs.setIfInBounds (i + 1) (runs.getD (i + 2) (0, 0)) else runs
  let s := { s with runs := runs.pop }
  let k := gallopRight cmp d s.work (get d s.work baseB) baseA lengthA 0
  let baseA := baseA + k
  let lengthA := lengthA - k
  if lengthA == 0 then s
  else
    let lengthB := gallopLeft cmp d s.work (get d s.work (baseA + lengthA - 1)) baseB lengthB (lengthB - 1)
    if lengthB == 0 then s
    else
      let (work, minGallop) :=
        if lengthA ≤ lengthB then mergeLow cmp d s.work s.minGallop baseA lengthA baseB lengthB
        else mergeHigh cmp d s.work s.minGallop baseA lengthA baseB lengthB
      { s with work, minGallop }

/-- Whether the runs below place `n` shrink fast enough: the run two places below is
longer than the next two together. -/
def settledAt (s : Sorter α) (n : Nat) : Bool :=
  n < 2 || s.runLength (n - 2) > s.runLength (n - 1) + s.runLength n

/-- Merges the top of the stack until every run is longer than the two above it
together and longer than the one above it. -/
def collapse : Nat → Sorter α → Sorter α
  | 0, s => s
  | fuel + 1, s =>
    if s.runs.size > 1 then
      let n := s.runs.size - 2
      if !s.settledAt (n + 1) || !s.settledAt n then
        let n := if s.runLength (n - 1) < s.runLength (n + 1) then n - 1 else n
        collapse fuel (s.mergeAt cmp d n)
      else if s.runLength n ≤ s.runLength (n + 1) then collapse fuel (s.mergeAt cmp d n)
      else s
    else s

/-- Merges the whole stack into one run. -/
def forceCollapse : Nat → Sorter α → Sorter α
  | 0, s => s
  | fuel + 1, s =>
    if s.runs.size > 1 then
      let n := s.runs.size - 2
      let n := if n > 0 ∧ s.runLength (n - 1) < s.runLength (n + 1) then n - 1 else n
      forceCollapse fuel (s.mergeAt cmp d n)
    else s

/-- The length of the run that starts at `low` (a run that steps strictly down is
reversed in place), at most up to `high`. -/
def runAt (s : Sorter α) (low high : Nat) : Sorter α × Nat :=
  if low + 1 ≥ high then (s, 1)
  else
    let descending := before cmp (get d s.work (low + 1)) (get d s.work low)
    let rec extend (idx len : Nat) (fuel : Nat) : Nat :=
      match fuel with
      | 0 => len
      | fuel + 1 =>
        if idx < high then
          let goesBefore := before cmp (get d s.work idx) (get d s.work (idx - 1))
          if goesBefore == descending then extend (idx + 1) (len + 1) fuel else len
        else len
    let len := extend (low + 2) 2 (high - low)
    if descending then
      ({ s with work := writeFrom s.work low (slice s.work low len).reverse }, len)
    else (s, len)

/-- Binary insertion of the elements at positions `start` up to `high` into the
sorted stretch that begins at `low`. -/
def insertFrom (s : Sorter α) (low start high : Nat) : Sorter α :=
  if start < high then
    let pivot := get d s.work start
    let left := searchRight cmp d s.work pivot low 0 (start - low)
    let moved := pivot :: slice s.work (low + left) (start - low - left)
    insertFrom { s with work := writeFrom s.work (low + left) moved } low (start + 1) high
  else s
termination_by high - start

/-- Cuts the array into runs from `low` on, each lengthened to `minRun` by
insertion, pushing each and collapsing the stack after it. -/
def cut (minRun : Nat) : Nat → Sorter α → Nat → Nat → Sorter α
  | 0, s, _, _ => s
  | fuel + 1, s, low, remaining =>
    if remaining == 0 then s
    else
      let (s, len) := s.runAt cmp d low (low + remaining)
      let (s, len) :=
        if len < minRun then
          let forced := min minRun remaining
          (s.insertFrom cmp d low (if len == 0 then low + 1 else low + len) (low + forced), forced)
        else (s, len)
      let s := { s with runs := s.runs.push (low, len) }
      let s := collapse cmp d (s.runs.size + 1) s
      cut minRun fuel s (low + len) (remaining - len)

end Sorter

/-- An array sorted by a numeric comparison (`d` is any element, standing in for
positions past the end, which are never read). -/
def sortArray {α : Type} (cmp : α → α → Float) (d : α) (a : Array α) : Array α :=
  if a.size < 2 then a
  else
    let s := Sorter.cut cmp d (minRunLength a.size) a.size { work := a } 0 a.size
    (Sorter.forceCollapse cmp d (s.runs.size + 1) s).work

/-- A list sorted by a numeric comparison. -/
def sort {α : Type} (cmp : α → α → Float) : List α → List α
  | [] => []
  | x :: xs => (sortArray cmp x (x :: xs).toArray).toList

/-- A list sorted by a numeric key, smallest first: the comparison is the
difference of the keys. -/
def sortOn {α : Type} (key : α → Float) (xs : List α) : List α :=
  sort (fun a b => key a - key b) xs

end LaneGate.Sorting
