import LaneGate.Json.Value
/-!
# Objects filled by assignment

A table of figures by name (counts per provider, states per breaker) is an
ordinary object filled one assignment at a time. Such an object is not empty
before the first assignment: it answers to the names of the shared prototype
(`constructor`, `toString`, `__proto__` and the rest of `inheritedNames`), and
two rules follow.

* Assigning under `__proto__` replaces the object's prototype instead of adding
  a member, so that name never appears among the members written out
  (`assignMember`).
* Reading a name the object has not been given yields the inherited value. For
  every inherited name but `__proto__` that is a function, whose text is
  `function NAME() { [native code] }` (`Object` for `constructor`). A count kept
  as "the value read, or zero, plus one" therefore starts from that text and
  grows by one digit `1` per count (`tallyValue`). For `__proto__` it is the
  prototype itself; a count assigned there is lost.

Where a table copies its figures from such a read, a name whose read is
inherited holds a function, which is not written out (`ownMembers`).
-/

namespace LaneGate.Json

/-- The names every ordinary object answers to before anything is assigned. -/
def inheritedNames : List String :=
  ["constructor", "__defineGetter__", "__defineSetter__", "hasOwnProperty",
   "__lookupGetter__", "__lookupSetter__", "isPrototypeOf", "propertyIsEnumerable",
   "toString", "valueOf", "__proto__", "toLocaleString"]

/-- The name that sets an object's prototype rather than a member. -/
def prototypeName : String := "__proto__"

/-- Members after an assignment: `__proto__` leaves them as they are; any other
name is set in place if present, else added at the end. -/
def assignMember {α : Type} (ms : List (String × α)) (key : String) (v : α) : List (String × α) :=
  if key == prototypeName then ms
  else if ms.any (·.1 == key) then ms.map fun (k, w) => if k == key then (k, v) else (k, w)
  else ms ++ [(key, v)]

/-- An object after an assignment of a member; values that are not objects are
unchanged. -/
def assign (j : Json) (key : String) (v : Json) : Json :=
  match j with
  | .obj ms => .obj (assignMember ms key v)
  | other => other

/-- An object filled by assigning each pair in turn. -/
def assignAll (xs : List (String × Json)) : Json :=
  .obj (xs.foldl (fun acc (k, v) => assignMember acc k v) [])

/-- The text of the inherited function of a name. -/
def inheritedText (name : String) : String :=
  "function " ++ (if name == "constructor" then "Object" else name) ++ "() \x7b [native code] \x7d"

/-- The value a count of `n` ends as under a name, starting from the name's read:
a number when nothing is inherited, else the inherited text followed by `n` ones;
none under `__proto__`, where nothing is kept. -/
def tallyValue (name : String) (n : Nat) : Option Json :=
  if name == prototypeName then none
  else if inheritedNames.contains name then
    some (ofString (inheritedText name ++ String.ofList (List.replicate n '1')))
  else some (ofNat n)

/-- Counts by name as the object they fill. -/
def tally (xs : List (String × Nat)) : Json :=
  .obj (xs.filterMap fun (k, n) => (tallyValue k n).map (k, ·))

/-- The members whose name is not inherited. -/
def ownMembers {α : Type} (ms : List (String × α)) : List (String × α) :=
  ms.filter fun m => !inheritedNames.contains m.1

theorem assignMember_prototype {α : Type} (ms : List (String × α)) (v : α) :
    assignMember ms prototypeName v = ms := by
  simp [assignMember]

end LaneGate.Json
