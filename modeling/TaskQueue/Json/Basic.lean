import TaskQueue.Dict
import TaskQueue.Number.Shortest

/-!
# JSON values

Integers of -2⁶³ to 2⁶⁴ − 1 and doubles are kept apart. An object is its list of members: as read
they stand in the order of the text, and `canonical` brings them into key order and keeps the last
of a repeated key.

Results:

* `decEq`: equality of values is decidable.
-/

namespace TaskQueue.Json

open Number

/-- A JSON value. -/
inductive Value where
  | null
  | bool (b : Bool)
  | int (i : Int)
  | double (x : Double)
  | text (s : String)
  | list (xs : List Value)
  | object (members : List (String × Value))
  /-- Well-formed text that denotes no value: a number beyond the doubles, or text with half of a
  surrogate pair. Only an outline of a document holds such a place. -/
  | unreadable

namespace Value

instance : Inhabited Value := ⟨null⟩

mutual

/-- Equality of values is decidable. -/
def decEq : (a b : Value) → Decidable (a = b)
  | null, b =>
    match b with
    | null => .isTrue rfl
    | bool _ | int _ | double _ | text _ | list _ | object _ | unreadable => .isFalse nofun
  | bool x, b =>
    match b with
    | bool y => if h : x = y then .isTrue (h ▸ rfl) else .isFalse fun e => h (by cases e; rfl)
    | null | int _ | double _ | text _ | list _ | object _ | unreadable => .isFalse nofun
  | int x, b =>
    match b with
    | int y => if h : x = y then .isTrue (h ▸ rfl) else .isFalse fun e => h (by cases e; rfl)
    | null | bool _ | double _ | text _ | list _ | object _ | unreadable => .isFalse nofun
  | double x, b =>
    match b with
    | double y => if h : x = y then .isTrue (h ▸ rfl) else .isFalse fun e => h (by cases e; rfl)
    | null | bool _ | int _ | text _ | list _ | object _ | unreadable => .isFalse nofun
  | text x, b =>
    match b with
    | text y => if h : x = y then .isTrue (h ▸ rfl) else .isFalse fun e => h (by cases e; rfl)
    | null | bool _ | int _ | double _ | list _ | object _ | unreadable => .isFalse nofun
  | list x, b =>
    match b with
    | list y =>
      match decEqList x y with
      | .isTrue h => .isTrue (h ▸ rfl)
      | .isFalse h => .isFalse fun e => h (by cases e; rfl)
    | null | bool _ | int _ | double _ | text _ | object _ | unreadable => .isFalse nofun
  | object x, b =>
    match b with
    | object y =>
      match decEqMembers x y with
      | .isTrue h => .isTrue (h ▸ rfl)
      | .isFalse h => .isFalse fun e => h (by cases e; rfl)
    | null | bool _ | int _ | double _ | text _ | list _ | unreadable => .isFalse nofun
  | unreadable, b =>
    match b with
    | unreadable => .isTrue rfl
    | null | bool _ | int _ | double _ | text _ | list _ | object _ => .isFalse nofun

/-- Equality of lists of values is decidable. -/
def decEqList : (a b : List Value) → Decidable (a = b)
  | [], [] => .isTrue rfl
  | [], _ :: _ => .isFalse nofun
  | _ :: _, [] => .isFalse nofun
  | x :: xs, y :: ys =>
    match decEq x y, decEqList xs ys with
    | .isTrue h, .isTrue h' => .isTrue (h ▸ h' ▸ rfl)
    | .isFalse h, _ => .isFalse fun e => h (by cases e; rfl)
    | _, .isFalse h => .isFalse fun e => h (by cases e; rfl)

/-- Equality of lists of members is decidable. -/
def decEqMembers : (a b : List (String × Value)) → Decidable (a = b)
  | [], [] => .isTrue rfl
  | [], _ :: _ => .isFalse nofun
  | _ :: _, [] => .isFalse nofun
  | (k, x) :: xs, (l, y) :: ys =>
    if hk : k = l then
      match decEq x y, decEqMembers xs ys with
      | .isTrue h, .isTrue h' => .isTrue (hk ▸ h ▸ h' ▸ rfl)
      | .isFalse h, _ => .isFalse fun e => h (by cases e; rfl)
      | _, .isFalse h => .isFalse fun e => h (by cases e; rfl)
    else .isFalse fun e => hk (by cases e; rfl)

end

instance : DecidableEq Value := decEq

/-! ## Canonical values -/

/-- The least integer that is kept as one. -/
def minInt : Int := -9223372036854775808

/-- The greatest integer that is kept as one. -/
def maxInt : Int := 18446744073709551615

mutual

/-- Every integer is one that is kept as such, every double is finite, nothing is unreadable, and
the keys of every object increase. -/
def Canonical : Value → Prop
  | null | bool _ | text _ => True
  | int i => minInt ≤ i ∧ i ≤ maxInt
  | double x => x.isFinite = true
  | list xs => CanonicalList xs
  | object es => Entries.Sorted es ∧ CanonicalMembers es
  | unreadable => False

/-- All values of a list are canonical. -/
def CanonicalList : List Value → Prop
  | [] => True
  | x :: xs => x.Canonical ∧ CanonicalList xs

/-- All values of members are canonical. -/
def CanonicalMembers : List (String × Value) → Prop
  | [] => True
  | (_, x) :: es => x.Canonical ∧ CanonicalMembers es

end

mutual

/-- How many lists and objects lie around the innermost place of a value, itself included. -/
def depth : Value → Nat
  | list xs => depthList xs + 1
  | object es => depthMembers es + 1
  | _ => 0

/-- The greatest depth in a list. -/
def depthList : List Value → Nat
  | [] => 0
  | x :: xs => max x.depth (depthList xs)

/-- The greatest depth among members. -/
def depthMembers : List (String × Value) → Nat
  | [] => 0
  | (_, x) :: es => max x.depth (depthMembers es)

end

/-! ## Kinds -/

/-- The name of a value's kind. -/
def kind : Value → String
  | null => "null"
  | bool _ => "bool"
  | int _ | double _ | unreadable => "number"
  | text _ => "string"
  | list _ => "array"
  | object _ => "object"

/-- The text, if the value is one. -/
def text? : Value → Option String
  | text s => some s
  | _ => none

end Value

end TaskQueue.Json
