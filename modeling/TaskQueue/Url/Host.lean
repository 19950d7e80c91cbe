import TaskQueue.Text.Hex
import TaskQueue.Text.Pieces

/-!
# Hosts of URLs

A host is a name, or eight groups of hexadecimal digits in brackets. Of the groups the last two may
be written as four decimal numbers, and once a run of groups may be left out between two colons.
-/

namespace TaskQueue.Url

open Text

/-- The host of a URL. -/
inductive Host where
  | name (s : String)
  /-- Groups of digits, as they stand in the brackets. -/
  | groups (s : String)
  deriving DecidableEq

namespace Host

/-- Characters that no name holds. -/
def isForbidden (c : Char) : Bool :=
  c = '\x00' || [' ', '#', '/', ':', '<', '>', '?', '@', '[', '\\', ']', '^', '|'].contains c

/-- One to four hexadecimal digits. -/
def isGroup (g : List Char) : Bool :=
  !g.isEmpty && g.length ≤ 4 && g.all fun c => (hexDigit? c).isSome

/-- A decimal number up to 255 without leading zeros. -/
def isOctet (ds : List Char) : Bool :=
  !ds.isEmpty && ds.length ≤ 3 && ds.all Char.isDigit && (ds.length = 1 || ds.head? ≠ some '0') &&
    Nat.ofDigitChars 10 ds 0 ≤ 255

/-- Four decimal numbers between points. -/
def isQuad (g : List Char) : Bool :=
  let octets := pieces '.' g
  octets.length = 4 && octets.all isOctet

/-- How many groups are written. The last two may be written as four decimal numbers. -/
def countGroups? : List (List Char) → Option Nat
  | [] => some 0
  | [g] => if isGroup g then some 1 else if isQuad g then some 2 else none
  | g :: gs => if isGroup g then (countGroups? gs).map (· + 1) else none

/-- What stands before and after the first two colons in a row. -/
def cutGap? : List Char → Option (List Char × List Char)
  | ':' :: ':' :: r => some ([], r)
  | c :: r => (cutGap? r).map fun (front, back) => (c :: front, back)
  | [] => none

/-- The texts of groups; there may be none on either side of a gap. -/
def sideGroups (cs : List Char) : List (List Char) := if cs.isEmpty then [] else pieces ':' cs

/-- Eight groups, or fewer than eight around a gap. -/
def areGroups (cs : List Char) : Bool :=
  match cutGap? cs with
  | none => countGroups? (pieces ':' cs) = some 8
  | some (front, back) =>
    let front := sideGroups front
    front.all isGroup && (countGroups? (sideGroups back)).any fun n => front.length + n ≤ 7

/-- The host in front of what is written after two slashes, and what follows it. An empty name is
no host. -/
def scan? : List Char → Option (Option Host × List Char)
  | '[' :: r => do
    let (cs, r) ← cut? ']' r
    guard (areGroups cs)
    return (some (.groups (.ofList cs)), r)
  | cs => do
    let (cs, r) := before [':'] cs
    guard (cs.all fun c => !isForbidden c)
    return (if cs.isEmpty then none else some (.name (.ofList cs)), r)

end Host

end TaskQueue.Url
