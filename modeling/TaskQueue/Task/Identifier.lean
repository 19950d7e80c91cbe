/-!
# Identifiers

Identifiers in the form of a UUID of version 7, one for every number.

Out of scope: the time of day and the chance in real ones. Nothing reads them.
-/

namespace TaskQueue

/-- The identifier of a number. -/
def identifier (n : Nat) : String :=
  let ds := Nat.toDigits 16 n
  "00000000-0000-7000-8000-" ++ String.ofList (List.replicate (12 - ds.length) '0' ++ ds)

end TaskQueue
