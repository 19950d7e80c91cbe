import TaskQueue.Text.Hex
import TaskQueue.Text.Utf8

/-!
# Percent signs

In a URL a byte can be written as a percent sign and two hexadecimal digits. A percent sign without
two such digits stands for itself.

Results:

* `percentDecode_of_not_mem`: text without a percent sign is written as it is.
-/

namespace TaskQueue.Text

/-- The byte that two hexadecimal digits write. -/
def hexByte? (a b : Char) : Option UInt8 := do
  return .ofNat ((← hexDigit? a) * 16 + (← hexDigit? b))

/-- The bytes that are written. -/
def percentDecode : List Char → Bytes
  | '%' :: a :: b :: r =>
    match hexByte? a b with
    | some x => x :: percentDecode r
    | none => 0x25 :: percentDecode (a :: b :: r)
  | c :: r => Utf8.encode [c] ++ percentDecode r
  | [] => []

theorem percentDecode_of_not_mem {cs : List Char} (h : '%' ∉ cs) :
    percentDecode cs = Utf8.encode cs := by
  induction cs with
  | nil => rfl
  | cons c cs ih =>
    have hc : c ≠ '%' := fun he => h (he ▸ List.mem_cons_self)
    have ih := ih fun hm => h (List.mem_cons_of_mem _ hm)
    simp [percentDecode, ih, hc, Utf8.encode]

end TaskQueue.Text
