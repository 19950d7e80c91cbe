import TaskQueue.Text.Utf8

/-!
# The bytes of characters

An ASCII character is one byte, its own number; every byte of another character has its high bit
set. So no byte of a text is taken for an ASCII character that is not in it.

Results:

* `encode_cons_ascii`: an ASCII character in front is one byte in front;
* `high_of_mem_encodeChar`: the bytes of a character that is not ASCII.
-/

namespace TaskQueue.Text.Utf8

@[simp] theorem encode_nil : encode [] = [] := rfl

theorem encode_cons (c : Char) (cs : List Char) :
    encode (c :: cs) = String.utf8EncodeChar c ++ encode cs := rfl

theorem encode_append (cs cs' : List Char) : encode (cs ++ cs') = encode cs ++ encode cs' :=
  List.flatMap_append

theorem encode_cons_ascii {c : Char} (h : c.toNat < 0x80) (cs : List Char) :
    encode (c :: cs) = UInt8.ofNat c.toNat :: encode cs := by
  have hle : c.val.toNat ≤ 0x7F := Nat.lt_succ_iff.mp h
  rw [encode_cons]
  unfold String.utf8EncodeChar
  simp only [hle, if_true]
  rfl

/-- Every byte of ASCII characters is the number of one of them. -/
theorem exists_of_mem_encode {cs : List Char} (h : ∀ c ∈ cs, c.toNat < 0x80) {b : UInt8}
    (hb : b ∈ encode cs) : ∃ c ∈ cs, b.toNat = c.toNat := by
  induction cs with
  | nil => cases hb
  | cons c cs ih =>
    have hc := h c List.mem_cons_self
    rw [encode_cons_ascii hc] at hb
    rcases List.mem_cons.mp hb with rfl | hb
    · exact ⟨c, List.mem_cons_self, toNat_ofNat_of_lt (by omega)⟩
    · obtain ⟨d, hd, hbd⟩ := ih (fun d hd => h d (List.mem_cons_of_mem c hd)) hb
      exact ⟨d, List.mem_cons_of_mem c hd, hbd⟩

/-- Every byte of a character that is not ASCII has its high bit set. -/
theorem high_of_mem_encodeChar {c : Char} (h : 0x80 ≤ c.toNat) {b : UInt8}
    (hb : b ∈ String.utf8EncodeChar c) : 0x80 ≤ b.toNat := by
  have hv : ¬ c.val.toNat ≤ 0x7F := Nat.not_le.mpr h
  have hmax : c.val.toNat < 0x110000 := by
    rcases c.valid with hc | ⟨-, hc⟩
    · exact Nat.lt_trans hc (by decide)
    · exact hc
  unfold String.utf8EncodeChar at hb
  simp only [hv, if_false] at hb
  split at hb
  · simp only [List.mem_cons, List.not_mem_nil, or_false] at hb
    rcases hb with rfl | rfl <;> rw [toNat_ofNat_of_lt (by omega)] <;> omega
  · split at hb
    · simp only [List.mem_cons, List.not_mem_nil, or_false] at hb
      rcases hb with rfl | rfl | rfl <;> rw [toNat_ofNat_of_lt (by omega)] <;> omega
    · simp only [List.mem_cons, List.not_mem_nil, or_false] at hb
      rcases hb with rfl | rfl | rfl | rfl <;> rw [toNat_ofNat_of_lt (by omega)] <;> omega

end TaskQueue.Text.Utf8
