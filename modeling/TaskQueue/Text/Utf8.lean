/-!
# UTF-8

Bytes of a text and the text of bytes. A well-formed sequence takes the shortest of the four lengths
and names no surrogate, so the second byte is restricted after some first bytes.

Results:

* `next?_encodeChar`: a written character is read back, whatever bytes follow;
* `decode?_encode`: the bytes of a text are read back as the text.
-/

namespace TaskQueue.Text

/-- Bytes in the order in which they are sent. -/
abbrev Bytes := List UInt8

namespace Utf8

/-- The bytes of characters. -/
def encode (cs : List Char) : Bytes := cs.flatMap String.utf8EncodeChar

/-- The bytes of a text. -/
def encodeText (s : String) : Bytes := encode s.toList

/-- A continuation byte from `lo` to `hi`, less its mark. -/
def continuation? (lo hi : Nat) (b : UInt8) : Option Nat :=
  if lo ≤ b.toNat ∧ b.toNat ≤ hi then some (b.toNat - 0x80) else none

/-- The bounds of the second byte after a first byte of three or four. -/
def secondBounds (first : Nat) : Nat × Nat :=
  if first = 0xE0 then (0xA0, 0xBF)
  else if first = 0xED then (0x80, 0x9F)
  else if first = 0xF0 then (0x90, 0xBF)
  else if first = 0xF4 then (0x80, 0x8F)
  else (0x80, 0xBF)

/-- The first character and the bytes after it; none when the bytes do not start with a well-formed
character. -/
def next? : Bytes → Option (Char × Bytes)
  | [] => none
  | a :: r =>
    let n := a.toNat
    if n < 0x80 then some (Char.ofNat n, r)
    else if 0xC2 ≤ n ∧ n ≤ 0xDF then
      match r with
      | b :: r => do
        let x ← continuation? 0x80 0xBF b
        return (Char.ofNat ((n - 0xC0) * 64 + x), r)
      | _ => none
    else if 0xE0 ≤ n ∧ n ≤ 0xEF then
      match r with
      | b :: c :: r => do
        let (lo, hi) := secondBounds n
        let x ← continuation? lo hi b
        let y ← continuation? 0x80 0xBF c
        return (Char.ofNat (((n - 0xE0) * 64 + x) * 64 + y), r)
      | _ => none
    else if 0xF0 ≤ n ∧ n ≤ 0xF4 then
      match r with
      | b :: c :: d :: r => do
        let (lo, hi) := secondBounds n
        let x ← continuation? lo hi b
        let y ← continuation? 0x80 0xBF c
        let z ← continuation? 0x80 0xBF d
        return (Char.ofNat ((((n - 0xF0) * 64 + x) * 64 + y) * 64 + z), r)
      | _ => none
    else none

/-- The characters in front, and the bytes from the first place on that is not well-formed. At most
`fuel` characters are read. -/
def splitFrom : (fuel : Nat) → Bytes → List Char × Bytes
  | 0, bs => ([], bs)
  | fuel + 1, bs =>
    match next? bs with
    | none => ([], bs)
    | some (c, r) => (c :: (splitFrom fuel r).1, (splitFrom fuel r).2)

/-- The characters in front, and the bytes from the first place on that is not well-formed. -/
def split (bs : Bytes) : List Char × Bytes := splitFrom bs.length bs

/-- The text of well-formed bytes. -/
def decode? (bs : Bytes) : Option String :=
  match split bs with
  | (cs, []) => some (String.ofList cs)
  | _ => none

/-! ## Reading what was written -/

theorem toNat_ofNat_of_lt {n : Nat} (h : n < 256) : (UInt8.ofNat n).toNat = n := by
  simp [Nat.mod_eq_of_lt h]

theorem continuation?_ofNat {lo hi n : Nat} (h1 : lo ≤ n + 128) (h2 : n + 128 ≤ hi) (h3 : n < 64) :
    continuation? lo hi (UInt8.ofNat (n + 128)) = some n := by
  rw [continuation?, toNat_ofNat_of_lt (by omega), if_pos ⟨h1, h2⟩]
  simp

/-- **A written character is read back**, whatever bytes follow. -/
theorem next?_encodeChar (c : Char) (r : Bytes) :
    next? (String.utf8EncodeChar c ++ r) = some (c, r) := by
  have hv : c.val.toNat < 0xD800 ∨ (0xDFFF < c.val.toNat ∧ c.val.toNat < 0x110000) := c.valid
  have hc : Char.ofNat c.val.toNat = c := Char.ofNat_toNat c
  generalize hn : c.val.toNat = v at hv hc
  simp only [String.utf8EncodeChar, hn]
  split
  · next h =>
    simp only [List.cons_append, List.nil_append, next?]
    rw [toNat_ofNat_of_lt (by omega), if_pos (by omega), hc]
  · split
    · next h1 h2 =>
      simp only [List.cons_append, List.nil_append, next?]
      rw [toNat_ofNat_of_lt (by omega), if_neg (by omega), if_pos (by omega),
        continuation?_ofNat (by omega) (by omega) (by omega)]
      simp only [Option.bind_eq_bind, Option.bind_some]
      rw [show (v / 64 % 32 + 192 - 192) * 64 + v % 64 = v by omega, hc]
      rfl
    · split
      · next h1 h2 h3 =>
        simp only [List.cons_append, List.nil_append, next?]
        rw [toNat_ofNat_of_lt (by omega), if_neg (by omega), if_neg (by omega), if_pos (by omega)]
        have hb : (secondBounds (v / 4096 % 16 + 224)).1 ≤ v / 64 % 64 + 128 ∧
            v / 64 % 64 + 128 ≤ (secondBounds (v / 4096 % 16 + 224)).2 := by
          simp only [secondBounds]
          repeat' split
          all_goals simp only
          all_goals omega
        rw [continuation?_ofNat hb.1 hb.2 (by omega),
          continuation?_ofNat (by omega) (by omega) (by omega)]
        simp only [Option.bind_eq_bind, Option.bind_some]
        rw [show ((v / 4096 % 16 + 224 - 224) * 64 + v / 64 % 64) * 64 + v % 64 = v by omega, hc]
        rfl
      · next h1 h2 h3 =>
        simp only [List.cons_append, List.nil_append, next?]
        rw [toNat_ofNat_of_lt (by omega), if_neg (by omega), if_neg (by omega), if_neg (by omega),
          if_pos (by omega)]
        have hb : (secondBounds (v / 262144 % 8 + 240)).1 ≤ v / 4096 % 64 + 128 ∧
            v / 4096 % 64 + 128 ≤ (secondBounds (v / 262144 % 8 + 240)).2 := by
          simp only [secondBounds]
          repeat' split
          all_goals simp only
          all_goals omega
        rw [continuation?_ofNat hb.1 hb.2 (by omega),
          continuation?_ofNat (by omega) (by omega) (by omega),
          continuation?_ofNat (by omega) (by omega) (by omega)]
        simp only [Option.bind_eq_bind, Option.bind_some]
        rw [show (((v / 262144 % 8 + 240 - 240) * 64 + v / 4096 % 64) * 64 + v / 64 % 64) * 64 +
          v % 64 = v by omega, hc]
        rfl

theorem length_encodeChar_pos (c : Char) : 0 < (String.utf8EncodeChar c).length := by
  simp only [String.utf8EncodeChar]
  repeat' split
  all_goals simp

theorem splitFrom_encode (cs : List Char) {fuel : Nat} (h : (encode cs).length ≤ fuel) :
    splitFrom fuel (encode cs) = (cs, []) := by
  induction cs generalizing fuel with
  | nil => cases fuel <;> simp [encode, splitFrom, next?]
  | cons c cs ih =>
    have hl := length_encodeChar_pos c
    simp only [encode, List.flatMap_cons, List.length_append] at h
    cases fuel with
    | zero => omega
    | succ fuel =>
      have hle : (encode cs).length ≤ fuel := by
        simp only [encode]
        omega
      have := ih hle
      simp only [encode] at this
      simp only [encode, List.flatMap_cons, splitFrom, next?_encodeChar, this]

/-- **The bytes of a text are read back as the text.** -/
theorem decode?_encode (s : String) : decode? (encodeText s) = some s := by
  simp [decode?, split, encodeText, splitFrom_encode]

end Utf8

end TaskQueue.Text
