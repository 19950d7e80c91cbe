import TaskQueue.Number.Scaled
import TaskQueue.Number.Shortest

/-!
# Doubles as they are read and written

Results:

* `isFinite_of_scaled?`: a double that is read is finite;
* `render_numeric`: a double is written in digits, signs, points and the letter of the exponent;
* `exists_render`: its first character is a minus or a digit.
-/

namespace TaskQueue.Number

/-- A character that may stand in a written double. -/
def IsNumeric (c : Char) : Prop := c.isDigit = true ∨ c ∈ ['-', '+', '.', 'e']

/-- Numeric characters of which the first is a digit. -/
structure Numeric (cs : List Char) : Prop where
  head : ∃ c cs', cs = c :: cs' ∧ c.isDigit = true
  all : ∀ c ∈ cs, IsNumeric c

theorem isDigit_of_mem_toDigits {n : Nat} {c : Char} (h : c ∈ Nat.toDigits 10 n) :
    c.isDigit = true :=
  Nat.isDigit_of_mem_toDigits (by decide) (by decide) h

theorem Decimal.isDigit_text (d : Decimal) : ∀ c ∈ d.text, c.isDigit = true := by
  have hdigits : ∀ c ∈ ((Nat.toDigits 10 d.digits).reverse.dropWhile (· == '0')).reverse,
      c.isDigit = true := by
    intro c hc
    have hmem := (List.dropWhile_suffix _).subset (List.mem_reverse.mp hc)
    exact isDigit_of_mem_toDigits (List.mem_reverse.mp hmem)
  unfold Decimal.text
  dsimp only
  split
  · exact List.forall_mem_singleton.mpr rfl
  · exact hdigits

theorem Decimal.text_ne_nil (d : Decimal) : d.text ≠ [] := by
  unfold Decimal.text
  dsimp only
  split
  · exact List.cons_ne_nil _ _
  · next h => exact fun he => h (by rw [he]; rfl)

namespace Double

/-! ## What is read -/

theorem isFinite_zero (negative : Bool) : (zero negative).isFinite = true := by
  cases negative <;> decide

/-- Below the magnitude of infinity the bits of the exponent are not all set. -/
theorem isFinite_of_lt {magnitude : Nat} (h : magnitude < 2047 * twoTo 52) (negative : Bool) :
    isFinite ⟨UInt64.ofNat (magnitude + if negative then twoTo 63 else 0)⟩ = true := by
  have h52 : twoTo 52 = 4503599627370496 := rfl
  have h11 : twoTo 11 = 2048 := rfl
  have hsign : (if negative then twoTo 63 else 0) = 0 ∨
      (if negative then twoTo 63 else 0) = 9223372036854775808 := by
    cases negative
    · exact .inl rfl
    · exact .inr rfl
  generalize (if negative then twoTo 63 else 0) = sign at hsign ⊢
  rw [h52] at h
  have hbits : (UInt64.ofNat (magnitude + sign)).toNat = magnitude + sign :=
    UInt64.toNat_ofNat_of_lt' (by simp only [UInt64.size]; omega)
  unfold isFinite exponentField
  rw [bne_iff_ne, hbits, h52, h11]
  omega

theorem isFinite_of_ofRatio? {negative : Bool} {num den : Nat} {x : Double}
    (h : ofRatio? negative num den = some x) : x.isFinite = true := by
  unfold ofRatio? at h
  split at h
  · cases h
    exact isFinite_zero negative
  · dsimp only at h
    split at h
    · next hlt =>
      cases h
      exact isFinite_of_lt hlt negative
    · cases h

/-- **A double that is read is finite.** -/
theorem isFinite_of_scaled? {negative : Bool} {digits : Nat} {power : Int} {x : Double}
    (h : scaled? negative digits power = some x) : x.isFinite = true := by
  unfold scaled? at h
  obtain ⟨y, hy, h⟩ := Option.bind_eq_some_iff.mp h
  split at h
  · cases h
    exact isFinite_of_ofRatio? hy
  · split at h
    · cases h
    · split at h
      · obtain ⟨z, -, h⟩ := Option.bind_eq_some_iff.mp h
        exact isFinite_of_ofRatio? h
      · split at h
        · obtain ⟨z, -, h⟩ := Option.bind_eq_some_iff.mp h
          exact isFinite_of_ofRatio? h
        · split at h
          · obtain ⟨z, -, h⟩ := Option.bind_eq_some_iff.mp h
            obtain ⟨w, -, h⟩ := Option.bind_eq_some_iff.mp h
            obtain ⟨u, -, h⟩ := Option.bind_eq_some_iff.mp h
            exact isFinite_of_ofRatio? h
          · cases h
            exact isFinite_zero negative

/-! ## What is written -/

section Digits

variable {ds : List Char} (hne : ds ≠ []) (hds : ∀ c ∈ ds, c.isDigit = true)
include hne hds

theorem numeric_pointed (whole : Int) : Numeric (pointed ds whole) := by
  have hall : ∀ c ∈ ds, IsNumeric c := fun c hc => .inl (hds c hc)
  have hzeros (n : Nat) : ∀ c ∈ List.replicate n '0', IsNumeric c := fun c hc =>
    .inl (List.eq_of_mem_replicate hc ▸ rfl)
  have hpoint : IsNumeric '.' := .inr (by decide)
  have hzero : IsNumeric '0' := .inl rfl
  obtain ⟨d, ds, rfl⟩ := List.exists_cons_of_ne_nil hne
  have hd := hds d List.mem_cons_self
  unfold pointed
  dsimp only
  split
  · refine ⟨⟨'0', _, rfl, rfl⟩, ?_⟩
    rw [List.forall_mem_append, List.forall_mem_cons, List.forall_mem_cons]
    exact ⟨⟨hzero, hpoint, hzeros _⟩, hall⟩
  · split
    · refine ⟨⟨d, _, rfl, hd⟩, ?_⟩
      rw [List.forall_mem_append, List.forall_mem_append]
      exact ⟨⟨hall, hzeros _⟩,
        List.forall_mem_cons.mpr ⟨hpoint, List.forall_mem_singleton.mpr hzero⟩⟩
    · next hwhole _ =>
      obtain ⟨k, hk⟩ : ∃ k, whole.toNat = k + 1 := ⟨whole.toNat - 1, by omega⟩
      refine ⟨⟨d, _, by rw [hk]; rfl, hd⟩, ?_⟩
      rw [List.forall_mem_append, List.forall_mem_cons]
      exact ⟨fun c hc => hall c (List.mem_of_mem_take hc), hpoint,
        fun c hc => hall c (List.mem_of_mem_drop hc)⟩

theorem numeric_powered (e : Int) : Numeric (powered ds e) := by
  have hall : ∀ c ∈ ds, IsNumeric c := fun c hc => .inl (hds c hc)
  have hsign : IsNumeric (if e < 0 then '-' else '+') := by
    split
    · exact .inr (by decide)
    · exact .inr (by decide)
  have hpower : ∀ c ∈ 'e' :: (if e < 0 then '-' else '+') :: Nat.toDigits 10 e.natAbs,
      IsNumeric c := by
    rw [List.forall_mem_cons, List.forall_mem_cons]
    exact ⟨.inr (by decide), hsign, fun c hc => .inl (isDigit_of_mem_toDigits hc)⟩
  unfold powered
  match ds, hne with
  | [d], _ =>
    refine ⟨⟨d, _, rfl, hds d List.mem_cons_self⟩, ?_⟩
    exact List.forall_mem_append.mpr ⟨hall, hpower⟩
  | d :: r :: rs, _ =>
    obtain ⟨hd, hrs⟩ := List.forall_mem_cons.mp hall
    refine ⟨⟨d, _, rfl, hds d List.mem_cons_self⟩, ?_⟩
    rw [List.forall_mem_append, List.forall_mem_cons, List.forall_mem_cons]
    exact ⟨⟨hd, .inr (by decide), hrs⟩, hpower⟩

/-- The two forms of the digits, whichever is taken. -/
theorem numeric_body (p : Prop) [Decidable p] (whole e : Int) :
    Numeric (if p then pointed ds whole else powered ds e) := by
  split
  · exact numeric_pointed hne hds whole
  · exact numeric_powered hne hds e

end Digits

/-- A double is written as its digits after a sign, if there is one. -/
theorem exists_numeric (x : Double) :
    ∃ cs, (x.render = '-' :: cs ∨ x.render = cs) ∧ Numeric cs := by
  unfold render
  dsimp only
  split
  · exact ⟨_, .inl rfl, numeric_body x.shortest.text_ne_nil x.shortest.isDigit_text _ _ _⟩
  · exact ⟨_, .inr rfl, numeric_body x.shortest.text_ne_nil x.shortest.isDigit_text _ _ _⟩

/-- **A double is written in numeric characters.** -/
theorem render_numeric (x : Double) : ∀ c ∈ x.render, IsNumeric c := by
  obtain ⟨cs, h | h, hcs⟩ := x.exists_numeric
  · rw [h]
    exact List.forall_mem_cons.mpr ⟨.inr (by decide), hcs.all⟩
  · rw [h]
    exact hcs.all

/-- **The first character of a written double** is a minus or a digit. -/
theorem exists_render (x : Double) :
    ∃ c cs, x.render = c :: cs ∧ (c = '-' ∨ c.isDigit = true) := by
  obtain ⟨cs, h | h, hcs⟩ := x.exists_numeric
  · exact ⟨'-', cs, h, .inl rfl⟩
  · obtain ⟨c, cs', hc, hdigit⟩ := hcs.head
    exact ⟨c, cs', h.trans hc, .inr hdigit⟩

end Double

end TaskQueue.Number
