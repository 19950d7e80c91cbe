import TaskQueue.Proofs.Json.Reader
import TaskQueue.Proofs.Number.Double
import TaskQueue.Proofs.Text.Utf8

/-!
# Numbers are read as they were written

What a number is does not depend on what follows it at a closed place (`Extends`): none of its parts
looks beyond a comma, a closing bracket or the end. So a number that is read back as a document of
its own is read back inside a list or an object as well. Integers are always read back; of a double
only its own document says whether it is (`ReadsBack`).

Results:

* `valueOver_int`: a written integer is read back at every closed place;
* `valueOver_double`: so is a written double that reads back;
* `canonical_of_value?`: the value of a number is an integer that is kept as one or a finite double.
-/

namespace TaskQueue.Json.Reader

open Text Number

variable {α β : Type}

/-! ## What follows a number -/

/-- What the reader reads in front of `s` is the same when more follows at a closed place. -/
def Extends (r : Reader α) (s : Bytes) : Prop :=
  ∀ a s', r s = .ok (a, s') →
    s' <:+ s ∧ ∀ rest, Closed rest → r (s ++ rest) = .ok (a, s' ++ rest)

namespace Extends

variable {s : Bytes}

/-- What is read of nothing at all is read of nothing in front of a closed place. -/
theorem nil {r : Reader α} {a : α} (h : ∀ rest, Closed rest → r rest = .ok (a, rest)) :
    Extends r [] := by
  intro a' s' ha
  rw [h [] closed_nil] at ha
  cases ha
  exact ⟨List.suffix_refl _, h⟩

theorem pure (a : α) : Extends (pure a) s := by
  rintro a' s' he
  cases he
  exact ⟨List.suffix_refl s, fun _ _ => rfl⟩

theorem failHere (fault : Fault) : Extends (failHere fault : Reader α) s := nofun

theorem failNext (fault : Fault) : Extends (failNext fault : Reader α) s := nofun

theorem bind {r : Reader α} {f : α → Reader β} (hr : Extends r s) (hf : ∀ a s, Extends (f a) s) :
    Extends (r >>= f) s := by
  intro b s'' h
  obtain ⟨a, s', ha, hb⟩ := bind_eq_ok h
  obtain ⟨hsuffix, hmore⟩ := hr a s' ha
  obtain ⟨hsuffix', hmore'⟩ := hf a s' b s'' hb
  refine ⟨hsuffix'.trans hsuffix, fun rest hrest => ?_⟩
  rw [bind_of_ok (hmore rest hrest)]
  exact hmore' rest hrest

theorem peek_bind {f : Option Char → Reader β} {b : UInt8}
    (h : Extends (f (some (charOf b))) (b :: s)) : Extends (peek >>= f) (b :: s) := h

theorem next_bind {f : Option Char → Reader β} {b : UInt8}
    (h : Extends (f (some (charOf b))) s) : Extends (next >>= f) (b :: s) := by
  intro a s' ha
  obtain ⟨hsuffix, hmore⟩ := h a s' ha
  exact ⟨hsuffix.trans (List.suffix_cons b s), hmore⟩

theorem skipOne_bind {f : Unit → Reader β} {b : UInt8} (h : Extends (f ()) s) :
    Extends (skipOne >>= f) (b :: s) := by
  intro a s' ha
  obtain ⟨hsuffix, hmore⟩ := h a s' ha
  exact ⟨hsuffix.trans (List.suffix_cons b s), hmore⟩

theorem digits (s : Bytes) : Extends digits s := by
  rintro ds s' he
  cases he
  refine ⟨List.dropWhile_suffix _, fun rest hrest => ?_⟩
  have hhead : rest.takeWhile isDigitByte = [] := by
    cases rest with
    | nil => rfl
    | cons b rest =>
      refine List.takeWhile_cons_of_neg ?_
      rcases hrest b rfl with rfl | rfl | rfl <;> decide
  have hrest' : rest.dropWhile isDigitByte = rest := by
    simpa [hhead] using List.takeWhile_append_dropWhile (p := isDigitByte) (l := rest)
  have htake : (s ++ rest).takeWhile isDigitByte = s.takeWhile isDigitByte := by
    rw [List.takeWhile_append, hhead, List.append_nil]
    split
    · next hlen => exact ((List.takeWhile_prefix _).eq_of_length hlen).symm
    · rfl
  have hdrop : (s ++ rest).dropWhile isDigitByte = s.dropWhile isDigitByte ++ rest := by
    rw [List.dropWhile_append]
    split
    · next hall => rw [hrest', List.isEmpty_iff.mp hall, List.nil_append]
    · rfl
  show Except.ok (_, _) = _
  rw [htake, hdrop]

end Extends

theorem extends_wholePart (s : Bytes) : Extends wholePart s := by
  unfold wholePart
  cases s with
  | nil => nofun
  | cons b s =>
    refine .next_bind ?_
    split
    · exact .failHere _
    · -- after a zero, no digit may follow
      cases s with
      | nil =>
        refine .nil (a := [0x30]) fun rest hrest => ?_
        cases rest with
        | nil => rfl
        | cons b rest => rcases hrest b rfl with rfl | rfl | rfl <;> rfl
      | cons b s =>
        refine .peek_bind ?_
        split
        · split
          · exact .failNext _
          · exact .pure _
        · exact .pure _
    · split
      · exact .bind (.digits s) fun ds s => .pure _
      · exact .failHere _

theorem fractionPart_closed {rest : Bytes} (h : Closed rest) :
    fractionPart rest = .ok ([], rest) := by
  cases rest with
  | nil => rfl
  | cons b rest => rcases h b rfl with rfl | rfl | rfl <;> rfl

theorem extends_fractionPart (s : Bytes) : Extends fractionPart s := by
  cases s with
  | nil => exact .nil fun _ => fractionPart_closed
  | cons b s =>
    unfold fractionPart
    refine .peek_bind ?_
    split
    · refine .skipOne_bind (.bind (.digits s) fun ds s => ?_)
      split
      · cases s with
        | nil => nofun
        | cons b s => exact .peek_bind (.failNext _)
      · exact .pure _
    · exact .pure _

theorem exponentSign_closed {rest : Bytes} (h : Closed rest) :
    exponentSign rest = .ok (false, rest) := by
  cases rest with
  | nil => rfl
  | cons b rest => rcases h b rfl with rfl | rfl | rfl <;> rfl

theorem extends_exponentSign (s : Bytes) : Extends exponentSign s := by
  cases s with
  | nil => exact .nil fun _ => exponentSign_closed
  | cons b s =>
    unfold exponentSign
    refine .peek_bind ?_
    split
    · exact .skipOne_bind (.pure _)
    · exact .skipOne_bind (.pure _)
    · exact .pure _

theorem exponentPart_closed {rest : Bytes} (h : Closed rest) (checked : Bool) :
    exponentPart checked rest = .ok (none, rest) := by
  cases rest with
  | nil => rfl
  | cons b rest => rcases h b rfl with rfl | rfl | rfl <;> rfl

theorem extends_exponentPart (checked : Bool) (s : Bytes) : Extends (exponentPart checked) s := by
  cases s with
  | nil => exact .nil fun _ h => exponentPart_closed h checked
  | cons b s =>
    unfold exponentPart
    refine .peek_bind ?_
    split
    case h_3 => exact .pure _
    -- after either letter
    all_goals
      refine .skipOne_bind (.bind (extends_exponentSign s) fun negative s => ?_)
      cases s with
      | nil => nofun
      | cons b s =>
        refine .next_bind ?_
        split
        · exact .failHere _
        · split
          · refine .bind (.digits s) fun ds s => ?_
            dsimp only
            split
            · split
              · nofun
              · exact .pure _
            · exact .pure _
          · exact .failHere _

/-- **A number does not depend on what follows it** at a closed place. -/
theorem extends_numeral (strict : Bool) (s : Bytes) : Extends (numeral strict) s := by
  unfold numeral
  cases s with
  | nil => cases strict <;> nofun
  | cons b s =>
    have hparts (negative : Bool) (s : Bytes) : Extends (do
        let whole ← wholePart
        let fraction ← fractionPart
        let exponent ← exponentPart (strict && (whole ++ fraction).any (· != 0x30))
        return (⟨negative, whole, fraction, exponent⟩ : Numeral)) s :=
      .bind (extends_wholePart s) fun whole s => .bind (extends_fractionPart s) fun fraction s =>
        .bind (extends_exponentPart _ s) fun exponent s => .pure _
    refine .peek_bind ?_
    dsimp only
    split
    · exact .skipOne_bind (hparts _ s)
    · exact hparts _ (b :: s)

/-! ## Where a number stands for a value -/

theorem ascii_of_isDigit {c : Char} (h : c.isDigit = true) : c.toNat < 0x80 :=
  Nat.lt_of_le_of_lt (Char.isDigit_iff_toNat.mp h).2 (by decide)

theorem charOf_ascii {c : Char} (h : c.toNat < 0x80) : charOf (UInt8.ofNat c.toNat) = c := by
  apply Char.toNat_inj.mp
  rw [toNat_charOf, Utf8.toNat_ofNat_of_lt (by omega)]

/-- A byte with which a written number starts. -/
def StartsNumber (b : UInt8) : Prop := charOf b = '-' ∨ (charOf b).isDigit = true

theorem StartsNumber.not_blank {b : UInt8} (h : StartsNumber b) : isBlankByte b = false := by
  refine Bool.eq_false_iff.mpr fun hb => ?_
  have hcases : b = 0x20 ∨ b = 0x09 ∨ b = 0x0A ∨ b = 0x0D := by
    simpa [isBlankByte, or_assoc] using hb
  unfold StartsNumber at h
  rcases hcases with rfl | rfl | rfl | rfl <;> exact absurd h (by decide)

/-- A minus or a digit in front is a byte in front that starts a number. -/
theorem startsNumber_encode {c : Char} (h : c = '-' ∨ c.isDigit = true) (cs : List Char) :
    ∃ b, Utf8.encode (c :: cs) = b :: Utf8.encode cs ∧ charOf b = c ∧ StartsNumber b := by
  have hascii : c.toNat < 0x80 := by
    rcases h with rfl | h
    · decide
    · exact ascii_of_isDigit h
  refine ⟨_, Utf8.encode_cons_ascii hascii cs, charOf_ascii hascii, ?_⟩
  unfold StartsNumber
  rwa [charOf_ascii hascii]

/-- In front of a byte that starts a number, a value is the value of a number. -/
theorem valueOver_number {b : UInt8} (h : StartsNumber b) (strict : Bool)
    (inner : Option (Reader Value)) (s : Bytes) :
    valueOver strict inner (b :: s) =
      (numeral strict >>= fun n =>
        match n.value? with
        | some v => pure v
        | none => if strict then failHere .numberOutOfRange else pure .unreadable) (b :: s) := by
  have hne : ∀ c : Char, c ≠ '-' → c.isDigit = false → charOf b ≠ c := by
    rintro c hminus hdigit rfl
    exact h.elim hminus fun hc => Bool.false_ne_true (hdigit.symm.trans hc)
  -- the other first characters of a value
  have hnull := hne 'n' (by decide) (by decide)
  have htrue := hne 't' (by decide) (by decide)
  have hfalse := hne 'f' (by decide) (by decide)
  have htext := hne '"' (by decide) (by decide)
  have hlist := hne '[' (by decide) (by decide)
  have hobject := hne '{' (by decide) (by decide)
  have hstart : (charOf b == '-' || (charOf b).isDigit) = true := by
    rw [Bool.or_eq_true, beq_iff_eq]
    exact h
  unfold valueOver
  rw [bind_of_ok (skipBlanks_cons h.not_blank s), bind_of_ok (peek_cons b s)]
  simp only
  exact congrFun (if_pos hstart) (b :: s)

/-- A number that is a document of its own is read at every closed place. -/
theorem valueOver_of_numeral {strict : Bool} {b : UInt8} {bs : Bytes} (h : StartsNumber b)
    {n : Numeral} {v : Value} (hn : numeral strict (b :: bs) = .ok (n, [])) (hv : n.value? = some v)
    (inner : Option (Reader Value)) {rest : Bytes} (hrest : Closed rest) :
    valueOver strict inner (b :: bs ++ rest) = .ok (v, rest) := by
  have hmore := (extends_numeral strict (b :: bs) n [] hn).2 rest hrest
  rw [List.cons_append] at hmore ⊢
  rw [valueOver_number h, bind_of_ok hmore, hv]
  rfl

/-! ## Integers -/

theorem toDigits_head {n : Nat} (h : 0 < n) : ∃ c cs, Nat.toDigits 10 n = c :: cs ∧ c ≠ '0' := by
  induction n using Nat.strongRecOn with
  | _ n ih =>
    by_cases hn : n < 10
    · have hall : ∀ n < 10, 0 < n → n.digitChar ≠ '0' := by decide
      rw [Nat.toDigits_of_lt_base hn]
      exact ⟨_, [], rfl, hall n hn h⟩
    · obtain ⟨c, cs, hcs, hc⟩ := ih (n / 10) (by omega) (by omega)
      rw [Nat.toDigits_of_base_le (by decide) (by omega), hcs]
      exact ⟨c, _, rfl, hc⟩

theorem digits_encode {cs : List Char} (h : ∀ c ∈ cs, c.isDigit = true) :
    digits (Utf8.encode cs) = .ok (Utf8.encode cs, []) := by
  have hall : ∀ b ∈ Utf8.encode cs, isDigitByte b = true := by
    intro b hb
    obtain ⟨c, hc, hbc⟩ := Utf8.exists_of_mem_encode (fun c hc => ascii_of_isDigit (h c hc)) hb
    have hdigit := Char.isDigit_iff_toNat.mp (h c hc)
    rw [← hbc] at hdigit
    simpa [isDigitByte, UInt8.le_iff_toNat_le] using hdigit
  have htake := @List.takeWhile_append_of_pos _ isDigitByte _ [] hall
  have hdrop := @List.dropWhile_append_of_pos _ isDigitByte _ [] hall
  rw [List.append_nil, List.takeWhile_nil, List.append_nil] at htake
  rw [List.append_nil, List.dropWhile_nil] at hdrop
  unfold digits
  rw [htake, hdrop]

theorem wholePart_toDigits (n : Nat) :
    wholePart (Utf8.encode (Nat.toDigits 10 n)) = .ok (Utf8.encode (Nat.toDigits 10 n), []) := by
  rcases Nat.eq_zero_or_pos n with rfl | hn
  · rfl
  · obtain ⟨c, cs, hcs, hc⟩ := toDigits_head hn
    have hdigits : ∀ d ∈ c :: cs, d.isDigit = true := fun d hd =>
      isDigit_of_mem_toDigits (hcs ▸ hd)
    have hascii := ascii_of_isDigit (hdigits c List.mem_cons_self)
    rw [hcs, Utf8.encode_cons_ascii hascii]
    unfold wholePart
    rw [bind_of_ok (next_cons _ _), charOf_ascii hascii]
    simp only [hdigits c List.mem_cons_self, if_true]
    rw [bind_of_ok (digits_encode fun d hd => hdigits d (List.mem_cons_of_mem c hd))]
    rfl

theorem keepDigits_encode {cs : List Char} (h : ∀ c ∈ cs, c.isDigit = true) {n : Nat}
    (hle : Nat.ofDigitChars 10 cs n ≤ maxNat64) :
    keepDigits n (Utf8.encode cs) = (Nat.ofDigitChars 10 cs n, 0) := by
  induction cs generalizing n with
  | nil => rfl
  | cons c cs ih =>
    have hascii := ascii_of_isDigit (h c List.mem_cons_self)
    have hnext : n * 10 + digitsValue [UInt8.ofNat c.toNat] = 10 * n + (c.toNat - '0'.toNat) := by
      simp only [digitsValue, List.map_cons, List.map_nil, charOf_ascii hascii,
        Nat.ofDigitChars_cons, Nat.ofDigitChars_nil]
      omega
    rw [Nat.ofDigitChars_cons] at hle ⊢
    -- digits behind a number do not make it smaller
    have hkept : 10 * n + (c.toNat - '0'.toNat) ≤ maxNat64 := by
      refine Nat.le_trans ?_ hle
      rw [Nat.ofDigitChars_eq_ofDigitChars_zero]
      exact Nat.le_trans (Nat.le_mul_of_pos_left _ (Nat.pow_pos (by decide))) (Nat.le_add_right _ _)
    rw [Utf8.encode_cons_ascii hascii]
    unfold keepDigits
    simp only [hnext]
    rw [if_pos hkept]
    exact ih (fun d hd => h d (List.mem_cons_of_mem c hd)) hle

/-- Digits after their sign are a whole number. -/
theorem unsigned_toDigits (strict negative : Bool) (n : Nat) :
    (do
      let whole ← wholePart
      let fraction ← fractionPart
      let exponent ← exponentPart (strict && (whole ++ fraction).any (· != 0x30))
      return (⟨negative, whole, fraction, exponent⟩ : Numeral)) (Utf8.encode (Nat.toDigits 10 n)) =
        .ok (⟨negative, Utf8.encode (Nat.toDigits 10 n), [], none⟩, []) := by
  rw [bind_of_ok (wholePart_toDigits n), bind_of_ok (fractionPart_closed closed_nil),
    bind_of_ok (exponentPart_closed closed_nil _)]
  rfl

theorem repr_toList (i : Int) :
    i.repr.toList = (if i < 0 then ['-'] else []) ++ Nat.toDigits 10 i.natAbs := by
  cases i with
  | ofNat n =>
    rw [if_neg (show ¬ Int.ofNat n < 0 from Int.not_lt.mpr (Int.natCast_nonneg n))]
    exact Nat.toList_repr
  | negSucc n =>
    rw [if_pos (Int.negSucc_lt_zero n)]
    show ("-" ++ (n + 1).repr).toList = _
    rw [String.toList_append, Nat.toList_repr]
    rfl

/-- A written integer is a number without fraction and exponent. -/
theorem numeral_repr (strict : Bool) (i : Int) :
    ∃ b bs, Utf8.encode i.repr.toList = b :: bs ∧ StartsNumber b ∧
      numeral strict (b :: bs) =
        .ok (⟨decide (i < 0), Utf8.encode (Nat.toDigits 10 i.natAbs), [], none⟩, []) := by
  rw [repr_toList]
  have hunsigned := unsigned_toDigits strict (decide (i < 0)) i.natAbs
  by_cases hi : i < 0
  · rw [if_pos hi, decide_eq_true hi] at *
    exact ⟨0x2D, _, rfl, .inl rfl, hunsigned⟩
  · rw [if_neg hi, decide_eq_false hi, List.nil_append] at *
    cases hcs : Nat.toDigits 10 i.natAbs with
    | nil => exact absurd hcs Nat.toDigits_ne_nil
    | cons c cs =>
      have hdigit : c.isDigit = true :=
        isDigit_of_mem_toDigits (hcs ▸ List.mem_cons_self : c ∈ Nat.toDigits 10 i.natAbs)
      have hminus : (some c == some '-') = false := by
        rw [beq_eq_false_iff_ne]
        rintro he
        cases he
        cases hdigit
      obtain ⟨b, hb, hchar, hstart⟩ := startsNumber_encode (.inr hdigit) cs
      refine ⟨b, _, hb, hstart, ?_⟩
      rw [hcs, hb] at hunsigned
      rw [hb]
      unfold numeral
      rw [bind_of_ok (peek_cons _ _), hchar, hminus]
      exact hunsigned

theorem value?_int {i : Int} (hmin : Value.minInt ≤ i) (hmax : i ≤ Value.maxInt) :
    Numeral.value? ⟨decide (i < 0), Utf8.encode (Nat.toDigits 10 i.natAbs), [], none⟩ =
      some (.int i) := by
  have hle : i.natAbs ≤ maxNat64 := by
    unfold Value.minInt at hmin
    unfold Value.maxInt at hmax
    unfold maxNat64
    omega
  have hkeep : keepDigits 0 (Utf8.encode (Nat.toDigits 10 i.natAbs)) = (i.natAbs, 0) := by
    have h := keepDigits_encode (n := 0) (fun c hc => isDigit_of_mem_toDigits hc)
      (Nat.ofDigitChars_ten_toDigits (n := i.natAbs) ▸ hle)
    rwa [Nat.ofDigitChars_ten_toDigits] at h
  have hsign : (i < 0 ∧ i.natAbs ≠ 0 ∧ -(i.natAbs : Int) = i) ∨
      (¬ i < 0 ∧ (i.natAbs : Int) = i) := by
    omega
  unfold Numeral.value?
  simp only [hkeep]
  generalize i.natAbs = n at hsign ⊢
  rcases hsign with ⟨hneg, hd, hi⟩ | ⟨hneg, hi⟩
  · simp [hneg, hd, hi, hmin]
  · simp [hneg, hi]

/-- **A written integer is read back** at every closed place. -/
theorem valueOver_int (strict : Bool) {i : Int} (hmin : Value.minInt ≤ i) (hmax : i ≤ Value.maxInt)
    (inner : Option (Reader Value)) {rest : Bytes} (hrest : Closed rest) :
    valueOver strict inner (Utf8.encode i.repr.toList ++ rest) = .ok (.int i, rest) := by
  obtain ⟨b, bs, hbytes, hstart, hnum⟩ := numeral_repr strict i
  rw [hbytes]
  exact valueOver_of_numeral hstart hnum (value?_int hmin hmax) inner hrest

/-! ## Doubles -/

/-- A written double, as a document of its own, is read as the double. -/
def ReadsBack (x : Double) : Prop := Value.read (Utf8.encode x.render) = .ok (.double x)

theorem not_blank_of_mem_render {x : Double} {b : UInt8} (h : b ∈ Utf8.encode x.render) :
    isBlankByte b = false := by
  have hascii {c : Char} (hc : IsNumeric c) : c.toNat < 0x80 ∧ 0x20 < c.toNat := by
    rcases hc with hc | hc
    · exact ⟨ascii_of_isDigit hc, Nat.lt_of_lt_of_le (by decide) (Char.isDigit_iff_toNat.mp hc).1⟩
    · simp only [List.mem_cons, List.not_mem_nil, or_false] at hc
      rcases hc with rfl | rfl | rfl | rfl
      all_goals decide
  obtain ⟨c, hc, hbc⟩ :=
    Utf8.exists_of_mem_encode (fun c hc => (hascii (x.render_numeric c hc)).1) h
  have hlt := hbc ▸ (hascii (x.render_numeric c hc)).2
  refine Bool.eq_false_iff.mpr fun hb => ?_
  have hcases : b = 0x20 ∨ b = 0x09 ∨ b = 0x0A ∨ b = 0x0D := by
    simpa [isBlankByte, or_assoc] using hb
  rcases hcases with rfl | rfl | rfl | rfl <;> exact absurd hlt (by decide)

/-- A written double that reads back is a number. -/
theorem numeral_render {x : Double} (h : ReadsBack x) :
    ∃ b bs n, Utf8.encode x.render = b :: bs ∧ StartsNumber b ∧
      numeral true (b :: bs) = .ok (n, []) ∧ n.value? = some (.double x) := by
  obtain ⟨c, cs, hcs, hc⟩ := x.exists_render
  obtain ⟨b, hb, -, hstart⟩ := startsNumber_encode hc cs
  have hblank : ∀ d ∈ b :: Utf8.encode cs, isBlankByte d = false := fun d hd =>
    not_blank_of_mem_render (x := x) (by rwa [hcs, hb])
  unfold ReadsBack at h
  rw [hcs, hb] at h ⊢
  obtain ⟨s, hs, hend⟩ := readAll_eq_ok h
  have hvalue : valueOver true (some (value true 126)) (b :: Utf8.encode cs) =
      .ok (.double x, s) := hs
  rw [valueOver_number hstart] at hvalue
  obtain ⟨n, s', hn, hv⟩ := bind_eq_ok hvalue
  cases hn? : n.value? with
  | none =>
    rw [hn?] at hv
    cases hv
  | some v =>
    rw [hn?] at hv
    cases hv
    -- nothing is left: it would be blanks, and a written double has none
    have hsuffix := (extends_numeral true _ n s hn).1
    have hnil : s = [] := by
      cases s with
      | nil => rfl
      | cons d s =>
        have hd := hblank d (hsuffix.subset List.mem_cons_self)
        rw [List.dropWhile_cons_of_neg (by rw [hd]; exact Bool.false_ne_true)] at hend
        cases hend
    exact ⟨b, _, n, rfl, hstart, hnil ▸ hn, hn?⟩

/-- **A written double that reads back does so** at every closed place. -/
theorem valueOver_double {x : Double} (h : ReadsBack x) (inner : Option (Reader Value))
    {rest : Bytes} (hrest : Closed rest) :
    valueOver true inner (Utf8.encode x.render ++ rest) = .ok (.double x, rest) := by
  obtain ⟨b, bs, n, hbytes, hstart, hn, hv⟩ := numeral_render h
  rw [hbytes]
  exact valueOver_of_numeral hstart hn hv inner hrest

/-! ## What a number is -/

theorem keepDigits_le {n : Nat} (h : n ≤ maxNat64) (ds : Bytes) :
    (keepDigits n ds).1 ≤ maxNat64 := by
  induction ds generalizing n with
  | nil => exact h
  | cons d ds ih =>
    unfold keepDigits
    dsimp only
    split
    · next hle => exact ih hle
    · exact h

/-- **The value of a number is canonical.** -/
theorem canonical_of_value? {n : Numeral} {v : Value} (h : n.value? = some v) :
    v.Canonical := by
  have hle := keepDigits_le (Nat.zero_le maxNat64) n.whole
  unfold Numeral.value? at h
  dsimp only at h
  generalize keepDigits 0 n.whole = kept at h hle
  split at h
  · cases h
    exact ⟨Int.le_trans (by decide) (Int.natCast_nonneg _), Int.ofNat_le.mpr hle⟩
  · split at h
    · next hint =>
      cases h
      rw [Bool.and_eq_true] at hint
      have hneg := Int.neg_nonpos_of_nonneg (Int.natCast_nonneg kept.1)
      exact ⟨of_decide_eq_true hint.2, Int.le_trans hneg (by decide)⟩
    · obtain ⟨x, hx, rfl⟩ := Option.map_eq_some_iff.mp h
      exact Double.isFinite_of_scaled? hx

theorem depth_of_value? {n : Numeral} {v : Value} (h : n.value? = some v) : v.depth = 0 := by
  unfold Numeral.value? at h
  dsimp only at h
  split at h
  · cases h
    rfl
  · split at h
    · cases h
      rfl
    · obtain ⟨x, -, rfl⟩ := Option.map_eq_some_iff.mp h
      rfl

end TaskQueue.Json.Reader
