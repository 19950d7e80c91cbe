import TaskQueue.Proofs.Json.Reader
import TaskQueue.Proofs.Text.Utf8

/-!
# Texts are read as they were written

A written character is either escaped, and then it is one part of the text, or it stands as its own
bytes, and then each byte is a part. In both cases the parts make up the bytes of the character, so
what is collected up to the closing quote are the bytes of the text.

Results:

* `text_renderText`: a written text is read back, whatever follows its closing quote.
-/

namespace TaskQueue.Json.Reader

open Text

variable {strict : Bool}

/-! ## Parts -/

/-- A byte that stands for itself inside a text. -/
structure IsPlain (b : UInt8) : Prop where
  printable : 0x20 ≤ b.toNat
  noQuote : b.toNat ≠ 0x22
  noBackslash : b.toNat ≠ 0x5C

theorem textPart_plain {b : UInt8} (h : IsPlain b) (rest : Bytes) :
    textPart strict (b :: rest) = .ok (some [b], rest) := by
  -- the two facts that rule out the quote and the escapes
  have hquote : charOf b ≠ '"' := charOf_ne h.noQuote
  have hbackslash : charOf b ≠ '\\' := charOf_ne h.noBackslash
  have hcontrol : ¬ (charOf b).toNat < 0x20 := toNat_charOf b ▸ Nat.not_lt.mpr h.printable
  unfold textPart
  rw [bind_of_ok (next_cons b rest)]
  simp only [hcontrol, if_false, toUInt8_charOf]
  rfl

/-- The bytes of a character that is not escaped stand for themselves. -/
theorem isPlain_of_mem_encodeChar {c : Char} (h : 0x20 ≤ c.toNat) (hquote : c ≠ '"')
    (hbackslash : c ≠ '\\') {b : UInt8} (hb : b ∈ String.utf8EncodeChar c) : IsPlain b := by
  by_cases hc : c.toNat < 0x80
  · have hnum : b.toNat = c.toNat := by
      rw [show String.utf8EncodeChar c = [UInt8.ofNat c.toNat] by
        simpa [Utf8.encode] using Utf8.encode_cons_ascii hc []] at hb
      obtain rfl := List.mem_singleton.mp hb
      exact Utf8.toNat_ofNat_of_lt (by omega)
    exact {
      printable := hnum ▸ h
      noQuote := fun he => hquote (Char.toNat_inj.mp (hnum ▸ he))
      noBackslash := fun he => hbackslash (Char.toNat_inj.mp (hnum ▸ he)) }
  · have hhigh := Utf8.high_of_mem_encodeChar (Nat.not_lt.mp hc) hb
    exact ⟨by omega, by omega, by omega⟩

/-- Four hexadecimal digits in front, as they are written for a control character. -/
theorem hexFour_control {n : Nat} (h : n < 0x20) (rest : Bytes) :
    hexFour (Utf8.encode ['0', '0', hexDigit (n / 16), hexDigit n] ++ rest) = .ok (n, rest) := by
  have hall : ∀ n < 0x20,
      (Utf8.encode ['0', '0', hexDigit (n / 16), hexDigit n]).length = 4 ∧
        hexNumber? (Utf8.encode ['0', '0', hexDigit (n / 16), hexDigit n]) = some n := by
    decide
  obtain ⟨hlen, hnum⟩ := hall n h
  unfold hexFour
  rw [if_neg (by rw [List.length_append]; omega), List.take_left' hlen, List.drop_left' hlen, hnum]

theorem textPart_control {c : Char} (h : c.toNat < 0x20) (rest : Bytes) :
    textPart strict (Utf8.encode ['\\', 'u', '0', '0', hexDigit (c.toNat / 16), hexDigit c.toNat] ++
      rest) = .ok (some (Utf8.encode [c]), rest) := by
  have hsecond : isSecondHalf c.toNat = false := by
    simp only [isSecondHalf, Bool.and_eq_false_iff, decide_eq_false_iff_not]
    omega
  have hfirst : isFirstHalf c.toNat = false := by
    simp only [isFirstHalf, Bool.and_eq_false_iff, decide_eq_false_iff_not]
    omega
  have hescape : unicodeEscape strict
      (Utf8.encode ['0', '0', hexDigit (c.toNat / 16), hexDigit c.toNat] ++ rest) =
        .ok (Utf8.encode [c], rest) := by
    unfold unicodeEscape
    rw [bind_of_ok (hexFour_control h rest), hsecond, hfirst]
    simp only [Char.ofNat_toNat]
    rfl
  show (unicodeEscape strict >>= fun bs => pure (some bs)) _ = _
  exact (bind_of_ok hescape).trans rfl

/-- An escaped character is one part. -/
theorem textPart_escaped {c : Char} (h : c.toNat < 0x20 ∨ c = '"' ∨ c = '\\') (rest : Bytes) :
    textPart strict (Utf8.encode (escapeChar c) ++ rest) = .ok (some (Utf8.encode [c]), rest) := by
  unfold escapeChar
  split
  -- the seven characters with a letter of their own
  iterate 7 rfl
  next hquote hbackslash _ _ _ _ _ =>
    have hc : c.toNat < 0x20 := (h.resolve_right fun he => he.elim hquote hbackslash)
    rw [if_pos hc]
    exact textPart_control hc rest

theorem escapeChar_plain {c : Char} (h : ¬ (c.toNat < 0x20 ∨ c = '"' ∨ c = '\\')) :
    escapeChar c = [c] := by
  unfold escapeChar
  split
  case h_8 => exact if_neg fun hc => h (.inl hc)
  all_goals exact absurd (by decide) h

/-! ## Whole texts -/

/-- Bytes that stand for themselves are so many parts. -/
theorem Repeats.plain {bs : Bytes} (h : ∀ b ∈ bs, IsPlain b) {s rest : Bytes} {parts : List Bytes}
    (later : Repeats (textPart strict) s (.ok (parts, rest))) :
    Repeats (textPart strict) (bs ++ s) (.ok (bs.map List.singleton ++ parts, rest)) := by
  induction bs with
  | nil => exact later
  | cons b bs ih =>
    have hb : textPart strict _ = _ := textPart_plain (h b List.mem_cons_self) (bs ++ s)
    exact .more hb (Nat.lt_succ_self _) (ih fun d hd => h d (List.mem_cons_of_mem b hd))

/-- A written character is so many parts that make up its bytes. -/
theorem Repeats.char (c : Char) {s rest : Bytes} {parts : List Bytes}
    (later : Repeats (textPart strict) s (.ok (parts, rest))) :
    ∃ front : List Bytes, front.flatten = Utf8.encode [c] ∧
      Repeats (textPart strict) (Utf8.encode (escapeChar c) ++ s) (.ok (front ++ parts, rest)) := by
  by_cases hc : c.toNat < 0x20 ∨ c = '"' ∨ c = '\\'
  · refine ⟨[Utf8.encode [c]], List.append_nil _, .more (textPart_escaped hc s) ?_ later⟩
    cases hbytes : Utf8.encode (escapeChar c) with
    | nil =>
      -- from no bytes at all nothing would be read
      have hnone : textPart strict _ = _ := textPart_escaped hc []
      rw [hbytes] at hnone
      cases hnone
    | cons b bs =>
      rw [List.length_append, List.length_cons]
      omega
  · obtain ⟨hprintable, hquote, hbackslash⟩ : 0x20 ≤ c.toNat ∧ c ≠ '"' ∧ c ≠ '\\' := by
      simpa only [not_or, Nat.not_lt] using hc
    have hplain : ∀ b ∈ Utf8.encode [c], IsPlain b := by
      intro b hb
      rw [Utf8.encode_cons, Utf8.encode_nil, List.append_nil] at hb
      exact isPlain_of_mem_encodeChar hprintable hquote hbackslash hb
    rw [escapeChar_plain hc]
    exact ⟨_, List.flatMap_singleton' _, later.plain hplain⟩

theorem textBytes_escaped (cs : List Char) (rest : Bytes) :
    textBytes strict (Utf8.encode (cs.flatMap escapeChar) ++ 0x22 :: rest) =
      .ok (Utf8.encode cs, rest) := by
  have hparts : ∃ parts : List Bytes, parts.flatten = Utf8.encode cs ∧
      Repeats (textPart strict) (Utf8.encode (cs.flatMap escapeChar) ++ 0x22 :: rest)
        (.ok (parts, rest)) := by
    induction cs with
    | nil => exact ⟨[], rfl, .done rfl⟩
    | cons c cs ih =>
      obtain ⟨parts, hflat, hrepeats⟩ := ih
      obtain ⟨front, hfront, hchar⟩ := Repeats.char c hrepeats
      refine ⟨front ++ parts, ?_, ?_⟩
      · rw [List.flatten_append, hfront, hflat, ← Utf8.encode_append]
        rfl
      · rw [List.flatMap_cons, Utf8.encode_append, List.append_assoc]
        exact hchar
  obtain ⟨parts, hflat, hrepeats⟩ := hparts
  unfold textBytes
  rw [bind_of_ok hrepeats.untilNone_eq, hflat]
  rfl

/-- **A written text is read back**, whatever follows its closing quote, by either reader of texts.
-/
theorem text_renderText (s : String) (rest : Bytes) :
    ∃ tail, Utf8.encode (renderText s) ++ rest = 0x22 :: tail ∧ text tail = .ok (s, rest) ∧
      outlineText tail = .ok (some s, rest) := by
  have hdecode : Utf8.decode? (Utf8.encode s.toList) = some s := Utf8.decode?_encode s
  refine ⟨Utf8.encode (s.toList.flatMap escapeChar) ++ 0x22 :: rest, ?_, ?_, ?_⟩
  · unfold renderText
    rw [List.cons_append, Utf8.encode_cons_ascii (by decide), Utf8.encode_append, List.cons_append,
      List.append_assoc]
    rfl
  · unfold text
    rw [bind_of_ok (textBytes_escaped s.toList rest)]
    simp only [hdecode]
    rfl
  · show (textBytes false >>= fun bs => pure (Utf8.decode? bs)) _ = _
    rw [bind_of_ok (textBytes_escaped s.toList rest), hdecode]
    rfl

end TaskQueue.Json.Reader
