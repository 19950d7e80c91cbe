import TaskQueue.Proofs.Text.Tokens
import TaskQueue.Proofs.Time.Rfc3339

/-!
# Exact timestamps read back

A timestamp with as many fraction digits as are exact leaves nothing out, and the loose form knows
years with a sign. So every instant is read back from it as it was: of any year, in a leap second or
not, with a fraction of any length.

Results:

* `readLooseStamp_renderSeconds`: date and time of day are read, and then the fraction;
* `readLoose?_render`: **every instant reads back**.
-/

namespace TaskQueue.Time

open TextReader Text

namespace TextReader

variable {cs : List Char} {c : Char}

/-- There are no blanks to be left out. -/
theorem skip_blanks (h : ∀ c ∈ cs.head?, isBlank c = false) :
    skip isBlank cs = some ((), cs) := by
  cases cs with
  | nil => rfl
  | cons c cs =>
    have hc : ¬ isBlank c = true := by simp [h c rfl]
    unfold skip
    rw [List.dropWhile_cons_of_neg hc]

theorem padded_cons {width n : Nat} (hw : 0 < width) :
    ∃ c cs, padded width n = c :: cs ∧ c.isDigit = true := by
  cases hcs : padded width n with
  | nil =>
    have hlen := congrArg List.length hcs
    unfold padded at hlen
    simp only [List.length_append, List.length_replicate, List.length_nil] at hlen
    omega
  | cons c cs => exact ⟨c, cs, rfl, isDigit_padded c (hcs ▸ List.mem_cons_self)⟩

/-- No blanks stand in front of a number with leading zeros. -/
theorem skip_padded {width n : Nat} (hw : 0 < width) (cs : List Char) :
    skip isBlank (padded width n ++ cs) = some ((), padded width n ++ cs) := by
  obtain ⟨c, ds, hpadded, hc⟩ := padded_cons (n := n) hw
  rw [hpadded]
  exact skip_blanks fun d hd => by
    cases hd
    exact isBlank_of_isDigit hc

/-- Two digits, of which one would do. -/
theorem number_twoDigits {n : Nat} (hn : n < 100) (h : c.isDigit = false) (cs : List Char) :
    number 1 2 (padded 2 n ++ c :: cs) = some (n, c :: cs) := by
  have hlen : (padded 2 n).length = 2 := length_padded (by decide) hn
  exact number_padded (by omega) (by omega) (by simpa using h)

end TextReader

namespace TextReader

variable {cs cs' : List Char}

/-- A character of another class is not taken. -/
theorem optional_padded {p : Char → Bool} {width n : Nat} (hw : 0 < width)
    (hp : ∀ c, c.isDigit = true → p c = false) (cs : List Char) :
    optional p (padded width n ++ cs) = some (false, padded width n ++ cs) := by
  obtain ⟨c, ds, hpadded, hc⟩ := padded_cons (n := n) hw
  rw [hpadded]
  exact if_neg (by simp [hp c hc])

/-- As many digits as there are. -/
theorem number_year (n : Nat) {hi : Nat} (hhi : (padded 4 n).length ≤ hi) (cs : List Char) :
    number 1 hi (padded 4 n ++ '-' :: cs) = some (n, '-' :: cs) := by
  obtain ⟨c, ds, hpadded, -⟩ := padded_cons (n := n) (show 0 < 4 by decide)
  exact number_padded (by simp [hpadded]) hhi (by simp)

end TextReader

/-- **A year is read back**, whatever its sign. -/
theorem readYear_yearText (y : Int) (cs : List Char) :
    readYear (yearText y ++ '-' :: cs) = some (y, '-' :: cs) := by
  have hget (cs : List Char) : (get : TextReader (List Char)) cs = some (cs, cs) := rfl
  have hsign {c : Char} (hc : c = '-' ∨ c = '+') (d : Char) (hd : d.isDigit = true) :
      (d == c) = false := by
    rcases hc with rfl | rfl <;> (rw [beq_eq_false_iff_ne]; rintro rfl; cases hd)
  unfold readYear yearText
  by_cases hyear : 0 ≤ y ∧ y ≤ 9999
  · have hlen : (padded 4 y.toNat).length = 4 :=
      length_padded (by decide) (show y.toNat < 10000 by omega)
    rw [if_pos hyear, bind_of_eq (hget _),
      bind_of_eq (optional_padded (by decide) (hsign (.inl rfl)) _)]
    simp only [Bool.false_eq_true, if_false]
    rw [bind_of_eq (optional_padded (by decide) (hsign (.inr rfl)) _)]
    simp only [Bool.false_eq_true, if_false]
    rw [bind_of_eq (number_year y.toNat (Nat.le_of_eq hlen) cs)]
    show some (((y.toNat : Nat) : Int), _) = _
    rw [Int.toNat_of_nonneg hyear.1]
  · -- a sign, and then as many digits as there are
    rw [if_neg hyear, bind_of_eq (hget _)]
    have hhi (c : Char) : (padded 4 y.natAbs).length ≤
        (c :: (padded 4 y.natAbs ++ '-' :: cs)).length := by
      simp only [List.length_cons, List.length_append]
      omega
    by_cases hneg : y < 0
    · rw [if_pos hneg, List.cons_append]
      rw [bind_of_eq (show optional (· == '-') ('-' :: _) = some (true, _) from rfl)]
      simp only [if_true]
      rw [bind_of_eq (number_year y.natAbs (hhi '-') cs)]
      show some (-((y.natAbs : Nat) : Int), _) = _
      rw [show -((y.natAbs : Nat) : Int) = y by omega]
    · rw [if_neg hneg, List.cons_append]
      rw [bind_of_eq (show optional (· == '-') ('+' :: _) = some (false, '+' :: _) from rfl)]
      simp only [Bool.false_eq_true, if_false]
      rw [bind_of_eq (show optional (· == '+') ('+' :: _) = some (true, _) from rfl)]
      simp only [if_true]
      rw [bind_of_eq (number_year y.natAbs (hhi '+') cs)]
      show some (((y.natAbs : Nat) : Int), _) = _
      rw [show ((y.natAbs : Nat) : Int) = y by omega]

/-! ## Timestamps -/

namespace Instant

variable {t : Instant}

/-- **Date and time of day are read**, and then the fraction. -/
theorem readLooseStamp_renderSeconds (t : Instant) {c : Char} {cs : List Char} {n : Nat}
    (hc : c.isDigit = false) (hfraction : TextReader.fraction (c :: cs) = some (n, ['Z'])) :
    readLooseStamp (t.renderSeconds ++ c :: cs) = some ({ t.millisStamp with nanos := n }, []) := by
  have hmonth : t.millisStamp.date.month < 100 := (date_lt t.dayNumber).1
  have hday : t.millisStamp.date.day < 100 := (date_lt t.dayNumber).2
  have hsec := t.secondOfDay_lt
  have hsecond : t.millisStamp.second < 100 := by
    rw [second_millisStamp]
    split <;> omega
  have hhour : t.millisStamp.hour < 100 := by
    show t.secondOfDay / 3600 < 100
    omega
  have hminute : t.millisStamp.minute < 100 := by
    show t.secondOfDay / 60 % 60 < 100
    omega
  have hyear : ∃ d ds, yearText t.year = d :: ds ∧ isBlank d = false := by
    unfold yearText
    split
    · obtain ⟨d, ds, hds, hd⟩ := padded_cons (n := t.year.toNat) (show 0 < 4 by decide)
      exact ⟨d, ds, hds, isBlank_of_isDigit hd⟩
    · split <;> exact ⟨_, _, rfl, by decide⟩
  have hlist : t.renderSeconds ++ c :: cs =
      yearText t.year ++ '-' :: (padded 2 t.millisStamp.date.month ++
        '-' :: (padded 2 t.millisStamp.date.day ++ 'T' :: (padded 2 t.millisStamp.hour ++
          ':' :: (padded 2 t.millisStamp.minute ++ ':' :: (padded 2 t.millisStamp.second ++
            c :: cs))))) := by
    unfold renderSeconds
    simp only [List.append_assoc, List.cons_append]
    rfl
  have hfront :
      skip isBlank (t.renderSeconds ++ c :: cs) = some ((), t.renderSeconds ++ c :: cs) := by
    obtain ⟨d, ds, hds, hd⟩ := hyear
    refine skip_blanks fun e he => ?_
    rw [hlist, hds] at he
    cases he
    exact hd
  have hdash (cs : List Char) : skip isBlank ('-' :: cs) = some ((), '-' :: cs) :=
    skip_blanks (by simp [show isBlank '-' = false by decide])
  have hcolon (cs : List Char) : skip isBlank (':' :: cs) = some ((), ':' :: cs) :=
    skip_blanks (by simp [show isBlank ':' = false by decide])
  have hzone : ((do readUtc; return 0) <|> offset (skip fun c => c == ':' || isBlank c) :
      TextReader Int) ['Z'] = some (0, []) := rfl
  unfold readLooseStamp
  rw [bind_of_eq hfront, hlist, bind_of_eq (readYear_yearText t.year _), bind_of_eq (hdash _),
    bind_of_eq (oneOf_cons rfl _), bind_of_eq (skip_padded (by decide) _),
    bind_of_eq (number_twoDigits hmonth rfl _), bind_of_eq (hdash _),
    bind_of_eq (oneOf_cons rfl _), bind_of_eq (skip_padded (by decide) _),
    bind_of_eq (number_twoDigits hday rfl _), bind_of_eq (oneOf_cons rfl _),
    bind_of_eq (skip_padded (by decide) _), bind_of_eq (number_twoDigits hhour rfl _),
    bind_of_eq (hcolon _), bind_of_eq (oneOf_cons rfl _), bind_of_eq (skip_padded (by decide) _),
    bind_of_eq (number_twoDigits hminute rfl _), bind_of_eq (hcolon _),
    bind_of_eq (oneOf_cons rfl _), bind_of_eq (skip_padded (by decide) _),
    bind_of_eq (number_twoDigits hsecond hc _), bind_of_eq hfraction,
    bind_of_eq (skip_blanks (by simp [show isBlank 'Z' = false by decide])), bind_of_eq hzone]
  rfl

/-- **Every instant reads back** from its exact timestamp. -/
theorem readLoose?_render (t : Instant) : readLoose? t.render = some t := by
  have hlt := t.fraction_lt
  have hstop : ∀ c ∈ (['Z'] : List Char).head?, c.isDigit = false := by simp
  -- as many digits as are exact tell the whole fraction
  have hfraction : ∃ c cs, t.render.toList = t.renderSeconds ++ c :: cs ∧ c.isDigit = false ∧
      TextReader.fraction (c :: cs) = some (t.fraction, ['Z']) := by
    unfold render
    simp only [String.toList_ofList, List.append_assoc]
    split
    · next hzero => exact ⟨'Z', [], rfl, rfl, by rw [hzero]; rfl⟩
    · split
      · refine ⟨'.', padded 3 (t.fraction / 1000000) ++ ['Z'], rfl, rfl, ?_⟩
        rw [fraction_padded (by decide) (by decide) (by simp; omega) hstop]
        simp
        omega
      · split
        · refine ⟨'.', padded 6 (t.fraction / 1000) ++ ['Z'], rfl, rfl, ?_⟩
          rw [fraction_padded (by decide) (by decide) (by simp; omega) hstop]
          simp
          omega
        · refine ⟨'.', padded 9 t.fraction ++ ['Z'], rfl, rfl, ?_⟩
          rw [fraction_padded (by decide) (by decide) (by simp; omega) hstop]
          simp
  obtain ⟨c, cs, hlist, hc, hread⟩ := hfraction
  unfold readLoose? ofText?
  rw [hlist, readLooseStamp_renderSeconds t hc hread]
  show ({ t.millisStamp with nanos := t.fraction } : Stamp).instant? = some t
  rw [instant?_withNanos]
  have hnanos : (if t.isLeap then nanosPerSecond else 0) + t.fraction = t.nanos := by
    have hn := t.nanos_lt
    unfold isLeap fraction nanosPerSecond
    split
    · next h =>
      have := of_decide_eq_true h
      omega
    · next h =>
      have : ¬ 1000000000 ≤ t.nanos := fun hle => h (decide_eq_true hle)
      omega
  rw [hnanos]
  exact of?_self t

end Instant

end TaskQueue.Time
