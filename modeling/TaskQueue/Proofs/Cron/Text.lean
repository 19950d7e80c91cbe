import Mathlib.Data.List.Forall2
import TaskQueue.Cron.Text
import TaskQueue.Proofs.Results
import TaskQueue.Proofs.Text.Tokens

/-!
# The text of a cron expression, read and written

What a text has to look like is told here as a grammar: it splits at blanks into five tokens, each a
star or a numeral (`Means`), and a numeral is one of the numbers that its field takes
(`FieldName.Takes`). Any other text is refused for one reason: for its number of tokens when that is
not five, and else for the leftmost token that is at fault (`FirstFault`).

Results:

* `Field.parse_eq_ok_iff`, `Field.parse_eq_error_iff`: how one token is read;
* `Expression.parse_eq_ok_iff`, `Expression.parse_eq_error_iff`: how a text is read, and why it is
  refused;
* `Expression.parse_render_iff`: what is written reads back as it was, or not at all;
* `text_form`: **the text form of cron expressions**.
-/

namespace TaskQueue.Cron

open Text

/-! ## One field -/

namespace FieldName

/-- The numbers that a field takes. -/
def Takes : FieldName → Nat → Prop
  | minute, n => n ≤ 59
  | hour, n => n ≤ 23
  | day, n => 1 ≤ n ∧ n ≤ 31
  | month, n => 1 ≤ n ∧ n ≤ 12
  | weekday, n => n ≤ 6

theorem takes_iff {name : FieldName} {n : Nat} :
    name.Takes n ↔ name.least ≤ n ∧ n ≤ name.greatest := by
  cases name <;> simp [Takes, least, greatest]

/-- Whatever a field takes is a number of 32 bits. -/
theorem Takes.lt {name : FieldName} {n : Nat} (h : name.Takes n) : n < 4294967296 := by
  cases name <;> simp only [Takes] at h <;> omega

/-- The fields in the order of the text. -/
def inOrder : List FieldName := [minute, hour, day, month, weekday]

end FieldName

/-- A fixed value is one that the field takes. -/
def Field.Fits (name : FieldName) (f : Field) : Prop := ∀ n, f = .exactly n → name.Takes n

theorem Field.Fits.inRange {name : FieldName} {f : Field} (h : f.Fits name) : f.InRange name := by
  cases f with
  | any => trivial
  | exactly n => exact FieldName.takes_iff.mp (h n rfl)

/-- What a token means for a field: a star leaves it free, a numeral fixes it. -/
inductive Means : String → Field → Prop where
  | star : Means "*" .any
  | number {token n} (numeral : Numeral token.toList n) : Means token (.exactly n)

/-- Why a token is refused in a field. -/
inductive Faulty (name : FieldName) (token : String) : ParseError → Prop where
  /-- It is no star, and no numeral of 32 bits. -/
  | unread (nostar : token ≠ "*") (large : ∀ n, Numeral token.toList n → 4294967296 ≤ n) :
      Faulty name token (.invalidValue name token)
  /-- It is a numeral that the field does not take. -/
  | outside {n} (numeral : Numeral token.toList n) (small : n < 4294967296) (out : ¬ name.Takes n) :
      Faulty name token (.outOfRange name n)

theorem star_ne_numeral {n : Nat} : ¬ Numeral "*".toList n := by
  rw [numeral_iff]
  exact nofun

theorem maxNat32_lt_iff {n : Nat} : maxNat32 < n ↔ 4294967296 ≤ n := Iff.rfl

theorem le_maxNat32_iff {n : Nat} : n ≤ maxNat32 ↔ n < 4294967296 := by
  rw [← Nat.not_lt, maxNat32_lt_iff, Nat.not_le]

namespace Field

variable {name : FieldName} {token : String} {f : Field} {err : ParseError}

theorem parse_numeral {n : Nat} (h : Numeral token.toList n) (hn : n < 4294967296) :
    parse name token = if name.least ≤ n ∧ n ≤ name.greatest then .ok (.exactly n)
      else .error (.outOfRange name n) := by
  have hne : token ≠ "*" := fun he => star_ne_numeral (he ▸ h)
  unfold parse
  rw [if_neg hne, natural?_eq_some_iff.mpr ⟨h, le_maxNat32_iff.mpr hn⟩]

theorem parse_unread (hne : token ≠ "*") (large : ∀ n, Numeral token.toList n → 4294967296 ≤ n) :
    parse name token = .error (.invalidValue name token) := by
  have hnone : natural? maxNat32 token = none :=
    natural?_eq_none_iff.mpr fun n h => maxNat32_lt_iff.mpr (large n h)
  unfold parse
  rw [if_neg hne, hnone]

/-- **What a token is read as.** -/
theorem parse_eq_ok_iff : parse name token = .ok f ↔ Means token f ∧ f.Fits name := by
  constructor
  · intro h
    unfold parse at h
    split at h
    · next hstar =>
      cases h
      exact ⟨hstar ▸ .star, nofun⟩
    · split at h
      · cases h
      · next n hn =>
        split at h
        · next hrange =>
          cases h
          refine ⟨.number (natural?_eq_some_iff.mp hn).1, fun m hm => ?_⟩
          cases hm
          exact FieldName.takes_iff.mpr hrange
        · cases h
  · rintro ⟨means, fits⟩
    cases means with
    | star => rfl
    | number numeral =>
      have takes := fits _ rfl
      rw [parse_numeral numeral takes.lt, if_pos (FieldName.takes_iff.mp takes)]

/-- **Why a token is refused.** -/
theorem parse_eq_error_iff : parse name token = .error err ↔ Faulty name token err := by
  constructor
  · intro h
    unfold parse at h
    split at h
    · cases h
    · next hne =>
      split at h
      · next hnone =>
        cases h
        exact .unread hne fun n hn => maxNat32_lt_iff.mp (natural?_eq_none_iff.mp hnone n hn)
      · next n hn =>
        obtain ⟨numeral, hle⟩ := natural?_eq_some_iff.mp hn
        split at h
        · cases h
        · next hrange =>
          cases h
          exact .outside numeral (le_maxNat32_iff.mp hle) (mt FieldName.takes_iff.mp hrange)
  · rintro (⟨nostar, large⟩ | ⟨numeral, small, out⟩)
    · exact parse_unread nostar large
    · rw [parse_numeral numeral small, if_neg (mt FieldName.takes_iff.mpr out)]

/-- What is written for a field means the field. -/
theorem means_render (f : Field) : Means f.render f := by
  cases f with
  | any => exact .star
  | exactly n =>
    refine .number (.plain (digits?_eq_some_iff.mp ?_))
    rw [render, Nat.toList_repr]
    exact digits?_toDigits n

end Field

theorem Means.unique {token : String} {f f' : Field} (h : Means token f) (h' : Means token f') :
    f = f' := by
  cases h with
  | star =>
    cases h' with
    | star => rfl
    | number numeral => exact absurd numeral star_ne_numeral
  | number numeral =>
    cases h' with
    | star => exact absurd numeral star_ne_numeral
    | number numeral' =>
      have same := (numeral_iff.mp numeral).symm.trans (numeral_iff.mp numeral')
      exact congrArg _ (Option.some.inj same)

/-! ## Five fields -/

namespace Expression

variable {s : String} {e e' : Expression} {err : ParseError} {tokens : List String}

/-- A field by its name. -/
def field (e : Expression) : FieldName → Field
  | .minute => e.minute
  | .hour => e.hour
  | .day => e.day
  | .month => e.month
  | .weekday => e.weekday

/-- The fields in the order of the text. -/
def fields (e : Expression) : List Field := FieldName.inOrder.map e.field

/-- Every fixed value is one that its field takes. -/
def Legal (e : Expression) : Prop := ∀ name, (e.field name).Fits name

/-- The first token that is at fault, after tokens that are not. -/
inductive FirstFault : List FieldName → List String → ParseError → Prop where
  | here {name names token tokens err} (fault : Faulty name token err) :
      FirstFault (name :: names) (token :: tokens) err
  | later {name names token tokens err f} (means : Means token f) (fits : f.Fits name)
      (rest : FirstFault names tokens err) : FirstFault (name :: names) (token :: tokens) err

/-- Why a text of these tokens is refused. -/
inductive Refused (tokens : List String) : ParseError → Prop where
  | count (number : tokens.length ≠ 5) : Refused tokens (.fieldCount tokens.length)
  | token {cause} (number : tokens.length = 5)
      (first : FirstFault FieldName.inOrder tokens cause) : Refused tokens cause

/-- Reads five tokens from left to right. -/
def parseFive (minute hour day month weekday : String) : Except ParseError Expression := do
  let minute ← Field.parse .minute minute
  let hour ← Field.parse .hour hour
  let day ← Field.parse .day day
  let month ← Field.parse .month month
  let weekday ← Field.parse .weekday weekday
  return ⟨minute, hour, day, month, weekday⟩

theorem parse_of_five {a b c d w : String} (h : Splits s.toList [a, b, c, d, w]) :
    parse s = parseFive a b c d w := by
  unfold parse
  rw [words_eq_iff.mpr h]
  rfl

theorem parse_of_count (h : Splits s.toList tokens) (number : tokens.length ≠ 5) :
    parse s = .error (.fieldCount tokens.length) := by
  unfold parse
  rw [words_eq_iff.mpr h]
  split
  · exact absurd rfl number
  · rfl

/-- Five tokens, or another number of them. -/
theorem five_or_not (tokens : List String) :
    (∃ a b c d w, tokens = [a, b, c, d, w]) ∨ tokens.length ≠ 5 := by
  rcases tokens with _ | ⟨a, _ | ⟨b, _ | ⟨c, _ | ⟨d, _ | ⟨w, _ | ⟨x, tokens⟩⟩⟩⟩⟩⟩
  case cons.cons.cons.cons.cons.nil => exact .inl ⟨a, b, c, d, w, rfl⟩
  all_goals
    refine .inr ?_
    simp only [List.length_cons, List.length_nil]
    omega

theorem parseFive_eq_ok_iff {a b c d w : String} :
    parseFive a b c d w = .ok e ↔ List.Forall₂ Means [a, b, c, d, w] e.fields ∧ e.Legal := by
  simp only [parseFive, bind_eq_ok_iff, Field.parse_eq_ok_iff, pure, Except.pure,
    Except.ok.injEq]
  constructor
  · rintro ⟨minute, ⟨hminute, fitsMinute⟩, hour, ⟨hhour, fitsHour⟩, day, ⟨hday, fitsDay⟩,
      month, ⟨hmonth, fitsMonth⟩, weekday, ⟨hweekday, fitsWeekday⟩, rfl⟩
    refine ⟨.cons hminute (.cons hhour (.cons hday (.cons hmonth (.cons hweekday .nil)))), ?_⟩
    rintro (_ | _ | _ | _ | _) <;> assumption
  · rintro ⟨means, legal⟩
    simp only [fields, FieldName.inOrder, List.map_cons, List.map_nil, List.forall₂_cons,
      List.Forall₂.nil, and_true] at means
    obtain ⟨hminute, hhour, hday, hmonth, hweekday⟩ := means
    exact ⟨e.minute, ⟨hminute, legal .minute⟩, e.hour, ⟨hhour, legal .hour⟩, e.day,
      ⟨hday, legal .day⟩, e.month, ⟨hmonth, legal .month⟩, e.weekday, ⟨hweekday, legal .weekday⟩,
      rfl⟩

theorem firstFault_cons_iff {name names token tokens} :
    FirstFault (name :: names) (token :: tokens) err ↔
      Faulty name token err ∨ ∃ f, (Means token f ∧ f.Fits name) ∧ FirstFault names tokens err := by
  constructor
  · rintro (fault | ⟨means, fits, rest⟩)
    · exact .inl fault
    · exact .inr ⟨_, ⟨means, fits⟩, rest⟩
  · rintro (fault | ⟨f, ⟨means, fits⟩, rest⟩)
    · exact .here fault
    · exact .later means fits rest

theorem parseFive_eq_error_iff {a b c d w : String} :
    parseFive a b c d w = .error err ↔ FirstFault FieldName.inOrder [a, b, c, d, w] err := by
  have hnil : ¬ FirstFault [] [] err := nofun
  simp only [parseFive, bind_eq_error_iff, Field.parse_eq_ok_iff, Field.parse_eq_error_iff,
    FieldName.inOrder, firstFault_cons_iff, hnil, pure, Except.pure, reduceCtorEq]

/-- **A text is read** when its five tokens mean the fields and the fields take their values. -/
theorem parse_eq_ok_iff : parse s = .ok e ↔
    ∃ tokens, Splits s.toList tokens ∧ List.Forall₂ Means tokens e.fields ∧ e.Legal := by
  constructor
  · intro h
    obtain ⟨tokens, splits⟩ := exists_splits s.toList
    refine ⟨tokens, splits, ?_⟩
    rcases five_or_not tokens with ⟨a, b, c, d, w, rfl⟩ | number
    · exact parseFive_eq_ok_iff.mp ((parse_of_five splits).symm.trans h)
    · exact nomatch (parse_of_count splits number).symm.trans h
  · rintro ⟨tokens, splits, means, legal⟩
    rcases five_or_not tokens with ⟨a, b, c, d, w, rfl⟩ | number
    · exact (parse_of_five splits).trans (parseFive_eq_ok_iff.mpr ⟨means, legal⟩)
    · exact absurd means.length_eq number

/-- What is read lies in the ranges of the fields. -/
theorem inRange_of_parse (h : parse s = .ok e) : e.InRange := by
  obtain ⟨-, -, -, legal⟩ := parse_eq_ok_iff.mp h
  exact ⟨(legal .minute).inRange, (legal .hour).inRange, (legal .day).inRange,
    (legal .month).inRange, (legal .weekday).inRange⟩

/-- **A text is refused** for the number of its tokens, and else for the leftmost one at fault. -/
theorem parse_eq_error_iff : parse s = .error err ↔
    ∃ tokens, Splits s.toList tokens ∧ Refused tokens err := by
  constructor
  · intro h
    obtain ⟨tokens, splits⟩ := exists_splits s.toList
    refine ⟨tokens, splits, ?_⟩
    rcases five_or_not tokens with ⟨a, b, c, d, w, rfl⟩ | number
    · exact .token rfl (parseFive_eq_error_iff.mp ((parse_of_five splits).symm.trans h))
    · obtain rfl := Except.error.inj ((parse_of_count splits number).symm.trans h)
      exact .count number
  · rintro ⟨tokens, splits, number | ⟨number, first⟩⟩
    · exact parse_of_count splits number
    · obtain ⟨a, b, c, d, w, rfl⟩ := (five_or_not tokens).resolve_right (not_not_intro number)
      exact (parse_of_five splits).trans (parseFive_eq_error_iff.mpr first)

/-! ## Writing -/

theorem render_any : Field.any.render.toList = ['*'] := rfl

theorem not_isBlank_of_render {f : Field} : ∀ c ∈ f.render.toList, isBlank c = false := by
  intro c hc
  cases f with
  | any =>
    rw [render_any] at hc
    obtain rfl := List.mem_singleton.mp hc
    rfl
  | exactly n =>
    rw [Field.render, Nat.toList_repr] at hc
    exact isBlank_of_isDigit (Nat.isDigit_of_mem_toDigits (by decide) (by decide) hc)

/-- A written field is one token, in front of a blank or at the end. -/
theorem splits_field {f : Field} {cs : List Char} (ends : ∀ c ∈ cs.head?, isBlank c = true)
    (rest : Splits cs tokens) : Splits (f.render.toList ++ cs) (f.render :: tokens) := by
  have nonempty : f.render.toList ≠ [] := by
    cases f with
    | any => exact List.cons_ne_nil _ _
    | exactly n =>
      rw [Field.render, Nat.toList_repr]
      exact Nat.toDigits_ne_nil
  have h := Splits.word nonempty not_isBlank_of_render ends rest
  rwa [String.ofList_toList] at h

/-- A written expression splits into its written fields. -/
theorem splits_render (e : Expression) : Splits e.render.toList (e.fields.map Field.render) := by
  have hgap : isBlank ' ' = true := by decide
  have hblank : ∀ cs : List Char, ∀ c ∈ (' ' :: cs).head?, isBlank c = true := by
    rintro cs c hc
    obtain rfl := Option.some.inj hc
    exact hgap
  have hlast : Splits e.weekday.render.toList [e.weekday.render] := by
    have h : Splits (e.weekday.render.toList ++ []) [e.weekday.render] := splits_field nofun .nil
    rwa [List.append_nil] at h
  have hspace : " ".toList = [' '] := rfl
  simp only [render, String.toList_append, hspace, List.append_assoc, List.singleton_append]
  exact splits_field (hblank _) (.gap hgap (splits_field (hblank _) (.gap hgap
    (splits_field (hblank _) (.gap hgap (splits_field (hblank _) (.gap hgap hlast)))))))

/-- What written fields mean is the fields. -/
theorem means_written {fs fs' : List Field} (h : List.Forall₂ Means (fs.map Field.render) fs') :
    fs = fs' := by
  induction fs generalizing fs' with
  | nil => exact (List.forall₂_nil_left_iff.mp h).symm
  | cons f fs ih =>
    cases h with
    | cons hf hfs => rw [(Field.means_render f).unique hf, ih hfs]

theorem fields_inj (h : e.fields = e'.fields) : e = e' := by
  cases e
  cases e'
  simpa [fields, FieldName.inOrder, field] using h

/-- **What is written reads back as it was**, when the fields take their values, and else not at
all. -/
theorem parse_render_iff : parse e.render = .ok e' ↔ e' = e ∧ e.Legal := by
  rw [parse_eq_ok_iff]
  constructor
  · rintro ⟨tokens, splits, means, legal⟩
    obtain rfl := splits.words_eq.symm.trans (splits_render e).words_eq
    obtain rfl := fields_inj (means_written means)
    exact ⟨rfl, legal⟩
  · rintro ⟨rfl, legal⟩
    refine ⟨_, splits_render e', ?_, legal⟩
    rw [List.forall₂_map_left_iff]
    exact List.forall₂_same.mpr fun f _ => Field.means_render f

end Expression

/-- **The text form of cron expressions.** -/
structure TextForm : Prop where
  /-- A text is read when it splits into five tokens that mean the fields, each in its range. -/
  read : ∀ s e, Expression.parse s = .ok e ↔
    ∃ tokens, Splits s.toList tokens ∧ List.Forall₂ Means tokens e.fields ∧ e.Legal
  /-- Any other is refused for the number of its tokens, or else for the leftmost one at fault. -/
  refused : ∀ s err, Expression.parse s = .error err ↔
    ∃ tokens, Splits s.toList tokens ∧ Expression.Refused tokens err
  /-- What is written reads back as it was when every fixed value is in its range. -/
  written : ∀ e : Expression, Expression.parse e.render = .ok e ↔ e.Legal
  /-- Else it is refused. -/
  unread : ∀ e : Expression, ¬ e.Legal → ∃ err, Expression.parse e.render = .error err
  /-- What was read is written in a form that reads as the same. -/
  again : ∀ s (e : Expression), Expression.parse s = .ok e → Expression.parse e.render = .ok e

theorem text_form : TextForm where
  read _ _ := Expression.parse_eq_ok_iff
  refused _ _ := Expression.parse_eq_error_iff
  written e := by rw [Expression.parse_render_iff, eq_self, true_and]
  unread e illegal := by
    cases h : Expression.parse e.render with
    | ok e' => exact absurd (Expression.parse_render_iff.mp h).2 illegal
    | error err => exact ⟨err, rfl⟩
  again s e h := by
    obtain ⟨tokens, -, -, legal⟩ := Expression.parse_eq_ok_iff.mp h
    exact Expression.parse_render_iff.mpr ⟨rfl, legal⟩

/-- Any blanks separate tokens, and numerals may have a sign and leading zeros. -/
example : Expression.parse "\t+5  *\u00a0007 * 0\n" =
    .ok ⟨.exactly 5, .any, .exactly 7, .any, .exactly 0⟩ := by decide

end TaskQueue.Cron
