import TaskQueue.Json.Reader

/-!
# Running readers

A chain of readers is run from its front: what the first reader does on the bytes decides how the
chain goes on (`bind_of_ok`, `bind_of_error`), and a chain that came to its end did so link by link
(`bind_eq_ok`). A step that is repeated until it has no more to give has a course (`Repeats`), one
step after the other.

Results:

* `Repeats.untilNone_eq`: a step with a course, each step of which consumes bytes, is repeated to
  the end of that course; the clock never stops it;
* `Gives.untilNone`: whatever holds of all that a step gives holds of all that its repetition gives.
-/

namespace TaskQueue.Json.Reader

open Text

variable {α β κ : Type}

/-! ## Chains -/

theorem bind_of_ok {r : Reader α} {f : α → Reader β} {s s' : Bytes} {a : α}
    (h : r s = .ok (a, s')) : (r >>= f) s = f a s' := by
  show (r s >>= fun p => f p.1 p.2) = f a s'
  rw [h]
  rfl

theorem bind_of_error {r : Reader α} {f : α → Reader β} {s : Bytes} {e : Failure}
    (h : r s = .error e) : (r >>= f) s = .error e := by
  show (r s >>= fun p => f p.1 p.2) = .error e
  rw [h]
  rfl

theorem bind_eq_ok {r : Reader α} {f : α → Reader β} {s s'' : Bytes} {b : β}
    (h : (r >>= f) s = .ok (b, s'')) : ∃ a s', r s = .ok (a, s') ∧ f a s' = .ok (b, s'') := by
  cases hr : r s with
  | error e =>
    rw [bind_of_error hr] at h
    cases h
  | ok p => exact ⟨p.1, p.2, rfl, (bind_of_ok hr).symm.trans h⟩

/-! ## Single bytes -/

theorem toNat_charOf (b : UInt8) : (charOf b).toNat = b.toNat := by
  have hlt : b.toNat < 0xD800 := Nat.lt_trans b.toNat_lt (by decide)
  unfold charOf Char.ofNat
  rw [dif_pos (.inl hlt)]
  rfl

theorem charOf_ne {b : UInt8} {c : Char} (h : b.toNat ≠ c.toNat) : charOf b ≠ c := by
  rintro rfl
  exact h (toNat_charOf b).symm

theorem toUInt8_charOf (b : UInt8) : (charOf b).toNat.toUInt8 = b := by
  rw [toNat_charOf]
  exact UInt8.ofNat_toNat

theorem peek_cons (b : UInt8) (s : Bytes) : peek (b :: s) = .ok (some (charOf b), b :: s) := rfl

theorem next_cons (b : UInt8) (s : Bytes) : next (b :: s) = .ok (some (charOf b), s) := rfl

theorem skipOne_cons (b : UInt8) (s : Bytes) : skipOne (b :: s) = .ok ((), s) := rfl

theorem skipBlanks_cons {b : UInt8} (h : isBlankByte b = false) (s : Bytes) :
    skipBlanks (b :: s) = .ok ((), b :: s) := by
  unfold skipBlanks
  rw [List.dropWhile_cons_of_neg (by rw [h]; exact Bool.false_ne_true)]

/-- Where something that was read is at its end: at the end of the bytes, or in front of a comma or
a closing bracket. -/
def Closed (rest : Bytes) : Prop := ∀ b ∈ rest.head?, b = 0x2C ∨ b = 0x5D ∨ b = 0x7D

theorem closed_nil : Closed [] := nofun

/-! ## Repetition -/

/-- The course of a repeated step: it ends where the step has no more to give or fails, and each
step before that consumes bytes. -/
inductive Repeats (step : Reader (Option α)) : Bytes → Except Failure (List α × Bytes) → Prop
  | done {s s' : Bytes} (h : step s = .ok (none, s')) : Repeats step s (.ok ([], s'))
  | failed {s : Bytes} {f : Failure} (h : step s = .error f) : Repeats step s (.error f)
  | more {s s' : Bytes} {x : α} {result : Except Failure (List α × Bytes)}
      (h : step s = .ok (some x, s')) (shorter : s'.length < s.length)
      (later : Repeats step s' result) :
      Repeats step s (result.map fun p => (x :: p.1, p.2))

/-- The clock does not stop a course while there are as many ticks as bytes. -/
theorem Repeats.repeatFrom_eq {step : Reader (Option α)} {s : Bytes}
    {result : Except Failure (List α × Bytes)} (h : Repeats step s result) {clock : Bytes}
    (hle : s.length ≤ clock.length) : repeatFrom step clock s = result := by
  induction h generalizing clock with
  | done h =>
    unfold repeatFrom
    rw [bind_of_ok h]
    rfl
  | failed h =>
    unfold repeatFrom
    rw [bind_of_error h]
  | @more s s' x result h shorter later ih =>
    unfold repeatFrom
    rw [bind_of_ok h]
    cases clock with
    | nil =>
      rw [List.length_nil] at hle
      omega
    | cons tick clock =>
      have hlater : repeatFrom step clock s' = result :=
        ih (by rw [List.length_cons] at hle; omega)
      show (repeatFrom step clock >>= fun xs => pure (x :: xs)) s' = _
      cases result with
      | error f =>
        rw [bind_of_error hlater]
        rfl
      | ok p =>
        rw [bind_of_ok hlater]
        rfl

/-- **A repeated step runs its course to the end.** -/
theorem Repeats.untilNone_eq {step : Reader (Option α)} {s : Bytes}
    {result : Except Failure (List α × Bytes)} (h : Repeats step s result) :
    untilNone step s = result :=
  h.repeatFrom_eq (Nat.le_refl _)

/-! ## What holds of all that is given -/

/-- Whatever the reader gives has the property. -/
def Gives (r : Reader α) (P : α → Prop) : Prop := ∀ s a s', r s = .ok (a, s') → P a

namespace Gives

variable {P : α → Prop} {Q : β → Prop}

theorem pure {a : α} (h : P a) : Gives (pure a) P := by
  rintro s a' s' he
  cases he
  exact h

theorem failHere {fault : Fault} : Gives (failHere fault) P := nofun

theorem failNext {fault : Fault} : Gives (failNext fault) P := nofun

theorem bind {r : Reader α} {f : α → Reader β} (hr : Gives r P) (hf : ∀ a, P a → Gives (f a) Q) :
    Gives (r >>= f) Q := by
  intro s b s'' h
  obtain ⟨a, s', ha, hb⟩ := bind_eq_ok h
  exact hf a (hr s a s' ha) s' b s'' hb

/-- A chain of which only the last link matters. -/
theorem after {r : Reader α} {f : α → Reader β} (hf : ∀ a, Gives (f a) Q) : Gives (r >>= f) Q :=
  bind (P := fun _ => True) (fun _ _ _ _ => trivial) fun a _ => hf a

theorem repeatFrom {step : Reader (Option α)} (h : Gives step fun x? => ∀ x ∈ x?, P x)
    (clock : Bytes) : Gives (repeatFrom step clock) fun xs => ∀ x ∈ xs, P x := by
  induction clock with
  | nil =>
    unfold Reader.repeatFrom
    refine bind h fun x? hx? => ?_
    cases x? with
    | none => exact pure nofun
    | some x => exact pure (List.forall_mem_singleton.mpr (hx? x rfl))
  | cons tick clock ih =>
    unfold Reader.repeatFrom
    refine bind h fun x? hx? => ?_
    cases x? with
    | none => exact pure nofun
    | some x => exact bind ih fun xs hxs => pure (List.forall_mem_cons.mpr ⟨hx? x rfl, hxs⟩)

/-- **All that a repeated step gives has the property that each step gives.** -/
theorem untilNone {step : Reader (Option α)} (h : Gives step fun x? => ∀ x ∈ x?, P x) :
    Gives (untilNone step) fun xs => ∀ x ∈ xs, P x :=
  fun s => repeatFrom h s s

end Gives

/-! ## Whole documents -/

section Documents

variable {r : Reader α} {input : Bytes}

theorem readAll_of_ok {a : α} (h : r input = .ok (a, [])) : readAll r input = .ok a := by
  unfold readAll
  simp only
  rw [bind_of_ok h]
  rfl

theorem readAll_of_error {f : Failure} (h : r input = .error f) :
    readAll r input = .error (f.locate input) := by
  unfold readAll
  simp only
  rw [bind_of_error h]

/-- A document that was read has only blanks after what was read. -/
theorem readAll_eq_ok {a : α} (h : readAll r input = .ok a) :
    ∃ s, r input = .ok (a, s) ∧ s.dropWhile isBlankByte = [] := by
  cases hr : r input with
  | error f =>
    rw [readAll_of_error hr] at h
    cases h
  | ok p =>
    have hblanks : skipBlanks p.2 = .ok ((), p.2.dropWhile isBlankByte) := rfl
    unfold readAll at h
    simp only at h
    rw [bind_of_ok hr, bind_of_ok hblanks] at h
    cases hs : p.2.dropWhile isBlankByte with
    | nil =>
      rw [hs] at h
      cases h
      exact ⟨p.2, rfl, hs⟩
    | cons b s =>
      rw [hs] at h
      cases h

end Documents

end TaskQueue.Json.Reader
