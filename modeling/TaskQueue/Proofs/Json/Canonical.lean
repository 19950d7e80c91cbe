import TaskQueue.Proofs.Json.RoundTrip

/-!
# What is read is canonical

Whatever bytes a value is read from, its integers are kept as such, its doubles are finite, the keys
of its objects increase, nothing in it is unreadable, and it has no more levels than are read. So
what was read is read again from what it is written as.

Results:

* `gives_value`: what is read is canonical and within the levels;
* `read_again`: what was read is read back after it is written.
-/

namespace TaskQueue.Json

open Text

namespace Reader

variable {α κ : Type} {P : α → Prop}

theorem gives_laterElement {item : Reader α} (h : Gives item P) :
    Gives (laterElement item) fun x? => ∀ x ∈ x?, P x := by
  unfold laterElement
  refine .after fun _ => .after fun c? => ?_
  split
  · exact .failNext
  · exact .after fun _ => .pure nofun
  · refine .after fun _ => .after fun _ => .after fun d? => ?_
    split
    · exact .failNext
    · exact .bind h fun x hx => .pure fun y hy => Option.some.inj hy ▸ hx
  · exact .failNext

theorem gives_elements {item : Reader α} (h : Gives item P) :
    Gives (elements item) fun xs => ∀ x ∈ xs, P x := by
  unfold elements
  refine .after fun _ => .after fun c? => ?_
  split
  · exact .failNext
  · exact .after fun _ => .pure nofun
  · exact .bind h fun x hx => .bind (.untilNone (gives_laterElement h)) fun xs hxs =>
      .pure (List.forall_mem_cons.mpr ⟨hx, hxs⟩)

theorem gives_member {key : Reader κ} {item : Reader α} (h : Gives item P) :
    Gives (member key item) fun e => P e.2 := by
  unfold member
  refine .after fun _ => .after fun k => .after fun _ => .after fun c? => ?_
  split
  · exact .after fun _ => .bind h fun x hx => .pure hx
  · exact .failNext
  · exact .failNext

theorem gives_laterMember {key : Reader κ} {item : Reader α} (h : Gives item P) :
    Gives (laterMember key item) fun e? => ∀ e ∈ e?, P e.2 := by
  unfold laterMember
  refine .after fun _ => .after fun c? => ?_
  split
  · exact .failNext
  · exact .after fun _ => .pure nofun
  · refine .after fun _ => .after fun _ => .after fun d? => ?_
    split
    · exact .bind (gives_member h) fun e he => .pure fun d hd => Option.some.inj hd ▸ he
    · exact .failNext
    · exact .failNext
    · exact .failNext
  · exact .failNext

theorem gives_members {key : Reader κ} {item : Reader α} (h : Gives item P) :
    Gives (members key item) fun es => ∀ e ∈ es, P e.2 := by
  unfold members
  refine .after fun _ => .after fun c? => ?_
  split
  · exact .failNext
  · exact .after fun _ => .pure nofun
  · exact .bind (gives_member h) fun e he =>
      .bind (.untilNone (gives_laterMember h)) fun es hes =>
        .pure (List.forall_mem_cons.mpr ⟨he, hes⟩)
  · exact .failNext

/-- A canonical value with at most `n` levels. -/
structure Sound (n : Nat) (v : Value) : Prop where
  canonical : v.Canonical
  depth_le : v.depth ≤ n

theorem sound_list {n : Nat} {xs : List Value} (h : ∀ x ∈ xs, Sound n x) :
    Sound (n + 1) (.list xs) where
  canonical := Value.canonicalList_iff.mpr fun x hx => (h x hx).canonical
  depth_le := Nat.succ_le_succ (Value.depthList_le_iff.mpr fun x hx => (h x hx).depth_le)

theorem sound_object {n : Nat} {es : List (String × Value)} (h : ∀ e ∈ es, Sound n e.2) :
    Sound (n + 1) (.object (Entries.collect es)) where
  canonical := ⟨Entries.sorted_collect es, Value.canonicalMembers_iff.mpr fun e he =>
    (h e (Entries.mem_of_mem_collect he)).canonical⟩
  depth_le := Nat.succ_le_succ (Value.depthMembers_le_iff.mpr fun e he =>
    (h e (Entries.mem_of_mem_collect he)).depth_le)

/-- What is read over an inner reader has one level more than what that one reads. -/
theorem gives_valueOver {n : Nat} {inner : Option (Reader Value)}
    (h : ∀ item ∈ inner, ∃ m, n = m + 1 ∧ Gives item (Sound m)) :
    Gives (valueOver true inner) (Sound n) := by
  have hscalar {v : Value} (hc : v.Canonical) (hd : v.depth = 0) : Sound n v :=
    ⟨hc, hd ▸ Nat.zero_le n⟩
  unfold valueOver
  refine .after fun _ => .after fun c? => ?_
  split
  · exact .failNext
  · exact .after fun _ => .after fun _ => .pure (hscalar trivial rfl)
  · exact .after fun _ => .after fun _ => .pure (hscalar trivial rfl)
  · exact .after fun _ => .after fun _ => .pure (hscalar trivial rfl)
  · exact .after fun _ => .after fun s => .pure (hscalar trivial rfl)
  · split
    · exact .failNext
    · next item =>
      obtain ⟨m, rfl, hitem⟩ := h item rfl
      exact .after fun _ => .bind (gives_elements hitem) fun xs hxs => .pure (sound_list hxs)
  · split
    · exact .failNext
    · next item =>
      obtain ⟨m, rfl, hitem⟩ := h item rfl
      exact .after fun _ => .bind (gives_members hitem) fun es hes => .pure (sound_object hes)
  · split
    · refine .after fun num => ?_
      split
      · next v hv => exact .pure (hscalar (canonical_of_value? hv) (depth_of_value? hv))
      · exact .failHere
    · exact .failNext

/-- **What is read is canonical and within the levels.** -/
theorem gives_value (n : Nat) : Gives (value true n) (Sound n) := by
  induction n with
  | zero => exact gives_valueOver nofun
  | succ n ih =>
    refine gives_valueOver fun item hitem => ?_
    obtain rfl := Option.some.inj hitem
    exact ⟨n, rfl, ih⟩

end Reader

namespace Value

/-- What is read from a document. -/
theorem sound_of_read {bs : Bytes} {v : Value} (h : Value.read bs = .ok v) :
    Reader.Sound maxDepth v := by
  obtain ⟨s, hs, -⟩ := Reader.readAll_eq_ok h
  exact Reader.gives_value maxDepth bs v s hs

/-- **What was read is read again** from what it is written as, if its doubles are. -/
theorem read_again {bs : Bytes} {v : Value} (h : Value.read bs = .ok v)
    (hdoubles : ∀ x, v.HasDouble x → Reader.ReadsBack x) : Value.read v.toBytes = .ok v :=
  read_toBytes (sound_of_read h).canonical hdoubles (sound_of_read h).depth_le

end Value

end TaskQueue.Json
