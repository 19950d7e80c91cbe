/-!
# Finite maps in key order

A `Dict κ α` is a list of entries whose keys increase strictly. Two maps with the same look-ups are
therefore the same value, and the entries come out in key order without sorting. The entry lists
themselves (`Entries`) are used without the order proof inside nested data, such as the objects of
a JSON document.

Results:

* `get?_insert`, `get?_erase`, `get?_empty`: what each operation does to every look-up;
* `ext_get?`: a map is determined by its look-ups.
-/

namespace TaskQueue

variable {κ α : Type}

/-! ## Entry lists -/

/-- Keys and values in the order in which they are written. -/
abbrev Entries (κ α : Type) := List (κ × α)

namespace Entries

variable [Ord κ]

/-- Keys increase strictly from entry to entry. -/
def Sorted (es : Entries κ α) : Prop :=
  es.Pairwise fun a b => compare a.1 b.1 = .lt

instance (es : Entries κ α) : Decidable es.Sorted :=
  inferInstanceAs (Decidable (List.Pairwise _ _))

/-- The value of the first entry under `k`. -/
def find? (k : κ) : Entries κ α → Option α
  | [] => none
  | (k', v) :: es => if compare k k' = .eq then some v else find? k es

/-- Puts a value under `k` at its place in the key order, replacing the one that is there. -/
def put (k : κ) (v : α) : Entries κ α → Entries κ α
  | [] => [(k, v)]
  | (k', v') :: es =>
    match compare k k' with
    | .lt => (k, v) :: (k', v') :: es
    | .eq => (k, v) :: es
    | .gt => (k', v') :: put k v es

/-- Leaves out the entries under `k`. -/
def remove (k : κ) (es : Entries κ α) : Entries κ α :=
  es.filter fun e => compare k e.1 != .eq

/-- Puts the entries one after the other, so that of a repeated key the last value stays. -/
def collect (es : Entries κ α) : Entries κ α :=
  es.foldl (fun acc e => put e.1 e.2 acc) []

theorem put_cons (k : κ) (v : α) (e : κ × α) (es : Entries κ α) :
    put k v (e :: es) =
      match compare k e.1 with
      | .lt => (k, v) :: e :: es
      | .eq => (k, v) :: es
      | .gt => e :: put k v es := rfl

/-- Every entry of the result is the new one or an old one. -/
theorem mem_put {k : κ} {v : α} {e : κ × α} {es : Entries κ α} (h : e ∈ put k v es) :
    e = (k, v) ∨ e ∈ es := by
  induction es with
  | nil => exact .inl (by simpa [put] using h)
  | cons d es ih =>
    rw [put_cons] at h
    split at h
    · simpa using h
    · rcases List.mem_cons.1 h with h | h
      · exact .inl h
      · exact .inr (List.mem_cons_of_mem _ h)
    · rcases List.mem_cons.1 h with h | h
      · exact .inr (h ▸ List.mem_cons_self)
      · exact (ih h).imp_right (List.mem_cons_of_mem _)

theorem sorted_remove (k : κ) {es : Entries κ α} (h : es.Sorted) : (remove k es).Sorted :=
  List.Pairwise.filter _ h

variable [Std.TransOrd κ]

theorem sorted_put (k : κ) (v : α) {es : Entries κ α} (h : es.Sorted) : (put k v es).Sorted := by
  induction es with
  | nil => simp [put, Sorted]
  | cons d es ih =>
    obtain ⟨hd, hes⟩ := List.pairwise_cons.1 h
    rw [put_cons]
    split
    · next hlt =>
      refine List.pairwise_cons.2 ⟨fun e he => ?_, h⟩
      rcases List.mem_cons.1 he with rfl | he
      · exact hlt
      · exact Std.TransCmp.lt_trans hlt (hd e he)
    · next heq =>
      refine List.pairwise_cons.2 ⟨fun e he => ?_, hes⟩
      exact Std.TransCmp.lt_of_eq_of_lt heq (hd e he)
    · next hgt =>
      refine List.pairwise_cons.2 ⟨fun e he => ?_, ih hes⟩
      rcases mem_put he with rfl | he
      · exact Std.OrientedCmp.lt_of_gt hgt
      · exact hd e he

omit [Std.TransOrd κ] in
/-- A key below all keys of a list is not in it. -/
theorem find?_eq_none_of_lt {k : κ} {es : Entries κ α}
    (h : ∀ e ∈ es, compare k e.1 = .lt) : find? k es = none := by
  induction es with
  | nil => rfl
  | cons d es ih =>
    have hd := h d List.mem_cons_self
    rw [find?, if_neg (by simp [hd])]
    exact ih fun e he => h e (List.mem_cons_of_mem _ he)

variable [Std.LawfulEqOrd κ]

omit [Std.TransOrd κ] in
theorem find?_put [DecidableEq κ] (k k' : κ) (v : α) {es : Entries κ α} (h : es.Sorted) :
    find? k' (put k v es) = if k' = k then some v else find? k' es := by
  induction es with
  | nil =>
    by_cases hk : k' = k
    · subst hk; simp [put, find?]
    · simp [put, find?, hk]
  | cons d es ih =>
    obtain ⟨hd, hes⟩ := List.pairwise_cons.1 h
    rw [put_cons]
    split
    · by_cases hk : k' = k <;> simp [find?, hk]
    · next heq =>
      have hkd : k = d.1 := Std.compare_eq_iff_eq.1 heq
      by_cases hk : k' = k
      · simp [find?, hk]
      · have : k' ≠ d.1 := hkd ▸ hk
        simp [find?, hk, this]
    · next hgt =>
      have hkd : k ≠ d.1 := fun he => by subst he; simp at hgt
      simp only [find?, ih hes]
      by_cases hk : k' = k
      · subst hk; simp [hkd]
      · simp [hk]

omit [Std.TransOrd κ] in
theorem find?_remove [DecidableEq κ] (k k' : κ) (es : Entries κ α) :
    find? k' (remove k es) = if k' = k then none else find? k' es := by
  induction es with
  | nil => simp [remove, find?]
  | cons d es ih =>
    have hr : remove k (d :: es) =
        if compare k d.1 = .eq then remove k es else d :: remove k es := by
      simp only [remove, List.filter_cons, bne_iff_ne, ne_eq]
      by_cases hc : compare k d.1 = .eq <;> simp [hc]
    rw [hr]
    by_cases hc : compare k d.1 = .eq
    · have hkd : k = d.1 := Std.compare_eq_iff_eq.1 hc
      rw [if_pos hc, ih]
      by_cases hk : k' = k
      · simp [hk]
      · have : k' ≠ d.1 := hkd ▸ hk
        simp [find?, hk, this]
    · rw [if_neg hc]
      simp only [find?, ih]
      by_cases hk : k' = k
      · subst hk; simp [hc]
      · simp [hk]

end Entries

/-! ## Maps -/

/-- A finite map: entries with strictly increasing keys. -/
structure Dict (κ α : Type) [Ord κ] where
  entries : Entries κ α
  sorted : entries.Sorted
  deriving DecidableEq

namespace Dict

variable [Ord κ]

instance : EmptyCollection (Dict κ α) := ⟨⟨[], List.Pairwise.nil⟩⟩

instance : Inhabited (Dict κ α) := ⟨∅⟩

/-- The value under a key. -/
def get? (d : Dict κ α) (k : κ) : Option α := d.entries.find? k

/-- Whether a key has a value. -/
def contains (d : Dict κ α) (k : κ) : Bool := (d.get? k).isSome

/-- The number of keys. -/
def size (d : Dict κ α) : Nat := d.entries.length

/-- The keys in order. -/
def keys (d : Dict κ α) : List κ := d.entries.map Prod.fst

/-- The values in the order of their keys. -/
def values (d : Dict κ α) : List α := d.entries.map Prod.snd

/-- Leaves a key out. -/
def erase (d : Dict κ α) (k : κ) : Dict κ α :=
  ⟨d.entries.remove k, Entries.sorted_remove k d.sorted⟩

@[simp] theorem get?_empty (k : κ) : (∅ : Dict κ α).get? k = none := rfl

variable [Std.TransOrd κ]

/-- Gives a key a value, in place of the one it may have. -/
def insert (d : Dict κ α) (k : κ) (v : α) : Dict κ α :=
  ⟨d.entries.put k v, Entries.sorted_put k v d.sorted⟩

/-- Inserts entries one after the other: of a repeated key the last value stays. -/
def ofList (es : Entries κ α) : Dict κ α :=
  es.foldl (fun d e => d.insert e.1 e.2) ∅

/-- Changes the value under `k`, taking `default` for a key that has none. -/
def update (d : Dict κ α) (k : κ) (default : α) (f : α → α) : Dict κ α :=
  d.insert k (f ((d.get? k).getD default))

/-- Changes the value under `k`, if there is one. -/
def modify (d : Dict κ α) (k : κ) (f : α → α) : Dict κ α :=
  match d.get? k with
  | some v => d.insert k (f v)
  | none => d

variable [Std.LawfulEqOrd κ]

@[simp] theorem get?_insert [DecidableEq κ] (d : Dict κ α) (k k' : κ) (v : α) :
    (d.insert k v).get? k' = if k' = k then some v else d.get? k' :=
  Entries.find?_put k k' v d.sorted

omit [Std.TransOrd κ] in
@[simp] theorem get?_erase [DecidableEq κ] (d : Dict κ α) (k k' : κ) :
    (d.erase k).get? k' = if k' = k then none else d.get? k' :=
  Entries.find?_remove k k' d.entries

/-- **A map is determined by its look-ups.** -/
theorem ext_get? {d d' : Dict κ α} (h : ∀ k, d.get? k = d'.get? k) : d = d' := by
  suffices ∀ es es' : Entries κ α, es.Sorted → es'.Sorted →
      (∀ k, es.find? k = es'.find? k) → es = es' by
    obtain ⟨es, hs⟩ := d
    obtain ⟨es', hs'⟩ := d'
    obtain rfl := this es es' hs hs' h
    rfl
  intro es
  induction es with
  | nil =>
    intro es' _ _ h
    cases es' with
    | nil => rfl
    | cons e es' =>
      have := h e.1
      simp [Entries.find?] at this
  | cons e es ih =>
    intro es' hs hs' h
    cases es' with
    | nil =>
      have := h e.1
      simp [Entries.find?] at this
    | cons e' es' =>
      obtain ⟨he, hes⟩ := List.pairwise_cons.1 hs
      obtain ⟨he', hes'⟩ := List.pairwise_cons.1 hs'
      have hk : e.1 = e'.1 := by
        cases hc : compare e.1 e'.1 with
        | eq => exact Std.compare_eq_iff_eq.1 hc
        | lt =>
          have h1 := h e.1
          rw [Entries.find?, if_pos (by simp)] at h1
          have hnone : Entries.find? e.1 (e' :: es') = none := by
            refine Entries.find?_eq_none_of_lt fun d hd => ?_
            rcases List.mem_cons.1 hd with rfl | hd
            · exact hc
            · exact Std.TransCmp.lt_trans hc (he' d hd)
          rw [hnone] at h1
          simp at h1
        | gt =>
          have hlt : compare e'.1 e.1 = .lt := Std.OrientedCmp.lt_of_gt hc
          have h1 := h e'.1
          have hnone : Entries.find? e'.1 (e :: es) = none := by
            refine Entries.find?_eq_none_of_lt fun d hd => ?_
            rcases List.mem_cons.1 hd with rfl | hd
            · exact hlt
            · exact Std.TransCmp.lt_trans hlt (he d hd)
          rw [hnone] at h1
          simp [Entries.find?] at h1
      have hv : e.2 = e'.2 := by
        have h1 := h e.1
        simp only [Entries.find?, hk] at h1
        simpa using h1
      have hee : e = e' := Prod.ext hk hv
      subst hee
      congr 1
      refine ih es' hes hes' fun k => ?_
      have h1 := h k
      simp only [Entries.find?] at h1
      by_cases hc : compare k e.1 = .eq
      · have hke : k = e.1 := Std.compare_eq_iff_eq.1 hc
        subst hke
        rw [Entries.find?_eq_none_of_lt he, Entries.find?_eq_none_of_lt he']
      · simpa [hc] using h1

end Dict

end TaskQueue
