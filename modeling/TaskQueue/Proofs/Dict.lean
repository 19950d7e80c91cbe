import TaskQueue.Dict

/-!
# Look-ups after a change

What `update` and `modify` do to every look-up, and which keys a map has after an operation.

Results:

* `get?_update`, `get?_modify`: the changed key has the changed value, the others keep theirs;
* `contains_insert`, `contains_erase`: the keys after an insertion and after an erasure;
* `mem_values`, `nodup_values`: the values of a map, and that they differ when the look-ups do;
* `size_insert`, `size_erase`: the number of keys after an insertion and after an erasure;
* `get?_mapValues`, `values_mapValues`: what becomes of a map when every value is changed;
* `ofList_entries`: the entries of a map make up the map;
* `collect_of_sorted`, `mem_of_mem_collect`: entries in order are collected as they are, and nothing
  else is collected than was there.
-/

namespace TaskQueue.Dict

variable {κ α : Type} [Ord κ] [Std.LawfulEqOrd κ] [DecidableEq κ]

omit [Std.LawfulEqOrd κ] [DecidableEq κ] in
@[simp] theorem contains_empty (k : κ) : (∅ : Dict κ α).contains k = false := rfl

@[simp] theorem contains_erase (d : Dict κ α) (k k' : κ) :
    (d.erase k).contains k' = true ↔ k' ≠ k ∧ d.contains k' = true := by
  unfold contains
  rw [get?_erase]
  by_cases h : k' = k
  · simp [h]
  · simp [h]

/-! ## Entries and values -/

omit [DecidableEq κ] in
theorem mem_entries {d : Dict κ α} {k : κ} {v : α} : (k, v) ∈ d.entries ↔ d.get? k = some v := by
  obtain ⟨es, hs⟩ := d
  unfold get?
  induction es with
  | nil => simp [Entries.find?]
  | cons e es ih =>
    obtain ⟨he, hes⟩ := List.pairwise_cons.mp hs
    rw [Entries.find?, List.mem_cons]
    by_cases hc : compare k e.1 = .eq
    · rw [if_pos hc]
      have hk : k = e.1 := Std.compare_eq_iff_eq.mp hc
      constructor
      · rintro (rfl | hmem)
        · rfl
        · have hlt := he (k, v) hmem
          rw [← hk, Std.compare_self] at hlt
          cases hlt
      · intro hv
        exact .inl (Prod.ext hk (Option.some.inj hv).symm)
    · rw [if_neg hc, ← ih hes]
      constructor
      · rintro (rfl | hmem)
        · exact absurd Std.compare_self hc
        · exact hmem
      · exact .inr

omit [DecidableEq κ] in
theorem mem_values {d : Dict κ α} {v : α} : v ∈ d.values ↔ ∃ k, d.get? k = some v := by
  unfold values
  rw [List.mem_map]
  constructor
  · rintro ⟨⟨k, v'⟩, hmem, rfl⟩
    exact ⟨k, mem_entries.mp hmem⟩
  · rintro ⟨k, hk⟩
    exact ⟨(k, v), mem_entries.mpr hk, rfl⟩

omit [DecidableEq κ] in
/-- No value comes twice when no two keys share one. -/
theorem nodup_values {d : Dict κ α}
    (h : ∀ k k' v, d.get? k = some v → d.get? k' = some v → k = k') : d.values.Nodup := by
  unfold values
  refine List.pairwise_map.mpr (d.sorted.imp_of_mem ?_)
  rintro ⟨k, v⟩ ⟨k', v'⟩ hmem hmem' hlt rfl
  obtain rfl := h k k' v (mem_entries.mp hmem) (mem_entries.mp hmem')
  rw [Std.compare_self] at hlt
  cases hlt

/-! ## Sizes -/

omit [DecidableEq κ] in
theorem length_remove {es : Entries κ α} {k : κ} {v : α} (hs : es.Sorted)
    (h : es.find? k = some v) : (es.remove k).length + 1 = es.length := by
  induction es with
  | nil => cases h
  | cons e es ih =>
    obtain ⟨he, hes⟩ := List.pairwise_cons.mp hs
    have hr : Entries.remove k (e :: es) =
        if compare k e.1 = .eq then Entries.remove k es else e :: Entries.remove k es := by
      simp only [Entries.remove, List.filter_cons, bne_iff_ne, ne_eq, ite_not]
    rw [Entries.find?] at h
    rw [hr]
    split at h
    · next hc =>
      have hk : k = e.1 := Std.compare_eq_iff_eq.mp hc
      have hrest : Entries.remove k es = es := by
        refine List.filter_eq_self.mpr fun e' he' => ?_
        rw [hk, he e' he']
        rfl
      rw [if_pos hc, hrest, List.length_cons]
    · next hc => rw [if_neg hc, List.length_cons, List.length_cons, ih hes h]

omit [DecidableEq κ] in
/-- An erasure takes one key away, if it is there. -/
theorem size_erase {d : Dict κ α} {k : κ} (h : d.contains k = true) :
    (d.erase k).size + 1 = d.size := by
  obtain ⟨v, hv⟩ := Option.isSome_iff_exists.mp h
  exact length_remove d.sorted hv

omit [DecidableEq κ] [Std.LawfulEqOrd κ] in
theorem length_put [Std.TransOrd κ] {es : Entries κ α} (k : κ) (v : α) (hs : es.Sorted) :
    (es.put k v).length = if (es.find? k).isSome then es.length else es.length + 1 := by
  induction es with
  | nil => rfl
  | cons e es ih =>
    obtain ⟨he, hes⟩ := List.pairwise_cons.mp hs
    rw [Entries.put_cons, Entries.find?]
    split
    · next hc =>
      have hnone : Entries.find? k es = none :=
        Entries.find?_eq_none_of_lt fun e' he' => Std.TransCmp.lt_trans hc (he e' he')
      simp [hc, hnone]
    · next hc => simp [hc]
    · next hc =>
      have hne : ¬ compare k e.1 = .eq := by simp [hc]
      rw [if_neg hne, List.length_cons, ih hes, List.length_cons]
      split
      · rfl
      · rfl

omit [DecidableEq κ] [Std.LawfulEqOrd κ] in
/-- An insertion adds one key, unless it is there. -/
theorem size_insert [Std.TransOrd κ] (d : Dict κ α) (k : κ) (v : α) :
    (d.insert k v).size = if d.contains k then d.size else d.size + 1 :=
  length_put k v d.sorted

/-! ## Changes of every value -/

/-- Changes every value. -/
def mapValues {β : Type} (d : Dict κ α) (f : α → β) : Dict κ β :=
  ⟨d.entries.map fun e : κ × α => (e.1, f e.2), List.pairwise_map.mpr d.sorted⟩

omit [Std.LawfulEqOrd κ] [DecidableEq κ] in
@[simp] theorem get?_mapValues {β : Type} (d : Dict κ α) (f : α → β) (k : κ) :
    (d.mapValues f).get? k = (d.get? k).map f := by
  obtain ⟨es, hs⟩ := d
  unfold get? mapValues
  dsimp only
  clear hs
  induction es with
  | nil => rfl
  | cons e es ih =>
    rw [List.map_cons, Entries.find?, Entries.find?, ih]
    split
    · rfl
    · rfl

omit [Std.LawfulEqOrd κ] [DecidableEq κ] in
theorem values_mapValues {β : Type} (d : Dict κ α) (f : α → β) :
    (d.mapValues f).values = d.values.map f := by
  unfold values mapValues
  rw [List.map_map, List.map_map]
  rfl

/-! ## Insertions -/

variable [Std.TransOrd κ]

@[simp] theorem contains_insert (d : Dict κ α) (k k' : κ) (v : α) :
    (d.insert k v).contains k' = true ↔ k' = k ∨ d.contains k' = true := by
  unfold contains
  rw [get?_insert]
  by_cases h : k' = k
  · simp [h]
  · simp [h]

@[simp] theorem get?_update (d : Dict κ α) (k k' : κ) (default : α) (f : α → α) :
    (d.update k default f).get? k' =
      if k' = k then some (f ((d.get? k).getD default)) else d.get? k' := by
  unfold update
  rw [get?_insert]

@[simp] theorem get?_modify (d : Dict κ α) (k k' : κ) (f : α → α) :
    (d.modify k f).get? k' = if k' = k then (d.get? k).map f else d.get? k' := by
  unfold modify
  by_cases hk : k' = k
  · subst hk
    cases h : d.get? k' with
    | none => simp [h]
    | some v => simp
  · cases h : d.get? k with
    | none => simp [hk]
    | some v => simp [hk]

/-! ## Lists -/

/-- Entries that are inserted come before those that were there. -/
theorem get?_foldl_insert {es : Entries κ α} (hs : es.Sorted) (d : Dict κ α) (k : κ) :
    (es.foldl (fun d e => d.insert e.1 e.2) d).get? k = (es.find? k).or (d.get? k) := by
  induction es generalizing d with
  | nil => rfl
  | cons e es ih =>
    obtain ⟨he, hes⟩ := List.pairwise_cons.mp hs
    rw [List.foldl_cons, ih hes, get?_insert, Entries.find?]
    by_cases hk : k = e.1
    · subst hk
      rw [Entries.find?_eq_none_of_lt he, if_pos rfl, if_pos Std.compare_self]
      rfl
    · rw [if_neg hk, if_neg fun hc => hk (Std.compare_eq_iff_eq.mp hc)]

/-- **The entries of a map make up the map.** -/
theorem ofList_entries (d : Dict κ α) : ofList d.entries = d := by
  refine ext_get? fun k => ?_
  unfold ofList
  rw [get?_foldl_insert d.sorted, get?_empty, Option.or_none]
  rfl

omit [Std.LawfulEqOrd κ] [DecidableEq κ] in
theorem entries_ofList (es : Entries κ α) : (ofList es).entries = es.collect := by
  have hfold (d : Dict κ α) : (es.foldl (fun d e => d.insert e.1 e.2) d).entries =
      es.foldl (fun acc e => Entries.put e.1 e.2 acc) d.entries := by
    induction es generalizing d with
    | nil => rfl
    | cons e es ih => exact ih (d.insert e.1 e.2)
  exact hfold ∅

end TaskQueue.Dict

namespace TaskQueue.Entries

variable {κ α : Type} [Ord κ] [Std.TransOrd κ]

theorem sorted_collect (es : Entries κ α) : es.collect.Sorted :=
  Dict.entries_ofList es ▸ (Dict.ofList es).sorted

/-- Entries in order are collected as they are. -/
theorem collect_of_sorted [Std.LawfulEqOrd κ] [DecidableEq κ] {es : Entries κ α}
    (h : es.Sorted) : es.collect = es := by
  rw [← Dict.entries_ofList, Dict.ofList_entries ⟨es, h⟩]

omit [Std.TransOrd κ] in
/-- What is collected was among the entries. -/
theorem mem_of_mem_collect {es : Entries κ α} {e : κ × α} (h : e ∈ es.collect) : e ∈ es := by
  suffices hfold : ∀ acc : Entries κ α,
      e ∈ es.foldl (fun acc e => put e.1 e.2 acc) acc → e ∈ acc ∨ e ∈ es from
    (hfold [] h).resolve_left List.not_mem_nil
  clear h
  induction es with
  | nil => exact fun acc h => .inl h
  | cons d es ih =>
    intro acc h
    rcases ih (put d.1 d.2 acc) h with h | h
    · rcases mem_put h with rfl | h
      · exact .inr List.mem_cons_self
      · exact .inl h
    · exact .inr (List.mem_cons_of_mem d h)

end TaskQueue.Entries
