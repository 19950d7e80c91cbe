import TaskQueue.Json.Codec
import TaskQueue.Proofs.Json.RoundTrip

/-!
# Outlines of what was written

An outline keeps every member of an object in its place, so a written value is read back whatever
the order of its keys is, as long as its numbers are integers that are kept as such (`Kept`). The
depth that an outline may have is the number of bytes, which is never too little.

Results:

* `Reader.reads_outline`: a reader of outlines reads the part of a value that is within its levels;
* `Value.outline_toBytes`: a written value is its own outline;
* `Codec.parse_of_kept`: data that decodes from its own value is parsed from its text.
-/

namespace TaskQueue.Json

open Text

namespace Value

/-- Every integer is one that is kept as such, and there are no doubles and nothing unreadable. -/
inductive Kept : Value → Prop
  | null : Kept .null
  | bool (b : Bool) : Kept (.bool b)
  | int {i : Int} (hmin : minInt ≤ i) (hmax : i ≤ maxInt) : Kept (.int i)
  | text (s : String) : Kept (.text s)
  | list {xs : List Value} (h : ∀ x ∈ xs, Kept x) : Kept (.list xs)
  | object {es : List (String × Value)} (h : ∀ e ∈ es, Kept e.2) : Kept (.object es)

/-! ## Levels and bytes -/

theorem length_le_later {γ : Type} (piece : γ → Bytes) {x : γ} {xs : List γ} (h : x ∈ xs)
    (last : UInt8) : (piece x).length < (later piece xs last).length := by
  have hsub : (0x2C :: piece x).Sublist (xs.flatMap fun x => 0x2C :: piece x) :=
    List.sublist_flatten_of_mem (List.mem_map_of_mem h)
  have hlen := hsub.length_le
  unfold later
  rw [List.length_append]
  rw [List.length_cons] at hlen
  omega

/-- A value has no more levels than bytes. -/
theorem Kept.depth_le {v : Value} (h : v.Kept) : v.depth ≤ v.toBytes.length := by
  induction h with
  | null | bool | int | text => exact Nat.zero_le _
  | @list xs h ih =>
    cases xs with
    | nil => decide
    | cons x xs =>
      rw [toBytes_list_cons, depth, List.length_cons, List.length_append]
      refine Nat.succ_le_succ (depthList_le_iff.mpr fun y hy => ?_)
      have hlen := ih y hy
      rcases List.mem_cons.mp hy with rfl | hy
      · omega
      · have := length_le_later toBytes hy 0x5D
        omega
  | @object es h ih =>
    cases es with
    | nil => decide
    | cons e es =>
      rw [toBytes_object_cons, depth, List.length_cons, List.length_append]
      refine Nat.succ_le_succ (depthMembers_le_iff.mpr fun d hd => ?_)
      have hlen := ih d hd
      have hmember : d.2.toBytes.length ≤ (memberBytes d).length := by
        unfold memberBytes
        rw [List.length_append, List.length_cons]
        omega
      rcases List.mem_cons.mp hd with rfl | hd
      · omega
      · have := length_le_later memberBytes hd 0x7D
        omega

/-- The part of an object within a level, with the keys as an outline has them. -/
theorem within_outline (n : Nat) (es : List (String × Value)) :
    within (n + 1) (.object es) =
      (es.mapM fun e => (within n e.2).map (Prod.mk (some e.1))).bind fun es =>
        some (Reader.outlineMembers es) := by
  have hmember : (fun e : String × Value => (within n e.2).map (Prod.mk (some e.1))) =
      fun e => if e.2.depth ≤ n then some (some e.1, e.2) else none := by
    funext e
    unfold within
    split
    · rfl
    · rfl
  have houtline : Reader.outlineMembers (es.map fun e => (some e.1, e.2)) = .object es := by
    have hkeys : (es.map fun e => (some e.1, e.2)).mapM
        (fun e : Option String × Value => e.1.map fun k => (k, e.2)) = some es := by
      rw [List.mapM_map]
      induction es with
      | nil => rfl
      | cons e es ih =>
        rw [List.mapM_cons, ih]
        rfl
    unfold Reader.outlineMembers
    rw [hkeys]
  rw [hmember, mapM_guard fun e : String × Value => (some e.1, e.2)]
  unfold within
  rw [depth]
  simp only [Nat.add_le_add_iff_right, depthMembers_le_iff]
  split
  · rw [Option.bind_some, houtline]
  · rfl

end Value

/-! ## Reading -/

namespace Reader

theorem reads_outlineScalar (inner : Option (Reader Value)) {v : Value} (hdepth : v.depth = 0)
    (h : v.Kept) : Reads (valueOver false inner) v.toBytes (some v) := by
  intro rest hrest
  cases h with
  | null => exact .reads _
  | bool b => cases b <;> exact .reads _
  | int hmin hmax =>
    rw [Value.toBytes, Value.renderChars, valueOver_int false hmin hmax _ hrest]
    exact .reads _
  | text s =>
    obtain ⟨tail, htail, -, htext⟩ := text_renderText s rest
    have hvalue : valueOver false inner (0x22 :: tail) =
        (outlineText >>= fun s? => pure ((s?.map .text).getD .unreadable)) tail := rfl
    rw [Value.toBytes, Value.renderChars, htail, hvalue, bind_of_ok htext]
    exact .reads _
  | list => cases hdepth
  | object => cases hdepth

/-- **An outline of at most `n` levels is read back**, by induction on the levels as for values. -/
theorem reads_outline (n : Nat) {v : Value} (h : v.Kept) :
    Reads (value false n) v.toBytes (v.within n) := by
  induction n generalizing v with
  | zero =>
    by_cases hdepth : v.depth = 0
    · rw [Value.within, if_pos (Nat.le_of_eq hdepth)]
      exact reads_outlineScalar none hdepth h
    · rw [Value.within, if_neg (Nat.not_le.mpr (Nat.pos_of_ne_zero hdepth))]
      exact reads_nested false hdepth
  | succ n ih =>
    by_cases hdepth : v.depth = 0
    · rw [Value.within, if_pos (hdepth ▸ Nat.zero_le _)]
      exact reads_outlineScalar (some (value false n)) hdepth h
    · intro rest _
      cases h with
      | @list xs hxs =>
        obtain ⟨s, hs, hread⟩ := reads_elements (Value.within n) (fun x hx => ih (hxs x hx)) rest
        have hvalue : value false (n + 1) (0x5B :: s) =
            (elements (value false n) >>= fun ys => pure (Value.list ys)) s := rfl
        rw [hs, hvalue, Value.within_list]
        exact hread.bind fun ys _ => .reads (Value.list ys)
      | @object es hes =>
        obtain ⟨s, hs, hread⟩ := reads_members readsKeys_outlineText (Value.within n)
          (fun e he => ih (hes e he)) rest
        have hvalue : value false (n + 1) (0x7B :: s) =
            (members outlineText (value false n) >>= fun ds => pure (outlineMembers ds)) s := rfl
        rw [hs, hvalue, Value.within_outline]
        exact hread.bind fun ds _ => .reads (outlineMembers ds)
      | _ => exact absurd rfl hdepth

end Reader

/-- **A written value is its own outline.** -/
theorem Value.outline_toBytes {v : Value} (h : v.Kept) : Value.outline v.toBytes = .ok v := by
  have hread := Reader.reads_outline v.toBytes.length h [] Reader.closed_nil
  rw [List.append_nil, within, if_pos h.depth_le] at hread
  generalize hr : Reader.value false v.toBytes.length v.toBytes = result at hread
  cases hread with
  | reads => exact Reader.readAll_of_ok hr

/-- **Data that decodes from its own value** is parsed from its text. -/
theorem Codec.parse_of_kept {α : Type} [Codec α] {a : α} (h : (encode a).Kept)
    (hdecode : decode (encode a) = some a) :
    Codec.parse (Utf8.encodeText (Codec.print a)) = some a := by
  have hbytes : Utf8.encodeText (Codec.print a) = (encode a).toBytes :=
    congrArg Utf8.encode String.toList_ofList
  unfold Codec.parse
  rw [hbytes, Value.outline_toBytes h]
  exact hdecode

end TaskQueue.Json
