import TaskQueue.Proofs.Json.Outline
import TaskQueue.Proofs.Time.Loose

/-!
# Codecs that lose nothing

A codec is lawful when what it writes is kept in an outline and decodes to what was written. Then
data is parsed from its own text. Lists of lawful data are lawful, and a record is when the codecs
of its fields are and its fields have different names.

Results:

* `parse_print`: lawful data is parsed from its own text;
* `Value.fields?_zip`: the fields of a record that was written.
-/

namespace TaskQueue.Json

open Text Time

/-- **What is written is read back.** -/
class LawfulCodec (α : Type) [Codec α] : Prop where
  kept (a : α) : (encode a).Kept
  decode_encode (a : α) : decode (encode a) = some a

export LawfulCodec (kept decode_encode)

attribute [simp] decode_encode

variable {α : Type} [Codec α] [LawfulCodec α]

/-- **Lawful data is parsed from its own text.** -/
theorem parse_print (a : α) : Codec.parse (Utf8.encodeText (Codec.print a)) = some a :=
  Codec.parse_of_kept (kept a) (decode_encode a)

/-! ## Plain data -/

instance : LawfulCodec String where
  kept s := .text s
  decode_encode _ := rfl

instance : LawfulCodec UInt32 where
  kept n := by
    have hlt := n.toNat_lt
    exact .int (by unfold Value.minInt; omega) (by unfold Value.maxInt; omega)
  decode_encode n := by
    have hlt := n.toNat_lt
    have hrange : (0 : Int) ≤ n.toNat ∧ (n.toNat : Int) ≤ maxNat32 := by
      unfold maxNat32
      omega
    have hnatural : natural? maxNat32 (.int n.toNat) = some n.toNat := if_pos hrange
    show (natural? maxNat32 (.int n.toNat)).map UInt32.ofNat = some n
    rw [hnatural, Option.map_some, UInt32.ofNat_toNat]

instance : LawfulCodec Instant where
  kept t := by
    unfold encode
    exact .text t.render
  decode_encode t := by
    show (Value.text t.render).text?.bind Instant.readLoose? = some t
    rw [show (Value.text t.render).text? = some t.render from rfl, Option.bind_some]
    exact Instant.readLoose?_render t

instance : LawfulCodec (List α) where
  kept as := by
    refine .list fun v hv => ?_
    obtain ⟨a, -, rfl⟩ := List.mem_map.mp hv
    exact kept a
  decode_encode as := by
    show (as.map encode).mapM decode = some as
    induction as with
    | nil => rfl
    | cons a as ih => simp [List.mapM_cons, ih]

/-- Nothing is written as `null`, and a text is not. -/
instance : LawfulCodec (Option String) where
  kept
    | none => .null
    | some s => .text s
  decode_encode
    | none => rfl
    | some _ => rfl

/-! ## Records -/

@[simp] theorem required_encode (a : α) : required (some (encode a)) = some a := decode_encode a

@[simp] theorem withDefault_encode (default a : α) :
    withDefault default (some (encode a)) = some a := decode_encode a

/-- A name that only one member has. -/
theorem Value.member?_of_mem {es : List (String × Value)} {e : String × Value}
    (hnodup : (es.map Prod.fst).Nodup) (he : e ∈ es) : member? e.1 es = some (some e.2) := by
  have hfilter : es.filter (fun d => d.1 = e.1) = [e] := by
    induction es with
    | nil => cases he
    | cons d es ih =>
      obtain ⟨hd, hnodup⟩ := List.nodup_cons.mp hnodup
      rcases List.mem_cons.mp he with rfl | he
      · have hnone : es.filter (fun d => d.1 = e.1) = [] := by
          simp only [List.filter_eq_nil_iff, decide_eq_true_eq]
          exact fun d hd' hde => hd (hde ▸ List.mem_map_of_mem hd')
        simp [hnone]
      · have hne : d.1 ≠ e.1 := fun hde => hd (hde ▸ List.mem_map_of_mem he)
        simpa [hne] using ih hnodup he
  unfold member?
  rw [hfilter]

/-- **The fields of a record that was written**, by induction on the members that are left. -/
theorem Value.fields?_zip {names : List String} {vs : List Value} (hnodup : names.Nodup)
    (hlen : names.length = vs.length) (least : Nat) :
    fields? names least (.object (names.zip vs)) = some (vs.map some) := by
  have hfst : (names.zip vs).map Prod.fst = names := List.map_fst_zip (Nat.le_of_eq hlen)
  have hsnd : (names.zip vs).map Prod.snd = vs := List.map_snd_zip (Nat.le_of_eq hlen.symm)
  rw [← hfst] at hnodup
  have hmembers (es : List (String × Value)) (hsub : ∀ e ∈ es, e ∈ names.zip vs) :
      (es.map Prod.fst).mapM (fun n => member? n (names.zip vs)) =
        some (es.map fun e => some e.2) := by
    induction es with
    | nil => rfl
    | cons e es ih =>
      rw [List.map_cons, List.mapM_cons, member?_of_mem hnodup (hsub e List.mem_cons_self),
        ih fun d hd => hsub d (List.mem_cons_of_mem e hd)]
      rfl
  have hall := hmembers _ fun _ => id
  rw [hfst] at hall
  rw [← hsnd, List.map_map, hsnd]
  exact hall

end TaskQueue.Json
