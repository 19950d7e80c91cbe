import TaskQueue.Proofs.Dict
import TaskQueue.Proofs.Json.Numeral
import TaskQueue.Proofs.Json.Text

/-!
# Values are read as they were written

A reader that is given a written value and more bytes reads the value and leaves the rest, provided
that what follows cannot belong to the value (`Reader.Closed`): a comma, a closing bracket or the
end. For lists and objects this is shown of any reader of their items (`Reader.Reads`), so it holds
of values at every level and of headers, whose members are texts, alike. A reader that goes no
deeper than `n` levels reads just the part of a value that is within `n` (`Value.within`), and where
there is more it fails for that reason.

Results:

* `Reader.reads_elements`, `Reader.reads_members`: a written list or object is read as its items
  are;
* `Value.read_toBytes`: a value that is not too deep is read as it was written;
* `Value.read_toBytes_of_deep`: one that is too deep is not read, and that is the fault.
-/

namespace TaskQueue.Json

open Text Number

namespace Value

/-! ## Inside a value -/

theorem canonicalList_iff {xs : List Value} : CanonicalList xs ↔ ∀ x ∈ xs, x.Canonical := by
  induction xs with
  | nil => simp [CanonicalList]
  | cons x xs ih => rw [CanonicalList, ih, List.forall_mem_cons]

theorem canonicalMembers_iff {es : List (String × Value)} :
    CanonicalMembers es ↔ ∀ e ∈ es, e.2.Canonical := by
  induction es with
  | nil => simp [CanonicalMembers]
  | cons e es ih => rw [CanonicalMembers, ih, List.forall_mem_cons]

theorem depthList_le_iff {n : Nat} {xs : List Value} :
    depthList xs ≤ n ↔ ∀ x ∈ xs, x.depth ≤ n := by
  induction xs with
  | nil => simp [depthList]
  | cons x xs ih => rw [depthList, Nat.max_le, ih, List.forall_mem_cons]

theorem depthMembers_le_iff {n : Nat} {es : List (String × Value)} :
    depthMembers es ≤ n ↔ ∀ e ∈ es, e.2.depth ≤ n := by
  induction es with
  | nil => simp [depthMembers]
  | cons e es ih => rw [depthMembers, Nat.max_le, ih, List.forall_mem_cons]

/-- The double occurs in the value. -/
inductive HasDouble (d : Double) : Value → Prop
  | here : HasDouble d (.double d)
  | inList {x : Value} {xs : List Value} (mem : x ∈ xs) (h : HasDouble d x) : HasDouble d (.list xs)
  | inObject {e : String × Value} {es : List (String × Value)} (mem : e ∈ es)
      (h : HasDouble d e.2) : HasDouble d (.object es)

/-- The value, if it has at most `n` levels. -/
def within (n : Nat) (v : Value) : Option Value := if v.depth ≤ n then some v else none

theorem mapM_guard {γ δ : Type} {p : γ → Prop} [DecidablePred p] (f : γ → δ) (xs : List γ) :
    (xs.mapM fun x => if p x then some (f x) else none) =
      if ∀ x ∈ xs, p x then some (xs.map f) else none := by
  induction xs with
  | nil => rfl
  | cons x xs ih =>
    rw [List.mapM_cons, ih]
    simp only [List.forall_mem_cons]
    by_cases hx : p x
    · by_cases hxs : ∀ x ∈ xs, p x
      · rw [if_pos hx, if_pos hxs, if_pos ⟨hx, hxs⟩]
        rfl
      · rw [if_pos hx, if_neg hxs, if_neg (not_and_of_not_right _ hxs)]
        rfl
    · rw [if_neg hx, if_neg (not_and_of_not_left _ hx)]
      rfl

theorem within_list (n : Nat) (xs : List Value) :
    within (n + 1) (.list xs) = (xs.mapM (within n)).bind fun xs => some (.list xs) := by
  unfold within
  rw [mapM_guard fun x => x, depth]
  simp only [Nat.add_le_add_iff_right, depthList_le_iff, List.map_id']
  split
  · rfl
  · rfl

theorem within_object (n : Nat) {es : List (String × Value)} (hs : Entries.Sorted es) :
    within (n + 1) (.object es) =
      (es.mapM fun e => (within n e.2).map (Prod.mk e.1)).bind fun es =>
        some (.object (Entries.collect es)) := by
  have hmember : (fun e : String × Value => (within n e.2).map (Prod.mk e.1)) =
      fun e => if e.2.depth ≤ n then some e else none := by
    funext e
    unfold within
    split
    · rfl
    · rfl
  rw [hmember, mapM_guard fun e => e]
  unfold within
  rw [depth]
  simp only [Nat.add_le_add_iff_right, depthMembers_le_iff, List.map_id']
  split
  · rw [Option.bind_some, Entries.collect_of_sorted hs]
  · rfl

/-! ## The bytes of a value -/

/-- The bytes of a member. -/
def memberBytes (e : String × Value) : Bytes :=
  Utf8.encode (renderText e.1) ++ 0x3A :: e.2.toBytes

/-- Pieces, each after a comma, and a closing bracket. -/
def later {γ : Type} (piece : γ → Bytes) (xs : List γ) (last : UInt8) : Bytes :=
  xs.flatMap (fun x => 0x2C :: piece x) ++ [last]

theorem encode_renderRest (xs : List Value) :
    Utf8.encode (renderRest xs) = later toBytes xs 0x5D := by
  induction xs with
  | nil => rfl
  | cons x xs ih =>
    rw [renderRest, Utf8.encode_append, ih, later, later, List.flatMap_cons, List.append_assoc]
    rfl

theorem encode_renderMembers (es : List (String × Value)) :
    Utf8.encode (renderMembers es) = later memberBytes es 0x7D := by
  induction es with
  | nil => rfl
  | cons e es ih =>
    rw [renderMembers, Utf8.encode_append, ih, later, later, List.flatMap_cons, List.append_assoc,
      Utf8.encode_append]
    rfl

theorem toBytes_list_cons (x : Value) (xs : List Value) :
    (list (x :: xs)).toBytes = 0x5B :: (x.toBytes ++ later toBytes xs 0x5D) := by
  rw [toBytes, renderChars, Utf8.encode_append, encode_renderRest]
  rfl

theorem toBytes_object_cons (e : String × Value) (es : List (String × Value)) :
    (object (e :: es)).toBytes = 0x7B :: (memberBytes e ++ later memberBytes es 0x7D) := by
  rw [toBytes, renderChars, Utf8.encode_append, Utf8.encode_append, encode_renderMembers]
  rfl

end Value

namespace Reader

/-- How what is read of a value compares with what is expected: it is read, and `rest` is left, or
there are too many levels in it. -/
inductive Tells {α : Type} (rest : Bytes) : Option α → Except Failure (α × Bytes) → Prop
  | reads (a : α) : Tells rest (some a) (.ok (a, rest))
  | tooDeep {f : Failure} (h : f.fault = .tooDeep) : Tells rest none (.error f)

/-- The reader reads `front` at every closed place. -/
def Reads {α : Type} (r : Reader α) (front : Bytes) (out : Option α) : Prop :=
  ∀ rest, Closed rest → Tells rest out (r (front ++ rest))

variable {α β γ κ : Type}

theorem Tells.bind {r : Reader α} {f : α → Reader β} {s s' rest : Bytes} {out : Option α}
    {out' : α → Option β} (h : Tells s' out (r s))
    (hf : ∀ a ∈ out, Tells rest (out' a) (f a s')) :
    Tells rest (out.bind out') ((r >>= f) s) := by
  generalize hr : r s = result at h
  cases h with
  | reads a =>
    rw [bind_of_ok hr]
    exact hf a rfl
  | tooDeep h =>
    rw [bind_of_error hr]
    exact .tooDeep h

theorem closed_later (piece : γ → Bytes) (xs : List γ) {last : UInt8}
    (hlast : last = 0x5D ∨ last = 0x7D) (rest : Bytes) :
    Closed (Value.later piece xs last ++ rest) := by
  intro b hb
  cases xs with
  | nil =>
    cases hb
    exact .inr hlast
  | cons x xs =>
    cases hb
    exact .inl rfl

/-- What a step reads after each comma is read to the closing bracket, or until there are too many
levels in it. -/
theorem untilNone_later {step : Reader (Option β)} (piece : γ → Bytes) {out : γ → Option β}
    {last : UInt8} (hlast : last = 0x5D ∨ last = 0x7D)
    (hend : ∀ s, step (last :: s) = .ok (none, s)) {xs : List γ}
    (hstep : ∀ x ∈ xs, Reads step (0x2C :: piece x) ((out x).map some)) (rest : Bytes) :
    Tells rest (xs.mapM out) (untilNone step (Value.later piece xs last ++ rest)) := by
  suffices hcourse : ∃ result, Repeats step (Value.later piece xs last ++ rest) result ∧
      Tells rest (xs.mapM out) result by
    obtain ⟨result, hrepeats, htells⟩ := hcourse
    rwa [hrepeats.untilNone_eq]
  induction xs with
  | nil => exact ⟨_, .done (hend rest), .reads []⟩
  | cons x xs ih =>
    obtain ⟨result, hrepeats, htells⟩ := ih fun y hy => hstep y (List.mem_cons_of_mem x hy)
    have hx := hstep x List.mem_cons_self _ (closed_later piece xs hlast rest)
    have hbytes : Value.later piece (x :: xs) last ++ rest =
        0x2C :: piece x ++ (Value.later piece xs last ++ rest) := by
      simp only [Value.later, List.flatMap_cons, List.append_assoc, List.cons_append]
    rw [hbytes, List.mapM_cons]
    generalize hs : step (0x2C :: piece x ++ (Value.later piece xs last ++ rest)) = first at hx
    cases hout : out x with
    | none =>
      rw [hout] at hx
      cases hx with
      | tooDeep hf => exact ⟨_, .failed hs, .tooDeep hf⟩
    | some y =>
      rw [hout] at hx
      cases hx with
      | reads =>
        refine ⟨_, .more hs ?_ hrepeats, ?_⟩
        · simp only [List.length_append, List.length_cons]
          omega
        · cases hxs : xs.mapM out with
          | none =>
            rw [hxs] at htells
            cases htells with
            | tooDeep hf => exact .tooDeep hf
          | some ys =>
            rw [hxs] at htells
            cases htells with
            | reads => exact .reads (y :: ys)

/-! ## Lists -/

/-- The first byte of a value is no blank and does not close a list. -/
theorem exists_toBytes (v : Value) :
    ∃ b bs, v.toBytes = b :: bs ∧ isBlankByte b = false ∧ charOf b ≠ ']' := by
  have hnumber {b : UInt8} (h : StartsNumber b) : charOf b ≠ ']' := by
    intro hb
    unfold StartsNumber at h
    rw [hb] at h
    exact absurd h (by decide)
  cases v with
  | null => exact ⟨_, _, rfl, rfl, by decide⟩
  | bool b => cases b <;> exact ⟨_, _, rfl, rfl, by decide⟩
  | int i =>
    obtain ⟨b, bs, hbytes, hstart, -⟩ := numeral_repr true i
    refine ⟨b, bs, ?_, hstart.not_blank, hnumber hstart⟩
    rw [Value.toBytes, Value.renderChars, hbytes]
  | double x =>
    rw [Value.toBytes, Value.renderChars]
    split
    · obtain ⟨c, cs, hcs, hc⟩ := x.exists_render
      obtain ⟨b, hb, -, hstart⟩ := startsNumber_encode hc cs
      exact ⟨b, _, hcs ▸ hb, hstart.not_blank, hnumber hstart⟩
    · exact ⟨_, _, rfl, rfl, by decide⟩
  | text s => exact ⟨_, _, rfl, rfl, by decide⟩
  | list xs => cases xs <;> exact ⟨_, _, rfl, rfl, by decide⟩
  | object es => cases es <;> exact ⟨_, _, rfl, rfl, by decide⟩
  | unreadable => exact ⟨_, _, rfl, rfl, by decide⟩

section Lists

variable {item : Reader β}

theorem laterElement_comma {b : UInt8} (hblank : isBlankByte b = false) (hclose : charOf b ≠ ']')
    (s : Bytes) :
    laterElement item (0x2C :: b :: s) = (item >>= fun x => pure (some x)) (b :: s) := by
  have hother : some (charOf b) ≠ some ']' := fun he => hclose (Option.some.inj he)
  unfold laterElement
  rw [bind_of_ok (skipBlanks_cons rfl _), bind_of_ok (a := some ',') (peek_cons _ _)]
  simp only
  rw [bind_of_ok (skipOne_cons _ _), bind_of_ok (skipBlanks_cons hblank s),
    bind_of_ok (peek_cons b s)]
  simp only

theorem elements_cons {b : UInt8} (hblank : isBlankByte b = false) (hclose : charOf b ≠ ']')
    (s : Bytes) :
    elements item (b :: s) =
      (item >>= fun x => untilNone (laterElement item) >>= fun xs => pure (x :: xs)) (b :: s) := by
  unfold elements
  rw [bind_of_ok (skipBlanks_cons hblank s), bind_of_ok (peek_cons b s)]
  simp only

theorem reads_laterElement {x : Value} {y? : Option β} (h : Reads item x.toBytes y?) :
    Reads (laterElement item) (0x2C :: x.toBytes) (y?.map some) := by
  intro rest hrest
  obtain ⟨b, bs, hbytes, hblank, hclose⟩ := exists_toBytes x
  have hx := h rest hrest
  rw [hbytes, List.cons_append] at hx ⊢
  rw [List.cons_append, laterElement_comma hblank hclose, Option.map_eq_bind]
  exact hx.bind fun y _ => .reads (some y)

/-- **The elements of a written list are read**, or one of them has too many levels. -/
theorem reads_elements (out : Value → Option β) {xs : List Value}
    (h : ∀ x ∈ xs, Reads item x.toBytes (out x)) (rest : Bytes) :
    ∃ s, (Value.list xs).toBytes ++ rest = 0x5B :: s ∧
      Tells rest (xs.mapM out) (elements item s) := by
  cases xs with
  | nil => exact ⟨_, rfl, .reads []⟩
  | cons x xs =>
    obtain ⟨b, bs, hbytes, hblank, hclose⟩ := exists_toBytes x
    have hlater := untilNone_later Value.toBytes (.inl rfl) (fun s => rfl)
      (fun y hy => reads_laterElement (h y (List.mem_cons_of_mem x hy))) rest
    have hx := h x List.mem_cons_self (Value.later Value.toBytes xs 0x5D ++ rest)
      (closed_later Value.toBytes xs (.inl rfl) rest)
    refine ⟨x.toBytes ++ (Value.later Value.toBytes xs 0x5D ++ rest), ?_, ?_⟩
    · rw [Value.toBytes_list_cons, List.cons_append, List.append_assoc]
    · rw [hbytes, List.cons_append] at hx ⊢
      rw [elements_cons hblank hclose, List.mapM_cons]
      exact hx.bind fun y _ => hlater.bind fun ys _ => .reads (y :: ys)

end Lists

/-! ## Objects -/

section Objects

/-- What the reader of keys reads of a written text. -/
def ReadsKeys (key : Reader κ) (f : String → κ) : Prop :=
  ∀ s rest, ∃ tail, Utf8.encode (renderText s) ++ rest = 0x22 :: tail ∧ key tail = .ok (f s, rest)

theorem readsKeys_text : ReadsKeys text fun s => s := fun s rest =>
  have ⟨tail, htail, htext, _⟩ := text_renderText s rest
  ⟨tail, htail, htext⟩

theorem readsKeys_outlineText : ReadsKeys outlineText some := fun s rest =>
  have ⟨tail, htail, _, htext⟩ := text_renderText s rest
  ⟨tail, htail, htext⟩

variable {item : Reader β} {key : Reader κ} {f : String → κ}

theorem reads_member (hkey : ReadsKeys key f) {e : String × Value} {y? : Option β}
    (h : Reads item e.2.toBytes y?) :
    Reads (member key item) (Value.memberBytes e) (y?.map (Prod.mk (f e.1))) := by
  intro rest hrest
  obtain ⟨s, hs, htext⟩ := hkey e.1 (0x3A :: (e.2.toBytes ++ rest))
  have hmember : member key item (0x22 :: s) =
      (item >>= fun x => pure (f e.1, x)) (e.2.toBytes ++ rest) := by
    unfold member
    rw [bind_of_ok (skipOne_cons _ _), bind_of_ok htext,
      bind_of_ok (skipBlanks_cons rfl _), bind_of_ok (a := some ':') (peek_cons _ _)]
    simp only
    rw [bind_of_ok (skipOne_cons _ _)]
  rw [Value.memberBytes, List.append_assoc, List.cons_append, hs, hmember, Option.map_eq_bind]
  exact (h rest hrest).bind fun y _ => .reads (f e.1, y)

/-- The first byte of a member is a quote. -/
theorem exists_memberBytes (e : String × Value) : ∃ bs, Value.memberBytes e = 0x22 :: bs := ⟨_, rfl⟩

theorem reads_laterMember (hkey : ReadsKeys key f) {e : String × Value} {y? : Option β}
    (h : Reads item e.2.toBytes y?) :
    Reads (laterMember key item) (0x2C :: Value.memberBytes e)
      ((y?.map (Prod.mk (f e.1))).map some) := by
  intro rest hrest
  obtain ⟨bs, hbytes⟩ := exists_memberBytes e
  have hx := reads_member hkey h rest hrest
  have hlater (s : Bytes) : laterMember key item (0x2C :: 0x22 :: s) =
      (member key item >>= fun d => pure (some d)) (0x22 :: s) := rfl
  rw [hbytes, List.cons_append] at hx ⊢
  rw [List.cons_append, hlater, Option.map_eq_bind (f := some)]
  exact hx.bind fun d _ => .reads (some d)

/-- **The members of a written object are read**, or one of them has too many levels. -/
theorem reads_members (hkey : ReadsKeys key f) (out : Value → Option β)
    {es : List (String × Value)} (h : ∀ e ∈ es, Reads item e.2.toBytes (out e.2)) (rest : Bytes) :
    ∃ s, (Value.object es).toBytes ++ rest = 0x7B :: s ∧
      Tells rest (es.mapM fun e => (out e.2).map (Prod.mk (f e.1))) (members key item s) := by
  cases es with
  | nil => exact ⟨_, rfl, .reads []⟩
  | cons e es =>
    obtain ⟨bs, hbytes⟩ := exists_memberBytes e
    have hlater := untilNone_later Value.memberBytes (.inr rfl) (fun s => rfl)
      (fun y hy => reads_laterMember hkey (h y (List.mem_cons_of_mem e hy))) rest
    have he := reads_member hkey (h e List.mem_cons_self)
      (Value.later Value.memberBytes es 0x7D ++ rest)
      (closed_later Value.memberBytes es (.inr rfl) rest)
    refine ⟨Value.memberBytes e ++ (Value.later Value.memberBytes es 0x7D ++ rest), ?_, ?_⟩
    · rw [Value.toBytes_object_cons, List.cons_append, List.append_assoc]
    · have hmembers (s : Bytes) : members key item (0x22 :: s) =
          (member key item >>= fun d => untilNone (laterMember key item) >>= fun ds =>
            pure (d :: ds)) (0x22 :: s) := rfl
      rw [hbytes, List.cons_append] at he ⊢
      rw [hmembers, List.mapM_cons]
      exact he.bind fun d _ => hlater.bind fun ds _ => .reads (d :: ds)

end Objects

/-! ## Values -/

/-- What is neither a list nor an object is read back however deep it lies. -/
theorem reads_scalar (inner : Option (Reader Value)) {v : Value} (hdepth : v.depth = 0)
    (hcanonical : v.Canonical) (hdoubles : ∀ x, v.HasDouble x → ReadsBack x) :
    Reads (valueOver true inner) v.toBytes (some v) := by
  intro rest hrest
  cases v with
  | null => exact .reads _
  | bool b => cases b <;> exact .reads _
  | int i =>
    rw [Value.toBytes, Value.renderChars, valueOver_int true hcanonical.1 hcanonical.2 _ hrest]
    exact .reads _
  | double x =>
    have hfinite : x.isFinite = true := hcanonical
    rw [Value.toBytes, Value.renderChars, if_pos hfinite,
      valueOver_double (hdoubles x .here) _ hrest]
    exact .reads _
  | text s =>
    obtain ⟨tail, htail, htext, -⟩ := text_renderText s rest
    have hvalue : valueOver true inner (0x22 :: tail) =
        (text >>= fun s => pure (.text s)) tail := rfl
    rw [Value.toBytes, Value.renderChars, htail, hvalue, bind_of_ok htext]
    exact .reads _
  | list xs => cases hdepth
  | object es => cases hdepth
  | unreadable => cases hcanonical

/-- Where no lists and objects are read, they have too many levels. -/
theorem reads_nested (strict : Bool) {v : Value} (hdepth : v.depth ≠ 0) :
    Reads (valueOver strict none) v.toBytes none := by
  intro rest _
  cases v with
  | list xs => cases xs <;> exact .tooDeep rfl
  | object es => cases es <;> exact .tooDeep rfl
  | _ => exact absurd rfl hdepth

/-- **A value with at most `n` levels is read back**, and one with more is found to have too many:
by induction on the levels, a list or an object hands one level less to what is in it. -/
theorem reads_value (n : Nat) {v : Value} (hcanonical : v.Canonical)
    (hdoubles : ∀ x, v.HasDouble x → ReadsBack x) :
    Reads (value true n) v.toBytes (v.within n) := by
  induction n generalizing v with
  | zero =>
    by_cases hdepth : v.depth = 0
    · rw [Value.within, if_pos (Nat.le_of_eq hdepth)]
      exact reads_scalar none hdepth hcanonical hdoubles
    · rw [Value.within, if_neg (Nat.not_le.mpr (Nat.pos_of_ne_zero hdepth))]
      exact reads_nested true hdepth
  | succ n ih =>
    by_cases hdepth : v.depth = 0
    · rw [Value.within, if_pos (hdepth ▸ Nat.zero_le _)]
      exact reads_scalar (some (value true n)) hdepth hcanonical hdoubles
    · intro rest _
      cases v with
      | list xs =>
        have hxs := Value.canonicalList_iff.mp hcanonical
        obtain ⟨s, hs, hread⟩ := reads_elements (Value.within n)
          (fun x hx => ih (hxs x hx) fun d hd => hdoubles d (.inList hx hd)) rest
        have hvalue : value true (n + 1) (0x5B :: s) =
            (elements (value true n) >>= fun ys => pure (Value.list ys)) s := rfl
        rw [hs, hvalue, Value.within_list]
        exact hread.bind fun ys _ => .reads (Value.list ys)
      | object es =>
        obtain ⟨hsorted, hes⟩ := hcanonical
        rw [Value.canonicalMembers_iff] at hes
        obtain ⟨s, hs, hread⟩ := reads_members readsKeys_text (Value.within n)
          (fun e he => ih (hes e he) fun d hd => hdoubles d (.inObject he hd)) rest
        have hvalue : value true (n + 1) (0x7B :: s) =
            (members text (value true n) >>= fun ds =>
              pure (Value.object (Entries.collect ds))) s := rfl
        rw [hs, hvalue, Value.within_object n hsorted]
        exact hread.bind fun ds _ => .reads (Value.object (Entries.collect ds))
      | _ => exact absurd rfl hdepth

end Reader

namespace Value

variable {v : Value}

/-- **A written value is read back** when it has no more levels than are read. -/
theorem read_toBytes (hcanonical : v.Canonical) (hdoubles : ∀ x, v.HasDouble x → Reader.ReadsBack x)
    (hdepth : v.depth ≤ maxDepth) : Value.read v.toBytes = .ok v := by
  have h := Reader.reads_value maxDepth hcanonical hdoubles [] Reader.closed_nil
  rw [List.append_nil, within, if_pos hdepth] at h
  generalize hr : Reader.value true maxDepth v.toBytes = result at h
  cases h with
  | reads => exact Reader.readAll_of_ok hr

/-- **A written value with more levels** is found to have too many. -/
theorem read_toBytes_of_deep (hcanonical : v.Canonical)
    (hdoubles : ∀ x, v.HasDouble x → Reader.ReadsBack x) (hdepth : maxDepth < v.depth) :
    ∃ e, Value.read v.toBytes = .error e ∧ e.fault = .tooDeep := by
  have h := Reader.reads_value maxDepth hcanonical hdoubles [] Reader.closed_nil
  rw [List.append_nil, within, if_neg (Nat.not_le.mpr hdepth)] at h
  generalize hr : Reader.value true maxDepth v.toBytes = result at h
  cases h with
  | tooDeep hf => exact ⟨_, Reader.readAll_of_error hr, hf⟩

end Value

end TaskQueue.Json
