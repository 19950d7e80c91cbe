import TaskQueue.Proofs.Broker.State
import TaskQueue.Proofs.Broker.Tidy

/-!
# What a group hands out again

Anyone may call a broker in any order, and may resolve any delivery, once more or long after. A
history is a list of calls, the last one first. An entry of a topic is known by its index in the
log; its position is what a delivery carries.

Settling an index takes it out of the pending ones, but not out of those that wait to be handed out
again. So an entry that is settled while it waits comes back all the same.

Results:

* `effect`: what one call is to one group;
* `alwaysTidy_iff`: no index waits twice, and only pending ones wait, exactly when no call resolves
  an index that waits;
* `alwaysTidy_of_resolvedOnce`: no call does when each hand-out is resolved at most once;
* `comesBack_iff`: a settled entry comes back exactly when it was waiting as it was settled;
* `count_handedOut`: an entry is handed out once, and once more for each time it was given back;
* `comes_back_iff_waiting`: all of these, as `Redelivers` says;
* `acked_comes_back`: an entry that was settled is handed out again, one that was given back is
  handed out twice.
-/

namespace TaskQueue.Broker

/-- What a broker can be asked for. -/
inductive Call where
  | publish (topic : String) (m : Message)
  | subscribe (topic group : String)
  | receive (topic group : String)
  | ack (topic group : String) (p : Position)
  | reject (topic group : String) (p : Position) (requeue : Bool)
  deriving DecidableEq

/-- What a call leaves; one that is refused leaves all as it was. -/
def State.call (b : State) : Call → State
  | .publish topic m => b.publish topic m
  | .subscribe topic group => b.subscribe topic group
  | .receive topic group => (b.receive topic group).2
  | .ack topic group p => (b.ack topic group p).toOption.getD b
  | .reject topic group p requeue => (b.reject topic group p requeue).toOption.getD b

namespace Call

/-- The index that a call resolves in a group, and whether it is given back. -/
def resolves? (t g : String) : Call → Option (Nat × Bool)
  | .ack topic group p =>
    if t = topic ∧ g = group then (State.index? p).toOption.map (·, false) else none
  | .reject topic group p requeue =>
    if t = topic ∧ g = group then (State.index? p).toOption.map (·, requeue) else none
  | _ => none

/-- What a call hands out to a group. -/
def handsOut? (b : State) (t g : String) : Call → Option Delivery
  | .receive topic group => if t = topic ∧ g = group then (b.receive topic group).1 else none
  | _ => none

end Call

/-! ## One call -/

namespace State

variable {b : State} {c : Call} {t g : String}

/-- What a call is to a group. -/
inductive Effect (b : State) (t g : String) (c : Call) : Prop where
  /-- It is about something else, or there is nothing to hand out. -/
  | idle (resolves : c.resolves? t g = none) (handsOut : c.handsOut? b t g = none)
      (groupOf : (b.call c).groupOf t g = b.groupOf t g)
  /-- It gives an index back or settles it. -/
  | resolved (i : Nat) (requeue : Bool) (resolves : c.resolves? t g = some (i, requeue))
      (handsOut : c.handsOut? b t g = none)
      (groupOf : (b.call c).groupOf t g = (b.groupOf t g).resolve i requeue)
  /-- It takes an index. -/
  | handed (i : Nat) (d : Delivery) (resolves : c.resolves? t g = none)
      (handsOut : c.handsOut? b t g = some d) (position : d.position = State.position t i)
      (taken : (b.groupOf t g).take (b.messages t).length = some (i, (b.call c).groupOf t g))

theorem grows_reject (b : State) (topic group : String) (p : Position) (requeue : Bool) :
    b.Grows ((b.reject topic group p requeue).toOption.getD b) := by
  cases h : b.reject topic group p requeue with
  | error e => exact .refl b
  | ok b' => exact .of_messages_eq (messages_reject h)

theorem grows_call (b : State) (c : Call) : b.Grows (b.call c) := by
  cases c with
  | publish topic m => exact grows_publish b topic m
  | subscribe topic group => exact grows_subscribe b topic group
  | receive topic group => exact grows_receive (r := (b.receive topic group).1) rfl
  | ack topic group p => exact grows_reject b topic group p false
  | reject topic group p requeue => exact grows_reject b topic group p requeue

/-- What a call that rejects is to a group. -/
theorem effect_reject {topic group : String} {p : Position} {requeue : Bool}
    (hcall : b.call c = (b.reject topic group p requeue).toOption.getD b)
    (hout : c.handsOut? b t g = none)
    (hr : c.resolves? t g =
      if t = topic ∧ g = group then (index? p).toOption.map (·, requeue) else none) :
    Effect b t g c := by
  unfold reject at hcall
  cases hi : index? p with
  | error e =>
    rw [hi] at hcall hr
    exact .idle (hr.trans (ite_self none)) hout (congrArg (·.groupOf t g) hcall)
  | ok i =>
    rw [hi] at hcall hr
    have hg : (b.call c).groupOf t g =
        if t = topic ∧ g = group then (b.groupOf topic group).resolve i requeue
        else b.groupOf t g := by
      rw [hcall]
      exact groupOf_changeGroup (f := (·.resolve i requeue)) (by cases requeue <;> rfl) t g
    by_cases h : t = topic ∧ g = group
    · rw [if_pos h] at hr hg
      obtain ⟨rfl, rfl⟩ := h
      exact .resolved i requeue hr hout hg
    · rw [if_neg h] at hr hg
      exact .idle hr hout hg

/-- **What one call is to one group.** -/
theorem effect (b : State) (t g : String) (c : Call) : Effect b t g c := by
  cases c with
  | publish topic m => exact .idle rfl rfl (groupOf_publish b topic m t g)
  | subscribe topic group => exact .idle rfl rfl (groupOf_subscribe b topic group t g)
  | receive topic group =>
    cases hd : b.receive topic group with | mk r b' =>
    have hcall : b.call (.receive topic group) = b' := congrArg Prod.snd hd
    have hout : (Call.receive topic group).handsOut? b t g =
        if t = topic ∧ g = group then r else none := by
      change (if t = topic ∧ g = group then (b.receive topic group).1 else none) = _
      rw [hd]
    cases r with
    | none =>
      refine .idle rfl (by rw [hout, ite_self]) ?_
      rw [hcall, receive_nothing hd]
      exact groupOf_subscribe b topic group t g
    | some d =>
      obtain ⟨i, g', ht⟩ := receive_taken hd
      have hg := ht.groupOf t g
      by_cases h : t = topic ∧ g = group
      · rw [if_pos h] at hg hout
        obtain ⟨rfl, rfl⟩ := h
        refine .handed i d rfl hout ht.position ?_
        rw [hcall, hg]
        exact ht.taken
      · rw [if_neg h] at hg hout
        exact .idle rfl hout (by rw [hcall, hg])
  | ack topic group p =>
    have hcall : b.call (.ack topic group p) =
      (b.reject topic group p false).toOption.getD b := rfl
    exact effect_reject hcall rfl rfl
  | reject topic group p requeue => exact effect_reject rfl rfl rfl

/-- When there is something to take, a message is handed out. -/
theorem exists_receive {i : Nat} {g' : Group}
    (hw : (b.groupOf t g).Within (b.messages t).length)
    (ht : (b.groupOf t g).take (b.messages t).length = some (i, g')) :
    ∃ d, (b.receive t g).1 = some d := by
  have hgroup : (((b.subscribe t g).topic t).groups.get? g).getD .fresh = b.groupOf t g := by
    change ((b.subscribe t g).group? t g).getD .fresh = _
    rw [group?_subscribe_self]
    rfl
  have hlog : ((b.subscribe t g).topic t).log = b.messages t := messages_subscribe b t g t
  have hread : (b.messages t)[i]? = some ((b.messages t).get ⟨i, hw.lt_of_take ht⟩) :=
    List.getElem?_eq_getElem (hw.lt_of_take ht)
  unfold receive
  simp only [hgroup, hlog, ht, hread, Option.some.injEq, exists_eq']

end State

/-! ## Histories -/

namespace Call

open State

/-- The broker after all calls, the last one first. -/
def after : List Call → State
  | [] => ∅
  | c :: h => (after h).call c

theorem after_cons (c : Call) (h : List Call) : after (c :: h) = (after h).call c := rfl

/-- The positions that a group was handed, the last one first. -/
def handedOut (t g : String) : List Call → List Position
  | [] => []
  | c :: h => ((c.handsOut? (after h) t g).map Delivery.position).toList ++ handedOut t g h

/-- The indices that were given back while they were pending, the last one first. -/
def givenBack (t g : String) : List Call → List Nat
  | [] => []
  | c :: h =>
    match c.resolves? t g with
    | some (i, requeue) =>
      if requeue = true ∧ ((after h).groupOf t g).pending.contains i = true then
        i :: givenBack t g h
      else givenBack t g h
    | none => givenBack t g h

variable {t g : String} {h : List Call} {i : Nat}

/-- A group stays within the log of its topic. -/
theorem within (t g : String) (h : List Call) :
    ((after h).groupOf t g).Within ((after h).messages t).length := by
  induction h with
  | nil => exact Group.within_fresh _
  | cons c h ih =>
    have hle := (grows_call (after h) c t).length_le
    cases effect (after h) t g c with
    | idle _ _ hg => exact hg ▸ ih.mono hle
    | resolved i requeue _ _ hg => exact hg ▸ ih.resolve.mono hle
    | handed i d _ _ _ ht => exact (ih.take ht).mono hle

/-! ## Waiting twice -/

/-- **One call keeps a group tidy** exactly when it resolves no index that waits. -/
theorem tidy_call_iff (c : Call) (ht : ((after h).groupOf t g).Tidy) :
    ((after (c :: h)).groupOf t g).Tidy ↔
      ∀ i requeue, c.resolves? t g = some (i, requeue) →
        i ∉ ((after h).groupOf t g).redeliver := by
  have hw := within t g h
  rw [after_cons]
  cases effect (after h) t g c with
  | idle hr _ hg => simp only [hg, ht, hr, reduceCtorEq, false_implies, implies_true]
  | resolved i requeue hr _ hg =>
    rw [hg, Group.Tidy.resolve_iff hw ht, hr]
    constructor
    · rintro hi j requeue' ⟨⟩
      exact hi
    · intro hi
      exact hi i requeue rfl
  | handed i d hr _ _ htake =>
    simp only [ht.take hw htake, hr, reduceCtorEq, false_implies, implies_true]

/-- At all times no index waits twice, and only pending ones wait. -/
def AlwaysTidy (t g : String) (h : List Call) : Prop :=
  ∀ h', h' <:+ h → ((after h').groupOf t g).Tidy

/-- **A group is always tidy** exactly when no call ever resolves an index that waits. -/
theorem alwaysTidy_iff (t g : String) (h : List Call) :
    AlwaysTidy t g h ↔
      ∀ c h', c :: h' <:+ h → ∀ i requeue, c.resolves? t g = some (i, requeue) →
        i ∉ ((after h').groupOf t g).redeliver := by
  constructor
  · intro hall c h' hs
    have ht' := hall h' ((List.suffix_cons c h').trans hs)
    exact (tidy_call_iff c ht').mp (hall (c :: h') hs)
  · intro hall h'
    induction h' with
    | nil => exact fun _ => Group.tidy_fresh
    | cons c h' ih =>
      intro hs
      exact (tidy_call_iff c (ih ((List.suffix_cons c h').trans hs))).mpr (hall c h' hs)

/-! ## Coming back -/

/-- Some call after all of these hands the entry to the group. -/
def ComesBack (t g : String) (i : Nat) (h : List Call) : Prop :=
  ∃ later, ∃ c : Call, ∃ d, c.handsOut? (after (later ++ h)) t g = some d ∧
    d.position = position t i

/-- An entry was handed out exactly when the group has got past it. -/
theorem mem_handedOut : position t i ∈ handedOut t g h ↔ i < ((after h).groupOf t g).next := by
  induction h with
  | nil => exact iff_of_false List.not_mem_nil (Nat.not_lt_zero i)
  | cons c h ih =>
    have hw := within t g h
    rw [handedOut, List.mem_append, ih, after_cons]
    cases effect (after h) t g c with
    | idle _ hd hg => simp only [hd, hg, Option.map_none, Option.toList_none, List.not_mem_nil,
        false_or]
    | resolved j requeue _ hd hg =>
      simp only [hd, hg, Option.map_none, Option.toList_none, List.not_mem_nil, false_or,
        Group.next_resolve]
    | handed j d _ hd hp ht =>
      rw [hd, Option.map_some, Option.toList_some, List.mem_singleton, hp,
        Group.lt_next_take hw ht]
      exact or_congr_left ⟨position_injective, congrArg (position t)⟩

/-- A spent entry is not handed out any more. -/
theorem Spent.never {c : Call} {d : Delivery} (hs : ((after h).groupOf t g).Spent i)
    (hd : c.handsOut? (after h) t g = some d) : d.position ≠ position t i := by
  cases effect (after h) t g c with
  | idle _ hd' _ => rw [hd'] at hd; cases hd
  | resolved _ _ _ hd' _ => rw [hd'] at hd; cases hd
  | handed j d' _ hd' hp ht =>
    rw [hd'] at hd
    obtain rfl := Option.some.inj hd
    rw [hp]
    exact fun he => hs.ne_of_take ht (position_injective he).symm

/-- A spent entry stays spent. -/
theorem Spent.later (later : List Call) (hs : ((after h).groupOf t g).Spent i) :
    ((after (later ++ h)).groupOf t g).Spent i := by
  induction later with
  | nil => exact hs
  | cons c later ih =>
    rw [List.cons_append, after_cons]
    cases effect (after (later ++ h)) t g c with
    | idle _ _ hg => exact hg ▸ ih
    | resolved j requeue _ _ hg => exact hg ▸ ih.resolve
    | handed j d _ _ _ ht => exact ih.take ht

/-- The first index that waits is handed out next. -/
theorem receive_waiting {rest : List Nat} (hr : ((after h).groupOf t g).redeliver = i :: rest) :
    (∃ d, (Call.receive t g).handsOut? (after h) t g = some d ∧ d.position = position t i) ∧
      ((after (.receive t g :: h)).groupOf t g).redeliver = rest := by
  have htake : ((after h).groupOf t g).take ((after h).messages t).length =
      some (i, { (after h).groupOf t g with redeliver := rest }.mark i) := by
    unfold Group.take
    rw [hr]
  obtain ⟨d, hd⟩ := exists_receive (within t g h) htake
  have hout : (Call.receive t g).handsOut? (after h) t g = some d := by
    rw [← hd]
    exact if_pos ⟨rfl, rfl⟩
  rw [after_cons]
  cases effect (after h) t g (.receive t g) with
  | idle _ hd' _ => rw [hd'] at hout; cases hout
  | resolved _ _ hr' _ _ => cases hr'
  | handed j d' _ hd' hp ht =>
    rw [htake] at ht
    obtain ⟨rfl, hg⟩ := Prod.mk.inj (Option.some.inj ht)
    exact ⟨⟨d', hd', hp⟩, hg ▸ rfl⟩

/-- An entry that waits is handed out at some time. -/
theorem comesBack_of_waiting (hi : i ∈ ((after h).groupOf t g).redeliver) :
    ComesBack t g i h := by
  generalize hw : ((after h).groupOf t g).redeliver = waiting at hi
  induction waiting generalizing h with
  | nil => cases hi
  | cons j rest ih =>
    obtain ⟨⟨d, hd, hp⟩, hrest⟩ := receive_waiting hw
    rcases List.mem_cons.mp hi with rfl | hi
    · exact ⟨[], .receive t g, d, hd, hp⟩
    · obtain ⟨later, c, d', hd', hp'⟩ := ih hrest hi
      refine ⟨later ++ [.receive t g], c, d', ?_, hp'⟩
      rw [List.append_assoc]
      exact hd'

/-- A call that resolves an index hands out nothing. -/
theorem call_resolves {c : Call} {requeue : Bool} (hc : c.resolves? t g = some (i, requeue)) :
    c.handsOut? (after h) t g = none ∧
      (after (c :: h)).groupOf t g = ((after h).groupOf t g).resolve i requeue := by
  rw [after_cons]
  cases effect (after h) t g c with
  | idle hr _ _ => rw [hr] at hc; cases hc
  | resolved j requeue' hr hd hg =>
    rw [hr] at hc
    cases hc
    exact ⟨hd, hg⟩
  | handed j d hr _ _ _ => rw [hr] at hc; cases hc

/-- **A settled entry comes back** exactly when it was waiting as it was settled. -/
theorem comesBack_iff {c : Call} (hc : c.resolves? t g = some (i, false))
    (hi : position t i ∈ handedOut t g h) :
    ComesBack t g i (c :: h) ↔ i ∈ ((after h).groupOf t g).redeliver := by
  have hg := (call_resolves (h := h) hc).2
  constructor
  · rintro ⟨later, c', d, hd, hp⟩
    by_contra hn
    have hs : ((after (c :: h)).groupOf t g).Spent i :=
      hg ▸ Group.spent_settle (mem_handedOut.mp hi) hn
    exact Spent.never (Spent.later later hs) hd hp
  · intro hw
    exact comesBack_of_waiting (hg ▸ hw)

/-! ## How often -/

/-- **An entry is handed out once, and once more for each time it was given back**; what is still
to come is waiting. -/
theorem count_handedOut (t g : String) (h : List Call) (i : Nat) :
    (handedOut t g h).count (position t i) + ((after h).groupOf t g).redeliver.count i =
      (if position t i ∈ handedOut t g h then 1 else 0) + (givenBack t g h).count i := by
  simp only [mem_handedOut]
  induction h with
  | nil => rfl
  | cons c h ih =>
    have hw := within t g h
    rw [handedOut, givenBack, after_cons, List.count_append]
    cases effect (after h) t g c with
    | idle hr hd hg =>
      simp only [hr, hd, hg, Option.map_none, Option.toList_none, List.count_nil, Nat.zero_add]
      exact ih
    | resolved j requeue hr hd hg =>
      simp only [hr, hd, hg, Option.map_none, Option.toList_none, List.count_nil, Nat.zero_add,
        Group.next_resolve, Group.count_resolve]
      by_cases hj : requeue = true ∧ ((after h).groupOf t g).pending.contains j = true
      · simp only [hj, and_self, if_true, true_and, List.count_cons, beq_iff_eq]
        omega
      · have hj' : ¬ (requeue = true ∧
          ((after h).groupOf t g).pending.contains j = true ∧ j = i) := fun hn => hj ⟨hn.1, hn.2.1⟩
        rw [if_neg hj, if_neg hj']
        exact ih
    | handed j d hr hd hp ht =>
      have hc := Group.count_take ht i
      have hj : (if position t j = position t i then 1 else 0) = if j = i then 1 else 0 :=
        if_congr ⟨position_injective, congrArg (position t)⟩ rfl rfl
      simp only [hr, hd, hp, Option.map_some, Option.toList_some, List.count_singleton,
        beq_iff_eq, hj]
      omega

/-- The indices that were resolved, the last one first. -/
def resolved (t g : String) (h : List Call) : List Nat :=
  h.filterMap fun c => (c.resolves? t g).map Prod.fst

/-- No entry was given back more often than it was resolved. -/
theorem count_givenBack_le (t g : String) (h : List Call) (i : Nat) :
    (givenBack t g h).count i ≤ (resolved t g h).count i := by
  induction h with
  | nil => exact Nat.le_refl _
  | cons c h ih =>
    rw [givenBack, resolved, List.filterMap_cons]
    cases hr : c.resolves? t g with
    | none => exact ih
    | some r =>
      simp only [Option.map_some, List.count_cons]
      split
      · rw [List.count_cons]
        exact Nat.add_le_add_right ih _
      · exact Nat.le_add_right_of_le ih

/-- The group was at all times told of each entry at most as often as it had handed it out. -/
def ResolvedOnce (t g : String) (h : List Call) : Prop :=
  ∀ h', h' <:+ h → ∀ i, (resolved t g h').count i ≤ (handedOut t g h').count (position t i)

/-- **Nothing goes wrong when each hand-out is resolved at most once.** -/
theorem alwaysTidy_of_resolvedOnce (hr : ResolvedOnce t g h) : AlwaysTidy t g h := by
  refine (alwaysTidy_iff t g h).mpr fun c h' hs i requeue hc hi => ?_
  -- The call is one more than there were hand-outs, since the last hand-out was given back.
  have hcount := count_handedOut t g h' i
  have hgiven := count_givenBack_le t g h' i
  have hwaits : 0 < ((after h').groupOf t g).redeliver.count i := List.count_pos_iff.mpr hi
  have hle := hr (c :: h') hs i
  have hres : (resolved t g (c :: h')).count i = (resolved t g h').count i + 1 := by
    rw [resolved, List.filterMap_cons, hc]
    exact List.count_cons_self
  have hout : handedOut t g (c :: h') = handedOut t g h' := by
    rw [handedOut, (call_resolves hc).1]
    rfl
  rw [hres, hout] at hle
  split at hcount <;> omega

/-! ## The result -/

/-- **What a group hands out again** after some calls. -/
structure Redelivers (t g : String) (h : List Call) : Prop where
  /-- The indices that wait are pending, each listed once, as long as no call resolves an index that
  waits. -/
  alwaysTidy_iff : AlwaysTidy t g h ↔
    ∀ c h', c :: h' <:+ h → ∀ i requeue, c.resolves? t g = some (i, requeue) →
      i ∉ ((after h').groupOf t g).redeliver
  /-- Callers that resolve each hand-out at most once never do so. -/
  alwaysTidy : ResolvedOnce t g h → AlwaysTidy t g h
  /-- An entry that is settled after it was handed out comes back exactly when it was waiting. -/
  comesBack_iff : ∀ c i, c.resolves? t g = some (i, false) → position t i ∈ handedOut t g h →
    (ComesBack t g i (c :: h) ↔ i ∈ ((after h).groupOf t g).redeliver)
  /-- Each time that an entry is given back leads to one hand-out of it. -/
  count : ∀ i, (handedOut t g h).count (position t i) +
      ((after h).groupOf t g).redeliver.count i =
    (if position t i ∈ handedOut t g h then 1 else 0) + (givenBack t g h).count i

/-- **A settled entry comes back exactly when it was waiting**, and every other entry as often as it
was given back. -/
theorem comes_back_iff_waiting (t g : String) (h : List Call) : Redelivers t g h where
  alwaysTidy_iff := alwaysTidy_iff t g h
  alwaysTidy := alwaysTidy_of_resolvedOnce
  comesBack_iff _ _ hc hi := comesBack_iff hc hi
  count := count_handedOut t g h

/-! ## A call too many -/

/-- The first entry of a topic is handed out. -/
def firstHandedOut : List Call :=
  [.receive "tasks" "workers", .subscribe "tasks" "workers", .publish "tasks" ⟨"resize", [], ∅⟩]

/-- It is given back. -/
def firstWaits : List Call :=
  .reject "tasks" "workers" (position "tasks" 0) true :: firstHandedOut

/-- An entry that is settled while it does not wait does not come back. -/
theorem settled_for_good :
    ¬ ComesBack "tasks" "workers" 0
      (.ack "tasks" "workers" (position "tasks" 0) :: firstHandedOut) := by
  have hc : (Call.ack "tasks" "workers" (position "tasks" 0)).resolves? "tasks" "workers" =
      some (0, false) := rfl
  have hi : position "tasks" 0 ∈ handedOut "tasks" "workers" firstHandedOut :=
    mem_handedOut.mpr (by decide)
  have hw : 0 ∉ ((after firstHandedOut).groupOf "tasks" "workers").redeliver := by decide
  have hr := comes_back_iff_waiting "tasks" "workers" firstHandedOut
  exact fun hb => hw ((hr.comesBack_iff _ 0 hc hi).mp hb)

/-- **An entry that was settled is handed out again**, when it was settled after it had been given
back; then an index waits that is not pending. An entry that was given back twice waits twice. -/
theorem acked_comes_back :
    ((Call.receive "tasks" "workers").handsOut?
        (after (.ack "tasks" "workers" (position "tasks" 0) :: firstWaits)) "tasks" "workers").map
          Delivery.position = some (position "tasks" 0) ∧
      ¬ AlwaysTidy "tasks" "workers"
        (.ack "tasks" "workers" (position "tasks" 0) :: firstWaits) ∧
      ((after (.reject "tasks" "workers" (position "tasks" 0) true :: firstWaits)).groupOf
        "tasks" "workers").redeliver = [0, 0] := by
  refine ⟨by decide, fun ht => ?_, by decide⟩
  exact absurd ((ht _ (List.suffix_refl _)).pending 0 (by decide)) (by decide)

end Call

end TaskQueue.Broker
