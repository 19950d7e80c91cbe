import TaskQueue.Proofs.Redis.Retire
import TaskQueue.Proofs.Redis.Stage

/-!
# Recovering what was handed out before

A consumer joins its group, waits for deliveries and settles them, in any order. Meanwhile entries
arrive, and other members take some of them. Everything that is received and sent over such a stay
follows from what was pending at first and from what is found fresh.

Results:

* `Called.onward`: pending entries are read until none is found;
* `Called.leads`: how far a call leads;
* `Stay.exists_stage`: how far a stay has led;
* `recovers`: **what is received and sent over every stay**.
-/

namespace TaskQueue.Redis

open Engine Time Script

namespace Consumer

variable {c c' : Consumer} {es : Exchanges} {wait : Span} {r : Option Receipt} {source : Source}
  {x : Reply} {cursor : Option String}

/-! ## The end of what was pending -/

/-- It was found that nothing more is pending. -/
def Drained (c : Consumer) (es : Exchanges) : Prop :=
  ∃ after x, c.reading (.pending after) x ∈ es ∧ c.found (.pending after) x = .ok none

/-- Pending entries are read only if that was not found before. -/
def Onward (c : Consumer) (before : Exchanges) (ex : Exchange Answer) : Prop :=
  ∀ after x, ex = c.reading (.pending after) x → ¬ c.Drained before

theorem drained_append {es' : Exchanges} :
    c.Drained (es ++ es') ↔ c.Drained es ∨ c.Drained es' := by
  unfold Drained
  constructor
  · rintro ⟨after, x, hmem, hfound⟩
    exact (List.mem_append.mp hmem).imp (fun h => ⟨after, x, h, hfound⟩) fun h =>
      ⟨after, x, h, hfound⟩
  · rintro (⟨after, x, hmem, hfound⟩ | ⟨after, x, hmem, hfound⟩)
    · exact ⟨after, x, List.mem_append_left _ hmem, hfound⟩
    · exact ⟨after, x, List.mem_append_right _ hmem, hfound⟩

theorem not_drained (h : ∀ source x, c.reading source x ∉ es) : ¬ c.Drained es := by
  rintro ⟨after, x, hmem, -⟩
  exact h _ _ hmem

theorem not_drained_reading (h : c.found source x ≠ .ok none) :
    ¬ c.Drained [c.reading source x] := by
  rintro ⟨after, x', hmem, hfound⟩
  cases List.mem_singleton.mp hmem
  exact h hfound

theorem each_onward (h : ∀ source x, c.reading source x ∉ es) (before : Exchanges) :
    Each c.Onward before es := by
  induction es generalizing before with
  | nil => trivial
  | cons ex es ih =>
    refine ⟨fun after x hex => absurd ?_ (h (.pending after) x), ih (fun source x hmem =>
      h source x (List.mem_cons_of_mem _ hmem)) _⟩
    rw [hex]
    exact List.mem_cons_self

/-- **The consumer goes on only**: what is pending is read as long as something was found. -/
theorem Advanced.onward {before : Exchanges} (h : (c.upTo cursor).Advanced wait es (c', r))
    (hbefore : cursor ≠ none → ¬ c.Drained before) :
    Each c.Onward before es ∧ (c'.cursor ≠ none → ¬ c.Drained (before ++ es)) := by
  have hreading (x : Reply) : c.Onward before (c.reading ((c.upTo cursor).source wait) x) := by
    intro after x' hex
    refine hbefore ?_
    rintro rfl
    cases hex
  have hdrained (x : Reply) (hx : c.found ((c.upTo cursor).source wait) x ≠ .ok none)
      (hcursor : cursor ≠ none) (later : Exchanges)
      (hlater : ∀ source x, c.reading source x ∉ later) :
      ¬ c.Drained (before ++ c.reading ((c.upTo cursor).source wait) x :: later) := by
    rw [List.append_cons, drained_append, drained_append]
    rintro ((h | h) | h)
    · exact hbefore hcursor h
    · exact not_drained_reading hx h
    · exact not_drained hlater h
  cases h with
  -- a read that fails says nothing of what is pending: it is tried again
  | @failed x e found =>
    refine ⟨⟨hreading x, trivial⟩, fun hcursor => hdrained x ?_ hcursor [] (by simp)⟩
    rw [show c.found _ x = _ from found]
    nofun
  | @empty x found => exact ⟨⟨hreading x, trivial⟩, fun hcursor => absurd rfl hcursor⟩
  | @found x e later p found meeting =>
    refine ⟨⟨hreading x, each_onward meeting.not_reading _⟩, fun hcursor =>
      hdrained x ?_ ?_ later meeting.not_reading⟩
    · rw [show c.found _ x = _ from found]
      nofun
    · rintro rfl
      exact hcursor (congrArg Consumer.cursor meeting.same)

theorem Reading.onward {reads : Nat} {before : Exchanges} {p : Progress}
    (h : Reading wait reads (c.upTo cursor) es p) (hbefore : cursor ≠ none → ¬ c.Drained before) :
    Each c.Onward before es ∧ (p.1.cursor ≠ none → ¬ c.Drained (before ++ es)) := by
  generalize hc : c.upTo cursor = c₁ at h
  induction h generalizing cursor before with
  | unsettled c₁ =>
    subst hc
    exact ⟨trivial, by rwa [List.append_nil]⟩
  | settled h =>
    subst hc
    exact h.onward hbefore
  | goOn h rest ih =>
    subst hc
    obtain ⟨cursor', rfl⟩ := h.same
    obtain ⟨hfirst, hbefore'⟩ := h.onward hbefore
    obtain ⟨hlater, hafter⟩ := ih hbefore' rfl
    exact ⟨each_append.mpr ⟨hfirst, hlater⟩, by rwa [← List.append_assoc]⟩

theorem Called.onward {k : Call} {before : Exchanges} (h : (c.upTo cursor).Called k es (c', r))
    (hbefore : cursor ≠ none → ¬ c.Drained before) :
    Each c.Onward before es ∧ (c'.cursor ≠ none → ¬ c.Drained (before ++ es)) := by
  have hsettling {es : Exchanges} (hes : ∀ source x, c.reading source x ∉ es) :
      Each c.Onward before es ∧ (cursor ≠ none → ¬ c.Drained (before ++ es)) := by
    refine ⟨each_onward hes before, fun hcursor => ?_⟩
    rw [drained_append]
    exact fun h => h.elim (hbefore hcursor) (not_drained hes)
  cases h with
  | closed => exact hsettling (by simp)
  | acked d x => exact hsettling (by simp)
  | rejected d x => exact hsettling (by simp)
  | requeued d h =>
    cases h with
    | refused refused => exact hsettling (by simp)
    | retired y confirmed => exact hsettling (by simp)
  | @received wait reads es p h =>
    obtain ⟨hopen, hbefore'⟩ := hsettling
      (show ∀ source x, c.reading source x ∉ [⟨.isOpen, true⟩] by simp)
    obtain ⟨heach, hafter⟩ := h.onward hbefore'
    refine ⟨⟨hopen.1, heach⟩, ?_⟩
    rwa [List.append_cons]

end Consumer

/-! ## Stays -/

/-- The delivery that a call settles. -/
def Call.settles? : Call → Option Delivery
  | .receive .. => none
  | .ack d => some d
  | .reject d _ => some d

namespace Turn

/-- What is received, if a delivery was waited for. -/
def received? (t : Turn) : Option Consumer.Receipt :=
  match t.call with
  | .receive .. => t.receipt
  | _ => none

/-- What is sent while a delivery is waited for, besides the reads. -/
def treatment (t : Turn) : List Command :=
  match t.call with
  | .receive .. => settling t.exchanges
  | _ => []

/-- What was received over some calls. -/
def receipts (ts : List Turn) : List Consumer.Receipt := ts.filterMap received?

/-- What was delivered over some calls. -/
def deliveries (ts : List Turn) : List Delivery :=
  (receipts ts).filterMap fun r => r.toOption.join

/-- What was sent about entries that were read. -/
def treatments (ts : List Turn) : List Command := ts.flatMap treatment

end Turn

namespace Consumer

variable {c c' : Consumer} {s₀ s s' : Stream} {p : Stage} {es : Exchanges} {r : Option Receipt}

/-- A message that is moved spares what lies ahead, if the entry does. -/
theorem Moved.spares {stream id : String} {m : Message} {r : Result Unit}
    (h : Moved c stream m id es r) (hid : ∀ e ∈ p.left, e.id ≠ id) : ∀ ex ∈ es, p.Spares ex := by
  cases h with
  | refused refused => exact List.forall_mem_singleton.mpr trivial
  | retired y confirmed =>
    exact List.forall_mem_cons.mpr ⟨trivial, List.forall_mem_singleton.mpr hid⟩

/-- **How far a call leads.** What it settles must not lie ahead. -/
theorem Called.leads {k : Call} (h : (c.upTo p.cursor).Called k es (c', r))
    (served : Serving c s es s') (hp : p.Holds s₀ s)
    (own : ∀ d, k.settles? = some d → ∀ e ∈ p.left, e.id ≠ d.position.offset) :
    ∃ q : Stage, c' = c.upTo q.cursor ∧ p.Leads c s₀ s' q (Turn.mk k es r).received?.toList
      (Turn.mk k es r).treatment := by
  have hopen {b : Bool} {later : Exchanges} (hserved : Serving c s (⟨.isOpen, b⟩ :: later) s') :
      b = true ∧ ∃ s₁, p.Holds s₀ s₁ ∧ Serving c s₁ later s' := by
    obtain ⟨s₁, s₂, hothers, hanswer, hlater⟩ := hserved.split_cons
    obtain ⟨rfl, rfl⟩ := hanswer.eq_of_isOpen
    exact ⟨rfl, s₂, hp.elsewhere hothers, hlater⟩
  cases h with
  | closed => cases (hopen served).1
  | received h =>
    obtain ⟨-, s₁, hp₁, hlater⟩ := hopen served
    obtain ⟨q, hq, hleads, -⟩ := h.leads hlater hp₁
    exact ⟨q, hq, hleads⟩
  | acked d x =>
    obtain ⟨-, s₁, hp₁, hlater⟩ := hopen served
    exact ⟨p, rfl, .of_eq (hp₁.served hlater (List.forall_mem_singleton.mpr (own d rfl))) rfl⟩
  | rejected d x =>
    obtain ⟨-, s₁, hp₁, hlater⟩ := hopen served
    exact ⟨p, rfl, .of_eq (hp₁.served hlater (List.forall_mem_singleton.mpr (own d rfl))) rfl⟩
  | requeued d h =>
    obtain ⟨-, s₁, hp₁, hlater⟩ := hopen served
    exact ⟨p, rfl, .of_eq (hp₁.served hlater (h.spares (own d rfl))) rfl⟩

/-- What is delivered is what was found. -/
theorem delivered_of_receipt? {f : Find} {d : Delivery}
    (h : c.receipt? f = some (.ok (some d))) :
    ∃ e, f.brought? = some e ∧ d.position = ⟨c.topic, 0, e.id⟩ := by
  unfold receipt? at h
  split at h
  · split at h
    · cases h
      exact ⟨_, rfl, rfl⟩
    · cases h
  · split at h
    · cases h
      exact ⟨_, rfl, rfl⟩
    · cases h
  · cases h

end Consumer

namespace Stage.Holds

variable {s₀ s : Stream} {p : Stage}

/-- What was found was added in this order. -/
theorem ordered_finds (hp : p.Holds s₀ s) : (p.finds.filterMap Find.brought?).Pairwise Older := by
  have hagain : (p.passed.map Find.again).filterMap Find.brought? = p.passed := by
    rw [List.filterMap_map]
    exact List.filterMap_some
  have hordered := (List.pairwise_append.mp hp.ordered).1
  rw [hp.split] at hordered
  unfold Stage.finds
  rw [List.filterMap_append, hagain]
  exact hordered.sublist ((List.sublist_append_left _ _).append_right _)

/-- What was found does not lie ahead. -/
theorem ahead (hp : p.Holds s₀ s) {f : Find} {e : Entry} (hf : f ∈ p.finds)
    (he : f.brought? = some e) : ∀ e' ∈ p.left, e'.id ≠ e.id := by
  intro e' he'
  rcases List.mem_append.mp hf with hf | hf
  · obtain ⟨e'', he'', rfl⟩ := List.mem_map.mp hf
    cases he
    have hordered := (List.pairwise_append.mp s₀.ordered).1
    rw [hp.split] at hordered
    exact ((List.pairwise_append.mp hordered).2.2 e he'' e' he').ne.symm
  · cases hcursor : p.cursor with
    | some after =>
      rw [(hp.recovering after hcursor).1] at hf
      cases hf
    | none =>
      rw [hp.recovered hcursor] at he'
      cases he'

end Stage.Holds

/-- **A stay of a consumer that joins its group**, up to some cursor and stream. The stream is kept
by a server that fails in nothing. In any order, the consumer waits for deliveries, each time until
something is received, and settles what was delivered to it. -/
inductive Stay (c : Consumer) (s₀ : Stream) : List Turn → Option String → Stream → Prop where
  | start : Stay c s₀ [] (some "0") s₀
  | turn {ts : List Turn} {cursor cursor' : Option String} {s s' : Stream} {t : Turn}
      (before : Stay c s₀ ts cursor s)
      (own : ∀ d, t.call.settles? = some d → d ∈ Turn.deliveries ts)
      (ends : ((c.upTo cursor).call t.call).Ends t.exchanges (c.upTo cursor', t.receipt))
      (settled : t.receipt ≠ none) (served : Serving c s t.exchanges s') :
      Stay c s₀ (ts ++ [t]) cursor' s'

namespace Stay

variable {c : Consumer} {s₀ s : Stream} {ts : List Turn} {cursor : Option String}

theorem eq_ok_of_join {r : Consumer.Receipt} {d : Delivery} (h : r.toOption.join = some d) :
    r = .ok (some d) := by
  cases r with
  | error e => cases h
  | ok o => exact congrArg Except.ok h

/-- **How far the consumer has come** accounts for all that was received and sent. -/
theorem exists_stage (h : Stay c s₀ ts cursor s) :
    ∃ p : Stage, p.cursor = cursor ∧ p.Holds s₀ s ∧
      Turn.receipts ts = p.finds.filterMap c.receipt? ∧
      c.TreatsAll p.finds (Turn.treatments ts) := by
  induction h with
  | start =>
    refine ⟨⟨some "0", [], s₀.pending, []⟩, rfl, ⟨rfl, ?_, ?_, ?_, nofun, ?_⟩, rfl, .nil⟩
    · rw [List.filterMap_nil, List.append_nil]
      exact s₀.ordered
    · intro e he
      rw [List.filterMap_nil, List.append_nil] at he
      exact s₀.bounded e (List.mem_append_left _ he)
    · intro after hafter
      cases hafter
      exact ⟨rfl, s₀.rest_start⟩
    · exact fun e he => nomatch he
  | @turn ts cursor cursor' s s' t before own ends settled served ih =>
    obtain ⟨p, rfl, hp, hreceipts, htreats⟩ := ih
    -- what is settled was delivered, so it was found and does not lie ahead
    have hown : ∀ d, t.call.settles? = some d → ∀ e ∈ p.left, e.id ≠ d.position.offset := by
      intro d hd
      obtain ⟨r, hr, hdelivered⟩ := List.mem_filterMap.mp (own d hd)
      rw [hreceipts] at hr
      obtain ⟨f, hf, hreceipt⟩ := List.mem_filterMap.mp hr
      obtain rfl : r = .ok (some d) := eq_ok_of_join hdelivered
      obtain ⟨e, he, hposition⟩ := Consumer.delivered_of_receipt? hreceipt
      rw [hposition]
      exact hp.ahead hf he
    obtain ⟨q, hq, hholds, fs, hfinds, hreceived, htreated⟩ :=
      (Consumer.call_ends.mp ends).leads served hp hown
    refine ⟨q, (congrArg Consumer.cursor hq).symm, hholds, ?_, ?_⟩
    · rw [hfinds, List.filterMap_append, ← hreceipts, ← hreceived]
      exact List.filterMap_append
    · unfold Turn.treatments
      rw [hfinds, List.flatMap_append, List.flatMap_singleton]
      exact htreats.append htreated

/-- The exchanges of a stay, in order. -/
theorem onward (h : Stay c s₀ ts cursor s) :
    Each c.Onward [] (ts.flatMap Turn.exchanges) ∧
      (cursor ≠ none → ¬ c.Drained (ts.flatMap Turn.exchanges)) := by
  induction h with
  | start => exact ⟨trivial, fun _ => Consumer.not_drained (fun _ _ hmem => nomatch hmem)⟩
  | @turn ts cursor cursor' s s' t before own ends settled served ih =>
    obtain ⟨heach, hdrained⟩ := (Consumer.call_ends.mp ends).onward ih.2
    rw [List.flatMap_append, List.flatMap_singleton]
    exact ⟨each_append.mpr ⟨ih.1, heach⟩, hdrained⟩

end Stay

/-! ## What comes of a stay -/

/-- **What comes of a stay**, over which the consumer has come so far: it passes the entries that
were pending, and then takes fresh ones. -/
structure Recovers (c : Consumer) (s₀ : Stream) (ts : List Turn) (p : Stage) (s : Stream) :
    Prop where
  /-- The pending entries are passed one after the other. -/
  split : s₀.pending = p.passed ++ p.left
  /-- Nothing fresh is read as long as one of them lies ahead. -/
  first : p.left ≠ [] → p.news = []
  /-- None of them is found anew. -/
  fresh : ∀ e, .again e ∉ p.news
  /-- Everything that is found was added in this order. -/
  ordered : (p.finds.filterMap Find.brought?).Pairwise Older
  /-- This is what is received. -/
  received : Turn.receipts ts = p.finds.filterMap c.receipt?
  /-- This is what is sent about it. -/
  treated : c.TreatsAll p.finds (Turn.treatments ts)
  /-- When more was received than messages were pending, all that was pending is passed. -/
  complete : (s₀.pending.filterMap fun e => c.receipt? (.again e)).length <
    (Turn.receipts ts).length → p.left = []
  /-- Nothing is delivered twice. -/
  once : ((Turn.deliveries ts).map Delivery.position).Nodup
  /-- Pending entries are not read any more when none was found. -/
  drained : ∀ es₁ after x es₂,
    ts.flatMap Turn.exchanges = es₁ ++ c.reading (.pending after) x :: es₂ → ¬ c.Drained es₁
  /-- Waiting for a delivery can go on, and it ends: something is received when as many entries may
  be read as lie ahead, and two more. -/
  ends : ∀ wait reads, p.left.length + 2 ≤ reads →
    (∃ es c' r s', ((c.upTo p.cursor).receive wait reads).Ends es (c', some r) ∧
      Serving c s es s') ∧
    ∀ es c' s', Serving c s es s' → ¬ ((c.upTo p.cursor).receive wait reads).Ends es (c', none)

namespace Stage.Holds

variable {c : Consumer} {s₀ s : Stream} {p : Stage}

theorem news_eq_nil (hp : p.Holds s₀ s) (hleft : p.left ≠ []) : p.news = [] := by
  cases hcursor : p.cursor with
  | some after => exact (hp.recovering after hcursor).1
  | none => exact absurd (hp.recovered hcursor) hleft

/-- What is received in excess is not of what was pending. -/
theorem complete (hp : p.Holds s₀ s)
    (h : (s₀.pending.filterMap fun e => c.receipt? (.again e)).length <
      (p.finds.filterMap c.receipt?).length) : p.left = [] := by
  cases hleft : p.left with
  | nil => rfl
  | cons e left =>
    have hnews := hp.news_eq_nil (by rw [hleft]; nofun)
    unfold Stage.finds at h
    rw [hnews, List.append_nil, List.filterMap_map, hp.split, List.filterMap_append,
      List.length_append] at h
    exact absurd h (Nat.not_lt.mpr (Nat.le_add_right _ _))

/-- What was found is delivered once. -/
theorem once (hp : p.Holds s₀ s) :
    (((p.finds.filterMap c.receipt?).filterMap fun r => r.toOption.join).map
      Delivery.position).Nodup := by
  have hordered := List.pairwise_filterMap.mp hp.ordered_finds
  rw [List.Nodup, List.pairwise_map, List.pairwise_filterMap, List.pairwise_filterMap]
  refine hordered.imp fun {f f'} holder r hr r' hr' d hd d' hd' => ?_
  obtain rfl := Stay.eq_ok_of_join hd
  obtain rfl := Stay.eq_ok_of_join hd'
  obtain ⟨e, he, hposition⟩ := Consumer.delivered_of_receipt? hr
  obtain ⟨e', he', hposition'⟩ := Consumer.delivered_of_receipt? hr'
  rw [hposition, hposition']
  exact fun h => (holder e he e' he').ne (congrArg Position.offset h)

/-- **Waiting for a delivery ends.** -/
theorem ends (hp : p.Holds s₀ s) (wait : Span) {reads : Nat} (hreads : p.left.length + 2 ≤ reads) :
    (∃ es c' r s', ((c.upTo p.cursor).receive wait reads).Ends es (c', some r) ∧
      Serving c s es s') ∧
    ∀ es c' s', Serving c s es s' →
      ¬ ((c.upTo p.cursor).receive wait reads).Ends es (c', none) := by
  have henough : p.remaining ≤ reads := by
    unfold Stage.remaining
    split
    · exact hreads
    · omega
  constructor
  · obtain ⟨es, ⟨c', r⟩, s', hreading, hserved⟩ := c.exists_reading p.cursor wait reads s
    obtain ⟨q, -, -, hsettles⟩ := hreading.leads hserved hp
    obtain ⟨r, rfl⟩ := Option.ne_none_iff_exists'.mp (hsettles henough)
    exact ⟨_, c', r, s', Consumer.receive_ends.mpr (.inr ⟨es, rfl, hreading⟩),
      .answered .isOpen hserved⟩
  · intro es c' s' hserved hends
    rcases Consumer.receive_ends.mp hends with ⟨-, hclosed⟩ | ⟨es', rfl, hreading⟩
    · cases hclosed
    · obtain ⟨s₁, s₂, hothers, hanswer, hlater⟩ := hserved.split_cons
      obtain ⟨-, rfl⟩ := hanswer.eq_of_isOpen
      obtain ⟨q, -, -, hsettles⟩ := hreading.leads hlater (hp.elsewhere hothers)
      exact hsettles henough rfl

end Stage.Holds

/-- **What was handed out before is recovered**, over every stay. -/
theorem recovers {c : Consumer} {s₀ s : Stream} {ts : List Turn} {cursor : Option String}
    (h : Stay c s₀ ts cursor s) : ∃ p : Stage, p.cursor = cursor ∧ Recovers c s₀ ts p s := by
  obtain ⟨p, hcursor, hp, hreceipts, htreats⟩ := h.exists_stage
  refine ⟨p, hcursor, hp.split, hp.news_eq_nil, hp.fresh, hp.ordered_finds, hreceipts, htreats,
    fun hmore => ?_, ?_, fun es₁ after x es₂ hes => ?_, fun wait reads hreads =>
    hp.ends wait hreads⟩
  · rw [hreceipts] at hmore
    exact hp.complete hmore
  · unfold Turn.deliveries
    rw [hreceipts]
    exact hp.once
  · have heach := h.onward.1
    rw [hes] at heach
    exact heach.at after x rfl

/-! ## A restart -/

/-- An entry that is a message. -/
def resizeEntry : Entry :=
  ⟨"3-0", .ofList [(keyField, .bytes (Text.Utf8.encodeText "resize"))]⟩

/-- A stream of which everything was handed to a consumer that has ended since. -/
def leftBehind : Stream where
  pending := [trimmedEntry, keylessEntry, resizeEntry]
  fresh := []
  last := "3-0"
  ordered := by decide
  started := by decide
  bounded := by decide

/-- The message is handed out for the second time. -/
def resizeAgain : Delivery := newcomer.delivery resizeEntry ⟨"resize", [], ∅⟩ 2

/-- The first call drops an entry, reports another one and comes to the message. -/
def recoveringCall : Turn where
  call := .receive .zero 3
  exchanges := [
    ⟨.isOpen, true⟩,
    newcomer.reading (.pending "0") (.ok (trimmedEntry.reply newcomer.stream)),
    newcomer.retiring "1-0" (.ok (.int 1)),
    newcomer.reading (.pending "1-0") (.ok (keylessEntry.reply newcomer.stream)),
    ⟨.now, Instant.epoch⟩,
    ⟨.send (.add newcomer.deadLetters keylessReport), (.ok (.status "OK") : Reply)⟩,
    newcomer.retiring "2-0" (.ok (.int 1)),
    newcomer.reading (.pending "2-0") (.ok (resizeEntry.reply newcomer.stream))]
  receipt := some (.ok (some resizeAgain))

/-- The message is acknowledged. -/
def settlingCall : Turn :=
  ⟨.ack resizeAgain, [⟨.isOpen, true⟩, newcomer.retiring "3-0" (.ok (.int 1))], some (.ok none)⟩

/-- Nothing more is pending, and nothing has arrived. -/
def idleCall : Turn where
  call := .receive .zero 2
  exchanges := [
    ⟨.isOpen, true⟩,
    newcomer.reading (.pending "3-0") (.ok .nil),
    newcomer.reading (.fresh .zero) (.ok .nil)]
  receipt := some (.ok none)

/-- The stream after everything was acknowledged. -/
def settledStream : Stream := ((leftBehind.retire "1-0").retire "2-0").retire "3-0"

theorem stay_restart :
    Stay newcomer leftBehind [recoveringCall, settlingCall, idleCall] none settledStream := by
  have hreported : (newcomer.past trimmedEntry).Advanced .zero
      [newcomer.reading (.pending "1-0") (.ok (keylessEntry.reply newcomer.stream)),
        ⟨.now, Instant.epoch⟩,
        ⟨.send (.add newcomer.deadLetters keylessReport), (.ok (.status "OK") : Reply)⟩,
        newcomer.retiring "2-0" (.ok (.int 1))]
      (newcomer.upTo (some "2-0"), none) :=
    .found ((newcomer.past trimmedEntry).found_reply _ _ keylessEntry)
      (.reported .epoch not_drops_keylessEntry rfl (.retired (.ok (.int 1)) rfl))
  have hdelivered : (newcomer.upTo (some "2-0")).Advanced .zero
      [newcomer.reading (.pending "2-0") (.ok (resizeEntry.reply newcomer.stream))]
      (newcomer.upTo (some "3-0"), some (.ok (some resizeAgain))) :=
    .found ((newcomer.upTo (some "2-0")).found_reply _ _ resizeEntry) (.delivered rfl)
  have hpassed : (newcomer.upTo (some "3-0")).Advanced .zero
      [newcomer.reading (.pending "3-0") (.ok .nil)] (newcomer.upTo none, none) :=
    .empty (x := .ok .nil) rfl
  have hidle : (newcomer.upTo none).Advanced .zero
      [newcomer.reading (.fresh .zero) (.ok .nil)] (newcomer.upTo none, some (.ok none)) :=
    .empty (x := .ok .nil) rfl
  have hadded : Answers newcomer (leftBehind.retire "1-0")
      ⟨.send (.add newcomer.deadLetters keylessReport), (.ok (.status "OK") : Reply)⟩
      (leftBehind.retire "1-0") :=
    .addedElsewhere _ newcomer.deadLetters_ne_stream ⟨_, _, rfl, rfl⟩
  have hfirst : Stay newcomer leftBehind [recoveringCall] (some "3-0")
      ((leftBehind.retire "1-0").retire "2-0") := by
    refine .turn .start (fun d hd => nomatch hd) (Consumer.call_ends.mpr (.received ?_)) nofun ?_
    · exact .goOn newcomer_dropped (.goOn hreported (.settled hdelivered))
    · exact .answered .isOpen (.answered (.recalled (newcomer.found_reply _ _ trimmedEntry))
        (.answered (.retired rfl) (.answered (.recalled (newcomer.found_reply _ _ keylessEntry))
          (.answered (.now _) (.answered hadded (.answered (.retired rfl)
            (.answered (.recalled (newcomer.found_reply _ _ resizeEntry)) (.nil _))))))))
  have hsecond : Stay newcomer leftBehind [recoveringCall, settlingCall] (some "3-0")
      settledStream := by
    refine .turn hfirst (fun d hd => ?_) (Consumer.call_ends.mpr (.acked _ _)) nofun
      (.answered .isOpen (.answered (.retired rfl) (.nil _)))
    cases hd
    exact List.mem_singleton.mpr rfl
  refine .turn hsecond (fun d hd => nomatch hd) (Consumer.call_ends.mpr (.received ?_)) nofun ?_
  · exact .goOn hpassed (.settled hidle)
  · exact .answered .isOpen (.answered (.recalled rfl) (.answered (.waited rfl rfl) (.nil _)))

/-- All that was left behind is recovered. -/
theorem restart_recovers :
    Stay newcomer leftBehind [recoveringCall, settlingCall, idleCall] none settledStream ∧
      ∃ p : Stage, Recovers newcomer leftBehind [recoveringCall, settlingCall, idleCall] p
        settledStream ∧ p.left = [] := by
  obtain ⟨p, -, hp⟩ := recovers stay_restart
  exact ⟨stay_restart, p, hp, hp.complete (by decide)⟩

end TaskQueue.Redis
