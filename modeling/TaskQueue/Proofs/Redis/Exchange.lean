import TaskQueue.Proofs.Engine.Exchange
import TaskQueue.Proofs.Redis.Entry
import TaskQueue.Redis.Consumer

/-!
# What a consumer exchanges with a server

Whatever a server replies, and whenever it fails, each read of a consumer takes one of a few
courses: it fails, it finds nothing, or it finds an entry, which is then dropped, delivered or
reported. The courses say what is asked for and in which order, what is answered, and what comes
of it.

Results:

* `advance_eq`: new entries and entries that were handed out before are read alike;
* `meet_ends`, `advance_ends`: every read takes one of the courses of `Advanced`;
* `receive_ends`: waiting for a delivery is a series of reads, all but the last of which settle
  nothing;
* `ack_ends`, `reject_ends`: how a delivery is settled.
-/

namespace TaskQueue.Redis

open Engine Time Script

/-- Requests of a transport and their answers, in order. -/
abbrev Exchanges := List (Exchange Answer)

/-- What is not in a list stands after it. -/
theorem exists_append_of_not_mem {β : Type} {b : β} {front back before after : List β}
    (hb : b ∉ front) (h : front ++ back = before ++ b :: after) :
    ∃ rest, before = front ++ rest ∧ back = rest ++ b :: after := by
  rcases List.append_eq_append_iff.mp h with ⟨rest, rfl, hrest⟩ | ⟨rest, rfl, hrest⟩
  · exact ⟨rest, rfl, hrest⟩
  · cases rest with
    | nil => exact ⟨[], by simp, hrest.symm⟩
    | cons b' rest =>
      obtain ⟨rfl, -⟩ := List.cons.inj hrest
      exact absurd (List.mem_append_right _ List.mem_cons_self) hb

/-- A property of each of some exchanges, given those before it. -/
def Each (P : Exchanges → Exchange Answer → Prop) : (before : Exchanges) → Exchanges → Prop
  | _, [] => True
  | before, ex :: es => P before ex ∧ Each P (before ++ [ex]) es

section

variable {P : Exchanges → Exchange Answer → Prop} {before es es' : Exchanges} {ex : Exchange Answer}

theorem each_append : Each P before (es ++ es') ↔ Each P before es ∧ Each P (before ++ es) es' := by
  induction es generalizing before with
  | nil =>
    rw [List.append_nil]
    exact ⟨fun h => ⟨trivial, h⟩, And.right⟩
  | cons ex es ih =>
    rw [List.cons_append, Each, Each, ih, and_assoc, List.append_assoc]
    rfl

theorem Each.at (h : Each P before (es ++ ex :: es')) : P (before ++ es) ex :=
  (each_append.mp h).2.1

theorem Each.imp {Q : Exchanges → Exchange Answer → Prop} (h : Each P before es)
    (hPQ : ∀ before ex, P before ex → Q before ex) : Each Q before es := by
  induction es generalizing before with
  | nil => trivial
  | cons ex es ih => exact ⟨hPQ _ _ h.1, ih h.2⟩

end

variable {α : Type} {c : Consumer} {es : Exchanges} {stream id : String} {m : Message} {wait : Span}

/-! ## Commands -/

/-- What the reply to a command comes to. -/
def answered (c : Command) (read : Datum → Except ReplyError α) : Reply → Result α
  | .error e => .error (commandError c (.server e))
  | .ok d => (read d).mapError (commandError c)

/-- What the reply to an added message comes to. -/
def added (stream : String) (m : Message) (x : Reply) : Result Unit :=
  (answered (.add stream m) Datum.text x).map fun _ => ()

/-- The reply tells that a message was added: it is the text of an id. -/
def Reply.Confirms (x : Reply) : Prop := ∃ d s, x = .ok d ∧ d.text = .ok s

theorem added_eq_ok_iff {x : Reply} : added stream m x = .ok () ↔ x.Confirms := by
  unfold added answered Reply.Confirms
  cases x with
  | error e => exact ⟨nofun, fun ⟨d, s, hd, _⟩ => nomatch hd⟩
  | ok d =>
    dsimp only
    cases hs : d.text with
    | error e =>
      refine ⟨nofun, ?_⟩
      rintro ⟨d', s, hd, hs'⟩
      rw [← Except.ok.inj hd, hs] at hs'
      cases hs'
    | ok s => exact ⟨fun _ => ⟨d, s, rfl, hs⟩, fun _ => rfl⟩

theorem call_ends {cmd : Command} {read : Datum → Except ReplyError α} {r : Result α} :
    (call cmd read).Ends es r ↔ ∃ x : Reply, es = [⟨.send cmd, x⟩] ∧ r = answered cmd read x := by
  have hcall : call cmd read = .ask (.send cmd) fun x => .done (answered cmd read x) := by
    refine congrArg (Script.ask (Request.send cmd)) (funext fun x => ?_)
    cases x with
    | error e => rfl
    | ok d => rfl
  rw [hcall, ends_ask_iff]
  constructor
  · rintro ⟨x, es', rfl, h⟩
    obtain ⟨rfl, rfl⟩ := ends_done_iff.mp h
    exact ⟨x, rfl, rfl⟩
  · rintro ⟨x, rfl, rfl⟩
    exact ⟨x, [], rfl, .done _⟩

/-- Something is made of the result of a command. -/
theorem map_call_ends {β : Type} {cmd : Command} {read : Datum → Except ReplyError α}
    {f : Result α → β} {b : β} :
    (call cmd read >>= fun r => .done (f r)).Ends es b ↔
      ∃ x : Reply, es = [⟨.send cmd, x⟩] ∧ b = f (answered cmd read x) := by
  rw [ends_bind_iff]
  constructor
  · rintro ⟨es₁, es₂, r, rfl, h₁, h₂⟩
    obtain ⟨x, rfl, rfl⟩ := call_ends.mp h₁
    obtain ⟨rfl, rfl⟩ := ends_done_iff.mp h₂
    exact ⟨x, rfl, rfl⟩
  · rintro ⟨x, rfl, rfl⟩
    exact ⟨_, [], _, rfl, call_ends.mpr ⟨x, rfl, rfl⟩, .done _⟩

theorem append_ends {r : Result Unit} :
    (append stream m).Ends es r ↔
      ∃ x : Reply, es = [⟨.send (.add stream m), x⟩] ∧ r = added stream m x :=
  map_call_ends

namespace Consumer

/-- What the reply to a read comes to. -/
def found (c : Consumer) (source : Source) (x : Reply) : Result (Option Entry) :=
  answered (.read c.stream c.group c.config.consumer source) Entry.firstOf? x

theorem found_reply (c : Consumer) (source : Source) (stream : String) (e : Entry) :
    c.found source (.ok (e.reply stream)) = .ok (some e) := by
  unfold found answered
  dsimp only
  rw [Entry.firstOf?_reply]
  rfl

/-- What the reply to an acknowledgement comes to. -/
def retired (c : Consumer) (id : String) (x : Reply) : Result Unit :=
  (answered (.ack c.stream c.group id) Datum.number x).map fun _ => ()

/-- A read and its reply. -/
abbrev reading (c : Consumer) (source : Source) (x : Reply) : Exchange Answer :=
  ⟨.send (.read c.stream c.group c.config.consumer source), x⟩

/-- An acknowledgement and its reply. -/
abbrev retiring (c : Consumer) (id : String) (x : Reply) : Exchange Answer :=
  ⟨.send (.ack c.stream c.group id), x⟩

theorem retire_ends {r : Result Unit} :
    (c.retire id).Ends es r ↔ ∃ x : Reply, es = [c.retiring id x] ∧ r = c.retired id x :=
  map_call_ends

/-- A message was to be added to a stream; if it was, an entry was acknowledged. -/
inductive Moved (c : Consumer) (stream : String) (m : Message) (id : String) :
    Exchanges → Result Unit → Prop where
  | refused {x : Reply} {e : TransportError} (refused : added stream m x = .error e) :
      Moved c stream m id [⟨.send (.add stream m), x⟩] (.error e)
  | retired {x : Reply} (y : Reply) (confirmed : added stream m x = .ok ()) :
      Moved c stream m id [⟨.send (.add stream m), x⟩, c.retiring id y] (c.retired id y)

theorem moveTo_ends {r : Result Unit} :
    (c.moveTo stream m id).Ends es r ↔ Moved c stream m id es r := by
  constructor
  · intro h
    obtain ⟨es₁, es₂, r₁, rfl, h₁, h₂⟩ := ends_bind_iff.mp h
    obtain ⟨x, rfl, rfl⟩ := append_ends.mp h₁
    cases hx : added stream m x with
    | error e =>
      rw [hx] at h₂
      obtain ⟨rfl, rfl⟩ := ends_done_iff.mp h₂
      exact .refused hx
    | ok u =>
      rw [hx] at h₂
      obtain ⟨y, rfl, rfl⟩ := retire_ends.mp h₂
      exact .retired y hx
  · intro h
    cases h with
    | refused refused =>
      exact ends_bind_iff.mpr ⟨_, [], _, rfl, append_ends.mpr ⟨_, rfl, refused.symm⟩, .done _⟩
    | retired y confirmed =>
      exact ends_bind_iff.mpr ⟨[_], [_], _, rfl, append_ends.mpr ⟨_, rfl, confirmed.symm⟩,
        retire_ends.mpr ⟨y, rfl, rfl⟩⟩

theorem deadLetter_ends {e : Entry} {error : TransportError} {r : Result Unit} :
    (c.deadLetter e error).Ends es r ↔ ∃ now es', es = ⟨.now, now⟩ :: es' ∧
      Moved c c.deadLetters (e.report c.topic error now) e.id es' r :=
  ends_ask_iff.trans <| exists₂_congr fun _ _ => and_congr_right fun _ => moveTo_ends

/-! ## Reads -/

/-- Where the next entry is read. -/
def source (c : Consumer) (wait : Span) : Source :=
  match c.cursor with
  | some after => .pending after
  | none => .fresh wait

/-- The consumer past an entry that it has read. -/
def past (c : Consumer) (e : Entry) : Consumer := { c with cursor := c.cursor.map fun _ => e.id }

/-- How often an entry that is delivered is taken to have been handed out. -/
def handOuts (c : Consumer) : UInt32 :=
  match c.cursor with
  | some _ => 2
  | none => 1

/-- What is received when a read has found no message: nothing, or that is not settled yet. -/
def unmet (c : Consumer) : Option Receipt :=
  match c.cursor with
  | some _ => none
  | none => some (.ok none)

/-- What is received after something that may have failed. -/
def unlessFailed (r : Result Unit) (rest : Option Receipt) : Option Receipt :=
  match r with
  | .ok () => rest
  | .error e => some (.error e)

/-- Nothing is left of an entry that was handed out before. -/
def Drops (c : Consumer) (e : Entry) : Prop := c.cursor ≠ none ∧ e.isTrimmed = true

instance (c : Consumer) (e : Entry) : Decidable (c.Drops e) := instDecidableAnd

/-- What is done about an entry that was read. -/
def meet (c : Consumer) (e : Entry) : Program Progress :=
  if c.Drops e then do return (c.past e, unlessFailed (← c.retire e.id) none)
  else
    match e.message with
    | .ok m => .done (c.past e, some (.ok (some (c.delivery e m c.handOuts))))
    | .error error => do return (c.past e, unlessFailed (← c.deadLetter e error) c.unmet)

/-- What is done about what a read comes to. -/
def meetAll (c : Consumer) : Result (Option Entry) → Program Progress
  | .error e => .done (c, some (.error e))
  | .ok none => .done ({ c with cursor := none }, c.unmet)
  | .ok (some e) => c.meet e

/-- **A new entry and one that was handed out before are read alike.** -/
theorem advance_eq : c.advance wait = c.read (c.source wait) >>= c.meetAll := by
  obtain ⟨config, topic, group, cursor⟩ := c
  cases cursor with
  | some after =>
    refine congrArg (Bind.bind _) (funext fun r => ?_)
    match r with
    | .error e => rfl
    | .ok none => rfl
    | .ok (some e) =>
      dsimp only [meetAll, meet]
      cases htrimmed : e.isTrimmed with
      | true =>
        rw [if_pos rfl, if_pos ⟨nofun, htrimmed⟩]
        refine congrArg (Bind.bind _) (funext fun r => ?_)
        cases r with
        | ok u => rfl
        | error e => rfl
      | false =>
        rw [if_neg nofun, if_neg fun h => Bool.false_ne_true (htrimmed.symm.trans h.2)]
        cases e.message with
        | ok m => rfl
        | error error =>
          refine congrArg (Bind.bind _) (funext fun r => ?_)
          cases r with
          | ok u => rfl
          | error e => rfl
  | none =>
    -- a new entry is met before its receipt is paired with the consumer
    refine (Script.bind_assoc _ _ _).trans (congrArg (Bind.bind _) (funext fun r => ?_))
    match r with
    | .error e => rfl
    | .ok none => rfl
    | .ok (some e) =>
      dsimp only [meetAll, meet]
      rw [if_neg fun h => h.1 rfl]
      cases e.message with
      | ok m => rfl
      | error error =>
        refine (Script.bind_assoc _ _ _).trans (congrArg (Bind.bind _) (funext fun r => ?_))
        cases r with
        | ok u => rfl
        | error e => rfl

/-- Only what was handed out before is dropped. -/
theorem Drops.exists_source {e : Entry} (h : c.Drops e) (wait : Span) :
    ∃ after, c.source wait = .pending after := by
  obtain ⟨after, hafter⟩ := Option.ne_none_iff_exists'.mp h.1
  refine ⟨after, ?_⟩
  unfold source
  rw [hafter]

/-- What may be done about an entry that was read. -/
inductive Meeting (c : Consumer) (e : Entry) : Exchanges → Progress → Prop where
  | dropped (y : Reply) (drops : c.Drops e) :
      Meeting c e [c.retiring e.id y] (c.past e, unlessFailed (c.retired e.id y) none)
  | delivered {m : Message} (read : e.message = .ok m) :
      Meeting c e [] (c.past e, some (.ok (some (c.delivery e m c.handOuts))))
  /-- The entry is no message, and is told so among the dead letters. -/
  | reported {error : TransportError} (now : Instant) {es : Exchanges} {r : Result Unit}
      (kept : ¬ c.Drops e) (unread : e.message = .error error)
      (moved : Moved c c.deadLetters (e.report c.topic error now) e.id es r) :
      Meeting c e (⟨.now, now⟩ :: es) (c.past e, unlessFailed r c.unmet)

/-- **The courses that a read may take.** -/
inductive Advanced (c : Consumer) (wait : Span) : Exchanges → Progress → Prop where
  | failed {x : Reply} {e : TransportError} (found : c.found (c.source wait) x = .error e) :
      Advanced c wait [c.reading (c.source wait) x] (c, some (.error e))
  | empty {x : Reply} (found : c.found (c.source wait) x = .ok none) :
      Advanced c wait [c.reading (c.source wait) x] ({ c with cursor := none }, c.unmet)
  | found {x : Reply} {e : Entry} {es : Exchanges} {p : Progress}
      (found : c.found (c.source wait) x = .ok (some e)) (meeting : Meeting c e es p) :
      Advanced c wait (c.reading (c.source wait) x :: es) p

/-- A message is delivered, since it is not trimmed. -/
theorem not_drops_of_message {e : Entry} (hm : e.message = .ok m) : ¬ c.Drops e := by
  intro h
  obtain ⟨error, herror⟩ := e.message_of_isTrimmed h.2
  rw [hm] at herror
  cases herror

theorem meet_ends {e : Entry} {p : Progress} : (c.meet e).Ends es p ↔ Meeting c e es p := by
  constructor
  · intro h
    unfold meet at h
    split at h
    · next hdrops =>
      obtain ⟨es₁, es₂, r, rfl, h₁, h₂⟩ := ends_bind_iff.mp h
      obtain ⟨y, rfl, rfl⟩ := retire_ends.mp h₁
      obtain ⟨rfl, rfl⟩ := ends_done_iff.mp h₂
      exact .dropped y hdrops
    · next hdrops =>
      cases hm : e.message with
      | ok m =>
        rw [hm] at h
        obtain ⟨rfl, rfl⟩ := ends_done_iff.mp h
        exact .delivered hm
      | error error =>
        rw [hm] at h
        obtain ⟨es₁, es₂, r, rfl, h₁, h₂⟩ := ends_bind_iff.mp h
        obtain ⟨now, es', rfl, hmoved⟩ := deadLetter_ends.mp h₁
        obtain ⟨rfl, rfl⟩ := ends_done_iff.mp h₂
        rw [List.append_nil]
        exact .reported now hdrops hm hmoved
  · intro h
    unfold meet
    cases h with
    | dropped y drops =>
      rw [if_pos drops]
      exact ends_bind_iff.mpr ⟨_, [], _, rfl, retire_ends.mpr ⟨y, rfl, rfl⟩, .done _⟩
    | delivered read =>
      rw [if_neg (not_drops_of_message read), read]
      exact .done _
    | reported now kept unread moved =>
      rw [if_neg kept, unread]
      exact ends_bind_iff.mpr ⟨_, [], _, (List.append_nil _).symm,
        deadLetter_ends.mpr ⟨now, _, rfl, moved⟩, .done _⟩

/-- **Every read takes one of the courses**, and may take each of them. -/
theorem advance_ends {p : Progress} : (c.advance wait).Ends es p ↔ Advanced c wait es p := by
  rw [advance_eq]
  constructor
  · intro h
    obtain ⟨es₁, es₂, r, rfl, h₁, h₂⟩ := ends_bind_iff.mp h
    obtain ⟨x, rfl, hr⟩ := call_ends.mp h₁
    match r, hr.symm, h₂ with
    | .error e, hr, h₂ =>
      obtain ⟨rfl, rfl⟩ := ends_done_iff.mp h₂
      exact .failed hr
    | .ok none, hr, h₂ =>
      obtain ⟨rfl, rfl⟩ := ends_done_iff.mp h₂
      exact .empty hr
    | .ok (some e), hr, h₂ => exact .found hr (meet_ends.mp h₂)
  · have hread {x : Reply} {r : Result (Option Entry)} {es' : Exchanges}
        (found : c.found (c.source wait) x = r) (hmeet : (c.meetAll r).Ends es' p) :
        (c.read (c.source wait) >>= c.meetAll).Ends (c.reading (c.source wait) x :: es') p :=
      ends_bind_iff.mpr ⟨[_], es', r, rfl, call_ends.mpr ⟨x, rfl, found.symm⟩, hmeet⟩
    intro h
    cases h with
    | failed found => exact hread found (.done _)
    | empty found => exact hread found (.done _)
    | found found meeting => exact hread found (meet_ends.mpr meeting)

theorem Meeting.same {e : Entry} {p : Progress} (h : Meeting c e es p) : p.1 = c.past e := by
  cases h with
  | dropped | delivered | reported => rfl

/-- A read leaves the consumer as it was but for how far it has read. -/
theorem Advanced.same {c' : Consumer} {r : Option Receipt} (h : Advanced c wait es (c', r)) :
    ∃ cursor, c' = { c with cursor } := by
  cases h with
  | failed found => exact ⟨c.cursor, rfl⟩
  | empty found => exact ⟨none, rfl⟩
  | found found meeting => exact ⟨_, meeting.same⟩

/-- No entry is read about another one. -/
theorem Meeting.not_reading {e : Entry} {p : Progress} (h : Meeting c e es p) (source : Source)
    (x : Reply) : c.reading source x ∉ es := by
  cases h with
  | dropped y drops => simp
  | delivered read => simp
  | reported now kept unread moved =>
    cases moved with
    | refused refused => simp
    | retired y confirmed => simp

/-- A consumer asks for an entry first, and then reads no other. -/
theorem Advanced.eq_cons {p : Progress} (h : Advanced c wait es p) :
    ∃ x later, es = c.reading (c.source wait) x :: later ∧
      ∀ source' x', c.reading source' x' ∉ later := by
  cases h with
  | failed found => exact ⟨_, _, rfl, fun _ _ => List.not_mem_nil⟩
  | empty found => exact ⟨_, _, rfl, fun _ _ => List.not_mem_nil⟩
  | found found meeting => exact ⟨_, _, rfl, meeting.not_reading⟩

/-- What becomes of a read shows in what it has found. -/
theorem Advanced.of_reading {source : Source} {x : Reply} {p : Progress}
    (h : Advanced c wait (c.reading source x :: es) p) :
    match c.found source x with
    | .error e => es = [] ∧ p = (c, some (.error e))
    | .ok none => es = [] ∧ p = ({ c with cursor := none }, c.unmet)
    | .ok (some e) => Meeting c e es p := by
  generalize hes : c.reading source x :: es = es' at h
  cases h with
  | failed found | empty found =>
    obtain ⟨hxy, rfl⟩ := List.cons.inj hes
    cases hxy
    rw [found]
    exact ⟨rfl, rfl⟩
  | found found meeting =>
    obtain ⟨hxy, rfl⟩ := List.cons.inj hes
    cases hxy
    rw [found]
    exact meeting

/-- A read that finds nothing. -/
theorem Advanced.of_none {source : Source} {x : Reply} {c' : Consumer} {r : Option Receipt}
    (h : Advanced c wait (c.reading source x :: es) (c', r))
    (found : c.found source x = .ok none) :
    es = [] ∧ c' = { c with cursor := none } ∧ r = c.unmet := by
  have := h.of_reading
  rw [found] at this
  obtain ⟨rfl, hp⟩ := this
  cases hp
  exact ⟨rfl, rfl, rfl⟩

/-- A read that finds an entry meets it. -/
theorem Advanced.of_some {source : Source} {x : Reply} {e : Entry} {p : Progress}
    (h : Advanced c wait (c.reading source x :: es) p)
    (found : c.found source x = .ok (some e)) : Meeting c e es p := by
  have := h.of_reading
  rwa [found] at this

/-! ## Calls -/

/-- A series of at most so many reads, of which only the last may settle what is received. -/
inductive Reading (wait : Span) : Nat → Consumer → Exchanges → Progress → Prop where
  | unsettled (c : Consumer) : Reading wait 0 c [] (c, none)
  | settled {c c' : Consumer} {es : Exchanges} {r : Receipt} {reads : Nat}
      (h : Advanced c wait es (c', some r)) : Reading wait (reads + 1) c es (c', some r)
  | goOn {c c' : Consumer} {es es' : Exchanges} {p : Progress} {reads : Nat}
      (h : Advanced c wait es (c', none)) (rest : Reading wait reads c' es' p) :
      Reading wait (reads + 1) c (es ++ es') p

theorem advanceUpTo_ends {reads : Nat} {p : Progress} :
    (advanceUpTo wait reads c).Ends es p ↔ Reading wait reads c es p := by
  constructor
  · intro h
    induction reads generalizing c es with
    | zero =>
      obtain ⟨rfl, rfl⟩ := ends_done_iff.mp h
      exact .unsettled c
    | succ reads ih =>
      obtain ⟨es₁, es₂, ⟨c', r⟩, rfl, h₁, h₂⟩ := ends_bind_iff.mp h
      cases r with
      | none => exact .goOn (advance_ends.mp h₁) (ih h₂)
      | some r =>
        obtain ⟨rfl, rfl⟩ := ends_done_iff.mp h₂
        rw [List.append_nil]
        exact .settled (advance_ends.mp h₁)
  · intro h
    induction h with
    | unsettled c => exact .done _
    | settled h =>
      exact ends_bind_iff.mpr ⟨_, [], _, (List.append_nil _).symm, advance_ends.mpr h, .done _⟩
    | goOn h rest ih => exact ends_bind_iff.mpr ⟨_, _, _, rfl, advance_ends.mpr h, ih⟩

/-- Something is done unless the transport is closed. -/
theorem whileOpen_ends {next : Program (Result α)} {r : Result α} :
    (whileOpen next).Ends es r ↔
      (es = [⟨.isOpen, false⟩] ∧ r = .error .closed) ∨
        ∃ es', es = ⟨.isOpen, true⟩ :: es' ∧ next.Ends es' r := by
  constructor
  · intro h
    obtain ⟨x, es', rfl, hnext⟩ := ends_ask_iff.mp h
    cases x with
    | false =>
      obtain ⟨rfl, rfl⟩ := ends_done_iff.mp hnext
      exact .inl ⟨rfl, rfl⟩
    | true => exact .inr ⟨es', rfl, hnext⟩
  · rintro (⟨rfl, rfl⟩ | ⟨es', rfl, hnext⟩)
    · exact ends_ask_iff.mpr ⟨false, [], rfl, .done _⟩
    · exact ends_ask_iff.mpr ⟨true, es', rfl, hnext⟩

/-- **Waiting for a delivery** is a series of reads, unless the transport is closed. -/
theorem receive_ends {reads : Nat} {p : Progress} :
    (c.receive wait reads).Ends es p ↔
      (es = [⟨.isOpen, false⟩] ∧ p = (c, some (.error .closed))) ∨
        ∃ es', es = ⟨.isOpen, true⟩ :: es' ∧ Reading wait reads c es' p := by
  constructor
  · intro h
    obtain ⟨x, es', rfl, hnext⟩ := ends_ask_iff.mp h
    cases x with
    | false =>
      obtain ⟨rfl, rfl⟩ := ends_done_iff.mp hnext
      exact .inl ⟨rfl, rfl⟩
    | true => exact .inr ⟨es', rfl, advanceUpTo_ends.mp hnext⟩
  · rintro (⟨rfl, rfl⟩ | ⟨es', rfl, hreading⟩)
    · exact ends_ask_iff.mpr ⟨false, [], rfl, .done _⟩
    · exact ends_ask_iff.mpr ⟨true, es', rfl, advanceUpTo_ends.mpr hreading⟩

theorem ack_ends {d : Delivery} {r : Result Unit} :
    (c.ack d).Ends es r ↔
      (es = [⟨.isOpen, false⟩] ∧ r = .error .closed) ∨
        ∃ es', es = ⟨.isOpen, true⟩ :: es' ∧
          ∃ x, es' = [c.retiring d.position.offset x] ∧ r = c.retired d.position.offset x := by
  unfold ack
  rw [whileOpen_ends]
  simp only [retire_ends]

theorem reject_ends {d : Delivery} {requeue : Bool} {r : Result Unit} :
    (c.reject d requeue).Ends es r ↔
      (es = [⟨.isOpen, false⟩] ∧ r = .error .closed) ∨
        ∃ es', es = ⟨.isOpen, true⟩ :: es' ∧
          if requeue then Moved c c.stream d.message d.position.offset es' r
          else ∃ x, es' = [c.retiring d.position.offset x] ∧
            r = c.retired d.position.offset x := by
  unfold reject
  rw [whileOpen_ends]
  cases requeue with
  | true => simp only [if_true, moveTo_ends]
  | false => simp only [Bool.false_eq_true, if_false, retire_ends]

end Consumer

end TaskQueue.Redis
