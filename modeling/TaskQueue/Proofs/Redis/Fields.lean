import TaskQueue.Proofs.Redis.Exchange

/-!
# What becomes of the fields of an entry

A consumer reads three fields of an entry: the key, the payload and the headers. The entry is then
delivered as a message, reported among the dead letters, or dropped if it has no field at all. What
an entry says is lost when a field that it has cannot be read, as when its bytes are no text: the
field is then taken to be absent. This is all that is ever lost.

Results:

* `Fated.keeps_iff`: a field is kept, whatever becomes of the entry, exactly when it can be read;
* `Reading.met`: **every entry that is read is delivered, reported or dropped**;
* `kept_iff_readable`: both, for the entries that are read while a delivery is waited for;
* `unreadable_headers_lost`: headers that cannot be read are lost.
-/

namespace TaskQueue.Redis

open Engine Time Script

/-! ## Fields -/

/-- What an entry says of a message. -/
inductive Field where
  | key
  | payload
  | headers
  deriving DecidableEq

namespace Field

/-- The name under which an entry has it. -/
def name : Field → String
  | key => keyField
  | payload => payloadField
  | headers => headersField

/-- The datum can be read for what the field should be: a text, or bytes. -/
def Reads : Field → Datum → Prop
  | payload, d => ∃ bs, d.payload? = some bs
  | _, d => ∃ s, d.text = .ok s

end Field

namespace Entry

/-- The field can be read, if the entry has it. -/
def Reads (e : Entry) (f : Field) : Prop := ∀ d, e.fields.get? f.name = some d → f.Reads d

end Entry

/-! ## What becomes of an entry -/

/-- What becomes of an entry that was read. -/
inductive Fate where
  | delivered (m : Message)
  /-- It is no message, and is reported with this record. -/
  | reported (m : Message)
  /-- Nothing is left of it. -/
  | dropped

namespace Fate

/-- **What the entry says in a field is kept.** A message says it, where an absent payload is empty
and absent headers are none; a record repeats it as it is; and nothing is dropped that says
anything. -/
def Keeps (e : Entry) : Field → Fate → Prop
  | .key, delivered m => ∃ d, e.fields.get? keyField = some d ∧ d.text = .ok m.key
  | .payload, delivered m =>
    match e.fields.get? payloadField with
    | some d => d.payload? = some m.payload
    | none => m.payload = []
  | .headers, delivered m =>
    match e.fields.get? headersField with
    | some d => ∃ raw, d.text = .ok raw ∧ Entry.readHeaders raw = .ok m.headers
    | none => m.headers = ∅
  | .key, reported m => ∀ d, e.fields.get? keyField = some d → d.text = .ok m.key
  | .payload, reported m => ∀ d, e.fields.get? payloadField = some d → d.payload? = some m.payload
  | .headers, reported m => ∀ d, e.fields.get? headersField = some d →
      ∃ raw, d.text = .ok raw ∧ m.header? Header.rawHeaders = some raw
  | f, dropped => e.fields.get? f.name = none

/-- What becomes of an entry shows in what a consumer does next, and in what is received at last. -/
inductive Met (c : Consumer) (e : Entry) :
    Source → Exchanges → Option Consumer.Receipt → Fate → Prop where
  | delivered (source : Source) (m : Message) (count : UInt32) :
      Met c e source [] (some (.ok (some (c.delivery e m count)))) (.delivered m)
  | reported (source : Source) (m : Message) (now : Instant) (x : Reply) (es : Exchanges)
      (r : Option Consumer.Receipt) :
      Met c e source (⟨.now, now⟩ :: ⟨.send (.add c.deadLetters m), x⟩ :: es) r (.reported m)
  /-- New entries are not dropped. -/
  | dropped (after : String) (x : Reply) (es : Exchanges) (r : Option Consumer.Receipt) :
      Met c e (.pending after) (c.retiring e.id x :: es) r .dropped

/-- How far the consumer has read has no part in it. -/
theorem Met.of_cursor {c : Consumer} {cursor : Option String} {e : Entry} {source : Source}
    {es : Exchanges} {r : Option Consumer.Receipt} {fate : Fate}
    (h : Met { c with cursor } e source es r fate) : Met c e source es r fate := by
  cases h with
  | delivered _ m count => exact .delivered _ m count
  | reported _ m now x es r => exact .reported _ m now x es r
  | dropped after x es r => exact .dropped after x es r

end Fate

/-- What may become of an entry by what it is. -/
inductive Fated (topic : String) (e : Entry) : Fate → Prop where
  | delivered {m : Message} (read : e.message = .ok m) : Fated topic e (.delivered m)
  | reported {error : TransportError} (now : Instant) (unread : e.message = .error error) :
      Fated topic e (.reported (e.report topic error now))
  | dropped (trimmed : e.isTrimmed = true) : Fated topic e .dropped

section

variable {topic : String} {e : Entry} {f : Field} {fate : Fate} {d : Datum}

theorem reads_of_none (h : e.fields.get? f.name = none) : e.Reads f := by
  intro d hd
  rw [h] at hd
  cases hd

theorem reads_iff (h : e.fields.get? f.name = some d) : e.Reads f ↔ f.Reads d := by
  constructor
  · exact fun hr => hr d h
  · intro hr d' hd'
    rw [h] at hd'
    rwa [← Option.some.inj hd']

/-- A message keeps what can be read. -/
theorem keeps_delivered_iff {m : Message} (hm : e.message = .ok m) :
    (Fate.delivered m).Keeps e f ↔ e.Reads f := by
  obtain ⟨hkey, hpayload, hheaders⟩ := Entry.message_eq_ok_iff.mp hm
  cases f with
  | key =>
    obtain ⟨d, hd, ht⟩ := Entry.text?_eq_some_iff.mp hkey
    have hr : Field.key.Reads d := ⟨m.key, ht⟩
    exact iff_of_true ⟨d, hd, ht⟩ ((reads_iff (f := .key) hd).mpr hr)
  | payload =>
    unfold Fate.Keeps
    rw [Entry.payload?_eq] at hpayload
    cases hd : e.fields.get? payloadField with
    | none =>
      rw [hd] at hpayload
      exact iff_of_true hpayload (reads_of_none (f := .payload) hd)
    | some d =>
      rw [hd] at hpayload
      rw [reads_iff (f := .payload) hd]
      change d.payload? = some m.payload ↔ ∃ bs, d.payload? = some bs
      rw [Option.bind_some] at hpayload
      cases hp : d.payload? with
      | none => exact iff_of_false nofun (fun ⟨_, h⟩ => nomatch h)
      | some bs =>
        rw [hp] at hpayload
        exact iff_of_true (congrArg some hpayload.symm) ⟨bs, rfl⟩
  | headers =>
    unfold Fate.Keeps
    unfold Entry.headers at hheaders
    cases hd : e.fields.get? headersField with
    | none =>
      rw [Entry.text?_eq_none hd] at hheaders
      exact iff_of_true (Except.ok.inj hheaders).symm (reads_of_none (f := .headers) hd)
    | some d =>
      rw [Entry.text?_eq hd] at hheaders
      rw [reads_iff (f := .headers) hd]
      change (∃ raw, d.text = .ok raw ∧ _) ↔ ∃ s, d.text = .ok s
      cases ht : d.text with
      | error error => exact iff_of_false (fun ⟨_, h, _⟩ => nomatch h) (fun ⟨_, h⟩ => nomatch h)
      | ok raw =>
        rw [ht] at hheaders
        exact iff_of_true ⟨raw, rfl, hheaders⟩ ⟨raw, rfl⟩

/-- A report keeps what can be read. -/
theorem keeps_reported_iff (e : Entry) (f : Field) (topic : String) (error : TransportError)
    (now : Instant) : (Fate.reported (e.report topic error now)).Keeps e f ↔ e.Reads f := by
  cases f with
  | key =>
    unfold Fate.Keeps Entry.Reads
    refine forall₂_congr fun d hd => ?_
    rw [Entry.key_report, Entry.text?_eq hd]
    change _ ↔ ∃ s, d.text = .ok s
    cases d.text with
    | error error => exact iff_of_false nofun (fun ⟨_, h⟩ => nomatch h)
    | ok s => exact iff_of_true rfl ⟨s, rfl⟩
  | payload =>
    unfold Fate.Keeps Entry.Reads
    refine forall₂_congr fun d hd => ?_
    have hd : e.fields.get? payloadField = some d := hd
    rw [Entry.payload_report, Entry.payload?_eq, hd, Option.bind_some]
    change _ ↔ ∃ bs, d.payload? = some bs
    cases d.payload? with
    | none => exact iff_of_false nofun (fun ⟨_, h⟩ => nomatch h)
    | some bs => exact iff_of_true rfl ⟨bs, rfl⟩
  | headers =>
    unfold Fate.Keeps Entry.Reads
    refine forall₂_congr fun d hd => ?_
    rw [Entry.rawHeaders_report, Entry.text?_eq hd]
    change _ ↔ ∃ s, d.text = .ok s
    cases d.text with
    | error error => exact iff_of_false (fun ⟨_, h, _⟩ => nomatch h) (fun ⟨_, h⟩ => nomatch h)
    | ok raw => exact iff_of_true ⟨raw, rfl, rfl⟩ ⟨raw, rfl⟩

/-- **A field is kept exactly when it can be read**, whatever becomes of the entry. -/
theorem Fated.keeps_iff (h : Fated topic e fate) (f : Field) : fate.Keeps e f ↔ e.Reads f := by
  cases h with
  | delivered read => exact keeps_delivered_iff read
  | reported now unread => exact keeps_reported_iff e f topic _ now
  | dropped trimmed =>
    have hnone := Entry.get?_of_isTrimmed trimmed f.name
    cases f with
    | key => exact iff_of_true hnone (reads_of_none hnone)
    | payload => exact iff_of_true hnone (reads_of_none hnone)
    | headers => exact iff_of_true hnone (reads_of_none hnone)

end

/-! ## Entries that are read while a delivery is waited for -/

namespace Consumer

variable {c : Consumer} {wait : Span} {es es₁ es₂ : Exchanges} {p : Progress} {source : Source}
  {x : Reply} {e : Entry}

/-- What becomes of an entry that was read. When that settles what is received, nothing follows. -/
theorem Meeting.met {r r' : Option Receipt} {c' : Consumer} {later : Exchanges} (wait : Span)
    (es' : Exchanges) (h : Meeting c e later (c', r)) (hr : r = none ∨ es' = [] ∧ r' = r) :
    ∃ fate, Fated c.topic e fate ∧ Fate.Met c e (c.source wait) (later ++ es') r' fate := by
  cases h with
  | dropped y drops =>
    obtain ⟨after, hsource⟩ := drops.exists_source wait
    rw [hsource]
    exact ⟨_, .dropped drops.2, .dropped _ _ _ _⟩
  | delivered read =>
    obtain ⟨rfl, rfl⟩ := hr.resolve_left nofun
    exact ⟨_, .delivered read, .delivered _ _ _⟩
  | reported now kept unread moved =>
    cases moved with
    | refused refused => exact ⟨_, .reported _ unread, .reported _ _ _ _ _ _⟩
    | retired y confirmed => exact ⟨_, .reported _ unread, .reported _ _ _ _ _ _⟩

/-- **Every entry that is read is delivered, reported or dropped**, by what it is. -/
theorem Reading.met {reads : Nat} (h : Reading wait reads c es p)
    (hes : es = es₁ ++ c.reading source x :: es₂) (hf : c.found source x = .ok (some e)) :
    ∃ fate, Fated c.topic e fate ∧ Fate.Met c e source es₂ p.2 fate := by
  induction h generalizing es₁ es₂ with
  | unsettled c => exact absurd hes (by simp)
  | @settled c c' es r reads h =>
    obtain ⟨y, later, rfl, hlater⟩ := h.eq_cons
    cases es₁ with
    | nil =>
      obtain ⟨hxy, rfl⟩ := List.cons.inj hes
      cases hxy
      have := (h.of_some hf).met wait [] (.inr ⟨rfl, rfl⟩)
      rwa [List.append_nil] at this
    | cons ex es₁ =>
      refine absurd ?_ (hlater source x)
      rw [(List.cons.inj hes).2]
      exact List.mem_append_right _ List.mem_cons_self
  | @goOn c c' es es' p reads h rest ih =>
    obtain ⟨y, later, rfl, hlater⟩ := h.eq_cons
    obtain ⟨cursor, rfl⟩ := h.same
    cases es₁ with
    | nil =>
      obtain ⟨hxy, rfl⟩ := List.cons.inj hes
      cases hxy
      exact (h.of_some hf).met wait _ (.inl rfl)
    | cons ex es₁ =>
      -- it is one of the reads that follow
      obtain ⟨es₃, -, hrest⟩ := exists_append_of_not_mem (hlater source x) (List.cons.inj hes).2
      obtain ⟨fate, hfate, hmet⟩ := ih hrest hf
      exact ⟨fate, hfate, hmet.of_cursor⟩

end Consumer

open Consumer in
/-- **Nothing is lost but what cannot be read.** Every entry that is read while a delivery is waited
for, be it new or one that was handed out before, is delivered, reported or dropped by what it is;
and each of its fields is kept exactly when it can be read. -/
theorem kept_iff_readable {c : Consumer} {wait : Span} {reads : Nat} {es : Exchanges} {p : Progress}
    (h : (c.receive wait reads).Ends es p) {es₁ es₂ : Exchanges} {source : Source} {x : Reply}
    {e : Entry} (hes : es = es₁ ++ c.reading source x :: es₂)
    (hf : c.found source x = .ok (some e)) :
    ∃ fate, Fated c.topic e fate ∧ Fate.Met c e source es₂ p.2 fate ∧
      ∀ f, Fate.Keeps e f fate ↔ e.Reads f := by
  rcases receive_ends.mp h with ⟨rfl, rfl⟩ | ⟨es', rfl, hr⟩
  · cases es₁ with
    | nil => cases hes
    | cons ex es₁ => simp at hes
  · cases es₁ with
    | nil => cases hes
    | cons ex es₁ =>
      obtain ⟨fate, hfate, hmet⟩ := hr.met (List.cons.inj hes).2 hf
      exact ⟨fate, hfate, hmet, hfate.keeps_iff⟩

/-! ## Two entries -/

/-- A new entry that is a message is delivered. -/
theorem receive_delivered {c : Consumer} (wait : Span) {x : Reply} {e : Entry} {m : Message}
    (hc : c.cursor = none) (hf : c.found (.fresh wait) x = .ok (some e)) (hm : e.message = .ok m) :
    (c.receive wait 1).Ends [⟨.isOpen, true⟩, c.reading (.fresh wait) x]
      (c, some (.ok (some (c.delivery e m 1)))) := by
  have hsource : c.source wait = .fresh wait := by
    unfold Consumer.source
    rw [hc]
  have hpast : c.past e = c := by
    unfold Consumer.past
    rw [hc, Option.map_none, ← hc]
  have hcount : c.handOuts = 1 := by
    unfold Consumer.handOuts
    rw [hc]
  rw [← hsource] at hf
  have hread := Consumer.Advanced.found hf (.delivered hm)
  rw [hsource, hpast, hcount] at hread
  exact Consumer.receive_ends.mpr (.inr ⟨_, rfl, .settled hread⟩)

/-- A consumer that has recovered all that was handed to it before. -/
def recoveredReader : Consumer := ⟨⟨"redis://localhost", "jobs", "w-1"⟩, "tasks", "workers", none⟩

/-- The reply that brings it an entry. -/
def bringing (e : Entry) : Reply := .ok (e.reply recoveredReader.stream)

theorem found_bringing (e : Entry) :
    recoveredReader.found (.fresh .zero) (bringing e) = .ok (some e) :=
  recoveredReader.found_reply _ _ e

/-- A task without headers. -/
def plainEntry : Entry := ⟨"1-0", .ofList [(keyField, .bytes (Text.Utf8.encodeText "resize"))]⟩

/-- A task with headers that are no text. -/
def garbledEntry : Entry :=
  ⟨"2-0", .ofList [(keyField, .bytes (Text.Utf8.encodeText "resize")),
    (headersField, .bytes [0xFF])]⟩

theorem message_plainEntry : plainEntry.message = .ok ⟨"resize", [], ∅⟩ := rfl

theorem message_garbledEntry : garbledEntry.message = .ok ⟨"resize", [], ∅⟩ := rfl

/-- All that the plain task says is kept. -/
theorem plainEntry_kept :
    (recoveredReader.receive .zero 1).Ends
        [⟨.isOpen, true⟩, recoveredReader.reading (.fresh .zero) (bringing plainEntry)]
        (recoveredReader,
          some (.ok (some (recoveredReader.delivery plainEntry ⟨"resize", [], ∅⟩ 1)))) ∧
      (∀ f, plainEntry.Reads f) ∧ ∀ f, (Fate.delivered ⟨"resize", [], ∅⟩).Keeps plainEntry f := by
  have hends := receive_delivered .zero (rfl : recoveredReader.cursor = none)
    (found_bringing plainEntry) message_plainEntry
  have hreads (f : Field) : plainEntry.Reads f := by
    cases f with
    | key =>
      intro d hd
      obtain rfl : _ = d := Option.some.inj hd
      exact ⟨"resize", rfl⟩
    | payload => exact reads_of_none rfl
    | headers => exact reads_of_none rfl
  obtain ⟨fate, -, hmet, hkeeps⟩ := kept_iff_readable hends
    (rfl : _ = [⟨.isOpen, true⟩] ++ recoveredReader.reading (.fresh .zero) _ :: [])
    (found_bringing plainEntry)
  refine ⟨hends, hreads, fun f => ?_⟩
  cases hmet with
  | delivered source m count => exact (hkeeps f).mpr (hreads f)

/-- **Headers that cannot be read are lost**: the task is delivered as one without headers. -/
theorem unreadable_headers_lost :
    (recoveredReader.receive .zero 1).Ends
        [⟨.isOpen, true⟩, recoveredReader.reading (.fresh .zero) (bringing garbledEntry)]
        (recoveredReader,
          some (.ok (some (recoveredReader.delivery garbledEntry ⟨"resize", [], ∅⟩ 1)))) ∧
      garbledEntry.fields.get? headersField = some (.bytes [0xFF]) ∧
      ¬ (Fate.delivered ⟨"resize", [], ∅⟩).Keeps garbledEntry .headers := by
  refine ⟨receive_delivered .zero rfl (found_bringing garbledEntry) message_garbledEntry, rfl, ?_⟩
  rintro ⟨raw, ht, -⟩
  cases ht

end TaskQueue.Redis
