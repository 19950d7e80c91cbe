import TaskQueue.Proofs.Json.RoundTrip
import TaskQueue.Proofs.Redis.Fields
import TaskQueue.Proofs.Redis.Stream

/-!
# A message comes back from a stream

The entry that a server makes of the arguments of a published message is read as that message: its
key and its headers are texts, which are found again in their encoding, the headers moreover as the
members of a written object; its payload is kept as bytes. So whatever read brings the entry to a
consumer, the message is handed out as it was. A consumer that has nothing else to read gets it
next.

Results:

* `Reader.textMap_print`: written headers are read back;
* `message_ofMessage`: the entry that keeps a message is read as that message;
* `message_comes_back`: a message that is published, or that is handed back, is received.
-/

namespace TaskQueue

open Json Text Time Engine Script

/-! ## Headers -/

namespace Json.Reader

theorem reads_textItem (s : String) : Reads textItem (Value.text s).toBytes (some s) := by
  intro rest _
  obtain ⟨tail, htail, htext, -⟩ := text_renderText s rest
  have hitem : textItem (0x22 :: tail) = text tail := rfl
  rw [Value.toBytes, Value.renderChars, htail, hitem, htext]
  exact .reads s

theorem mapM_text (es : List (String × String)) :
    (es.map fun e => (e.1, Value.text e.2)).mapM (fun e => e.2.text?.map (Prod.mk e.1)) =
      some es := by
  induction es with
  | nil => rfl
  | cons e es ih =>
    rw [List.map_cons, List.mapM_cons, ih]
    rfl

/-- **Written headers are read back.** -/
theorem textMap_print (d : Dict String String) :
    textMap.readAll (Utf8.encodeText (Codec.print d)) = .ok d := by
  have hitems (e : String × Value)
      (he : e ∈ d.entries.map fun e : String × String => (e.1, Value.text e.2)) :
      Reads textItem e.2.toBytes e.2.text? := by
    obtain ⟨e', -, rfl⟩ := List.mem_map.mp he
    exact reads_textItem e'.2
  obtain ⟨s, hs, hmembers⟩ := reads_members readsKeys_text Value.text? hitems []
  rw [mapM_text] at hmembers
  have hprint : Utf8.encodeText (Codec.print d) = 0x7B :: s := by
    rw [← hs, List.append_nil]
    exact congrArg Utf8.encode String.toList_ofList
  have hmap : textMap (0x7B :: s) = (members text textItem >>= fun es => pure (.ofList es)) s := rfl
  generalize hresult : members text textItem s = result at hmembers
  cases hmembers
  refine readAll_of_ok ?_
  rw [hprint, hmap, bind_of_ok hresult, Dict.ofList_entries]
  rfl

end Json.Reader

namespace Redis

/-! ## Entries -/

namespace Entry

variable (id : String) (m : Message)

theorem get?_ofMessage (name : String) :
    (ofMessage id m).fields.get? name =
      if name = headersField then some (.bytes (Utf8.encodeText (Codec.print m.headers)))
      else if name = payloadField then some (.bytes m.payload)
      else if name = keyField then some (.bytes (Utf8.encodeText m.key))
      else none := by
  have hfields : (ofMessage id m).fields =
      ((Dict.insert ∅ keyField (.bytes (Utf8.encodeText m.key))).insert payloadField
        (.bytes m.payload)).insert headersField
        (.bytes (Utf8.encodeText (Codec.print m.headers))) := rfl
  rw [hfields, Dict.get?_insert, Dict.get?_insert, Dict.get?_insert, Dict.get?_empty]

theorem text_bytes (s : String) : (Datum.bytes (Utf8.encodeText s)).text = .ok s := by
  change (Utf8.decode? (Utf8.encodeText s)).elim (.error ReplyError.garbled) Except.ok = _
  rw [Utf8.decode?_encode]
  rfl

/-- **The entry that keeps a message is read as that message.** -/
theorem message_ofMessage : (ofMessage id m).message = .ok m := by
  have htext {name s : String}
      (h : (ofMessage id m).fields.get? name = some (.bytes (Utf8.encodeText s))) :
      (ofMessage id m).text? name = some s :=
    text?_eq_some_iff.mpr ⟨_, h, text_bytes s⟩
  have hpayload : (ofMessage id m).fields.get? payloadField = some (.bytes m.payload) := by
    rw [get?_ofMessage, if_neg (by decide), if_pos rfl]
  refine message_eq_ok_iff.mpr ⟨?_, ?_, ?_⟩
  · refine htext ?_
    rw [get?_ofMessage, if_neg (by decide), if_neg (by decide), if_pos rfl]
  · rw [payload?_eq, hpayload]
    rfl
  · unfold headers
    rw [htext (by rw [get?_ofMessage, if_pos rfl])]
    dsimp only
    rw [readHeaders, Reader.textMap_print]
    rfl

/-- The arguments after the command, the stream and the place of the id are the fields of the
entry. -/
theorem dictOf_args (stream : String) :
    dictOf .ok (.list (((Command.add stream m).args.drop 3).map .bytes)) =
      .ok (ofMessage id m).fields := by
  have hpairs : (Datum.list (((Command.add stream m).args.drop 3).map .bytes)).pairs =
      .ok ((messageFields m).map fun f => (.bytes (Utf8.encodeText f.1), .bytes f.2)) := rfl
  unfold dictOf
  rw [hpairs, ok_bind]
  unfold messageFields
  simp only [List.map_cons, List.map_nil, List.mapM_cons, List.mapM_nil, partText_bytes]
  rfl

end Entry

/-! ## Publishing -/

namespace Consumer

variable {c : Consumer} {config : Config} {topic : String} {m : Message} {es es' : Exchanges}
  {s s₁ s' : Stream} {e : Entry} {wait : Span} {p : Progress} {reads : Nat}

theorem publish_ends {r : Result Unit} :
    (publish config topic m).Ends es r ↔
      (es = [⟨.isOpen, false⟩] ∧ r = .error .closed) ∨
        ∃ es', es = ⟨.isOpen, true⟩ :: es' ∧ ∃ x : Reply,
          es' = [⟨.send (.add (config.streamKey topic) m), x⟩] ∧
            r = added (config.streamKey topic) m x := by
  unfold publish
  rw [whileOpen_ends]
  simp only [append_ends]

/-! ## The next message -/

/-- Nothing happens to the stream but what the exchanges do. -/
inductive Undisturbed (c : Consumer) : Stream → Exchanges → Stream → Prop
  | nil (s : Stream) : Undisturbed c s [] s
  | cons {s s₁ s' : Stream} {ex : Exchange Answer} {es : Exchanges} (h : Answers c s ex s₁)
      (later : Undisturbed c s₁ es s') : Undisturbed c s (ex :: es) s'

theorem Undisturbed.split_cons {ex : Exchange Answer} (h : Undisturbed c s (ex :: es) s') :
    ∃ s₁, Answers c s ex s₁ ∧ Undisturbed c s₁ es s' := by
  cases h with
  | cons h later => exact ⟨_, h, later⟩

theorem Undisturbed.split (h : Undisturbed c s (es ++ es') s') :
    ∃ s₁, Undisturbed c s es s₁ ∧ Undisturbed c s₁ es' s' := by
  induction es generalizing s with
  | nil => exact ⟨s, .nil s, h⟩
  | cons ex es ih =>
    obtain ⟨s₁, hanswer, hlater⟩ := h.split_cons
    obtain ⟨s₂, hfirst, hrest⟩ := ih hlater
    exact ⟨s₂, .cons hanswer hfirst, hrest⟩

/-- Nothing that was handed to the consumer before is left for it to read. -/
def Recovered (c : Consumer) (s : Stream) : Prop := ∀ after ∈ c.cursor, s.rest after = []

/-- A message that is met is delivered. -/
theorem Meeting.of_message (h : Meeting c e es p) (hm : e.message = .ok m) :
    es = [] ∧ p = (c.past e, some (.ok (some (c.delivery e m c.handOuts)))) := by
  cases h with
  | dropped y drops => exact absurd drops (not_drops_of_message hm)
  | delivered read =>
    rw [hm] at read
    obtain rfl := Except.ok.inj read
    exact ⟨rfl, rfl⟩
  | reported now kept unread moved =>
    rw [hm] at unread
    cases unread

/-- The only fresh entry is found by the next fresh read. -/
theorem found_of_fresh {x : Reply} (h : Answers c s (c.reading (.fresh wait) x) s')
    (hfresh : s.fresh = [e]) : c.found (.fresh wait) x = .ok (some e) := by
  cases h with
  | handedOut h found =>
    rw [hfresh] at h
    obtain ⟨rfl, -⟩ := List.cons.inj h
    exact found
  | waited h found =>
    rw [hfresh] at h
    cases h

/-- The only fresh entry is what a consumer receives that reads nothing else. -/
theorem Reading.fresh (h : Reading wait (reads + 1) (c.upTo none) es p)
    (hs : Undisturbed c s es s') (hfresh : s.fresh = [e]) (hm : e.message = .ok m) :
    p.2 = some (.ok (some (c.delivery e m 1))) := by
  have hmeeting {later : Exchanges} {x : Reply} {p : Progress} {s₁ : Stream}
      (h : Advanced (c.upTo none) wait (c.reading (.fresh wait) x :: later) p)
      (hread : Answers c s (c.reading (.fresh wait) x) s₁) :
      p.2 = some (.ok (some (c.delivery e m 1))) := by
    have found : c.found (.fresh wait) x = .ok (some e) := found_of_fresh hread hfresh
    obtain ⟨-, rfl⟩ := (h.of_some found).of_message hm
    rfl
  cases h with
  | settled advanced =>
    obtain ⟨x, later, rfl, -⟩ := advanced.eq_cons
    obtain ⟨s₁, hread, -⟩ := hs.split_cons
    exact hmeeting advanced hread
  | goOn advanced rest =>
    obtain ⟨x, later, rfl, -⟩ := advanced.eq_cons
    obtain ⟨s₁, hread, -⟩ := hs.split_cons
    cases hmeeting advanced hread

/-- **The only fresh entry is received next**, once the consumer has recovered all that was handed
to it before. -/
theorem receive_next (h : (c.receive wait (reads + 2)).Ends es p) (hs : Undisturbed c s es s')
    (hc : c.Recovered s) (hfresh : s.fresh = [e]) (hm : e.message = .ok m) :
    p.2 = some (.ok (some (c.delivery e m 1))) := by
  rcases receive_ends.mp h with ⟨rfl, -⟩ | ⟨es', rfl, hread⟩
  · obtain ⟨s₁, hopen, -⟩ := hs.split_cons
    cases hopen.eq_of_isOpen.1
  · obtain ⟨s₁, hopen, hlater⟩ := hs.split_cons
    obtain rfl := hopen.eq_of_isOpen.2
    cases hcursor : c.cursor with
    | none =>
      have hsame : c = c.upTo none := by
        unfold upTo
        rw [← hcursor]
      rw [hsame] at hread
      exact hread.fresh hlater hfresh hm
    | some after =>
      have hsource : c.source wait = .pending after := by
        unfold source
        rw [hcursor]
      have hunmet : c.unmet = none := by
        unfold unmet
        rw [hcursor]
      -- the first read finds that nothing is left to recover
      have hrecovered {later : Exchanges} {x : Reply} {c' : Consumer} {r : Option Receipt}
          {s₂ : Stream} (h : Advanced c wait (c.reading (c.source wait) x :: later) (c', r))
          (hanswer : Answers c s₁ (c.reading (c.source wait) x) s₂) :
          later = [] ∧ c' = c.upTo none ∧ r = none ∧ s₂ = s₁ := by
        rw [hsource] at h hanswer
        obtain ⟨found, hsame⟩ := hanswer.of_pending
        rw [hc after hcursor] at found
        obtain ⟨hnil, hc', hr⟩ := h.of_none found
        exact ⟨hnil, hc', hr.trans hunmet, hsame⟩
      cases hread with
      | settled advanced =>
        obtain ⟨x, later, rfl, -⟩ := advanced.eq_cons
        obtain ⟨s₂, hanswer, -⟩ := hlater.split_cons
        cases (hrecovered advanced hanswer).2.2.1
      | goOn advanced rest =>
        obtain ⟨x, later, rfl, -⟩ := advanced.eq_cons
        obtain ⟨s₂, hanswer, hrest⟩ := hlater.split_cons
        obtain ⟨rfl, rfl, -, rfl⟩ := hrecovered advanced hanswer
        exact rest.fresh hrest hfresh hm

/-! ## A message that is put on the stream -/

/-- A message that is published is the newest entry of the stream. -/
theorem publish_adds {r : Result Unit} (h : (publish config topic m).Ends es r)
    (hs : Undisturbed c s es s') (hstream : config.streamKey topic = c.stream) :
    r = .ok () ∧ ∃ id hlast, s' = s.add (.ofMessage id m) hlast := by
  rcases publish_ends.mp h with ⟨rfl, -⟩ | ⟨es', rfl, x, rfl, rfl⟩
  · obtain ⟨s₁, hopen, -⟩ := hs.split_cons
    cases hopen.eq_of_isOpen.1
  · obtain ⟨s₁, hopen, hlater⟩ := hs.split_cons
    obtain rfl := hopen.eq_of_isOpen.2
    obtain ⟨s₂, hadd, hnil⟩ := hlater.split_cons
    cases hnil
    obtain ⟨confirmed, ⟨hother, -⟩ | hadded⟩ := hadd.of_add
    · exact absurd hstream hother
    · exact ⟨added_eq_ok_iff.mpr confirmed, hadded⟩

/-- So is a message that is handed back to be delivered anew. -/
theorem reject_adds {d : Delivery} {r : Result Unit} (h : (c.reject d true).Ends es r)
    (hs : Undisturbed c s es s') :
    r = .ok () ∧ ∃ id hlast,
      s' = (s.add (.ofMessage id d.message) hlast).retire d.position.offset := by
  rcases reject_ends.mp h with ⟨rfl, -⟩ | ⟨es', rfl, hmoved⟩
  · obtain ⟨s₁, hopen, -⟩ := hs.split_cons
    cases hopen.eq_of_isOpen.1
  · obtain ⟨s₁, hopen, hlater⟩ := hs.split_cons
    obtain rfl := hopen.eq_of_isOpen.2
    rw [if_pos rfl] at hmoved
    cases hmoved with
    | refused refused =>
      obtain ⟨s₂, hadd, -⟩ := hlater.split_cons
      rw [added_eq_ok_iff.mpr hadd.of_add.1] at refused
      cases refused
    | retired y confirmed =>
      obtain ⟨s₂, hadd, hrest⟩ := hlater.split_cons
      obtain ⟨s₃, hack, hnil⟩ := hrest.split_cons
      cases hnil
      obtain ⟨hdone, rfl⟩ := hack.of_ack
      obtain ⟨-, ⟨hother, -⟩ | ⟨id, hlast, rfl⟩⟩ := hadd.of_add
      · exact absurd rfl hother
      · exact ⟨hdone, id, hlast, rfl⟩

theorem Recovered.retire (h : c.Recovered s) (id : String) : c.Recovered (s.retire id) := by
  intro after hafter
  have hnil := h after hafter
  rw [Stream.rest_retire (by rw [hnil]; exact nofun), hnil]

/-- The message is received. -/
def HandsOut (p : Progress) (m : Message) : Prop :=
  ∃ d, p.2 = some (.ok (some d)) ∧ d.message = m

/-- Whatever read brings the entry that keeps a message, the message is received. -/
theorem receive_ofMessage {es₁ es₂ : Exchanges} {source : Source} {x : Reply} {id : String}
    (h : (c.receive wait reads).Ends es p) (hes : es = es₁ ++ c.reading source x :: es₂)
    (hf : c.found source x = .ok (some (.ofMessage id m))) : HandsOut p m := by
  have hread := Entry.message_ofMessage id m
  have hmet : ∃ fate, Fated c.topic (.ofMessage id m) fate ∧
      Fate.Met c (.ofMessage id m) source es₂ p.2 fate := by
    rcases receive_ends.mp h with ⟨rfl, -⟩ | ⟨es', rfl, hr⟩
    · cases es₁ with
      | nil => cases hes
      | cons ex es₁ => simp at hes
    · cases es₁ with
      | nil => cases hes
      | cons ex es₁ => exact hr.met (List.cons.inj hes).2 hf
  obtain ⟨fate, hfate, hmet⟩ := hmet
  cases hfate with
  | delivered read =>
    rw [hread] at read
    obtain rfl := Except.ok.inj read
    unfold HandsOut
    generalize p.2 = r at hmet
    cases hmet
    exact ⟨_, rfl, rfl⟩
  | reported now unread =>
    rw [hread] at unread
    cases unread
  | dropped trimmed =>
    obtain ⟨error, herror⟩ := Entry.message_of_isTrimmed trimmed
    rw [hread] at herror
    cases herror

end Consumer

open Consumer in
/-- **A message comes back as it was.** The arguments that are sent for a message are the fields of
an entry that is read as the message; whatever read brings such an entry, the message is received;
and a message that is published, or that is handed back, is received next when nothing else is to be
read. -/
theorem message_comes_back (m : Message) :
    (∀ stream id, Entry.dictOf .ok (.list (((Command.add stream m).args.drop 3).map .bytes)) =
        .ok (Entry.ofMessage id m).fields ∧ (Entry.ofMessage id m).message = .ok m) ∧
    (∀ (c : Consumer) wait reads es p es₁ source x es₂ id, (c.receive wait reads).Ends es p →
      es = es₁ ++ c.reading source x :: es₂ →
      c.found source x = .ok (some (.ofMessage id m)) → HandsOut p m) ∧
    ∀ (c : Consumer) (s s' : Stream) wait reads es es' (r : Result Unit) p,
      c.Recovered s → s.fresh = [] → Undisturbed c s (es ++ es') s' →
      (c.receive wait (reads + 2)).Ends es' p →
      (∀ config topic, config.streamKey topic = c.stream →
        (publish config topic m).Ends es r → r = .ok () ∧ HandsOut p m) ∧
      ∀ d, d.message = m → (c.reject d true).Ends es r → r = .ok () ∧ HandsOut p m := by
  refine ⟨fun stream id => ⟨Entry.dictOf_args id m stream, Entry.message_ofMessage id m⟩,
    fun c wait reads es p es₁ source x es₂ id h hes hf => receive_ofMessage h hes hf, ?_⟩
  intro c s s' wait reads es es' r p hrecovered hfresh hs hreceive
  obtain ⟨s₁, hfirst, hrest⟩ := hs.split
  constructor
  · intro config topic hstream h
    obtain ⟨hr, id, hlast, rfl⟩ := publish_adds h hfirst hstream
    exact ⟨hr, _, receive_next hreceive hrest hrecovered
      (congrArg (· ++ [Entry.ofMessage id m]) hfresh) (Entry.message_ofMessage id m), rfl⟩
  · rintro d rfl h
    obtain ⟨hr, id, hlast, rfl⟩ := reject_adds h hfirst
    have hadded : c.Recovered (s.add (.ofMessage id d.message) hlast) := hrecovered
    exact ⟨hr, _, receive_next hreceive hrest (hadded.retire _)
      (congrArg (· ++ [Entry.ofMessage id d.message]) hfresh)
      (Entry.message_ofMessage id d.message), rfl⟩

/-- A stream without entries. -/
def emptyStream : Stream where
  pending := []
  fresh := []
  last := "0-0"
  ordered := .nil
  started := nofun
  bounded := nofun

/-- A message whose payload is no text and whose key and headers are escaped is published and comes
back. -/
theorem escaped_comes_back :
    ∃ (m : Message) (es es' : Exchanges) (p : Consumer.Progress) (s : Stream),
      m.payload = [0xFF, 0x00] ∧ m.header? "\"\n" = some "\\\u0001é" ∧
      (publish recoveredReader.config "tasks" m).Ends es (.ok ()) ∧
      (recoveredReader.receive .zero 2).Ends es' p ∧
      Consumer.Undisturbed recoveredReader emptyStream (es ++ es') s ∧ Consumer.HandsOut p m := by
  let m : Message := (⟨"\"resize\"", [0xFF, 0x00], ∅⟩ : Message).setHeader "\"\n" "\\\u0001é"
  let e : Entry := .ofMessage "1-0" m
  have hm : e.message = .ok m := ((message_comes_back m).1 "" "1-0").2
  have hlast : Precedes emptyStream.last e.id := by decide
  have confirmed : Reply.Confirms (.ok (.bytes (Utf8.encodeText "1-0"))) :=
    ⟨_, _, rfl, Entry.text_bytes _⟩
  have published : (publish recoveredReader.config "tasks" m).Ends
      [⟨.isOpen, true⟩,
        ⟨.send (.add recoveredReader.stream m), .ok (.bytes (Utf8.encodeText "1-0"))⟩] (.ok ()) :=
    Consumer.publish_ends.mpr (.inr ⟨_, rfl, _, rfl, (added_eq_ok_iff.mpr confirmed).symm⟩)
  have received : (recoveredReader.receive .zero 2).Ends
      [⟨.isOpen, true⟩, recoveredReader.reading (.fresh .zero) (bringing e)]
      (recoveredReader, some (.ok (some (recoveredReader.delivery e m 1)))) :=
    Consumer.receive_ends.mpr (.inr ⟨_, rfl, .settled (.found (found_bringing e) (.delivered hm))⟩)
  have undisturbed : Consumer.Undisturbed recoveredReader emptyStream _ _ :=
    .cons .isOpen (.cons (.added m hlast) (.cons .isOpen
      (.cons (.handedOut rfl (found_bringing e)) (.nil _))))
  have hback := ((message_comes_back m).2.2 recoveredReader emptyStream _ .zero 0 _ _ _ _ nofun rfl
    undisturbed received).1 recoveredReader.config "tasks" rfl published
  exact ⟨m, _, _, _, _, rfl, (Message.header?_setHeader _ _ _ _).trans (if_pos rfl), published,
    received, undisturbed, hback.2⟩

end Redis

end TaskQueue
