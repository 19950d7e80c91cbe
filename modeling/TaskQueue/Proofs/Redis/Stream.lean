import TaskQueue.Proofs.Redis.Exchange

/-!
# A server that keeps a stream

Of a stream, a group has handed some entries to a consumer that did not acknowledge them: they are
pending. Others were handed to nobody: they are fresh. A server that keeps the stream brings the
first pending entry after an id, hands out the fresh ones in turn, and lets go of what is
acknowledged. Meanwhile entries arrive, and others in the group take fresh ones.

Results:

* `Answers`, `Serving`: what such a server answers, and what happens to the stream over it;
* `rest_next`: what is pending after an entry is what followed it;
* `exists_advanced`: every read of a consumer can be answered so.
-/

namespace TaskQueue.Redis

open Engine Time Script Text

/-! ## Ids -/

/-- The two numbers of an id, around a dash. Without the second it is zero. -/
def idNumbers (id : String) : Nat × Nat :=
  (Nat.ofDigitChars 10 (id.toList.takeWhile (· != '-')) 0,
    Nat.ofDigitChars 10 (id.toList.dropWhile (· != '-')).tail 0)

/-- Ids are in the order of their numbers, the first of which counts most. -/
def Precedes (id id' : String) : Prop :=
  (idNumbers id).1 < (idNumbers id').1 ∨
    (idNumbers id).1 = (idNumbers id').1 ∧ (idNumbers id).2 < (idNumbers id').2

instance (id id' : String) : Decidable (Precedes id id') := instDecidableOr

/-- An entry was added before another. -/
def Older (e e' : Entry) : Prop := Precedes e.id e'.id

instance (e e' : Entry) : Decidable (Older e e') := inferInstanceAs (Decidable (Precedes ..))

section

variable {id id' id'' : String}

theorem Precedes.irrefl : ¬ Precedes id id := by
  unfold Precedes
  omega

theorem Precedes.trans (h : Precedes id id') (h' : Precedes id' id'') : Precedes id id'' := by
  unfold Precedes at *
  omega

theorem Precedes.of_not (h : ¬ Precedes id' id) (h' : Precedes id' id'') : Precedes id id'' := by
  unfold Precedes at *
  omega

/-- What follows anything follows the start. -/
theorem Precedes.start (h : Precedes id id') : Precedes "0" id' := by
  have hstart : idNumbers "0" = (0, 0) := rfl
  unfold Precedes at *
  rw [hstart]
  omega

theorem Older.ne {e e' : Entry} (h : Older e e') : e.id ≠ e'.id := by
  intro heq
  unfold Older at h
  rw [heq] at h
  exact Precedes.irrefl h

/-- What is added after the last id is the youngest. -/
theorem pairwise_older_concat {es : List Entry} {e : Entry} {last : String}
    (hes : es.Pairwise Older) (bounded : ∀ e' ∈ es, ¬ Precedes last e'.id)
    (h : Precedes last e.id) : (es ++ [e]).Pairwise Older := by
  rw [List.pairwise_append]
  refine ⟨hes, List.pairwise_singleton _ _, fun e' he' e'' he'' => ?_⟩
  rw [List.mem_singleton.mp he'']
  exact Precedes.of_not (bounded e' he') h

end

/-! ## Streams -/

/-- A stream, as a consumer of a group finds it. -/
structure Stream where
  /-- The entries that were handed to the consumer and that it did not acknowledge. -/
  pending : List Entry
  /-- The entries that were handed to nobody. -/
  fresh : List Entry
  /-- The id that was given last. -/
  last : String
  ordered : (pending ++ fresh).Pairwise Older
  started : ∀ e ∈ pending ++ fresh, Precedes "0" e.id
  bounded : ∀ e ∈ pending ++ fresh, ¬ Precedes last e.id

namespace Stream

variable {e : Entry} {fresh : List Entry} {id after : String}

/-- What is pending after an id, in the order of ids. -/
def rest (s : Stream) (after : String) : List Entry :=
  s.pending.filter fun e => Precedes after e.id

/-- The stream with some entries only. -/
def restrict (s : Stream) (pending fresh : List Entry)
    (h : (pending ++ fresh).Sublist (s.pending ++ s.fresh)) : Stream where
  pending := pending
  fresh := fresh
  last := s.last
  ordered := s.ordered.sublist h
  started e he := s.started e (h.mem he)
  bounded e he := s.bounded e (h.mem he)

/-- A fresh entry is handed to the consumer. -/
def handOut (s : Stream) (h : s.fresh = e :: fresh) : Stream :=
  s.restrict (s.pending ++ [e]) fresh (by rw [h, List.append_assoc]; exact .refl _)

/-- A fresh entry is handed to another member of the group. -/
def takeAway (s : Stream) (h : s.fresh = e :: fresh) : Stream :=
  s.restrict s.pending fresh (by rw [h]; exact (List.sublist_cons_self e fresh).append_left _)

/-- An entry is acknowledged. -/
def retire (s : Stream) (id : String) : Stream :=
  s.restrict (s.pending.filter fun e => e.id ≠ id) s.fresh (List.filter_sublist.append_right _)

/-- An entry is added. -/
def add (s : Stream) (e : Entry) (h : Precedes s.last e.id) : Stream where
  pending := s.pending
  fresh := s.fresh ++ [e]
  last := e.id
  ordered := by
    rw [← List.append_assoc]
    exact pairwise_older_concat s.ordered s.bounded h
  started e' he' := by
    rw [← List.append_assoc] at he'
    rcases List.mem_append.mp he' with he' | he'
    · exact s.started e' he'
    · rw [List.mem_singleton.mp he']
      exact h.start
  bounded e' he' hlast := by
    rw [← List.append_assoc] at he'
    rcases List.mem_append.mp he' with he' | he'
    · exact s.bounded e' he' (h.trans hlast)
    · rw [List.mem_singleton.mp he'] at hlast
      exact Precedes.irrefl hlast

/-- At the start everything that is pending lies ahead. -/
theorem rest_start (s : Stream) : s.rest "0" = s.pending := by
  refine List.filter_eq_self.mpr fun e he => decide_eq_true ?_
  exact s.started e (List.mem_append_left _ he)

theorem ordered_rest (s : Stream) (after : String) : (s.rest after).Pairwise Older :=
  (List.pairwise_append.mp s.ordered).1.filter _

/-- What follows the first entry after an id. -/
theorem rest_next {s : Stream} {left : List Entry} (h : s.rest after = e :: left) :
    s.rest e.id = left := by
  have hordered := s.ordered_rest after
  rw [h] at hordered
  obtain ⟨holder, -⟩ := List.pairwise_cons.mp hordered
  have he : Precedes after e.id := by
    have : e ∈ s.rest after := by
      rw [h]
      exact List.mem_cons_self
    exact of_decide_eq_true (List.mem_filter.mp this).2
  have hnext : s.rest e.id = (s.rest after).filter fun e' => Precedes e.id e'.id := by
    unfold rest
    rw [List.filter_filter]
    refine List.filter_congr fun e' _ => ?_
    rw [← Bool.decide_and, decide_eq_decide]
    exact ⟨fun h => ⟨h, he.trans h⟩, And.left⟩
  rw [hnext, h, List.filter_cons_of_neg (by simpa using Precedes.irrefl)]
  exact List.filter_eq_self.mpr fun e' he' => decide_eq_true (holder e' he')

/-- Acknowledging what does not lie ahead leaves what does. -/
theorem rest_retire {s : Stream} (h : ∀ e ∈ s.rest after, e.id ≠ id) :
    (s.retire id).rest after = s.rest after := by
  unfold rest retire restrict
  dsimp only
  rw [List.filter_filter]
  refine List.filter_congr fun e he => ?_
  rw [← Bool.decide_and, decide_eq_decide]
  exact ⟨And.left, fun hafter =>
    ⟨hafter, h e (List.mem_filter.mpr ⟨he, decide_eq_true hafter⟩)⟩⟩

end Stream

/-! ## Answers -/

/-- **What a server that keeps the stream may answer to a consumer**, and the stream afterwards. No
command fails. -/
inductive Answers (c : Consumer) (s : Stream) : Exchange Answer → Stream → Prop where
  | isOpen : Answers c s ⟨.isOpen, true⟩ s
  | now (t : Instant) : Answers c s ⟨.now, t⟩ s
  /-- The first pending entry after an id, if there is one. -/
  | recalled {after : String} {x : Reply}
      (found : c.found (.pending after) x = .ok (s.rest after).head?) :
      Answers c s (c.reading (.pending after) x) s
  | handedOut {wait : Span} {x : Reply} {e : Entry} {fresh : List Entry}
      (h : s.fresh = e :: fresh) (found : c.found (.fresh wait) x = .ok (some e)) :
      Answers c s (c.reading (.fresh wait) x) (s.handOut h)
  /-- Nothing has arrived in time. -/
  | waited {wait : Span} {x : Reply} (h : s.fresh = [])
      (found : c.found (.fresh wait) x = .ok none) : Answers c s (c.reading (.fresh wait) x) s
  | retired {id : String} {x : Reply} (done : c.retired id x = .ok ()) :
      Answers c s (c.retiring id x) (s.retire id)
  | added {id : String} (m : Message) (h : Precedes s.last id) :
      Answers c s ⟨.send (.add c.stream m), .ok (.bytes (Utf8.encodeText id))⟩
        (s.add (.ofMessage id m) h)
  /-- A message is added to another stream. -/
  | addedElsewhere {stream : String} (m : Message) {x : Reply} (other : stream ≠ c.stream)
      (confirmed : x.Confirms) : Answers c s ⟨.send (.add stream m), x⟩ s

/-- **What may happen to the stream** over some exchanges of a consumer. Entries arrive and others
take fresh ones at any time. -/
inductive Serving (c : Consumer) : Stream → Exchanges → Stream → Prop where
  | nil (s : Stream) : Serving c s [] s
  | arrived {s s' : Stream} {es : Exchanges} {e : Entry} (h : Precedes s.last e.id)
      (later : Serving c (s.add e h) es s') : Serving c s es s'
  | taken {s s' : Stream} {es : Exchanges} {e : Entry} {fresh : List Entry}
      (h : s.fresh = e :: fresh) (later : Serving c (s.takeAway h) es s') : Serving c s es s'
  | answered {s s₁ s' : Stream} {ex : Exchange Answer} {es : Exchanges} (h : Answers c s ex s₁)
      (later : Serving c s₁ es s') : Serving c s (ex :: es) s'

section

variable {c : Consumer} {s s₁ s' : Stream} {es es' : Exchanges} {ex : Exchange Answer}

theorem Serving.append (h : Serving c s es s₁) (h' : Serving c s₁ es' s') :
    Serving c s (es ++ es') s' := by
  induction h with
  | nil s => exact h'
  | arrived h later ih => exact .arrived h (ih h')
  | taken h later ih => exact .taken h (ih h')
  | answered h later ih => exact .answered h (ih h')

/-- Others are at work before a request is answered. -/
theorem Serving.split_cons (h : Serving c s (ex :: es) s') :
    ∃ s₁ s₂, Serving c s [] s₁ ∧ Answers c s₁ ex s₂ ∧ Serving c s₂ es s' := by
  generalize hes : ex :: es = es' at h
  induction h with
  | nil s => cases hes
  | arrived h later ih =>
    obtain ⟨s₁, s₂, hothers, hanswer, hlater⟩ := ih hes
    exact ⟨s₁, s₂, .arrived h hothers, hanswer, hlater⟩
  | taken h later ih =>
    obtain ⟨s₁, s₂, hothers, hanswer, hlater⟩ := ih hes
    exact ⟨s₁, s₂, .taken h hothers, hanswer, hlater⟩
  | answered h later ih =>
    cases hes
    exact ⟨_, _, .nil _, h, later⟩

theorem Serving.split (h : Serving c s (es ++ es') s') :
    ∃ s₁, Serving c s es s₁ ∧ Serving c s₁ es' s' := by
  induction es generalizing s with
  | nil => exact ⟨s, .nil s, h⟩
  | cons ex es ih =>
    obtain ⟨s₁, s₂, hothers, hanswer, hlater⟩ := h.split_cons
    obtain ⟨s₃, hfirst, hrest⟩ := ih hlater
    exact ⟨s₃, hothers.append (.answered hanswer hfirst), hrest⟩

/-- Everything that is asked for is answered. -/
theorem Serving.exists_answers (h : Serving c s es s') (hex : ex ∈ es) :
    ∃ s₁ s₂, Answers c s₁ ex s₂ := by
  induction h with
  | nil s => cases hex
  | arrived h later ih => exact ih hex
  | taken h later ih => exact ih hex
  | answered h later ih =>
    rcases List.mem_cons.mp hex with rfl | hex
    · exact ⟨_, _, h⟩
    · exact ih hex

/-! ### The answers to one request -/

theorem Answers.eq_of_isOpen {b : Bool} (h : Answers c s ⟨.isOpen, b⟩ s') : b = true ∧ s' = s := by
  cases h with
  | isOpen => exact ⟨rfl, rfl⟩

theorem Answers.of_pending {after : String} {x : Reply}
    (h : Answers c s (c.reading (.pending after) x) s') :
    c.found (.pending after) x = .ok (s.rest after).head? ∧ s' = s := by
  cases h with
  | recalled found => exact ⟨found, rfl⟩

theorem Answers.of_fresh {wait : Span} {x : Reply}
    (h : Answers c s (c.reading (.fresh wait) x) s') :
    (c.found (.fresh wait) x = .ok none ∧ s' = s) ∨
      ∃ e fresh, ∃ h : s.fresh = e :: fresh,
        c.found (.fresh wait) x = .ok (some e) ∧ s' = s.handOut h := by
  cases h with
  | handedOut h found => exact .inr ⟨_, _, h, found, rfl⟩
  | waited h found => exact .inl ⟨found, rfl⟩

theorem Answers.of_ack {id : String} {x : Reply} (h : Answers c s (c.retiring id x) s') :
    c.retired id x = .ok () ∧ s' = s.retire id := by
  cases h with
  | retired done => exact ⟨done, rfl⟩

theorem Answers.of_add {stream : String} {m : Message} {x : Reply}
    (h : Answers c s ⟨.send (.add stream m), x⟩ s') :
    x.Confirms ∧ ((stream ≠ c.stream ∧ s' = s) ∨
      ∃ id, ∃ h : Precedes s.last id, s' = s.add (.ofMessage id m) h) := by
  cases h with
  | @added id m h =>
    refine ⟨⟨_, id, rfl, ?_⟩, .inr ⟨id, h, rfl⟩⟩
    change (Utf8.decode? (Utf8.encodeText id)).elim _ _ = _
    rw [Utf8.decode?_encode]
    rfl
  | addedElsewhere m other confirmed => exact ⟨confirmed, .inl ⟨other, rfl⟩⟩

end

/-! ## Reads that are answered -/

namespace Consumer

/-- The consumer when it has read so far. -/
abbrev upTo (c : Consumer) (cursor : Option String) : Consumer := { c with cursor }

/-- The dead letters are kept apart from the topic. -/
theorem deadLetters_ne_stream (c : Consumer) : c.deadLetters ≠ c.stream := by
  intro h
  have hlength := congrArg String.length h
  unfold deadLetters stream Config.streamKey at hlength
  have hsuffix : ".dlq".length = 4 := rfl
  simp only [String.length_append] at hlength
  omega

/-- **Every read of a consumer can be answered.** -/
theorem exists_advanced (c : Consumer) (cursor : Option String) (wait : Span) (s : Stream) :
    ∃ es p s', (c.upTo cursor).Advanced wait es p ∧ Serving c s es s' := by
  have hfound {source : Source} {x : Reply} {e : Entry} {s₁ : Stream}
      (hsource : (c.upTo cursor).source wait = source)
      (found : c.found source x = .ok (some e)) (hread : Answers c s (c.reading source x) s₁) :
      ∃ es p s', (c.upTo cursor).Advanced wait es p ∧ Serving c s es s' := by
    subst hsource
    have hack : Answers c s₁ (c.retiring e.id (.ok (.int 1))) (s₁.retire e.id) := .retired rfl
    by_cases hdrops : (c.upTo cursor).Drops e
    · exact ⟨_, _, _, .found found (.dropped _ hdrops), .answered hread (.answered hack (.nil _))⟩
    · cases hm : e.message with
      | ok m => exact ⟨_, _, _, .found found (.delivered hm), .answered hread (.nil _)⟩
      | error error =>
        have hadd : Answers c s₁ ⟨.send (.add c.deadLetters (e.report c.topic error .epoch)),
            (.ok (.status "OK") : Reply)⟩ s₁ :=
          .addedElsewhere _ c.deadLetters_ne_stream ⟨_, _, rfl, rfl⟩
        exact ⟨_, _, _, .found found (.reported .epoch hdrops hm (.retired _ rfl)),
          .answered hread (.answered (.now _) (.answered hadd (.answered hack (.nil _))))⟩
  cases cursor with
  | some after =>
    cases hrest : s.rest after with
    | nil =>
      have hnone : c.found (.pending after) (.ok .nil) = .ok (s.rest after).head? := by
        rw [hrest]
        rfl
      exact ⟨_, _, s, .empty (x := .ok .nil) rfl, .answered (.recalled hnone) (.nil s)⟩
    | cons e left =>
      have hsome := c.found_reply (.pending after) c.stream e
      refine hfound rfl hsome (.recalled ?_)
      rw [hsome, hrest]
      rfl
  | none =>
    cases hfresh : s.fresh with
    | nil => exact ⟨_, _, s, .empty (x := .ok .nil) rfl, .answered (.waited hfresh rfl) (.nil s)⟩
    | cons e fresh =>
      have hsome := c.found_reply (.fresh wait) c.stream e
      exact hfound rfl hsome (.handedOut hfresh hsome)

/-- So can a series of reads. -/
theorem exists_reading (c : Consumer) (cursor : Option String) (wait : Span) (reads : Nat)
    (s : Stream) : ∃ es p s', Reading wait reads (c.upTo cursor) es p ∧ Serving c s es s' := by
  induction reads generalizing cursor s with
  | zero => exact ⟨[], _, s, .unsettled _, .nil s⟩
  | succ reads ih =>
    obtain ⟨es, ⟨c', r⟩, s₁, hread, hserving⟩ := c.exists_advanced cursor wait s
    cases r with
    | some r => exact ⟨es, _, s₁, .settled hread, hserving⟩
    | none =>
      obtain ⟨cursor', rfl⟩ := hread.same
      obtain ⟨es', p, s', hreading, hlater⟩ := ih cursor' s₁
      exact ⟨_, p, s', .goOn hread hreading, hserving.append hlater⟩

end Consumer

end TaskQueue.Redis
