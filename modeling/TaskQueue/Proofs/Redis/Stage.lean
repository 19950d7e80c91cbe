import TaskQueue.Proofs.Redis.Stream

/-!
# How far a consumer has come through a stream

A consumer that joins its group anew first passes through the entries that are pending, and only
then reads fresh ones. What it passes through shrinks meanwhile, as entries are dropped, reported
and acknowledged; the id of the last one it has read is enough to go on from.

Results:

* `Holds.served`: a consumer stands where it stood when others use the stream;
* `Holds.pass`, `Holds.drain`, `Holds.note`: how it comes farther;
* `Meeting.treats`: what is received and sent when an entry is found;
* `Advanced.leads`: how far a read leads;
* `Reading.leads`: how far a series of reads leads, which ends if it may be long enough.
-/

namespace TaskQueue.Redis

open Engine Time Script

/-! ## What reads find -/

/-- What a read finds, when something is found or waited for. -/
inductive Find where
  /-- An entry that was handed out before. -/
  | again (e : Entry)
  /-- An entry that was handed to nobody. -/
  | fresh (e : Entry)
  /-- Nothing has arrived in time. -/
  | nothing

/-- The entry that is found. -/
def Find.brought? : Find → Option Entry
  | again e => some e
  | fresh e => some e
  | nothing => none

/-- The command of an exchange, unless it is a read. -/
def settling? : Exchange Answer → Option Command
  | ⟨.send (.read ..), _⟩ => none
  | ⟨.send c, _⟩ => some c
  | _ => none

/-- The commands of some exchanges, without the reads. -/
def settling (es : Exchanges) : List Command := es.filterMap settling?

theorem settling_append (es es' : Exchanges) : settling (es ++ es') = settling es ++ settling es' :=
  List.filterMap_append

namespace Consumer

/-- What is received, if a find settles that. Entries that were handed out before count as handed
out twice. -/
def receipt? (c : Consumer) : Find → Option Receipt
  | .again e =>
    match e.message with
    | .ok m => some (.ok (some (c.delivery e m 2)))
    | .error _ => none
  | .fresh e =>
    match e.message with
    | .ok m => some (.ok (some (c.delivery e m 1)))
    | .error _ => some (.ok none)
  | .nothing => some (.ok none)

/-- What is sent about a find. A message is delivered, and nothing is sent. Of what was handed out
before, trimmed entries are acknowledged. Everything else is reported, once, and then
acknowledged. -/
inductive Treats (c : Consumer) : Find → List Command → Prop where
  | nothing : Treats c .nothing []
  | delivered {f : Find} {e : Entry} {m : Message} (entry : f.brought? = some e)
      (read : e.message = .ok m) : Treats c f []
  | dropped {e : Entry} (trimmed : e.isTrimmed = true) :
      Treats c (.again e) [.ack c.stream c.group e.id]
  | reported {f : Find} {e : Entry} {error : TransportError} (now : Instant)
      (entry : f.brought? = some e) (kept : f = .again e → e.isTrimmed = false)
      (unread : e.message = .error error) :
      Treats c f [.add c.deadLetters (e.report c.topic error now), .ack c.stream c.group e.id]

/-- What is sent about finds, one after the other. -/
inductive TreatsAll (c : Consumer) : List Find → List Command → Prop where
  | nil : TreatsAll c [] []
  | cons {f : Find} {fs : List Find} {cs cs' : List Command} (treats : c.Treats f cs)
      (later : TreatsAll c fs cs') : TreatsAll c (f :: fs) (cs ++ cs')

variable {c : Consumer} {fs fs' : List Find} {cs cs' : List Command}

theorem TreatsAll.append (h : c.TreatsAll fs cs) (h' : c.TreatsAll fs' cs') :
    c.TreatsAll (fs ++ fs') (cs ++ cs') := by
  induction h with
  | nil => exact h'
  | cons treats later ih =>
    rw [List.cons_append, List.append_assoc]
    exact .cons treats ih

theorem TreatsAll.single {f : Find} (h : c.Treats f cs) : c.TreatsAll [f] cs := by
  rw [← List.append_nil cs]
  exact .cons h .nil

end Consumer

/-! ## How far a consumer has come -/

/-- How far a consumer has come through a stream. -/
structure Stage where
  /-- The id after which pending entries are read; none when they are not read any more. -/
  cursor : Option String
  /-- The entries, of those that were pending at first, that the consumer has passed. -/
  passed : List Entry
  /-- Those that lie ahead. -/
  left : List Entry
  /-- What it has found since. -/
  news : List Find

namespace Stage

/-- All that it has found. -/
def finds (p : Stage) : List Find := p.passed.map .again ++ p.news

/-- How many reads are needed at most until something is received. -/
def remaining (p : Stage) : Nat :=
  match p.cursor with
  | some _ => p.left.length + 2
  | none => 1

theorem remaining_pos (p : Stage) : 0 < p.remaining := by
  unfold remaining
  split
  · omega
  · omega

/-- **The consumer has come so far** since the stream was `s₀`, and it is now `s`. -/
structure Holds (s₀ s : Stream) (p : Stage) : Prop where
  split : s₀.pending = p.passed ++ p.left
  /-- Everything that was found or is yet to come was added in this order. -/
  ordered : (s₀.pending ++ p.news.filterMap Find.brought? ++ s.fresh).Pairwise Older
  bounded : ∀ e ∈ s₀.pending ++ p.news.filterMap Find.brought?, ¬ Precedes s.last e.id
  recovering : ∀ after, p.cursor = some after → p.news = [] ∧ s.rest after = p.left
  recovered : p.cursor = none → p.left = []
  fresh : ∀ e, .again e ∉ p.news

/-- An exchange reads nothing, and acknowledges nothing that lies ahead. -/
def Spares (p : Stage) : Exchange Answer → Prop
  | ⟨.send (.read ..), _⟩ => False
  | ⟨.send (.ack _ _ id), _⟩ => ∀ e ∈ p.left, e.id ≠ id
  | _ => True

namespace Holds

variable {s₀ s s' : Stream} {p : Stage} {c : Consumer} {es : Exchanges}

theorem takeAway {e : Entry} {fresh : List Entry} (hp : p.Holds s₀ s) (h : s.fresh = e :: fresh) :
    p.Holds s₀ (s.takeAway h) where
  split := hp.split
  ordered := by
    have := hp.ordered
    rw [h] at this
    exact this.sublist ((List.sublist_cons_self e fresh).append_left _)
  bounded := hp.bounded
  recovering := hp.recovering
  recovered := hp.recovered
  fresh := hp.fresh

theorem add {e : Entry} (hp : p.Holds s₀ s) (h : Precedes s.last e.id) :
    p.Holds s₀ (s.add e h) where
  split := hp.split
  ordered := by
    change (_ ++ (s.fresh ++ [e])).Pairwise Older
    rw [← List.append_assoc]
    refine pairwise_older_concat hp.ordered (fun e' he' => ?_) h
    rcases List.mem_append.mp he' with he' | he'
    · exact hp.bounded e' he'
    · exact s.bounded e' (List.mem_append_right _ he')
  bounded e' he' hlast := hp.bounded e' he' (h.trans hlast)
  recovering := hp.recovering
  recovered := hp.recovered
  fresh := hp.fresh

theorem retire {id : String} (hp : p.Holds s₀ s) (h : ∀ e ∈ p.left, e.id ≠ id) :
    p.Holds s₀ (s.retire id) where
  split := hp.split
  ordered := hp.ordered
  bounded := hp.bounded
  recovering after hafter := by
    obtain ⟨hnews, hrest⟩ := hp.recovering after hafter
    refine ⟨hnews, ?_⟩
    rw [← hrest] at h
    rw [Stream.rest_retire h, hrest]
  recovered := hp.recovered
  fresh := hp.fresh

/-- **The consumer stands where it stood**, when exchanges spare what lies ahead. -/
theorem served (hp : p.Holds s₀ s) (h : Serving c s es s') (hes : ∀ ex ∈ es, p.Spares ex) :
    p.Holds s₀ s' := by
  induction h with
  | nil s => exact hp
  | arrived h later ih => exact ih (hp.add h) hes
  | taken h later ih => exact ih (hp.takeAway h) hes
  | answered h later ih =>
    obtain ⟨hex, hlater⟩ := List.forall_mem_cons.mp hes
    refine ih ?_ hlater
    cases h with
    | isOpen => exact hp
    | now t => exact hp
    | recalled found => exact hex.elim
    | handedOut h found => exact hex.elim
    | waited h found => exact hex.elim
    | retired done => exact hp.retire hex
    | @added id m h => exact hp.add (e := .ofMessage id m) h
    | addedElsewhere m other confirmed => exact hp

/-- Others do not move it. -/
theorem elsewhere (hp : p.Holds s₀ s) (h : Serving c s [] s') : p.Holds s₀ s' :=
  hp.served h fun _ hex => absurd hex List.not_mem_nil

/-! ### Steps -/

theorem entries_concat (fs : List Find) (f : Find) :
    (fs ++ [f]).filterMap Find.brought? = fs.filterMap Find.brought? ++ f.brought?.toList := by
  rw [List.filterMap_append]
  cases f with
  | again e => rfl
  | fresh e => rfl
  | nothing => rfl

/-- Nothing of what was pending lies ahead any more. -/
theorem drain (hp : p.Holds s₀ s) (hleft : p.left = []) : Holds s₀ s { p with cursor := none } where
  split := hp.split
  ordered := hp.ordered
  bounded := hp.bounded
  recovering := nofun
  recovered _ := hleft
  fresh := hp.fresh

/-- A pending entry is passed. -/
theorem pass {e : Entry} {left : List Entry} {after : String} (hp : p.Holds s₀ s)
    (hcursor : p.cursor = some after) (hleft : p.left = e :: left) :
    Holds s₀ s ⟨some e.id, p.passed ++ [e], left, p.news⟩ where
  split := by
    rw [hp.split, hleft, List.append_cons]
  ordered := hp.ordered
  bounded := hp.bounded
  recovering after' hafter := by
    cases hafter
    obtain ⟨hnews, hrest⟩ := hp.recovering after hcursor
    rw [hleft] at hrest
    exact ⟨hnews, Stream.rest_next hrest⟩
  recovered := nofun
  fresh := hp.fresh

/-- Something is found of what is fresh. -/
theorem note (f : Find) (hp : p.Holds s₀ s) (hcursor : p.cursor = none) (hf : ∀ e, f ≠ .again e)
    (hfresh : s.fresh = f.brought?.toList ++ s'.fresh) (hlast : s'.last = s.last) :
    Holds s₀ s' { p with news := p.news ++ [f] } where
  split := hp.split
  ordered := by
    have := hp.ordered
    rw [hfresh, ← List.append_assoc] at this
    rwa [entries_concat, ← List.append_assoc]
  bounded e he := by
    rw [entries_concat, ← List.append_assoc] at he
    rw [hlast]
    rcases List.mem_append.mp he with he | he
    · exact hp.bounded e he
    · refine s.bounded e (List.mem_append_right _ ?_)
      rw [hfresh]
      exact List.mem_append_left _ he
  recovering after hafter := by
    rw [hcursor] at hafter
    cases hafter
  recovered := hp.recovered
  fresh e he := by
    rcases List.mem_append.mp he with he | he
    · exact hp.fresh e he
    · exact hf e (List.mem_singleton.mp he).symm

end Holds

/-- **A consumer comes from one stage to another** while the stream becomes `s'`. What it finds on
the way accounts for what is received and sent. -/
structure Leads (c : Consumer) (s₀ s' : Stream) (p q : Stage) (rs : List Consumer.Receipt)
    (cs : List Command) : Prop where
  holds : q.Holds s₀ s'
  account : ∃ fs, q.finds = p.finds ++ fs ∧ rs = fs.filterMap c.receipt? ∧ c.TreatsAll fs cs

namespace Leads

variable {c : Consumer} {s₀ s s' : Stream} {p q q' : Stage} {rs rs' : List Consumer.Receipt}
  {cs cs' : List Command}

/-- Nothing is found. -/
theorem of_eq (hq : q.Holds s₀ s') (hfinds : q.finds = p.finds) : Leads c s₀ s' p q [] [] :=
  ⟨hq, [], by rw [hfinds, List.append_nil], rfl, .nil⟩

/-- One thing is found. -/
theorem of_find {f : Find} (hq : q.Holds s₀ s') (hfinds : q.finds = p.finds ++ [f])
    (htreats : c.Treats f cs) : Leads c s₀ s' p q (c.receipt? f).toList cs :=
  ⟨hq, [f], hfinds, rfl, .single htreats⟩

theorem trans (h : Leads c s₀ s p q rs cs) (h' : Leads c s₀ s' q q' rs' cs') :
    Leads c s₀ s' p q' (rs ++ rs') (cs ++ cs') := by
  obtain ⟨-, fs, hfinds, rfl, htreats⟩ := h
  obtain ⟨hq', fs', hfinds', rfl, htreats'⟩ := h'
  refine ⟨hq', fs ++ fs', ?_, List.filterMap_append.symm, htreats.append htreats'⟩
  rw [hfinds', hfinds, List.append_assoc]

end Leads

end Stage

/-! ## Reads -/

namespace Consumer

variable {c c' : Consumer} {s₀ s s' : Stream} {p : Stage} {es : Exchanges} {wait : Span}
  {r : Option Receipt} {e : Entry} {cursor : Option String}

/-- What an entry is found as. -/
def foundBy (cursor : Option String) (e : Entry) : Find :=
  match cursor with
  | some _ => .again e
  | none => .fresh e

theorem brought?_foundBy (cursor : Option String) (e : Entry) :
    (foundBy cursor e).brought? = some e := by
  cases cursor with
  | some after => rfl
  | none => rfl

theorem receipt?_of_ok {m : Message} (hm : e.message = .ok m) :
    c.receipt? (foundBy cursor e) =
      some (.ok (some (c.delivery e m (c.upTo cursor).handOuts))) := by
  cases cursor with
  | some after =>
    dsimp only [foundBy, receipt?]
    rw [hm]
    rfl
  | none =>
    dsimp only [foundBy, receipt?]
    rw [hm]
    rfl

theorem receipt?_of_error {error : TransportError} (hm : e.message = .error error) :
    c.receipt? (foundBy cursor e) = (c.upTo cursor).unmet := by
  cases cursor with
  | some after =>
    dsimp only [foundBy, receipt?]
    rw [hm]
    rfl
  | none =>
    dsimp only [foundBy, receipt?]
    rw [hm]
    rfl

/-- A fresh entry always settles what is received. -/
theorem receipt?_fresh_ne_none : c.receipt? (.fresh e) ≠ none := by
  unfold receipt?
  dsimp only
  split
  · nofun
  · nofun

/-- What is done about an entry, when nothing fails. -/
theorem Meeting.treats (h : (c.upTo cursor).Meeting e es (c', r))
    (answered : ∀ ex ∈ es, ∃ s₁ s₂, Answers c s₁ ex s₂) :
    r = c.receipt? (foundBy cursor e) ∧ c.Treats (foundBy cursor e) (settling es) ∧
      ∀ p : Stage, (∀ e' ∈ p.left, e'.id ≠ e.id) → ∀ ex ∈ es, p.Spares ex := by
  cases h with
  | dropped y drops =>
    obtain ⟨s₁, s₂, hanswer⟩ := answered _ List.mem_cons_self
    obtain ⟨error, herror⟩ := e.message_of_isTrimmed drops.2
    obtain ⟨after, rfl⟩ := Option.ne_none_iff_exists'.mp drops.1
    refine ⟨?_, .dropped drops.2, fun p hleft ex hex => ?_⟩
    · rw [receipt?_of_error herror]
      change unlessFailed (c.retired e.id y) none = none
      rw [hanswer.of_ack.1]
      rfl
    · rw [List.mem_singleton.mp hex]
      exact hleft
  | delivered read =>
    exact ⟨(receipt?_of_ok read).symm, .delivered (brought?_foundBy cursor e) read,
      fun p hleft ex hex => absurd hex List.not_mem_nil⟩
  | @reported error now es' r' kept unread moved =>
    cases moved with
    | @refused z error' refused =>
      obtain ⟨s₁, s₂, hanswer⟩ := answered _ (List.mem_cons_of_mem _ List.mem_cons_self)
      have hadded := (added_eq_ok_iff.mpr hanswer.of_add.1).symm.trans refused
      cases hadded
    | @retired z y confirmed =>
      obtain ⟨s₁, s₂, hanswer⟩ := answered _
        (List.mem_cons_of_mem _ (List.mem_cons_of_mem _ List.mem_cons_self))
      refine ⟨?_, .reported now (brought?_foundBy cursor e) ?_ unread, fun p hleft ex hex => ?_⟩
      · rw [receipt?_of_error unread]
        change unlessFailed (c.retired e.id y) _ = _
        rw [hanswer.of_ack.1]
        rfl
      · intro hagain
        cases cursor with
        | some after => exact Bool.eq_false_iff.mpr fun htrimmed => kept ⟨nofun, htrimmed⟩
        | none => cases hagain
      · simp only [List.mem_cons, List.not_mem_nil, or_false] at hex
        rcases hex with rfl | rfl | rfl
        · trivial
        · trivial
        · exact hleft

/-- A read of what is pending passes an entry, or finds that none is left. -/
theorem Advanced.leads_pending {after : String} (h : (c.upTo p.cursor).Advanced wait es (c', r))
    (served : Serving c s es s') (hp : p.Holds s₀ s) (hcursor : p.cursor = some after) :
    ∃ q : Stage, c' = c.upTo q.cursor ∧ p.Leads c s₀ s' q r.toList (settling es) ∧
      q.remaining < p.remaining := by
  obtain ⟨x, later, rfl, -⟩ := h.eq_cons
  obtain ⟨s₁, s₂, hothers, hanswer, hlater⟩ := served.split_cons
  have hremaining : p.remaining = p.left.length + 2 := by
    unfold Stage.remaining
    rw [hcursor]
  rw [hcursor] at h hanswer
  replace hp := hp.elsewhere hothers
  obtain ⟨hfound, rfl⟩ := hanswer.of_pending
  obtain ⟨hnews, hrest⟩ := hp.recovering after hcursor
  rw [hrest] at hfound
  cases hleft : p.left with
  | nil =>
    rw [hleft] at hfound
    obtain ⟨rfl, rfl, rfl⟩ := h.of_none hfound
    refine ⟨{ p with cursor := none }, rfl, .of_eq ((hp.drain hleft).elsewhere hlater) rfl, ?_⟩
    rw [hremaining]
    exact Nat.lt_of_lt_of_le Nat.one_lt_two (Nat.le_add_left 2 _)
  | cons e left =>
    rw [hleft] at hfound
    have hmeeting := h.of_some hfound
    obtain ⟨rfl, htreats, hspares⟩ := hmeeting.treats fun ex hex => hlater.exists_answers hex
    have hordered := s₂.ordered_rest after
    rw [hrest, hleft] at hordered
    -- no id is given twice, so an acknowledgement of the entry spares those that follow it
    have hahead : ∀ e' ∈ left, e'.id ≠ e.id := fun e' he' =>
      ((List.pairwise_cons.mp hordered).1 e' he').ne.symm
    refine ⟨⟨some e.id, p.passed ++ [e], left, p.news⟩, hmeeting.same,
      .of_find ((hp.pass hcursor hleft).served hlater (hspares _ hahead)) ?_ htreats, ?_⟩
    · unfold Stage.finds
      rw [hnews, List.map_append, List.append_nil, List.append_nil]
      rfl
    · rw [hremaining, hleft]
      exact Nat.lt_succ_self _

/-- A read of what is fresh finds an entry, or waits in vain. Something is received either way. -/
theorem Advanced.leads_fresh (h : (c.upTo p.cursor).Advanced wait es (c', r))
    (served : Serving c s es s') (hp : p.Holds s₀ s) (hcursor : p.cursor = none) :
    ∃ q : Stage, c' = c.upTo q.cursor ∧ p.Leads c s₀ s' q r.toList (settling es) ∧ r ≠ none := by
  obtain ⟨x, later, rfl, -⟩ := h.eq_cons
  obtain ⟨s₁, s₂, hothers, hanswer, hlater⟩ := served.split_cons
  rw [hcursor] at h hanswer
  replace hp := hp.elsewhere hothers
  rcases hanswer.of_fresh with ⟨hfound, rfl⟩ | ⟨e, fresh, hfresh, hfound, rfl⟩
  · obtain ⟨rfl, rfl, rfl⟩ := h.of_none hfound
    have hnoted := hp.note .nothing hcursor (fun _ h => nomatch h) rfl rfl
    refine ⟨_, ?_, .of_find (hnoted.elsewhere hlater) (List.append_assoc _ _ _).symm .nothing,
      nofun⟩
    rw [hcursor]
  · have hmeeting := h.of_some hfound
    obtain ⟨rfl, htreats, hspares⟩ := hmeeting.treats fun ex hex => hlater.exists_answers hex
    have hnoted : Stage.Holds s₀ (s₁.handOut hfresh) { p with news := p.news ++ [.fresh e] } :=
      hp.note (.fresh e) hcursor (fun _ h => nomatch h) hfresh rfl
    have hspared : ∀ e' ∈ p.left, e'.id ≠ e.id := by
      rw [hp.recovered hcursor]
      exact fun e' he' => absurd he' List.not_mem_nil
    refine ⟨_, ?_, .of_find (hnoted.served hlater (hspares _ hspared))
      (List.append_assoc _ _ _).symm htreats, receipt?_fresh_ne_none⟩
    rw [hcursor]
    exact hmeeting.same

/-- **How far a read leads.** If nothing is received yet, less is left to be read. -/
theorem Advanced.leads (h : (c.upTo p.cursor).Advanced wait es (c', r))
    (served : Serving c s es s') (hp : p.Holds s₀ s) :
    ∃ q : Stage, c' = c.upTo q.cursor ∧ p.Leads c s₀ s' q r.toList (settling es) ∧
      (r = none → q.remaining < p.remaining) := by
  cases hcursor : p.cursor with
  | some after =>
    obtain ⟨q, hq, hleads, hless⟩ := h.leads_pending served hp hcursor
    exact ⟨q, hq, hleads, fun _ => hless⟩
  | none =>
    obtain ⟨q, hq, hleads, hsettled⟩ := h.leads_fresh served hp hcursor
    exact ⟨q, hq, hleads, fun hnone => absurd hnone hsettled⟩

/-- **How far a series of reads leads.** Something is received if enough may be read. -/
theorem Reading.leads {reads : Nat} {p' : Progress}
    (h : Reading wait reads (c.upTo p.cursor) es p') (served : Serving c s es s')
    (hp : p.Holds s₀ s) :
    ∃ q : Stage, p'.1 = c.upTo q.cursor ∧ p.Leads c s₀ s' q p'.2.toList (settling es) ∧
      (p.remaining ≤ reads → p'.2 ≠ none) := by
  generalize hc : c.upTo p.cursor = c₁ at h
  induction h generalizing p s with
  | unsettled c₁ =>
    refine ⟨p, hc.symm, .of_eq (hp.elsewhere served) rfl, fun hreads => ?_⟩
    exact absurd p.remaining_pos (Nat.not_lt.mpr hreads)
  | settled h =>
    subst hc
    obtain ⟨q, hq, hleads, -⟩ := h.leads served hp
    exact ⟨q, hq, hleads, fun _ => nofun⟩
  | goOn h rest ih =>
    subst hc
    obtain ⟨s₁, hfirst, hlater⟩ := served.split
    obtain ⟨q, rfl, hleads, hless⟩ := h.leads hfirst hp
    obtain ⟨q', hq', hleads', hends⟩ := ih hlater hleads.holds rfl
    refine ⟨q', hq', ?_, fun hreads => hends ?_⟩
    · rw [settling_append]
      exact hleads.trans hleads'
    · have := hless rfl
      omega

end Consumer

end TaskQueue.Redis
