import TaskQueue.Engine.Turn
import TaskQueue.Proofs.Engine.Port

/-!
# Components that are told to end

A component is told to end by its caller, who cancels it, or by its stop, which then closes the
handle of the component. Either may happen before any exchange. While the component waits for a
delivery it looks at what it was told before it looks at the broker.

An engine runs by an opening and then turn after turn, up to the first that is the last.

Results:

* `Attended.of_append`, `Attended.of_cons`: exchanges, one part after the other;
* `Attended.settles`: closing the handle does not keep a delivery from being settled;
* `Attended.closed_of_refused`: whoever is refused has a closed handle;
* `Runs.endsBy`: a run ends as its scripts do;
* `awaitThen_concludes`, `awaitThen_told`: **waiting for a delivery is a normal end** for whoever
  was told to end.
-/

namespace TaskQueue.Engine

open Broker

variable {ν σ ε : Type}

/-- A component at its broker, and whether it was told to end. -/
structure Station where
  port : Port
  told : Bool

/-- A handle is closed by a stop only, which tells the component to end first. -/
def Station.Proper (s : Station) : Prop := s.port.closed = true → s.told = true

/-- What a component was told shows in an answer. -/
def Heeds (told : Bool) : Exchange (Answer ν) → Prop
  | ⟨.receive _, .cancelled⟩ => told = true
  | ⟨.receive _, .nothing⟩ => told = false
  | ⟨.receive _, .delivery _⟩ => told = false
  | ⟨.isCancelled, x⟩ => x = told
  | _ => True

/-- **Exchanges of a component that may be told to end**, by a consumer of a group of a topic. -/
inductive Attended (topic group : String) : Station → Exchanges ν → Station → Prop where
  | nil (s : Station) : Attended topic group s [] s
  /-- The caller cancels the component, or a stop begins. -/
  | told {p : Port} {t : Bool} {es : Exchanges ν} {s : Station}
      (h : Attended topic group ⟨p, true⟩ es s) : Attended topic group ⟨p, t⟩ es s
  /-- A stop closes the handle. -/
  | shut {b : State} {c : Bool} {es : Exchanges ν} {s : Station}
      (h : Attended topic group ⟨⟨b, true⟩, true⟩ es s) : Attended topic group ⟨⟨b, c⟩, true⟩ es s
  /-- Others use the broker. -/
  | others {b : State} (b' : State) {c t : Bool} {es : Exchanges ν} {s : Station}
      (h : Attended topic group ⟨⟨b', c⟩, t⟩ es s) : Attended topic group ⟨⟨b, c⟩, t⟩ es s
  | cons {p p' : Port} {t : Bool} {e : Exchange (Answer ν)} {es : Exchanges ν} {s : Station}
      (heeds : Heeds t e) (serves : Serves topic group p e p')
      (h : Attended topic group ⟨p', t⟩ es s) : Attended topic group ⟨p, t⟩ (e :: es) s

/-! ## Refusals and failures -/

/-- Publishing or joining a group has failed. -/
def Exchange.Refused : Exchange (Answer ν) → Prop
  | ⟨.publish .., .error _⟩ => True
  | ⟨.subscribe .., .error _⟩ => True
  | _ => False

/-- Settling a delivery does not fail. -/
def Exchange.Settles : Exchange (Answer ν) → Prop
  | ⟨.ack _, x⟩ => x = .ok ()
  | ⟨.reject .., x⟩ => x = .ok ()
  | _ => True

/-- The failure of the transport that a component gets to see. -/
def Exchange.failure? : Exchange (Answer ν) → Option TransportError
  | ⟨.publish .., .error e⟩ => some e
  | ⟨.subscribe .., .error e⟩ => some e
  | ⟨.ack _, .error e⟩ => some e
  | ⟨.reject .., .error e⟩ => some e
  | ⟨.receive _, .failed e⟩ => some e
  | _ => none

namespace Exchanges

/-- Publishing or joining a group has failed somewhere. -/
def Refused (es : Exchanges ν) : Prop := ∃ e ∈ es, e.Refused

/-- All failures of the transport are that the handle is closed. -/
def OnlyClosed (es : Exchanges ν) : Prop := ∀ e ∈ es, ∀ x, e.failure? = some x → x = .closed

variable {e : Exchange (Answer ν)} {es es' : Exchanges ν}

@[simp] theorem refused_nil : ¬ Refused ([] : Exchanges ν) := fun ⟨_, he, _⟩ => nomatch he

@[simp] theorem refused_cons : Refused (e :: es) ↔ e.Refused ∨ Refused es := by
  simp only [Refused, List.mem_cons, exists_eq_or_imp]

@[simp] theorem refused_append : Refused (es ++ es') ↔ Refused es ∨ Refused es' := by
  simp only [Refused, List.mem_append, or_and_right, exists_or]

@[simp] theorem onlyClosed_nil : OnlyClosed ([] : Exchanges ν) := fun _ he => nomatch he

@[simp] theorem onlyClosed_cons :
    OnlyClosed (e :: es) ↔ (∀ x, e.failure? = some x → x = .closed) ∧ OnlyClosed es :=
  List.forall_mem_cons

theorem OnlyClosed.append (h : OnlyClosed (es ++ es')) : OnlyClosed es ∧ OnlyClosed es' :=
  List.forall_mem_append.mp h

theorem OnlyClosed.cons (h : OnlyClosed (e :: es)) :
    (∀ x, e.failure? = some x → x = .closed) ∧ OnlyClosed es :=
  onlyClosed_cons.mp h

/-- A refusal goes to the broker. -/
theorem refused_transport : Refused es.transport ↔ Refused es := by
  constructor
  · rintro ⟨e, he, hr⟩
    exact ⟨e, (List.mem_filter.mp he).1, hr⟩
  · rintro ⟨⟨r, x⟩, he, hr⟩
    refine ⟨_, List.mem_filter.mpr ⟨he, ?_⟩, hr⟩
    cases r with
    | publish => rfl
    | subscribe => rfl
    | _ => cases hr

/-- What asks nothing of the broker is not refused. -/
theorem not_refused_of_transport (h : es.transport = []) : ¬ Refused es := by
  rw [← refused_transport, h]
  exact refused_nil

end Exchanges

/-! ## One exchange -/

section

variable {topic group : String} {p p' : Port} {e : Exchange (Answer ν)} {es es' : Exchanges ν}
  {s s' s'' : Station}

/-- A position that cannot be read is no closed handle. -/
theorem index?_ne_closed (q : Position) : State.index? q ≠ .error .closed := by
  unfold State.index?
  split
  · exact nofun
  · exact nofun

theorem reject_ne_closed (b : State) (q : Position) (requeue : Bool) :
    b.reject topic group q requeue ≠ .error .closed := by
  unfold State.reject
  cases h : State.index? q with
  | ok i => exact nofun
  | error e =>
    intro he
    obtain rfl : e = .closed := Except.error.inj he
    exact index?_ne_closed q h

/-- **A closed handle does not keep a delivery from being settled.** -/
theorem Serves.settles (h : Serves topic group p e p')
    (hc : ∀ x, e.failure? = some x → x = .closed) : e.Settles := by
  cases h with
  | acked => rfl
  | rejected => rfl
  | ackFailed h =>
    obtain rfl := hc _ rfl
    exact absurd h (reject_ne_closed _ _ false)
  | rejectFailed h =>
    obtain rfl := hc _ rfl
    exact absurd h (reject_ne_closed _ _ _)
  | elsewhere _ h =>
    obtain ⟨r, x⟩ := e
    cases r with
    | ack => cases h
    | reject => cases h
    | _ => trivial
  | _ => trivial

theorem serves_failed {wait : Time.Span} {x : TransportError}
    (h : Serves topic group p (⟨.receive wait, .failed x⟩ : Exchange (Answer ν)) p') :
    p'.closed = true := by
  cases h with
  | receiveRefused => rfl
  | elsewhere _ h => cases h

theorem Serves.closed_of_refused (h : Serves topic group p e p') (hr : e.Refused) :
    p'.closed = true := by
  cases h with
  | publishRefused => rfl
  | subscribeRefused => rfl
  | elsewhere _ h =>
    obtain ⟨r, x⟩ := e
    cases r with
    | publish => cases h
    | subscribe => cases h
    | _ => cases hr
  | _ => cases hr

/-- Whether a handle is closed is not changed by what goes through it. -/
theorem Serves.closed_eq (h : Serves topic group p e p') : p'.closed = p.closed := by
  cases h with
  | _ => rfl

/-! ## One exchange after the other -/

/-- Before an exchange the component may have been told to end, and its handle closed. -/
theorem Attended.of_cons (h : Attended topic group s (e :: es) s'') (hs : s.Proper) :
    ∃ (s' : Station) (p : Port), (s.told = true → s'.told = true) ∧ s'.Proper ∧
      Heeds s'.told e ∧ Serves topic group s'.port e p ∧
      Attended topic group ⟨p, s'.told⟩ es s'' := by
  generalize hes : e :: es = es' at h
  induction h with
  | nil => cases hes
  | told _ ih =>
    obtain ⟨s', p, ht, h⟩ := ih (fun _ => rfl) hes
    exact ⟨s', p, fun _ => ht rfl, h⟩
  | shut _ ih => exact ih (fun _ => rfl) hes
  | others b' _ ih => exact ih hs hes
  | cons heeds serves h =>
    obtain ⟨rfl, rfl⟩ := List.cons.inj hes
    exact ⟨_, _, id, hs, heeds, serves, h⟩

/-- What goes through a proper station leaves it proper. -/
theorem Serves.proper {t : Bool} (h : Serves topic group p e p')
    (hs : Station.Proper ⟨p, t⟩) : Station.Proper ⟨p', t⟩ :=
  fun hc => hs (h.closed_eq ▸ hc)

theorem Attended.proper (h : Attended topic group s es s') (hs : s.Proper) : s'.Proper := by
  induction h with
  | nil => exact hs
  | told _ ih => exact ih fun _ => rfl
  | shut _ ih => exact ih fun _ => rfl
  | others b' _ ih => exact ih hs
  | cons _ serves _ ih => exact ih (serves.proper hs)

/-- Who was told to end stays told. -/
theorem Attended.told_of_told (h : Attended topic group s es s') (ht : s.told = true) :
    s'.told = true := by
  induction h with
  | nil => exact ht
  | told _ ih => exact ih rfl
  | shut _ ih => exact ih rfl
  | others b' _ ih => exact ih ht
  | cons _ _ _ ih => exact ih ht

/-- A closed handle stays closed. -/
theorem Attended.closed (h : Attended topic group s es s') (hc : s.port.closed = true) :
    s'.port.closed = true := by
  induction h with
  | nil => exact hc
  | told _ ih => exact ih hc
  | shut _ ih => exact ih rfl
  | others b' _ ih => exact ih hc
  | cons _ serves _ ih => exact ih (serves.closed hc)

theorem Attended.of_append (h : Attended topic group s (es ++ es') s'') :
    ∃ s', Attended topic group s es s' ∧ Attended topic group s' es' s'' := by
  generalize hes : es ++ es' = es'' at h
  induction h generalizing es with
  | nil s =>
    obtain ⟨rfl, rfl⟩ := List.append_eq_nil_iff.mp hes
    exact ⟨s, .nil s, .nil s⟩
  | told _ ih =>
    obtain ⟨s', h, h'⟩ := ih hes
    exact ⟨s', .told h, h'⟩
  | shut _ ih =>
    obtain ⟨s', h, h'⟩ := ih hes
    exact ⟨s', .shut h, h'⟩
  | others b' _ ih =>
    obtain ⟨s', h, h'⟩ := ih hes
    exact ⟨s', .others b' h, h'⟩
  | cons heeds serves h ih =>
    cases es with
    | nil =>
      obtain rfl : es' = _ := hes
      exact ⟨_, .nil _, .cons heeds serves h⟩
    | cons e es =>
      obtain ⟨rfl, hrest⟩ := List.cons.inj hes
      obtain ⟨s', h, h'⟩ := ih hrest
      exact ⟨s', .cons heeds serves h, h'⟩

/-- **Settling does not fail** when all that fails is a closed handle. -/
theorem Attended.settles (h : Attended topic group s es s') (hc : es.OnlyClosed) :
    ∀ e ∈ es, e.Settles := by
  induction h with
  | nil => exact fun _ he => nomatch he
  | told _ ih => exact ih hc
  | shut _ ih => exact ih hc
  | others b' _ ih => exact ih hc
  | cons _ serves _ ih =>
    intro e he
    rcases List.mem_cons.mp he with rfl | he
    · exact serves.settles hc.cons.1
    · exact ih hc.cons.2 e he

/-- **Whoever is refused has a closed handle.** -/
theorem Attended.closed_of_refused (h : Attended topic group s es s') (hr : es.Refused) :
    s'.port.closed = true := by
  induction h with
  | nil => exact absurd hr Exchanges.refused_nil
  | told _ ih => exact ih hr
  | shut _ ih => exact ih hr
  | others b' _ ih => exact ih hr
  | cons _ serves h ih =>
    rcases Exchanges.refused_cons.mp hr with hr | hr
    · exact h.closed (serves.closed_of_refused hr)
    · exact ih hr

end

/-! ## Runs of engines -/

/-- **A run of an engine**, from one of its scripts to the end of the last. -/
inductive Runs (turn : σ → Program ν (Turn σ ε)) :
    Program ν (Turn σ ε) → Exchanges ν → Except ε Unit → Prop where
  | last {x : Program ν (Turn σ ε)} {es : Exchanges ν} {r : Except ε Unit}
      (h : x.Ends es (.ended r)) : Runs turn x es r
  | goOn {x : Program ν (Turn σ ε)} {es es' : Exchanges ν} {state : σ} {r : Except ε Unit}
      (h : x.Ends es (.goOn state)) (hs : Runs turn (turn state) es' r) :
      Runs turn x (es ++ es') r

/-- How an engine ends when all that fails is a closed handle. `fail` makes a failure of the
transport one of the engine; `broken` are the failures of the engine that have nothing to do with
the transport. -/
inductive EndsBy (fail : TransportError → ε) (broken : ε → Prop) (es : Exchanges ν) :
    Except ε Unit → Prop where
  | refused (h : es.Refused) : EndsBy fail broken es (.error (fail .closed))
  | normal (h : ¬ es.Refused) : EndsBy fail broken es (.ok ())
  | broken (h : ¬ es.Refused) {e : ε} (he : broken e) : EndsBy fail broken es (.error e)

/-- How a script of an engine ends: the run goes on only when nothing was refused. -/
def ConcludesBy (fail : TransportError → ε) (broken : ε → Prop) (es : Exchanges ν) :
    Turn σ ε → Prop
  | .goOn _ => ¬ es.Refused
  | .ended r => EndsBy fail broken es r

/-- A script ends in this way whenever its component is told to end, if at all. -/
def Concludes (topic group : String) (fail : TransportError → ε) (broken : ε → Prop)
    (x : Program ν (Turn σ ε)) : Prop :=
  ∀ (es : Exchanges ν) t s s', x.Ends es t → Attended topic group s es s' → s.Proper →
    es.OnlyClosed → ConcludesBy fail broken es t

section

variable {topic group : String} {fail : TransportError → ε} {broken : ε → Prop}
  {es es' : Exchanges ν} {r : Except ε Unit} {s s' : Station}

theorem EndsBy.prepend (h : EndsBy fail broken es' r) (hn : ¬ es.Refused) :
    EndsBy fail broken (es ++ es') r := by
  cases h with
  | refused h => exact .refused (Exchanges.refused_append.mpr (.inr h))
  | normal h => exact .normal fun hr => (Exchanges.refused_append.mp hr).elim hn h
  | broken h he => exact .broken (fun hr => (Exchanges.refused_append.mp hr).elim hn h) he

theorem ConcludesBy.prepend {t : Turn σ ε} (h : ConcludesBy fail broken es' t)
    (hn : ¬ es.Refused) : ConcludesBy fail broken (es ++ es') t := by
  cases t with
  | goOn state => exact fun hr => (Exchanges.refused_append.mp hr).elim hn h
  | ended r => exact EndsBy.prepend h hn

/-- What asks nothing of the broker does not change how a script concludes. -/
theorem Concludes.bind {α : Type} {x : Program ν α} {f : α → Program ν (Turn σ ε)}
    (hx : ∀ (es : Exchanges ν) a, x.Ends es a → es.transport = [])
    (hf : ∀ a, Concludes topic group fail broken (f a)) :
    Concludes topic group fail broken (x >>= f) := by
  intro es t s s' h attended hs hc
  obtain ⟨es₁, es₂, a, rfl, h₁, h₂⟩ := Script.ends_bind_iff.mp h
  obtain ⟨s₁, attended₁, attended₂⟩ := attended.of_append
  exact (hf a es₂ t s₁ s' h₂ attended₂ (attended₁.proper hs) hc.append.2).prepend
    (Exchanges.not_refused_of_transport (hx es₁ a h₁))

/-- **A run ends as its scripts do.** -/
theorem Runs.endsBy {turn : σ → Program ν (Turn σ ε)} {x : Program ν (Turn σ ε)}
    (h : Runs turn x es r) (hx : Concludes topic group fail broken x)
    (hturn : ∀ state, Concludes topic group fail broken (turn state))
    (attended : Attended topic group s es s') (hs : s.Proper) (hc : es.OnlyClosed) :
    EndsBy fail broken es r := by
  induction h generalizing s with
  | last h => exact hx _ _ s s' h attended hs hc
  | goOn h _ ih =>
    obtain ⟨s₁, h₁, h₂⟩ := attended.of_append
    have hn := hx _ _ s s₁ h h₁ hs hc.append.1
    exact (ih (hturn _) h₂ (h₁.proper hs) hc.append.2).prepend hn

/-- The run ends by a closed handle exactly when something was refused. -/
theorem EndsBy.closed_iff (h : EndsBy fail broken es r) (hb : ¬ broken (fail .closed)) :
    r = .error (fail .closed) ↔ es.Refused := by
  cases h with
  | refused h => exact iff_of_true rfl h
  | normal h => exact iff_of_false nofun h
  | broken h he =>
    refine iff_of_false (fun heq => ?_) h
    obtain rfl := Except.error.inj heq
    exact hb he

/-! ## Waiting for a delivery -/

/-- Waits for a delivery and goes on with it, or without one, unless the engine is told to end or
the transport fails. -/
def awaitThen (fail : TransportError → ε) (onward : Option Delivery → Program ν (Turn σ ε))
    (wait : Time.Span) : Program ν (Turn σ ε) := do
  match ← ask (.receive wait) with
  | .cancelled => return .ended (.ok ())
  | .nothing => onward none
  | .delivery d => onward (some d)
  | .failed e =>
    if e = .closed then
      if ← ask .isCancelled then return .ended (.ok ())
    return .ended (.error (fail e))

/-- What waiting comes to when all that fails is a closed handle. -/
inductive Awaited (onward : Option Delivery → Program ν (Turn σ ε)) (wait : Time.Span) :
    Exchanges ν → Turn σ ε → Prop where
  | cancelled : Awaited onward wait [⟨.receive wait, .cancelled⟩] (.ended (.ok ()))
  | closed : Awaited onward wait [⟨.receive wait, .failed .closed⟩, ⟨.isCancelled, true⟩]
      (.ended (.ok ()))
  | nothing {es : Exchanges ν} {t : Turn σ ε} (h : (onward none).Ends es t) :
      Awaited onward wait (⟨.receive wait, .nothing⟩ :: es) t
  | delivery (d : Delivery) {es : Exchanges ν} {t : Turn σ ε}
      (h : (onward (some d)).Ends es t) :
      Awaited onward wait (⟨.receive wait, .delivery d⟩ :: es) t

variable {onward : Option Delivery → Program ν (Turn σ ε)} {wait : Time.Span} {t : Turn σ ε}

/-- **A handle that is closed while its component waits** is closed because the component was told
to end. -/
theorem awaitThen_ends (h : (awaitThen fail onward wait).Ends es t)
    (attended : Attended topic group s es s') (hs : s.Proper) (hc : es.OnlyClosed) :
    Awaited onward wait es t := by
  unfold awaitThen at h
  simp only [Script.request_bind, Script.ends_ask_iff] at h
  obtain ⟨x, es₁, rfl, h₁⟩ := h
  cases x with
  | cancelled =>
    obtain ⟨rfl, rfl⟩ := Script.ends_done_iff.mp h₁
    exact .cancelled
  | nothing => exact .nothing h₁
  | delivery d => exact .delivery d h₁
  | failed e =>
    obtain rfl : e = .closed := hc.cons.1 e rfl
    simp only [if_true, Script.ends_ask_iff] at h₁
    obtain ⟨x, es₂, rfl, h₂⟩ := h₁
    obtain ⟨s₁, p, -, hs₁, -, serves, attended₁⟩ := attended.of_cons hs
    have htold : s₁.told = true := hs₁ (serves.closed_eq ▸ serves_failed serves)
    obtain ⟨s₂, p', hmono, -, heeds, -, -⟩ := attended₁.of_cons (serves.proper hs₁)
    obtain rfl : x = true := Eq.trans heeds (hmono htold)
    obtain ⟨rfl, rfl⟩ := Script.ends_done_iff.mp h₂
    exact .closed

/-- What waiting leads on to decides how a turn concludes. -/
theorem awaitThen_concludes
    (honward : ∀ d?, Concludes topic group fail broken (onward d?)) :
    Concludes topic group fail broken (awaitThen fail onward wait) := by
  intro es t s s' h attended hs hc
  have step {x : Received} {es : Exchanges ν} {t : Turn σ ε} {d? : Option Delivery}
      (h : (onward d?).Ends es t)
      (attended : Attended topic group s (⟨.receive wait, x⟩ :: es) s')
      (hc : Exchanges.OnlyClosed (⟨.receive wait, x⟩ :: es)) :
      ConcludesBy fail broken (⟨.receive wait, x⟩ :: es) t := by
    obtain ⟨s₁, p, -, hs₁, -, serves, attended₁⟩ := attended.of_cons hs
    have hd := honward d? es t _ s' h attended₁ (serves.proper hs₁) hc.cons.2
    have hn : ¬ Exchanges.Refused [(⟨.receive wait, x⟩ : Exchange (Answer ν))] := by
      simp [Exchange.Refused]
    exact hd.prepend hn
  cases awaitThen_ends h attended hs hc with
  | cancelled => exact .normal (by simp [Exchange.Refused])
  | closed => exact .normal (by simp [Exchange.Refused])
  | nothing h => exact step h attended hc
  | delivery d h => exact step h attended hc

/-- **Who was told to end** is handed nothing, and ends normally. -/
theorem awaitThen_told (h : (awaitThen fail onward wait).Ends es t)
    (attended : Attended topic group s es s') (hs : s.Proper) (hc : es.OnlyClosed)
    (ht : s.told = true) :
    t = .ended (.ok ()) ∧ ∀ w d, ⟨.receive w, .delivery d⟩ ∉ es := by
  -- the flag is looked at before the broker
  have heeded {x : Received} {es : Exchanges ν}
      (attended : Attended topic group s (⟨.receive wait, x⟩ :: es) s') :
      x ≠ .nothing ∧ ∀ d, x ≠ .delivery d := by
    obtain ⟨s₁, p, hmono, -, heeds, -, -⟩ := attended.of_cons hs
    have htold := hmono ht
    constructor
    · rintro rfl
      exact nomatch htold.symm.trans heeds
    · rintro d rfl
      exact nomatch htold.symm.trans heeds
  cases awaitThen_ends h attended hs hc with
  | cancelled => exact ⟨rfl, by simp⟩
  | closed => exact ⟨rfl, by simp⟩
  | nothing => exact absurd rfl (heeded attended).1
  | delivery d => exact absurd rfl ((heeded attended).2 d)

end

end TaskQueue.Engine
