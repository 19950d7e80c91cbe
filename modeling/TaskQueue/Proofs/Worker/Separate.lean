import TaskQueue.Proofs.Broker.State
import TaskQueue.Proofs.Redis.Position
import TaskQueue.Proofs.Worker.Books
import TaskQueue.Proofs.Worker.Requests

/-!
# Trails of different messages

While a delivery is not resolved its trail is kept under the text of its position. A call on a
delivery keeps and drops no other trail, whether it returns, fails or is broken off. Brokers give
offsets without colons, so positions have texts of their own, and what is kept for a position is
what the calls on deliveries from there make of it.

Results:

* `Handling.Possible.own`: a call names no trail but that of its delivery;
* `Handling.trails_at`: what is kept for a position after any calls;
* `trails_apart`: **the trails of different messages are never mixed up.**
-/

namespace TaskQueue.Engine

variable {ν : Type}

/-- The text of the position whose trail is kept or dropped. -/
def Request.trail? : Request → Option String
  | remember position _ | forget position => some position
  | _ => none

/-- What is kept under a key stays when an exchange is about another one. -/
theorem Exchange.get?_keep_of_ne {e : Exchange (Answer ν)} {key : String}
    (h : e.request.trail? ≠ some key) (s : Dict String Trail) :
    (e.keep s).get? key = s.get? key := by
  obtain ⟨r, x⟩ := e
  cases r with
  | remember key' t =>
    have hne : key ≠ key' := fun he => h (congrArg some he.symm)
    exact (Dict.get?_insert s key' key t).trans (if_neg hne)
  | forget key' =>
    have hne : key ≠ key' := fun he => h (congrArg some he.symm)
    exact (Dict.get?_erase s key' key).trans (if_neg hne)
  | _ => rfl

/-- What is kept under a key after an exchange depends on what was kept under it. -/
theorem Exchange.get?_keep_congr (e : Exchange (Answer ν)) {key : String} {s s' : Dict String Trail}
    (h : s.get? key = s'.get? key) : (e.keep s).get? key = (e.keep s').get? key := by
  obtain ⟨r, x⟩ := e
  cases r with
  | remember key' t =>
    show (s.insert key' t).get? key = (s'.insert key' t).get? key
    rw [Dict.get?_insert, Dict.get?_insert, h]
  | forget key' =>
    show (s.erase key').get? key = (s'.erase key').get? key
    rw [Dict.get?_erase, Dict.get?_erase, h]
  | _ => exact h

namespace Exchanges

variable {es : Exchanges ν} {key : String} {s s' : Dict String Trail}

theorem get?_trails_congr (es : Exchanges ν) (h : s.get? key = s'.get? key) :
    (es.trails s).get? key = (es.trails s').get? key := by
  induction es generalizing s s' with
  | nil => exact h
  | cons e es ih => exact ih (e.get?_keep_congr h)

theorem get?_trails_of_ne (h : ∀ e ∈ es, e.request.trail? ≠ some key) (s : Dict String Trail) :
    (es.trails s).get? key = s.get? key := by
  induction es generalizing s with
  | nil => rfl
  | cons e es ih =>
    rw [trails_cons, ih (fun e he => h e (.tail _ he)),
      Exchange.get?_keep_of_ne (h e List.mem_cons_self)]

end Exchanges

end TaskQueue.Engine

namespace TaskQueue.Worker

open Engine Broker Retry Script

variable {ν : Type}

/-! ## Any calls -/

/-- A call on a delivery names no trail but that of its delivery. -/
theorem Concerns.trail {d : Delivery} {r : Request} {key : String} (h : Concerns d r)
    (hkey : r.trail? = some key) : key = d.position.render := by
  cases h with
  | remember | forget => exact (Option.some.inj hkey).symm
  | _ => cases hkey

/-- A call on a delivery, with what was exchanged until it returned, failed or was broken off. -/
structure Handling (ν : Type) where
  delivery : Delivery
  exchanges : Exchanges ν

namespace Handling

/-- The call may go so, under some configuration and whatever is answered. -/
def Possible [Number.Arithmetic ν] (h : Handling ν) : Prop :=
  ∃ c draw token, (process c draw token h.delivery).Begins h.exchanges

/-- What was exchanged over several calls, one after the other. -/
def exchanged (hs : List (Handling ν)) : Exchanges ν := hs.flatMap exchanges

variable [Number.Arithmetic ν] {h h' : Handling ν} {hs : List (Handling ν)} {q : Position}
  {key : String}

theorem Possible.own (possible : h.Possible) {e : Exchange (Answer ν)} (he : e ∈ h.exchanges)
    (hkey : e.request.trail? = some key) : key = h.delivery.position.render := by
  obtain ⟨c, draw, token, begins⟩ := possible
  rcases (process_asks h.delivery c draw token).of_mem begins e he with concerns | lookup
  · exact concerns.trail hkey
  · rw [lookup] at hkey
    cases hkey

/-- A call names no trail of another position. -/
theorem Possible.not_named (possible : h.Possible) (plain : h.delivery.position.Plain)
    (hq : q.Plain) (hne : h.delivery.position ≠ q) :
    ∀ e ∈ h.exchanges, e.request.trail? ≠ some q.render := by
  intro e he hkey
  exact hne ((Position.render_inj plain hq).mp (possible.own he hkey).symm)

/-- **What is kept for a position** is what the calls on deliveries from there make of it. -/
theorem trails_at (possible : ∀ h ∈ hs, h.Possible)
    (plain : ∀ h ∈ hs, h.delivery.position.Plain) (hq : q.Plain) (s : Dict String Trail) :
    ((exchanged hs).trails s).get? q.render =
      ((exchanged (hs.filter (·.delivery.position = q))).trails s).get? q.render := by
  induction hs generalizing s with
  | nil => rfl
  | cons h hs ih =>
    have hrest := ih (fun h' hm => possible h' (.tail _ hm)) fun h' hm => plain h' (.tail _ hm)
    rw [exchanged, List.flatMap_cons, Exchanges.trails_append]
    by_cases hh : h.delivery.position = q
    · rw [List.filter_cons_of_pos (by simpa using hh), exchanged, List.flatMap_cons,
        Exchanges.trails_append]
      exact hrest _
    · have hsame : (h.exchanges.trails s).get? q.render = s.get? q.render :=
        Exchanges.get?_trails_of_ne ((possible h List.mem_cons_self).not_named
          (plain h List.mem_cons_self) hq hh) s
      rw [List.filter_cons_of_neg (by simpa using hh), ← hrest s]
      exact Exchanges.get?_trails_congr _ hsame

end Handling

/-! ## The result -/

/-- **The trails of different messages are kept apart.** -/
structure Apart (ν : Type) [Number.Arithmetic ν] : Prop where
  /-- Positions with plain offsets have texts of their own. -/
  texts : ∀ p q : Position, p.Plain → q.Plain → p.render = q.render → p = q
  /-- A call keeps and drops the trail of its delivery only, -/
  own : ∀ h : Handling ν, h.Possible → ∀ e ∈ h.exchanges, ∀ key, e.request.trail? = some key →
    key = h.delivery.position.render
  /-- so that it is not that of a delivery from elsewhere. -/
  others : ∀ h h' : Handling ν, h.Possible → h'.Possible → h.delivery.position.Plain →
    h'.delivery.position.Plain → h.delivery.position ≠ h'.delivery.position →
    ∀ e ∈ h.exchanges, ∀ e' ∈ h'.exchanges, ∀ key, e.request.trail? = some key →
      e'.request.trail? ≠ some key
  /-- What is kept for a position after any calls is what those on deliveries from there make of
  it. -/
  kept : ∀ hs : List (Handling ν), (∀ h ∈ hs, h.Possible) →
    (∀ h ∈ hs, h.delivery.position.Plain) → ∀ q : Position, q.Plain → ∀ s,
      ((Handling.exchanged hs).trails s).get? q.render =
        ((Handling.exchanged (hs.filter (·.delivery.position = q))).trails s).get? q.render
  /-- A broker in memory gives plain offsets, -/
  memory : ∀ (b : State) topic group d b', b.receive topic group = (some d, b') → d.position.Plain
  /-- and deliveries with one text hold one message. -/
  messages : ∀ (b b' b₁ b₁' : State) topic topic' group group' d d',
    b.receive topic group = (some d, b') → b'.Grows b₁ →
    b₁.receive topic' group' = (some d', b₁') → d.position.render = d'.position.render →
    d.message = d'.message
  /-- So does a stream whose entries have ids of their form. -/
  stream : ∀ (c c' : Redis.Consumer) wait reads es d,
    (c.receive wait reads).Ends es (c', some (.ok (some d))) →
    (∀ e ∈ es.filterMap c.brought?, Redis.StreamId e.id) → d.position.Plain

theorem trails_apart (ν : Type) [Number.Arithmetic ν] : Apart ν where
  texts _ _ hp hq := (Position.render_inj hp hq).mp
  own _ possible _ he _ hkey := possible.own he hkey
  others h h' possible possible' plain plain' hne e he e' he' key hkey hkey' := by
    obtain rfl := possible'.own he' hkey'
    exact possible.not_named plain plain' hne e he hkey
  kept _ possible plain _ hq s := Handling.trails_at possible plain hq s
  memory _ _ _ _ _ := State.plain_receive
  messages _ _ _ _ _ _ _ _ _ _ h hg h' := State.message_eq h hg h'
  stream _ _ _ _ _ _ := Redis.Consumer.receive_plain

/-- A call on a message that cannot be read is broken off, and its trail is still kept. That of a
message in a topic whose name is a part of the other's stays as it was. -/
theorem broken_off_apart : ∃ h : Handling Number.Double, h.Possible ∧
    h.delivery.position = ⟨"jobs:0", 1, "7"⟩ ∧
    ((Handling.exchanged [h]).trails ∅).get? "jobs:0:1:7" ≠ none ∧
    ∀ s, ((Handling.exchanged [h]).trails s).get? (⟨"jobs", 0, "7"⟩ : Position).render =
      s.get? (⟨"jobs", 0, "7"⟩ : Position).render := by
  let c : Config := ⟨⟨"jobs:0", "waiting", "dead"⟩, "workers", .zero, .skip, .zero, Policy.noRetry⟩
  let m : Message := (⟨"t", [], ∅⟩ : Message).setHeader Header.correlationId "a"
  let d : Delivery := ⟨⟨"jobs:0", 1, "7"⟩, m, 1⟩
  obtain ⟨e, hread⟩ : ∃ e, Payload.ofWire d.message.payload = .error e := ⟨_, rfl⟩
  let t := (firstTrail Policy.noRetry d "a" .epoch).recordFailure
    ("malformed payload: " ++ e.message) .epoch
  let h : Handling Number.Double := ⟨d, [⟨.count .processed, ()⟩, ⟨.now, .epoch⟩,
    ⟨.policy, Policy.noRetry⟩, ⟨.now, .epoch⟩, ⟨.remember d.position.render t, ()⟩]⟩
  have hid : (identify d.message : Program Number.Double _).Ends [] "a" := .done _
  have possible : h.Possible := by
    refine ⟨c, id, .never, ?_⟩
    rw [process_eq]
    simp only [request_bind]
    refine .ask _ _ (.ask _ _ (.ask _ _ (hid.begins_bind ?_)))
    unfold resolve
    simp only [show Payload.ofWire h.delivery.message.payload = .error e from hread, request_bind]
    exact .ask _ _ (.ask _ _ (.here _))
  refine ⟨h, possible, rfl, ?_, fun s => ?_⟩
  · show ((∅ : Dict String Trail).insert d.position.render t).get? "jobs:0:1:7" ≠ none
    have hkey : d.position.render = "jobs:0:1:7" := by decide
    rw [hkey, Dict.get?_insert, if_pos rfl]
    exact nofun
  · exact (trails_apart Number.Double).kept [h] (by simpa using possible)
      (by simp [h, d, Position.Plain]) ⟨"jobs", 0, "7"⟩ (by simp [Position.Plain]) s

end TaskQueue.Worker
