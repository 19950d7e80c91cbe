import TaskQueue.Engine.Request

/-!
# What a script may exchange

`s.Ends es a` says that the script `s` may end with `a` after the exchanges `es`, whoever answers.
What an engine does under particular answers is read off its exchanges: the part that went to the
broker (`transport`), the messages that were published to a topic (`published`), the handler runs
(`runs`), the identifiers that were given out (`newIds`) and the times that were told
(`readings`).

Results:

* `ends_done_iff`, `ends_ask_iff`, `ends_bind_iff`: the exchanges of a script, step by step;
* `Asks.of_mem`: what a script asks for by its text is all that it exchanges, even if it is broken
  off;
* `exists_ends`: a script that is always answered comes to its end.
-/

namespace TaskQueue.Engine

/-- A request and its answer. -/
structure Exchange {ρ : Type} (answer : ρ → Type) where
  request : ρ
  answer : answer request

namespace Script

variable {ρ : Type} {answer : ρ → Type} {α β σ : Type}

/-- The script may end with a value after these exchanges. -/
inductive Ends : Script ρ answer α → List (Exchange answer) → α → Prop where
  | done (a : α) : Ends (.done a) [] a
  | ask (r : ρ) (x : answer r) {next : answer r → Script ρ answer α} {es a}
      (h : Ends (next x) es a) : Ends (.ask r next) (⟨r, x⟩ :: es) a

variable {es : List (Exchange answer)} {a b : α}

@[simp] theorem ends_done_iff : (done a : Script ρ answer α).Ends es b ↔ es = [] ∧ b = a := by
  constructor
  · intro h
    cases h
    exact ⟨rfl, rfl⟩
  · rintro ⟨rfl, rfl⟩
    exact .done b

@[simp] theorem ends_ask_iff {r : ρ} {next : answer r → Script ρ answer α} :
    (ask r next).Ends es a ↔ ∃ x es', es = ⟨r, x⟩ :: es' ∧ (next x).Ends es' a := by
  constructor
  · intro h
    cases h with
    | ask _ x h => exact ⟨x, _, rfl, h⟩
  · rintro ⟨x, es', rfl, h⟩
    exact .ask r x h

/-- **The exchanges of a composed script** are those of its parts. -/
theorem ends_bind_iff {s : Script ρ answer α} {f : α → Script ρ answer β} {b : β} :
    (s >>= f).Ends es b ↔ ∃ es₁ es₂ a, es = es₁ ++ es₂ ∧ s.Ends es₁ a ∧ (f a).Ends es₂ b := by
  induction s generalizing es with
  | done a =>
    rw [done_bind]
    constructor
    · intro h
      exact ⟨[], es, a, rfl, .done a, h⟩
    · rintro ⟨es₁, es₂, a', rfl, h₁, h₂⟩
      obtain ⟨rfl, rfl⟩ := ends_done_iff.mp h₁
      exact h₂
  | ask r next ih =>
    rw [ask_bind, ends_ask_iff]
    constructor
    · rintro ⟨x, es', rfl, h⟩
      obtain ⟨es₁, es₂, a, rfl, h₁, h₂⟩ := (ih x).mp h
      exact ⟨⟨r, x⟩ :: es₁, es₂, a, rfl, .ask r x h₁, h₂⟩
    · rintro ⟨es₁, es₂, a, rfl, h₁, h₂⟩
      obtain ⟨x, es', rfl, hx⟩ := ends_ask_iff.mp h₁
      exact ⟨x, es' ++ es₂, rfl, (ih x).mpr ⟨es', es₂, a, rfl, hx, h₂⟩⟩

/-- The script asks for such things only, whatever is answered. -/
def Asks (P : ρ → Prop) : Script ρ answer α → Prop
  | done _ => True
  | ask r next => P r ∧ ∀ x, (next x).Asks P

/-- The script may begin with these exchanges, and end or be broken off after them. -/
inductive Begins : Script ρ answer α → List (Exchange answer) → Prop where
  | here (s : Script ρ answer α) : Begins s []
  | ask (r : ρ) (x : answer r) {next : answer r → Script ρ answer α} {es}
      (h : Begins (next x) es) : Begins (.ask r next) (⟨r, x⟩ :: es)

@[simp] theorem asks_done {P : ρ → Prop} : (done a : Script ρ answer α).Asks P ↔ True := Iff.rfl

@[simp] theorem asks_ask_iff {P : ρ → Prop} {r : ρ} {next : answer r → Script ρ answer α} :
    (ask r next).Asks P ↔ P r ∧ ∀ x, (next x).Asks P := Iff.rfl

theorem Ends.begins {s : Script ρ answer α} (h : s.Ends es a) : s.Begins es := by
  induction h with
  | done a => exact .here _
  | ask r x h ih => exact .ask r x ih

/-- A script that has ended goes on with what follows. -/
theorem Ends.begins_bind {s : Script ρ answer α} {f : α → Script ρ answer β}
    {es' : List (Exchange answer)} (h : s.Ends es a) (h' : (f a).Begins es') :
    (s >>= f).Begins (es ++ es') := by
  induction h with
  | done a => exact h'
  | ask r x h ih => exact .ask r x (ih h')

theorem Asks.bind {P : ρ → Prop} {s : Script ρ answer α} {f : α → Script ρ answer β}
    (hs : s.Asks P) (hf : ∀ a, (f a).Asks P) : (s >>= f).Asks P := by
  induction s with
  | done a => exact hf a
  | ask r next ih => exact ⟨hs.1, fun x => ih x (hs.2 x)⟩

theorem Asks.imp {P Q : ρ → Prop} {s : Script ρ answer α} (hs : s.Asks P)
    (hPQ : ∀ r, P r → Q r) : s.Asks Q := by
  induction s with
  | done a => trivial
  | ask r next ih => exact ⟨hPQ r hs.1, fun x => ih x (hs.2 x)⟩

theorem Asks.of_mem {P : ρ → Prop} {s : Script ρ answer α} (hs : s.Asks P) (h : s.Begins es) :
    ∀ e ∈ es, P e.request := by
  induction h with
  | here s => exact fun e he => absurd he List.not_mem_nil
  | ask r x h ih =>
    intro e he
    rcases List.mem_cons.mp he with rfl | he
    · exact hs.1
    · exact ih (hs.2 x) e he

/-- **A script that is always answered comes to its end.** `R w es w'` says that the exchanges `es`
lead from the state `w` to `w'`. -/
theorem exists_ends {R : σ → List (Exchange answer) → σ → Prop} (nil : ∀ w, R w [] w)
    (cons : ∀ w r, ∃ x w', ∀ es w'', R w' es w'' → R w (⟨r, x⟩ :: es) w'')
    (s : Script ρ answer α) (w : σ) : ∃ es a w', s.Ends es a ∧ R w es w' := by
  induction s generalizing w with
  | done a => exact ⟨[], a, w, .done a, nil w⟩
  | ask r next ih =>
    obtain ⟨x, w', hx⟩ := cons w r
    obtain ⟨es, a, w'', h, hR⟩ := ih x w'
    exact ⟨⟨r, x⟩ :: es, a, w'', .ask r x h, hx es w'' hR⟩

end Script

/-! ## Exchanges of engines -/

section

variable {ν : Type}

/-- A run of a handler: what it was told, what it was given and how it ended. -/
structure TaskRun where
  context : Context
  payload : Payload
  ending : HandlerEnd

namespace Exchange

/-- The request goes to the broker. -/
def isTransport (e : Exchange (Answer ν)) : Bool :=
  match e.request with
  | .publish .. | .subscribe .. | .receive _ | .ack _ | .reject .. => true
  | _ => false

/-- The handler run of an exchange. -/
def run? : Exchange (Answer ν) → Option TaskRun
  | ⟨.handle c p, ending⟩ => some ⟨c, p, ending⟩
  | _ => none

/-- The identifier that was given out in an exchange. -/
def newId? : Exchange (Answer ν) → Option String
  | ⟨.newId, id⟩ => some id
  | _ => none

/-- The time that was told in an exchange. -/
def reading? : Exchange (Answer ν) → Option Time.Instant
  | ⟨.now, now⟩ => some now
  | _ => none

/-- The message that was published to a topic in an exchange. -/
def published? (topic : String) : Exchange (Answer ν) → Option Message
  | ⟨.publish t m, .ok ()⟩ => if t = topic then some m else none
  | _ => none

end Exchange

/-- Exchanges in order. -/
abbrev Exchanges (ν : Type) := List (Exchange (Answer ν))

namespace Exchanges

variable {topic : String}

/-- What went to the broker. -/
def transport (es : Exchanges ν) : Exchanges ν := es.filter Exchange.isTransport

/-- The runs of handlers. -/
def runs (es : Exchanges ν) : List TaskRun := es.filterMap Exchange.run?

/-- The identifiers that were given out. -/
def newIds (es : Exchanges ν) : List String := es.filterMap Exchange.newId?

/-- The times that were told. -/
def readings (es : Exchanges ν) : List Time.Instant := es.filterMap Exchange.reading?

/-- The messages that were published to a topic. -/
def published (topic : String) (es : Exchanges ν) : List Message :=
  es.filterMap (Exchange.published? topic)

@[simp] theorem transport_append (es es' : Exchanges ν) :
    transport (es ++ es') = transport es ++ transport es' :=
  List.filter_append _ _

@[simp] theorem runs_append (es es' : Exchanges ν) :
    runs (es ++ es') = runs es ++ runs es' := List.filterMap_append

@[simp] theorem newIds_append (es es' : Exchanges ν) :
    newIds (es ++ es') = newIds es ++ newIds es' :=
  List.filterMap_append

@[simp] theorem readings_append (es es' : Exchanges ν) :
    readings (es ++ es') = readings es ++ readings es' := List.filterMap_append

@[simp] theorem published_append (es es' : Exchanges ν) :
    published topic (es ++ es') = published topic es ++ published topic es' :=
  List.filterMap_append

theorem mem_of_mem_readings {es : Exchanges ν} {t : Time.Instant} (h : t ∈ es.readings) :
    ⟨.now, t⟩ ∈ es := by
  obtain ⟨⟨r, x⟩, he, hx⟩ := List.mem_filterMap.mp h
  cases r with
  | now =>
    cases hx
    exact he
  | _ => cases hx

theorem mem_of_readings_eq {es : Exchanges ν} {t : Time.Instant} (h : es.readings = [t]) :
    ⟨.now, t⟩ ∈ es :=
  mem_of_mem_readings (h ▸ List.mem_cons_self)

/-- What is published goes to the broker. -/
theorem published_transport (es : Exchanges ν) :
    published topic es.transport = published topic es := by
  unfold published transport
  rw [List.filterMap_filter]
  congr 1
  funext e
  split
  · rfl
  · next he =>
    obtain ⟨r, x⟩ := e
    cases r with
    | publish t m => exact absurd rfl he
    | _ => rfl

end Exchanges

end

end TaskQueue.Engine
