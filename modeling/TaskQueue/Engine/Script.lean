/-!
# Scripts

What an engine does, as a tree: it asks for one thing after the other and goes on with the answers.
Who answers is left open. A broker, a clock and a table of handlers may do so, in which case the
script is executed; or all answers that are possible at all, which is what is true of an engine
whatever happens around it.

Out of scope: a script that is given up between two requests, as when a process is killed. Whatever
has been asked by then is a beginning of the exchanges of the whole script.

Results:

* `bind_done`, `bind_assoc`: scripts compose like the steps of a program;
* `run_bind`: answering a composed script is answering its parts.
-/

namespace TaskQueue.Engine

/-- Asks for things of kind `ρ` and ends with a value. -/
inductive Script (ρ : Type) (answer : ρ → Type) (α : Type) where
  | done (a : α)
  | ask (r : ρ) (next : answer r → Script ρ answer α)

namespace Script

variable {ρ : Type} {answer : ρ → Type} {α β γ σ : Type}

/-- Goes on with what a script ends with. -/
def bind : Script ρ answer α → (α → Script ρ answer β) → Script ρ answer β
  | done a, f => f a
  | ask r next, f => ask r fun x => (next x).bind f

instance : Monad (Script ρ answer) where
  pure := done
  bind := bind

/-- Asks for one thing. -/
def request (r : ρ) : Script ρ answer (answer r) := ask r done

@[simp] theorem pure_eq_done (a : α) : (pure a : Script ρ answer α) = done a := rfl

@[simp] theorem done_bind (a : α) (f : α → Script ρ answer β) : done a >>= f = f a := rfl

@[simp] theorem ask_bind (r : ρ) (next : answer r → Script ρ answer α)
    (f : α → Script ρ answer β) : ask r next >>= f = ask r fun x => next x >>= f := rfl

@[simp] theorem request_bind (r : ρ) (f : answer r → Script ρ answer β) :
    request r >>= f = ask r f := rfl

theorem bind_done (s : Script ρ answer α) : s >>= done = s := by
  induction s with
  | done a => rfl
  | ask r next ih => exact congrArg (ask r) (funext ih)

theorem bind_assoc (s : Script ρ answer α) (f : α → Script ρ answer β)
    (g : β → Script ρ answer γ) : s >>= f >>= g = s >>= fun a => f a >>= g := by
  induction s with
  | done a => rfl
  | ask r next ih => exact congrArg (ask r) (funext ih)

instance : LawfulMonad (Script ρ answer) :=
  .mk' _ bind_done (fun _ _ => rfl) bind_assoc

/-- Answers everything that a script asks for from a state. -/
def run (serve : (r : ρ) → σ → answer r × σ) : Script ρ answer α → σ → α × σ
  | done a, s => (a, s)
  | ask r next, s => (next (serve r s).1).run serve (serve r s).2

theorem run_bind (serve : (r : ρ) → σ → answer r × σ) (x : Script ρ answer α)
    (f : α → Script ρ answer β) (s : σ) :
    (x >>= f).run serve s = (f (x.run serve s).1).run serve (x.run serve s).2 := by
  induction x generalizing s with
  | done a => rfl
  | ask r next ih => exact ih _ _

end Script

end TaskQueue.Engine
