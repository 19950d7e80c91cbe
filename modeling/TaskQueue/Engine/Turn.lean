/-!
# Turns

An engine runs by taking turns until one of them is the last.
-/

namespace TaskQueue.Engine

/-- What a turn comes to. -/
inductive Turn (σ ε : Type) where
  /-- There is another turn. -/
  | goOn (s : σ)
  | ended (result : Except ε Unit)

end TaskQueue.Engine
