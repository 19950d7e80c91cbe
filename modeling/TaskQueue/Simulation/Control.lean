import TaskQueue.Simulation.Run

/-!
# Starting and stopping components in the world
-/

namespace TaskQueue.Simulation

open Engine

namespace World

/-- The script that a component begins with. -/
def openingScript (w : World) : Component → Program Number.Double Ending
  | .worker => .worker <$> Worker.opening w.workerConfig
  | .promoter => .promoter <$> Promotion.opening w.promoterConfig
  | .scheduler => .scheduler <$> Schedule.turn

/-- A component begins to run, unless it must not. -/
def begin (w : World) (c : Component) : Except LoopEnd Lifecycle :=
  let l := w.lifecycle c
  match c with
  | .worker => l.start.mapError fun e => .workerFailed (.notStarted e)
  | .promoter => l.start.mapError fun e => .promoterFailed (.notStarted e)
  | .scheduler => (Schedule.start w.schedulerConfig l).mapError .schedulerFailed

/-- The name of the slot of the next start of a component. -/
def nextSlot (w : World) (c : Component) : String :=
  let n := (w.slots.values.filter fun s => s.component = c).length
  if n = 0 then c.name else c.name ++ (n + 1).repr

/-- Starts a component in a slot of its own. The flag cancels it, and is set when it ends. -/
def startWith (w : World) (c : Component) (flag : Flag) : World :=
  let slot := w.nextSlot c
  match w.begin c with
  | .error e => { w with slots := w.slots.insert slot ⟨c, flag, some e⟩ }.setFlag flag
  | .ok l =>
    let w := { w.setLifecycle c l with slots := w.slots.insert slot ⟨c, flag, none⟩ }
    let token := (CancelToken.ofFlag flag).either (.ofFlag c.stopFlag)
    (w.spawn ⟨.loop slot, c.name, none, token, w.nanos, none, w.openingScript c⟩).2

/-- Starts a component with a flag of its own. -/
def startComponent (w : World) (c : Component) : World :=
  { w with nextFlag := w.nextFlag + 1 }.startWith c w.nextFlag

/-- Stops a component for good and closes its handle, once. -/
def stopComponent (w : World) (c : Component) : Except TransportError Unit × World :=
  let l := w.lifecycle c
  if l.stopped then (.ok (), w)
  else ((w.setLifecycle c l.stop).setFlag c.stopFlag).closeHandle c.name

end World

end TaskQueue.Simulation
