import TaskQueue.Logging.Config
import TaskQueue.Proofs.Broker.Exclusive
import TaskQueue.Proofs.Client.AllOrNothing
import TaskQueue.Proofs.Cron.FirstMatch
import TaskQueue.Proofs.Cron.Text
import TaskQueue.Proofs.Ledger.Conservation
import TaskQueue.Proofs.Lineage.Budget
import TaskQueue.Proofs.Lineage.Identity
import TaskQueue.Proofs.Promotion.Agreement
import TaskQueue.Proofs.Promotion.Delay
import TaskQueue.Proofs.Promotion.Heap
import TaskQueue.Proofs.Redis.Fields
import TaskQueue.Proofs.Redis.Recovery
import TaskQueue.Proofs.Redis.RoundTrip
import TaskQueue.Proofs.Retry.Jitter
import TaskQueue.Proofs.Schedule.Firing
import TaskQueue.Proofs.Schedule.Interleaving
import TaskQueue.Proofs.Schedule.Register
import TaskQueue.Proofs.Simulation.Advance
import TaskQueue.Proofs.Task.Wire
import TaskQueue.Proofs.Worker.Blocking
import TaskQueue.Proofs.Worker.Diagnostics
import TaskQueue.Proofs.Worker.Separate
import TaskQueue.Proofs.Worker.Settings
import TaskQueue.Proofs.Worker.Waiting
import TaskQueue.Redis.Session
import TaskQueue.Simulation.Step
import TaskQueue.Simulation.WorkerProcess
import TaskQueue.Task.Identifier
