import LeaseLock.Main
import LeaseLock.Scenario.Peer
import LeaseLock.Scenario.Coordination
import LeaseLock.Scenario.Destinations
import LeaseLock.Scenario.Handlers
import LeaseLock.Scenario.Network
import LeaseLock.Scenario.Requests
import LeaseLock.Proofs.Coordinator.Expiry
import LeaseLock.Proofs.Coordinator.History
import LeaseLock.Proofs.Coordinator.Bystander
import LeaseLock.Proofs.Client.TimedLock
import LeaseLock.Proofs.Coordinator.Nesting
import LeaseLock.Proofs.Coordinator.Script
import LeaseLock.Proofs.Service.Account
import LeaseLock.Proofs.Service.Answering
import LeaseLock.Proofs.Service.Refusal
import LeaseLock.Proofs.Client.Footprint
import LeaseLock.Proofs.Client.Stranding
import LeaseLock.Proofs.Fanout.Upkeep
import LeaseLock.Proofs.Fanout.Verdict
import LeaseLock.Proofs.Coordinator.Fencing
import LeaseLock.Proofs.Service.Binding
import LeaseLock.Proofs.Scenario.Network
import LeaseLock.Proofs.Service.Sweeping
import LeaseLock.Proofs.Service.ReplySize
import LeaseLock.Proofs.Wire.Grammar
import LeaseLock.Proofs.Client.Remote
import LeaseLock.Proofs.Coordinator.Failure
import LeaseLock.Proofs.TimerQueue.Agenda
import LeaseLock.Proofs.Reactor.Endpoints
import LeaseLock.Proofs.Reactor.Timers
import LeaseLock.Proofs.Countdown.Epochs
import LeaseLock.Proofs.Client.Routing
import LeaseLock.Proofs.Coordinator.Balance
import LeaseLock.Proofs.Coordinator.Tenure
import LeaseLock.Proofs.Service.Reconnect
import LeaseLock.Proofs.TimerQueue.DeadEntries
import LeaseLock.Proofs.Coordinator.Program
