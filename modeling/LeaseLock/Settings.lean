import LeaseLock.Coordinator.Basic
import LeaseLock.Net.Address

/-
  LeaseLock: the settings of a lock server.
  Five settings, each with a default, from which the coordinator and the event loop get theirs.
-/

namespace LeaseLock

/-- How an event loop is set up. -/
structure LoopConfig where
  /-- The number of threads that serve connections. -/
  ioThreads : UInt64
  /-- The longest time that the loop sleeps. -/
  idle : Nat
  /-- The name of those threads. -/
  threadName : String
deriving DecidableEq, Repr

/-- Two threads; the loop looks around four times a second. -/
def LoopConfig.default : LoopConfig := ⟨2, Time.ofMillis 250, "holo-coord-io"⟩

/-- The settings of a lock server. -/
structure Settings where
  /-- Where clients connect. -/
  listen : Net.Address
  /-- The length of a lease in milliseconds. -/
  leaseMillis : UInt64
  /-- The time between two looks for lapsed leases, in milliseconds. -/
  sweepMillis : UInt64
  /-- The number of threads that serve connections. -/
  ioThreads : UInt64
  /-- The events held for each reader of the event stream. -/
  eventCapacity : UInt64
deriving DecidableEq, Repr

namespace Settings

/-- Service 7400 of the own machine, and what `Coordinator.Config.default` and
`LoopConfig.default` say. -/
def default : Settings where
  listen := .v4 ⟨127, 0, 0, 1⟩ 7400
  leaseMillis := 20000
  sweepMillis := 500
  ioThreads := 2
  eventCapacity := 1024

/-- The settings of the coordinator. -/
def coordinator (s : Settings) : Coordinator.Config :=
  ⟨Time.ofMillis s.leaseMillis.toNat, Time.ofMillis s.sweepMillis.toNat, s.eventCapacity.toNat⟩

/-- The settings of the event loop. -/
def reactor (s : Settings) : LoopConfig :=
  { LoopConfig.default with ioThreads := s.ioThreads, threadName := "holo-lockd-io" }

end Settings

end LeaseLock
