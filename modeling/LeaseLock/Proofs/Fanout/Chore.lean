import LeaseLock.Fanout
import LeaseLock.Proofs.Reactor.Chores

/-
  LeaseLock: fan-outs in pieces.
  A scatter runs beside the loop, which may hand a response, a timer or a closure to the fan-out
  between any two of its requests, and other scatters may run beside both.  The programs of the
  fan-out are therefore cut into chores.  A chore is one request, or it stands under the lock of the
  tables, and then what others do in the middle of it might as well have happened before or after:
  they cannot see the tables, and the loop itself is at this chore.  Carried out without a break, the
  chores are the programs (`scatter_eq`, `handle_eq`).
-/

namespace LeaseLock.Fanout

open Reactor

/-! ## Chores -/

/-- A sub-request that is still to be entered. -/
structure Draft where
  /-- Its id. -/
  id : Nat
  /-- Where it is to be sent. -/
  endpoint : Nat
  /-- What is to be sent. -/
  frame : Bytes
  /-- Its task. -/
  token : Token
  /-- The number of targets behind it. -/
  left : Nat
deriving DecidableEq, Repr

/-- The sub-request with its first timer. -/
def Draft.pending (d : Draft) (timer : Nat) : Pending := ⟨d.endpoint, d.frame, 0, timer, d.token⟩

/-- A piece of work of the fan-out. -/
inductive Chore where
  /-- Scatter a command. -/
  | scatter (countdown : Nat) (command : UInt8) (targets : List (Nat × Bytes))
  /-- Give the sub-request for a target its id; so many targets stand behind it. -/
  | name (command : UInt8) (token : Token) (target : Nat × Bytes) (left : Nat)
  /-- Look when the first timer of a sub-request is to fire. -/
  | time (d : Draft) (timeout : Nat)
  /-- Schedule the first timer of a sub-request. -/
  | schedule (d : Draft) (deadline : Nat)
  /-- Enter a sub-request. -/
  | enter (d : Draft) (timer : Nat)
  /-- Count a sub-request that was entered. -/
  | count (id endpoint : Nat) (frame : Bytes)
  /-- Send the frame of a sub-request. -/
  | send (id endpoint : Nat) (frame : Bytes)
  /-- End a sub-request whose frame could not be sent. -/
  | giveUp (id : Nat)
  /-- Cancel a timer. -/
  | cancel (timer : Nat)
  /-- Count how a sub-request that was taken out has ended. -/
  | settle (id : Nat) (token : Token) (outcome : Outcome)
  /-- Complete its task. -/
  | complete (id : Nat) (token : Token) (failed : Bool)
  /-- Handle a frame from an endpoint. -/
  | reply (endpoint : Nat) (payload : Bytes)
  /-- Handle a timer that has fired. -/
  | expire (timer : Nat)
  /-- Handle the end of an endpoint. -/
  | close (endpoint : Nat)
deriving DecidableEq, Repr

/-- What is left to do for a sub-request that was taken out before its timer has fired. -/
def stopping (id : Nat) (p : Pending) (outcome : Outcome) : List Chore :=
  [.cancel p.timer, .settle id p.token outcome]

/-- The sub-requests for targets that are still to be given an id. -/
def unnamed (command : UInt8) (token : Token) : List (Nat × Bytes) → List Chore
  | [] => []
  | target :: rest => .name command token target rest.length :: unnamed command token rest

variable {κ η ν : Type}

/-- A target is to have a timer by this deadline; if there is none, a crash gives up the target and
those behind it. -/
def timed (d : Draft) : Option Nat → Activity κ η ν (List Chore)
  | some deadline => return [.schedule d deadline]
  | none => do
    change fun s => s.abandon d.token (d.left + 1)
    .crash .instantOverflow

/-- Look at the clock. -/
def timing (d : Draft) (timeout : Nat) : Activity κ η ν (List Chore) := do
  timed d (Time.add? (← Program.now) timeout)

/-- Take out the sub-request that a response is for. -/
def answering (endpoint : Nat) (payload : Bytes) : Activity κ η ν (List Chore) := do
  match Wire.Response.decode payload with
  | .error _ => return []
  | .ok response =>
    match ← Program.update fun s => s.takeFrom endpoint response.id.toNat with
    | none => return []
    | some p => return stopping response.id.toNat p (.answered response.isError)

/-- Take out the sub-request that has waited too often, or rearm the one that is to be sent
again. -/
def expiring (self : η) (timer : Nat) : Activity κ η ν (List Chore) := do
  match ← Program.update fun s => s.expire timer with
  | .stray => return []
  | .exhausted id =>
    match ← Program.update fun s => s.take id with
    | none => return []
    | some p => return [.settle id p.token .lapsed]
  | .again id =>
    let config := (← Program.world).config
    let timer ← Program.scheduleAfter config.timeout self
    match ← Program.update fun s => s.rearm id timer with
    | none => return []
    | some p => return [.send id p.endpoint p.frame]

/-- Do a chore; returns what is left to do then. -/
def Chore.act (self : η) : Chore → Activity κ η ν (List Chore)
  | .scatter countdown command targets => do
    let token ← Program.update fun s => s.arm countdown targets.length
    return unnamed command token targets
  | .name command token target left => do
    let id ← Program.update State.takeId
    -- how sub-requests are sent never changes, so it does not matter when that is read
    let timeout := (← Program.world).config.timeout
    let frame := (Wire.Request.mk id command target.2).encode
    return [.time ⟨id.toNat, target.1, frame, token, left⟩ timeout]
  | .time d timeout => timing d timeout
  | .schedule d deadline => do
    let timer ← Program.schedule deadline self
    return [.enter d timer]
  | .enter d timer => do
    change fun s => s.enter d.id (d.pending timer)
    return [.count d.id d.endpoint d.frame]
  | .count id endpoint frame => do
    change fun s => s.countSent
    return [.send id endpoint frame]
  | .send id endpoint frame => do
    return if (← Program.send endpoint frame).isSome then [.giveUp id] else []
  | .giveUp id => do
    match ← Program.update fun s => s.take id with
    | none => return []
    | some p => return stopping id p .lost
  | .cancel timer => do
    let _ ← Program.cancel timer
    return []
  | .settle id token outcome => do
    change fun s => s.countEnd outcome
    return [.complete id token outcome.isFailure]
  | .complete _ token failed => do
    change fun s => s.complete token failed
    return []
  | .reply endpoint payload => answering endpoint payload
  | .expire timer => expiring self timer
  | .close endpoint => do
    let failed ← Program.update fun s => s.takeAllFrom endpoint
    return failed.flatMap fun e => stopping e.1 e.2 .lost

/-- A bound on how much is left to do after a chore. -/
def Chore.rank : Chore → Nat
  | .scatter _ _ _ => 9
  | .name _ _ _ _ => 8
  | .time _ _ => 7
  | .schedule _ _ => 6
  | .enter _ _ => 5
  | .count _ _ _ | .expire _ => 4
  | .send _ _ _ => 3
  | .giveUp _ | .reply _ _ | .close _ => 2
  | .settle _ _ _ => 1
  | .cancel _ | .complete _ _ _ => 0

/-- Do a chore and all that it leaves. -/
def Chore.carryOut (self : η) (c : Chore) : Activity κ η ν Unit :=
  Program.carryOut (Chore.act self) 10 c

/-- The chores of an event. -/
def chores : Event → List Chore
  | .data endpoint payload => [.reply endpoint payload]
  | .timer timer => [.expire timer]
  | .state endpoint state => if state.isTerminal then [.close endpoint] else []

/-! ## Chores and programs -/

section

variable (self : η) (depth : Nat)

/-- A chore begins with a request, and goes on with what it leaves. -/
theorem carryOut_of_act {α : Type} {c : Chore} {p : Activity κ η ν α}
    {f : α → Activity κ η ν (List Chore)} {g : α → Activity κ η ν Unit}
    (hact : Chore.act self c = p.bind f)
    (hrest : ∀ a, (f a).bind (Program.each (Program.carryOut (Chore.act self) depth)) = g a) :
    Program.carryOut (Chore.act self) (depth + 1) c = p.bind g := by
  show (Chore.act self c).bind _ = _
  rw [hact, Program.bind_assoc]
  exact congrArg _ (funext hrest)

theorem carryOut_giveUp (id : Nat) :
    Program.carryOut (Chore.act self) (depth + 3) (.giveUp id) =
      (giveUp id : Activity κ η ν Unit) :=
  carryOut_of_act self (depth + 2) rfl fun taken => by cases taken <;> rfl

theorem carryOut_send (id endpoint : Nat) (frame : Bytes) :
    Program.carryOut (Chore.act self) (depth + 4) (.send id endpoint frame) = ((do
      if (← Program.send endpoint frame).isSome then
        giveUp id) : Activity κ η ν Unit) := by
  refine carryOut_of_act self (depth + 3) rfl fun fault => ?_
  cases fault with
  | none => rfl
  | some e => exact (Program.each_singleton _ _).trans (carryOut_giveUp self depth id)

theorem carryOut_enter (d : Draft) (timer : Nat) :
    Program.carryOut (Chore.act self) (depth + 6) (.enter d timer) = ((do
      change fun s => s.enter d.id (d.pending timer)
      change fun s => s.countSent
      if (← Program.send d.endpoint d.frame).isSome then
        giveUp d.id) : Activity κ η ν Unit) := by
  refine carryOut_of_act self (depth + 5) rfl fun _ => (Program.each_singleton _ _).trans ?_
  refine carryOut_of_act self (depth + 4) rfl fun _ => (Program.each_singleton _ _).trans ?_
  exact carryOut_send self depth d.id d.endpoint d.frame

theorem carryOut_time (d : Draft) (timeout : Nat) :
    Program.carryOut (Chore.act self) (depth + 8) (.time d timeout) = ((do
      match ← (Program.scheduleAfter timeout self).attempt with
      | .error c =>
        change fun s => s.abandon d.token (d.left + 1)
        .crash c
      | .ok timer =>
        change fun s => s.enter d.id (d.pending timer)
        change fun s => s.countSent
        if (← Program.send d.endpoint d.frame).isSome then
          giveUp d.id) : Activity κ η ν Unit) := by
  refine congrArg (Program.ask .now) (funext fun t => ?_)
  dsimp only [Program.bind]
  cases Time.add? t timeout with
  | none => rfl
  | some deadline =>
    refine (Program.each_singleton _ _).trans
      (congrArg (Program.ask (.schedule deadline self)) (funext fun timer => ?_))
    exact (Program.each_singleton _ _).trans (carryOut_enter self depth d timer)

/-- The work of a scatter on one target after another. -/
theorem each_unnamed (command : UInt8) (token : Token) (targets : List (Nat × Bytes)) :
    Program.each (Program.carryOut (Chore.act self) (depth + 9)) (unnamed command token targets) =
      (launch self command token targets : Activity κ η ν Unit) := by
  induction targets with
  | nil => rfl
  | cons target rest ih =>
    refine (congrArg (fun p => Program.bind _ fun _ => p) ih).trans ?_
    show (Program.bind (Program.bind (Program.update State.takeId) _) _).bind _ =
      Program.bind (Program.update State.takeId) _
    rw [Program.bind_assoc, Program.bind_assoc]
    refine congrArg _ (funext fun id => congrArg (Program.ask .world) (funext fun s => ?_))
    refine (congrArg (fun p => Program.bind p _) ((Program.each_singleton _ _).trans
      (carryOut_time self depth _ _))).trans ?_
    refine (Program.bind_assoc _ _ _).trans (congrArg _ (funext fun scheduled => ?_))
    cases scheduled with
    | error c => rfl
    | ok timer =>
      refine (Program.bind_assoc (change _) _ _).trans (congrArg _ (funext fun _ => ?_))
      refine (Program.bind_assoc (change _) _ _).trans (congrArg _ (funext fun _ => ?_))
      refine (Program.bind_assoc _ _ _).trans (congrArg _ (funext fun fault => ?_))
      cases fault <;> rfl

theorem scatter_eq (countdown : Nat) (command : UInt8) (targets : List (Nat × Bytes)) :
    Chore.carryOut self (.scatter countdown command targets) =
      (scatter self countdown command targets : Activity κ η ν Unit) :=
  carryOut_of_act self 9 rfl fun token => each_unnamed self 0 command token targets

theorem onReply_eq (endpoint : Nat) (payload : Bytes) :
    Chore.carryOut self (.reply endpoint payload) =
      (onReply endpoint payload : Activity κ η ν Unit) := by
  show (answering endpoint payload).bind _ = _
  unfold onReply answering
  cases Wire.Response.decode payload with
  | error e => rfl
  | ok response =>
    refine (Program.bind_assoc _ _ _).trans (congrArg _ (funext fun taken => ?_))
    cases taken <;> rfl

theorem onTimer_eq (timer : Nat) :
    Chore.carryOut self (.expire timer) = (onTimer self timer : Activity κ η ν Unit) := by
  refine (Program.bind_assoc _ _ _).trans (congrArg _ (funext fun expiry => ?_))
  cases expiry with
  | stray => rfl
  | exhausted id =>
    refine (Program.bind_assoc _ _ _).trans (congrArg _ (funext fun taken => ?_))
    cases taken <;> rfl
  | again id =>
    refine (Program.bind_assoc _ _ _).trans (congrArg _ (funext fun s => ?_))
    refine (Program.bind_assoc _ _ _).trans (congrArg _ (funext fun timer => ?_))
    refine (Program.bind_assoc _ _ _).trans (congrArg _ (funext fun rearmed => ?_))
    cases rearmed with
    | none => rfl
    | some p => exact (Program.each_singleton _ _).trans (carryOut_send self 5 id _ _)

theorem onClosed_eq (endpoint : Nat) :
    Chore.carryOut self (.close endpoint) = (onClosed endpoint : Activity κ η ν Unit) := by
  refine carryOut_of_act self 9 rfl fun failed => ?_
  exact Program.each_flatMap _ _ _

/-- To handle an event is to carry out its chores. -/
theorem handle_eq (e : Event) :
    Program.each (Chore.carryOut self) (chores e) = (handle self e : Activity κ η ν Unit) := by
  cases e with
  | data endpoint payload =>
    exact (Program.each_singleton _ _).trans (onReply_eq self endpoint payload)
  | timer timer => exact (Program.each_singleton _ _).trans (onTimer_eq self timer)
  | state endpoint state =>
    unfold chores handle
    dsimp only
    split
    · exact (Program.each_singleton _ _).trans (onClosed_eq self endpoint)
    · rfl

end

end LeaseLock.Fanout
