import LeaseLock.Proofs.Coordinator.Consistency

/-
  LeaseLock: cases that are provided for and never come up.
  Taking a session out of a handle provides for a handle that is not there and for requests that
  are left in the queue when nobody has the handle open; asking for a lock provides for an opened
  handle that is not there; serving a queue turns away a session that has left the registry.

  To speak of the states in the middle of an operation, `State.program` lists its instructions;
  executed one after another they are the operation (`State.run_program`).  `Instruction.Finds` says
  what is expected when the time for an instruction has come.  What carries the proof is `Coherent`:
  in the middle of a cascade the waiters of a handle are registered or still owed
  (`Coherent.waiter_of_drop`), so the last opener leaves no request behind, and the only
  unregistered waiters are those of sessions that the same sweep has ended.
-/

namespace LeaseLock.Coordinator

variable {ρ : Type}

/-! ## Operations as programs -/

/-- What operations consist of. -/
inductive Instruction (ρ : Type) where
  /-- Change the registry of sessions. -/
  | sessions (f : Sessions → Sessions)
  /-- Change the table of handles. -/
  | handles (f : Table (Handle ρ) → Table (Handle ρ))
  /-- Change the counts. -/
  | count (f : Tally → Tally)
  /-- Add an event. -/
  | emit (e : LockEvent)
  /-- Add an answer. -/
  | answer (reply : ρ) (a : Answer)
  /-- Make a handle of this name, unless there is one. -/
  | ensure (name : String)
  /-- Look up the handle whose lock a session asks for. -/
  | check (session handle : Nat)
  /-- Take a session's request out of the queue of a handle. -/
  | withdraw (handle session : Nat) (a : Answer)
  /-- Take the lock of a handle from a session. -/
  | unlock (handle session : Nat) (reason : ReleaseReason)
  /-- Take a session off the openers of a handle. -/
  | shut (handle session : Nat)
  /-- Serve the queue of a handle. -/
  | pump (handle : Nat)
  /-- Destroy a handle if nobody has it open. -/
  | destroyUnopened (handle : Nat)

namespace Turn

/-- Execute an instruction. -/
def execute (t : Turn ρ) : Instruction ρ → Turn ρ
  | .sessions f => t.onSessions f
  | .handles f => t.onHandles f
  | .count f => t.count f
  | .emit e => t.emit e
  | .answer reply a => t.answer reply a
  | .ensure name => { t with state := (t.state.ensureHandle name).2 }
  | .check _ _ => t
  | .withdraw handle session a => (t.withdraw handle session a).2
  | .unlock handle session reason => (t.unlock handle session reason).2
  | .shut handle session => t.shut handle session
  | .pump handle => t.pump handle
  | .destroyUnopened handle => t.destroyUnopened handle

/-- Execute instructions one after another. -/
def run (t : Turn ρ) (program : List (Instruction ρ)) : Turn ρ := program.foldl execute t

end Turn

namespace Instruction

/-- Taking a session out of a handle. -/
def detach (handle session : Nat) (reason : ReleaseReason) : List (Instruction ρ) :=
  [.withdraw handle session (Turn.farewell session reason), .unlock handle session reason,
    .shut handle session, .pump handle, .destroyUnopened handle]

/-- Taking a session out of several handles. -/
def detachAll (session : Nat) (reason : ReleaseReason) (handles : List Nat) :
    List (Instruction ρ) :=
  handles.flatMap fun handle => detach handle session reason

/-- Releasing what lapsed sessions held.  What the events tell depends on the turn so far. -/
def expireAll (t : Turn ρ) : List (Nat × Session) → List (Instruction ρ)
  | [] => []
  | (id, session) :: rest =>
    let (released, t) := t.detachAll id .sessionExpired session.opened.keys
    detachAll id .sessionExpired session.opened.keys ++
      .emit (.expired id released) :: expireAll (t.emit (.expired id released)) rest

end Instruction

namespace State

/-- Asking for a lock. -/
def acquireProgram (s : State ρ) (session handle : Nat) (mode : Mode) (tryOnly : Bool)
    (reply : ρ) : List (Instruction ρ) :=
  .check session handle ::
    match s.checkRequest session handle with
    | .error fault => [.answer reply (.refused fault)]
    | .ok h =>
      if h.waiters.isEmpty && h.admits mode then
        let h' := h.grant session mode
        [.handles fun hs => hs.insert handle h', .sessions fun r => r.hold session handle,
          .count fun c => { c with grants := c.grants + 1 },
          .emit (.acquired handle session mode h'.generation),
          .answer reply (.granted h'.generation)]
      else if tryOnly then
        [.count fun c => { c with denials := c.denials + 1 }, .answer reply .busy]
      else
        [.handles fun hs =>
            hs.insert handle { h with waiters := h.waiters ++ [⟨session, mode, reply⟩] },
          .count fun c => { c with queued := c.queued + 1 }]

/-- The instructions that an operation consists of in this state. -/
def program (s : State ρ) : Operation ρ → List (Instruction ρ)
  | .createSession now => [.sessions fun r => (r.create now).2]
  | .renew session now => [.sessions fun r => (r.renew session now).2]
  | .closeSession session =>
    match s.sessions.get? session with
    | none => []
    | some gone =>
      .sessions (fun r => (r.remove session).2) ::
        Instruction.detachAll session .sessionClosed gone.opened.keys
  | .openHandle session name =>
    if s.sessions.contains session then
      let handle := (s.ensureHandle name).1
      [.ensure name,
        .handles fun hs => hs.modify handle fun h =>
          { h with openers := IdSet.add h.openers session },
        .sessions fun r => r.openHandle session handle]
    else []
  | .closeHandle session handle =>
    match s.sessions.get? session with
    | none => []
    | some owner =>
      if owner.opened.contains handle then
        .sessions (fun r => r.giveUp session handle) ::
          Instruction.detach handle session .handleClosed
      else []
  | .acquire session handle mode tryOnly reply =>
    s.acquireProgram session handle mode tryOnly reply
  | .dispatch session payload reply =>
    match readRequest payload with
    | .ok (request, mode) =>
      s.acquireProgram session request.handle.toNat mode request.tryOnly reply
    | .error fault =>
      [.count fun c => { c with protocolErrors := c.protocolErrors + 1 },
        .answer reply (.malformed fault)]
  | .release session handle =>
    match s.handle? handle with
    | none => []
    | some h =>
      .unlock handle session .explicit ::
        if h.holders.contains session then
          [.sessions fun r => r.unhold session handle, .pump handle]
        else []
  | .cancel session handle =>
    match s.handle? handle with
    | none => []
    | some h =>
      .withdraw handle session .cancelled ::
        if (h.withdraw session).1.isSome then [.pump handle] else []
  | .expire now =>
    let gone := s.lapsed now
    let ids := gone.map (·.1)
    .sessions (fun r => { r with table := r.table.filterKeys fun id => !ids.contains id }) ::
      Instruction.expireAll (.start (s.unregister ids)) gone ++
      [.count fun c => { c with expiredSessions := c.expiredSessions + ids.length }]

end State

/-! ## The programs are the operations -/

namespace Turn

variable {t : Turn ρ}

theorem run_append (first second : List (Instruction ρ)) :
    t.run (first ++ second) = (t.run first).run second :=
  List.foldl_append

theorem run_detach (handle session : Nat) (reason : ReleaseReason) :
    t.run (Instruction.detach handle session reason) = (t.detach handle session reason).2 := rfl

theorem run_detachAll (session : Nat) (reason : ReleaseReason) (handles : List Nat) :
    t.run (Instruction.detachAll session reason handles) =
      (t.detachAll session reason handles).2 := by
  induction handles generalizing t with
  | nil => rfl
  | cons handle rest ih =>
    show t.run (Instruction.detach handle session reason ++
      Instruction.detachAll session reason rest) = _
    rw [run_append, run_detach, ih]
    rfl

theorem run_expireAll (gone : List (Nat × Session)) :
    t.run (Instruction.expireAll t gone) = t.expireAll gone := by
  induction gone generalizing t with
  | nil => rfl
  | cons e rest ih =>
    obtain ⟨id, session⟩ := e
    rw [Instruction.expireAll, run_append, run_detachAll]
    exact ih

end Turn

namespace State

variable {s : State ρ}

theorem run_acquireProgram (session handle : Nat) (mode : Mode) (tryOnly : Bool) (reply : ρ) :
    (Turn.start s).run (s.acquireProgram session handle mode tryOnly reply) =
      (s.acquire session handle mode tryOnly reply).2 := by
  unfold acquireProgram acquire
  cases s.checkRequest session handle with
  | error fault => rfl
  | ok h =>
    dsimp only
    split
    · rfl
    · split <;> rfl

theorem run_program_release (s : State ρ) (session handle : Nat) :
    (Turn.start s).run (s.program (.release session handle)) = (s.release session handle).2 := by
  cases hx : s.handle? handle with
  | none =>
    simp only [program, release, hx]
    rfl
  | some x =>
    have hu := Turn.unlocked_unlock (t := .start s) hx session .explicit
    simp only [program, release, hx, ← hu.found]
    rcases hr : (Turn.start s).unlock handle session .explicit with ⟨_ | _, t⟩
    · show ((Turn.start s).unlock handle session .explicit).2 = t
      rw [hr]
    · show (((Turn.start s).unlock handle session .explicit).2.onSessions _).pump handle = _
      rw [hr]

theorem run_program_cancel (s : State ρ) (session handle : Nat) :
    (Turn.start s).run (s.program (.cancel session handle)) = (s.cancel session handle).2 := by
  cases hx : s.handle? handle with
  | none =>
    have hnone : (Turn.start s).state.handle? handle = none := hx
    simp only [program, cancel, Turn.withdraw, hx, hnone]
    rfl
  | some x =>
    have hw := Turn.withdrawn_withdraw (t := .start s) hx session .cancelled
    simp only [program, cancel, hx, Handle.withdraw, ← hw.found]
    rcases hr : (Turn.start s).withdraw handle session .cancelled with ⟨_ | _, t⟩
    · show ((Turn.start s).withdraw handle session .cancelled).2 = t
      rw [hr]
    · show ((Turn.start s).withdraw handle session .cancelled).2.pump handle = _
      rw [hr]

/-- Carrying out an operation is executing its instructions one after another. -/
theorem run_program (s : State ρ) (op : Operation ρ) :
    (Turn.start s).run (s.program op) = (s.perform op).2 := by
  cases op with
  | createSession now => rfl
  | renew session now => rfl
  | closeSession session =>
    rcases s.closeSession_cases session with ⟨hnone, heq⟩ | ⟨gone, hg, heq⟩
    · simp only [program, perform, hnone, heq]
      rfl
    · simp only [program, perform, hg, heq]
      exact Turn.run_detachAll (t := .start _) session .sessionClosed gone.opened.keys
  | openHandle session name =>
    simp only [program, perform, openHandle]
    split <;> rfl
  | closeHandle session handle =>
    cases hg : s.sessions.get? session with
    | none =>
      simp only [program, perform, closeHandle, hg]
      rfl
    | some owner =>
      simp only [program, perform, closeHandle, hg]
      split <;> rfl
  | acquire session handle mode tryOnly reply =>
    exact run_acquireProgram session handle mode tryOnly reply
  | dispatch session payload reply =>
    rcases s.dispatch_cases session payload reply with ⟨request, mode, hr, heq⟩ | ⟨fault, hr, heq⟩
    · simp only [program, perform, hr, heq]
      exact run_acquireProgram session request.handle.toNat mode request.tryOnly reply
    · simp only [program, perform, hr, heq]
      rfl
  | release session handle => exact run_program_release s session handle
  | cancel session handle => exact run_program_cancel s session handle
  | expire now =>
    have hgone := Turn.run_expireAll (t := .start (s.unregister ((s.lapsed now).map (·.1))))
      (s.lapsed now)
    simp only [program, perform, expire]
    rw [Turn.run_append, ← hgone]
    rfl

end State

/-! ## What instructions find -/

/-- What is expected of a turn when the time for an instruction has come.  The sessions that
satisfy `reaped` are those that the operation has ended because their lease has run out. -/
def Instruction.Finds (reaped : Nat → Prop) (t : Turn ρ) : Instruction ρ → Prop
  -- what a session has open exists
  | .check session handle =>
    t.state.sessions.Opened session handle → ∃ x, t.state.handle? handle = some x
  -- the handle exists
  | .withdraw handle _ _ | .unlock handle _ _ | .shut handle _ =>
    ∃ x, t.state.handle? handle = some x
  -- the handle exists, and nobody waits for it but registered sessions and reaped ones
  | .pump handle => ∃ x, t.state.handle? handle = some x ∧
      ∀ w ∈ x.waiters, t.state.sessions.contains w.session = false → reaped w.session
  -- the handle exists; if nobody has it open then nobody waits for it, and nobody is answered
  | .destroyUnopened handle => ∃ x, t.state.handle? handle = some x ∧
      (x.openers.isEmpty = true → x.waiters = []) ∧
      (t.destroyUnopened handle).answers = t.answers
  | .sessions _ | .handles _ | .count _ | .emit _ | .answer _ _ | .ensure _ => True

/-- Every instruction of a program finds what is expected when those before it have been
executed. -/
def Turn.AllFind (reaped : Nat → Prop) (t : Turn ρ) (program : List (Instruction ρ)) : Prop :=
  ∀ before i later, program = before ++ i :: later → i.Finds reaped (t.run before)

/-- The operation ends the session because its lease has run out. -/
def State.Reaps (s : State ρ) (op : Operation ρ) (sid : Nat) : Prop :=
  ∃ now, op = .expire now ∧ sid ∈ (s.expire now).1

namespace Turn

variable {reaped : Nat → Prop} {t : Turn ρ} {handle session : Nat} {x : Handle ρ}

theorem allFind_nil : t.AllFind reaped [] := by
  intro before i later heq
  cases before <;> cases heq

theorem allFind_cons {i : Instruction ρ} {rest : List (Instruction ρ)} :
    t.AllFind reaped (i :: rest) ↔ i.Finds reaped t ∧ (t.execute i).AllFind reaped rest := by
  constructor
  · intro h
    exact ⟨h [] i rest rfl, fun before j later heq =>
      h (i :: before) j later (congrArg (i :: ·) heq)⟩
  · rintro ⟨hi, hrest⟩ before j later heq
    cases before with
    | nil =>
      obtain ⟨rfl, -⟩ := List.cons.inj heq
      exact hi
    | cons k before =>
      obtain ⟨rfl, htail⟩ := List.cons.inj heq
      exact hrest before j later htail

theorem allFind_append {first second : List (Instruction ρ)} :
    t.AllFind reaped (first ++ second) ↔
      t.AllFind reaped first ∧ (t.run first).AllFind reaped second := by
  induction first generalizing t with
  | nil => exact ⟨fun h => ⟨allFind_nil, h⟩, fun h => h.2⟩
  | cons i rest ih =>
    rw [List.cons_append, allFind_cons, allFind_cons, ih, and_assoc]
    rfl

/-- Of most instructions nothing is expected. -/
theorem allFind_of_forall {program : List (Instruction ρ)}
    (h : ∀ i ∈ program, ∀ u, i.Finds reaped u) : t.AllFind reaped program :=
  fun _ i _ heq => h i (heq ▸ List.mem_append_right _ List.mem_cons_self) _

/-- Where no request is left, destroying the handle answers nobody. -/
theorem answers_destroyUnopened (hx : t.state.handle? handle = some x)
    (hnil : x.openers.isEmpty = true → x.waiters = []) :
    (t.destroyUnopened handle).answers = t.answers := by
  rw [destroyUnopened_eq hx]
  split
  · rename_i hempty
    rw [hnil hempty]
    exact List.append_nil _
  · rfl

end Turn

/-! ## Cascades -/

namespace Coherent

variable {owed : List (Nat × Nat)} {lent : Nat → Nat → Prop} {reaped : Nat → Prop} {s : State ρ}
  {t : Turn ρ} {d h : Nat} {x : Handle ρ}

/-- When a session has been taken out of a handle, those who still wait for it are registered, or
are to be taken out of it later. -/
theorem waiter_of_drop (hs : Coherent ((d, h) :: owed) lent t.state)
    (hx : t.state.handle? h = some x) {w : Waiter ρ} (hw : w ∈ (x.drop d).waiters) :
    w.session ≠ d ∧ (t.state.sessions.contains w.session = true ∨ (w.session, h) ∈ owed) := by
  have hopener : w.session ∈ x.openers.erase d :=
    ((hs.booked h x hx).wf.drop d).waiter_opener w hw
  refine ⟨(Table.mem_erase.1 hopener).1, ?_⟩
  rcases (hs.mem_openers_erase hx w.session).1 hopener with hopened | howed
  · exact .inl hopened.contains
  · exact .inr howed

/-- Taking a session out of a handle finds what is expected, if the sessions that are still to be
taken out of theirs have been reaped. -/
theorem allFind_detach (hs : Coherent ((d, h) :: owed) lent t.state)
    (howed : ∀ p ∈ owed, p.1 = d ∨ reaped p.1) (reason : ReleaseReason) :
    t.AllFind reaped (Instruction.detach h d reason) := by
  obtain ⟨x, hx⟩ := hs.exists_handle d h (.inr List.mem_cons_self)
  have hw := Turn.withdrawn_withdraw hx d (Turn.farewell d reason)
  have hu := Turn.unlocked_unlock hw.handle? d reason
  have hd := Turn.dropped_shut hx d reason
  have hp := Turn.pumped_pump hd.handle?
  have hempty : ∀ u : Turn ρ, (u.served (x.drop d)).2.openers.isEmpty = true →
      (u.served (x.drop d)).2.waiters = [] := fun u =>
    ((hs.booked h x hx).wf.drop d).pump.waiters_eq_nil
  refine Turn.allFind_cons.2 ⟨⟨x, hx⟩, ?_⟩
  refine Turn.allFind_cons.2 ⟨⟨_, hw.handle?⟩, ?_⟩
  refine Turn.allFind_cons.2 ⟨⟨_, hu.handle?⟩, ?_⟩
  refine Turn.allFind_cons.2 ⟨⟨_, hd.handle?, fun w hwait hout => ?_⟩, ?_⟩
  · -- whoever waits now is not `d`, and is either registered or owed
    obtain ⟨hne, hin | hlater⟩ := hs.waiter_of_drop hx hwait
    · rw [← hd.sessions] at hin
      exact absurd (hin.symm.trans hout) Bool.noConfusion
    · exact (howed _ hlater).resolve_left hne
  · have hanswers := Turn.answers_destroyUnopened hp.handle? (hempty _)
    exact Turn.allFind_cons.2 ⟨⟨_, hp.handle?, hempty _, hanswers⟩, Turn.allFind_nil⟩

/-- Likewise for several handles of one session. -/
theorem allFind_detachAll (reason : ReleaseReason) (handles : List Nat)
    (hs : Coherent (handles.map (d, ·) ++ owed) lent t.state)
    (howed : ∀ p ∈ owed, p.1 = d ∨ reaped p.1) :
    t.AllFind reaped (Instruction.detachAll d reason handles) := by
  induction handles generalizing t with
  | nil => exact Turn.allFind_nil
  | cons handle rest ih =>
    have hrest : ∀ p ∈ rest.map (d, ·) ++ owed, p.1 = d ∨ reaped p.1 := by
      intro p hp
      rcases List.mem_append.1 hp with hmine | hother
      · obtain ⟨j, -, rfl⟩ := List.mem_map.1 hmine
        exact .inl rfl
      · exact howed p hother
    exact Turn.allFind_append.2 ⟨allFind_detach hs hrest reason, ih (hs.detach reason)⟩

/-- Likewise for a sweep, also while some of its sessions have been taken out of their handles and
others have not. -/
theorem allFind_expireAll (gone : List (Nat × Session))
    (hs : Coherent (Turn.owes gone) lent t.state) (hgone : ∀ e ∈ gone, reaped e.1) :
    t.AllFind reaped (Instruction.expireAll t gone) := by
  induction gone generalizing t with
  | nil => exact Turn.allFind_nil
  | cons e rest ih =>
    obtain ⟨d, o⟩ := e
    have hrest : ∀ e ∈ rest, reaped e.1 := fun e he => hgone e (List.mem_cons_of_mem _ he)
    have howed : ∀ p ∈ Turn.owes rest, p.1 = d ∨ reaped p.1 := by
      rintro ⟨sid, j⟩ hp
      obtain ⟨o', hm, -⟩ := Turn.mem_owes.1 hp
      exact .inr (hrest _ hm)
    have hs : Coherent (o.opened.keys.map (d, ·) ++ Turn.owes rest) lent t.state := hs
    rw [Instruction.expireAll]
    refine Turn.allFind_append.2 ⟨hs.allFind_detachAll .sessionExpired _ howed, ?_⟩
    rw [Turn.run_detachAll]
    exact Turn.allFind_cons.2 ⟨trivial, ih (hs.detachAll .sessionExpired _) hrest⟩

/-! ## Operations -/

/-- Between operations, whoever waits is registered. -/
theorem registered_of_waiter (hs : Coherent [] lent s) (hx : s.handle? h = some x)
    {w : Waiter ρ} (hw : w ∈ x.waiters) : s.sessions.contains w.session = true := by
  have hb := hs.booked_nil hx
  exact ((hb.opener_iff w.session).1 (hb.wf.waiter_opener w hw)).contains

theorem allFind_acquireProgram (hs : Coherent [] lent s) (session handle : Nat) (mode : Mode)
    (tryOnly : Bool) (reply : ρ) :
    (Turn.start s).AllFind reaped (s.acquireProgram session handle mode tryOnly reply) := by
  refine Turn.allFind_cons.2 ⟨hs.handle_of_opened, Turn.allFind_of_forall ?_⟩
  split
  · simp [Instruction.Finds]
  · split
    · simp [Instruction.Finds]
    · split <;> simp [Instruction.Finds]

/-- A queue is served that is part of a queue in which everyone was registered. -/
theorem finds_pump (hs : Coherent [] lent s) (hx : s.handle? h = some x) {y : Handle ρ}
    (hy : t.state.handle? h = some y) (hwaiters : ∀ w ∈ y.waiters, w ∈ x.waiters)
    (hregistry : ∀ sid, t.state.sessions.contains sid = s.sessions.contains sid) :
    (Instruction.pump h).Finds reaped t := by
  refine ⟨y, hy, fun w hw hout => ?_⟩
  have hin := hs.registered_of_waiter hx (hwaiters w hw)
  rw [hregistry] at hout
  exact absurd (hin.symm.trans hout) Bool.noConfusion

theorem allFind_release (hs : Coherent [] lent s) (session handle : Nat) :
    (Turn.start s).AllFind reaped (s.program (.release session handle)) := by
  cases hx : s.handle? handle with
  | none =>
    simp only [State.program, hx]
    exact Turn.allFind_nil
  | some x =>
    have hu := Turn.unlocked_unlock (t := .start s) hx session .explicit
    simp only [State.program, hx]
    refine Turn.allFind_cons.2 ⟨⟨x, hx⟩, ?_⟩
    split
    · refine Turn.allFind_cons.2 ⟨trivial, Turn.allFind_cons.2 ⟨?_, Turn.allFind_nil⟩⟩
      refine hs.finds_pump hx hu.handle? (fun _ hw => hw) fun sid => ?_
      exact (Sessions.sameButHeld_unhold.contains sid).trans
        (congrArg (fun r : Sessions => r.contains sid) hu.sessions)
    · exact Turn.allFind_nil

theorem allFind_cancel (hs : Coherent [] lent s) (session handle : Nat) :
    (Turn.start s).AllFind reaped (s.program (.cancel session handle)) := by
  cases hx : s.handle? handle with
  | none =>
    simp only [State.program, hx]
    exact Turn.allFind_nil
  | some x =>
    have hw := Turn.withdrawn_withdraw (t := .start s) hx session .cancelled
    simp only [State.program, hx]
    refine Turn.allFind_cons.2 ⟨⟨x, hx⟩, ?_⟩
    split
    · refine Turn.allFind_cons.2 ⟨?_, Turn.allFind_nil⟩
      refine hs.finds_pump hx hw.handle? (fun _ hm => List.mem_of_mem_eraseP hm) fun sid => ?_
      exact congrArg (fun r : Sessions => r.contains sid) hw.sessions
    · exact Turn.allFind_nil

/-- Every instruction of an operation finds what is expected. -/
theorem allFind_program (hs : Coherent [] lent s) (op : Operation ρ) :
    (Turn.start s).AllFind (s.Reaps op) (s.program op) := by
  cases op with
  | createSession now => exact Turn.allFind_of_forall (by simp [State.program, Instruction.Finds])
  | renew session now => exact Turn.allFind_of_forall (by simp [State.program, Instruction.Finds])
  | closeSession session =>
    cases hg : s.sessions.get? session with
    | none =>
      simp only [State.program, hg]
      exact Turn.allFind_nil
    | some gone =>
      have hgone := hs.unregister_session hg
      rw [← List.append_nil (gone.opened.keys.map _)] at hgone
      simp only [State.program, hg]
      exact Turn.allFind_cons.2 ⟨trivial, allFind_detachAll .sessionClosed gone.opened.keys hgone
        fun _ hp => absurd hp List.not_mem_nil⟩
  | openHandle session name =>
    refine Turn.allFind_of_forall ?_
    simp only [State.program]
    split <;> simp [Instruction.Finds]
  | closeHandle session handle =>
    cases hg : s.sessions.get? session with
    | none =>
      simp only [State.program, hg]
      exact Turn.allFind_nil
    | some owner =>
      simp only [State.program, hg]
      split
      · rename_i hopen
        have hgone := hs.giveUp ⟨owner, hg, hopen⟩
        exact Turn.allFind_cons.2 ⟨trivial,
          allFind_detach hgone (fun _ hp => absurd hp List.not_mem_nil) .handleClosed⟩
      · exact Turn.allFind_nil
  | acquire session handle mode tryOnly reply =>
    exact hs.allFind_acquireProgram session handle mode tryOnly reply
  | dispatch session payload reply =>
    simp only [State.program]
    split
    · exact hs.allFind_acquireProgram session _ _ _ reply
    · exact Turn.allFind_of_forall (by simp [Instruction.Finds])
  | release session handle => exact hs.allFind_release session handle
  | cancel session handle => exact hs.allFind_cancel session handle
  | expire now =>
    have hreaped : ∀ e ∈ s.lapsed now, s.Reaps (.expire now) e.1 := fun e he =>
      ⟨now, rfl, List.mem_map.2 ⟨e, he, rfl⟩⟩
    simp only [State.program]
    refine Turn.allFind_append.2 ⟨Turn.allFind_cons.2 ⟨trivial,
      allFind_expireAll (s.lapsed now) (hs.unregister_lapsed now) hreaped⟩, ?_⟩
    exact Turn.allFind_of_forall (by simp [Instruction.Finds])

end Coherent

/-- Whatever operations have been carried out, the next one, which is its program, finds at every
instruction what is expected. -/
theorem program_finds (lease : Nat) (ops : List (Operation ρ)) (op : Operation ρ) :
    let s := (State.empty lease).after ops
    (Turn.start s).run (s.program op) = (s.perform op).2 ∧
      (Turn.start s).AllFind (s.Reaps op) (s.program op) :=
  ⟨State.run_program _ op, (coherent_after lease ops).allFind_program op⟩

-- A sweep does meet a request of a session that it has ended, but has not taken out of its handle:
-- here two sessions lapse at once, and the second waits for the lock of the first.
example :
    let s := (State.empty 10 : State Nat).after [.createSession 0, .createSession 0,
      .openHandle 1 "a", .openHandle 2 "a", .acquire 1 1 .exclusive false 7,
      .acquire 2 1 .exclusive false 8]
    let t := (Turn.start s).run ((s.program (.expire 10)).take 4)
    ((s.program (.expire 10))[4]?.map fun i => i matches .pump 1,
      (t.state.handle? 1).map fun x => x.waiters.map (·.session), t.state.sessions.contains 2) =
      (some true, some [2], false) := by decide +kernel

end LeaseLock.Coordinator
