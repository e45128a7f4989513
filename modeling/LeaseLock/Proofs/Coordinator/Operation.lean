import LeaseLock.Coordinator.Operation
import LeaseLock.Proofs.Coordinator.Turn

/-
  LeaseLock: what the operations can come to.
  One rule for each operation lists everything that it can do.  An operation that is refused leaves
  the state as it is.  The invariants of runs are proved from these rules, without opening the
  operations.
-/

namespace LeaseLock.Coordinator.State

variable {ρ : Type} {s : State ρ}

/-! ## Sessions and handles -/

/-- Ending a session is refused, or the session leaves the registry and then its handles. -/
theorem closeSession_cases (s : State ρ) (session : Nat) :
    s.sessions.get? session = none ∧
        s.closeSession session = (.error (.sessionExpired session), .start s) ∨
      ∃ o, s.sessions.get? session = some o ∧ s.closeSession session =
        (.ok (), ((Turn.start { s with sessions := (s.sessions.remove session).2 }).detachAll
          session .sessionClosed o.opened.keys).2) := by
  unfold closeSession Sessions.remove
  cases hg : s.sessions.get? session with
  | none => exact .inl ⟨rfl, rfl⟩
  | some o => exact .inr ⟨o, rfl, rfl⟩

/-- Closing a handle is refused, or the session gives it up and is then taken out of it. -/
theorem closeHandle_cases (s : State ρ) (session handle : Nat) :
    (∃ fault, s.closeHandle session handle = (.error fault, .start s)) ∨
      s.sessions.Opened session handle ∧ s.closeHandle session handle =
        (.ok (), ((Turn.start { s with sessions := s.sessions.giveUp session handle }).detach
          handle session .handleClosed).2) := by
  unfold closeHandle
  cases hg : s.sessions.get? session with
  | none => exact .inl ⟨_, rfl⟩
  | some owner =>
    dsimp only
    split
    · rename_i hopen
      exact .inr ⟨⟨owner, hg, hopen⟩, rfl⟩
    · exact .inl ⟨_, rfl⟩

/-- A handle that is made for a name leaves the sessions as they are. -/
theorem sessions_ensureHandle (s : State ρ) (name : String) :
    (s.ensureHandle name).2.sessions = s.sessions := by
  unfold ensureHandle
  split <;> rfl

/-- A session joins the openers of a handle. -/
def addOpener (s : State ρ) (handle session : Nat) : State ρ :=
  { s with
    handles := s.handles.modify handle fun h => { h with openers := IdSet.add h.openers session }
    sessions := s.sessions.openHandle session handle }

/-- Opening a handle is refused, or the session joins the openers of the handle of this name. -/
theorem openHandle_cases (s : State ρ) (session : Nat) (name : String) :
    s.sessions.contains session = false ∧
        s.openHandle session name = (.error (.sessionExpired session), s) ∨
      s.sessions.contains session = true ∧ s.openHandle session name =
        (.ok (s.ensureHandle name).1, (s.ensureHandle name).2.addOpener (s.ensureHandle name).1
          session) := by
  unfold openHandle
  cases hc : s.sessions.contains session with
  | false => exact .inl ⟨rfl, rfl⟩
  | true => exact .inr ⟨rfl, rfl⟩

/-! ## Lock requests -/

/-- A request that is not refused comes from a session that has the handle open and neither holds
its lock nor waits for it. -/
theorem of_checkRequest {session handle : Nat} {x : Handle ρ}
    (hok : s.checkRequest session handle = .ok x) :
    s.handle? handle = some x ∧ s.sessions.Opened session handle ∧ x.involves session = false := by
  unfold checkRequest at hok
  cases hs : s.sessions.get? session with
  | none =>
    rw [hs] at hok
    cases hok
  | some owner =>
    rw [hs] at hok
    dsimp only at hok
    split at hok
    · rename_i hopen
      cases hx : s.handle? handle with
      | none =>
        rw [hx] at hok
        cases hok
      | some y =>
        rw [hx] at hok
        dsimp only at hok
        split at hok
        · cases hok
        · rename_i hinv
          cases hok
          exact ⟨rfl, ⟨owner, hs, hopen⟩, Bool.eq_false_iff.2 hinv⟩
    · cases hok

/-- What becomes of a request for a lock. -/
inductive Requested (s : State ρ) (session handle : Nat) (mode : Mode) (tryOnly : Bool)
    (reply : ρ) : LockOutcome × Turn ρ → Prop
  /-- It is refused. -/
  | refused {fault : Fault} (checked : s.checkRequest session handle = .error fault) :
      Requested s session handle mode tryOnly reply
        (.refused fault.code, (Turn.start s).answer reply (.refused fault))
  /-- It is granted, because nobody waits and the holders admit it. -/
  | granted {x : Handle ρ} (checked : s.checkRequest session handle = .ok x)
      (alone : x.waiters = []) (admitted : x.admits mode = true) :
      Requested s session handle mode tryOnly reply
        (.granted (x.grant session mode).generation,
          ((Turn.start s).onHandles fun hs => hs.insert handle (x.grant session mode)).recordGrant
            handle session mode (x.grant session mode).generation reply)
  /-- It is denied, because it would not wait. -/
  | denied {x : Handle ρ} (checked : s.checkRequest session handle = .ok x)
      (blocked : x.waiters ≠ [] ∨ x.admits mode = false) (impatient : tryOnly = true) :
      Requested s session handle mode tryOnly reply
        (.denied, ((Turn.start s).count fun c => { c with denials := c.denials + 1 }).answer reply
          .busy)
  /-- It joins the end of the queue. -/
  | queued {x : Handle ρ} (checked : s.checkRequest session handle = .ok x)
      (blocked : x.waiters ≠ [] ∨ x.admits mode = false) (patient : tryOnly = false) :
      Requested s session handle mode tryOnly reply
        (.queued, ((Turn.start s).onHandles fun hs => hs.insert handle
          { x with waiters := x.waiters ++ [⟨session, mode, reply⟩] }).count
            fun c => { c with queued := c.queued + 1 })

theorem requested_acquire (s : State ρ) (session handle : Nat) (mode : Mode) (tryOnly : Bool)
    (reply : ρ) : Requested s session handle mode tryOnly reply
      (s.acquire session handle mode tryOnly reply) := by
  unfold acquire
  dsimp only
  cases hok : s.checkRequest session handle with
  | error fault => exact .refused hok
  | ok x =>
    dsimp only
    split
    · rename_i hgrant
      rw [Bool.and_eq_true, List.isEmpty_iff] at hgrant
      exact .granted hok hgrant.1 hgrant.2
    · rename_i hwait
      have hblocked : x.waiters ≠ [] ∨ x.admits mode = false := by
        rw [Bool.and_eq_true, List.isEmpty_iff, Decidable.not_and_iff_or_not, Bool.not_eq_true]
          at hwait
        exact hwait
      cases tryOnly with
      | true => exact .denied hok hblocked rfl
      | false => exact .queued hok hblocked rfl

/-- A lock request in the form of bytes is a request for a lock, or it cannot be read. -/
theorem dispatch_cases (s : State ρ) (session : Nat) (payload : Bytes) (reply : ρ) :
    (∃ request mode, readRequest payload = .ok (request, mode) ∧
        s.dispatch session payload reply =
          s.acquire session request.handle.toNat mode request.tryOnly reply) ∨
      ∃ fault, readRequest payload = .error fault ∧ s.dispatch session payload reply =
        (.refused fault.code, ((Turn.start s).count
          fun c => { c with protocolErrors := c.protocolErrors + 1 }).answer reply
            (.malformed fault)) := by
  unfold dispatch
  cases hr : readRequest payload with
  | error fault => exact .inr ⟨fault, rfl, rfl⟩
  | ok r => exact .inl ⟨r.1, r.2, rfl, rfl⟩

/-! ## Giving back and giving up -/

/-- Releasing a lock is refused, or the session held it, and the queue is served without it. -/
theorem release_cases (s : State ρ) (session handle : Nat) :
    (∀ x, s.handle? handle = some x → session ∉ x.holders) ∧
        (∃ fault, s.release session handle = (.error fault, .start s)) ∨
      ∃ x t, s.handle? handle = some x ∧
        Turn.Unlocked (.start s) handle session .explicit x (true, t) ∧
        s.release session handle =
          (.ok (), (t.onSessions fun r => r.unhold session handle).pump handle) := by
  unfold release
  cases hx : s.handle? handle with
  | none => exact .inl ⟨nofun, _, rfl⟩
  | some x =>
    have hu := Turn.unlocked_unlock (t := .start s) hx session .explicit
    dsimp only
    split
    · rename_i t heq
      rw [heq] at hu
      refine .inl ⟨fun y hy hm => ?_, .notLocked handle, ?_⟩
      · obtain rfl := Option.some.inj hy
        exact absurd (hu.found.trans hm) Bool.false_ne_true
      · rw [Turn.unlock_eq_false heq]
    · rename_i t heq
      rw [heq] at hu
      exact .inr ⟨x, t, rfl, hu, rfl⟩

/-- Cancelling finds no request, or takes it out of the queue and serves the others. -/
theorem cancel_cases (s : State ρ) (session handle : Nat) :
    (∀ x, s.handle? handle = some x → ∀ w ∈ x.waiters, w.session ≠ session) ∧
        s.cancel session handle = (false, .start s) ∨
      ∃ x t, s.handle? handle = some x ∧
        Turn.Withdrawn (.start s) handle session .cancelled x (true, t) ∧
        s.cancel session handle = (true, t.pump handle) := by
  unfold cancel
  cases hx : s.handle? handle with
  | none =>
    have hnone : (Turn.start s).state.handle? handle = none := hx
    have hw : (Turn.start s).withdraw handle session .cancelled = (false, .start s) := by
      rw [Turn.withdraw, hnone]
    rw [hw]
    exact .inl ⟨fun y hy => absurd hy (Option.some_ne_none y).symm, rfl⟩
  | some x =>
    have hw := Turn.withdrawn_withdraw (t := .start s) hx session .cancelled
    split
    · rename_i t heq
      rw [heq] at hw
      rw [Turn.withdraw_eq_false heq]
      refine .inl ⟨fun y hy w hm hsession => ?_, rfl⟩
      obtain rfl := Option.some.inj hy
      have hnone := Option.isSome_eq_false_iff.1 hw.found.symm
      rw [Option.isNone_iff_eq_none, List.find?_eq_none] at hnone
      exact hnone w hm (beq_iff_eq.2 hsession)
    · rename_i t heq
      rw [heq] at hw
      exact .inr ⟨x, t, rfl, hw, rfl⟩

end LeaseLock.Coordinator.State
