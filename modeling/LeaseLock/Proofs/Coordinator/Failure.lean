import LeaseLock.Proofs.Coordinator.Carried

/-
  LeaseLock: an operation that fails changes nothing.
  An operation that tells of a failure (`Result.Failed`) leaves sessions, handles, names and the ids
  to come as they are, tells observers nothing, and answers nobody but the sender of the request
  that failed (`State.Untouched`).  Only two counts take note of it: a request that would not wait
  and is denied, and a request that cannot be read.  `failed_untouched` says so of every operation
  in every state, whether operations lead to it or not.
-/

namespace LeaseLock.Coordinator

variable {ρ : Type} {s : State ρ}

/-- An operation tells its caller that it failed. -/
def Result.Failed : Result → Prop
  | .renewed (.error _) | .done (.error _) | .opened (.error _) => True
  | .outcome .denied | .outcome (.refused _) => True
  | .withdrawn any => any = false
  | _ => False

/-- The counts after a failure with this result: a denial is counted, and a request that cannot be
read. -/
def Operation.noteFailure (op : Operation ρ) (r : Result) (c : Tally) : Tally :=
  match r, op with
  | .outcome .denied, _ => { c with denials := c.denials + 1 }
  | _, .dispatch _ payload _ =>
    match State.readRequest payload with
    | .ok _ => c
    | .error _ => { c with protocolErrors := c.protocolErrors + 1 }
  | _, _ => c

/-- Nothing has come of an operation with this result, which leads to the turn `t`. -/
structure State.Untouched (s : State ρ) (op : Operation ρ) (r : Result) (t : Turn ρ) : Prop where
  /-- Sessions, handles, names and the ids to come are as before. -/
  state : { t.state with tally := s.tally } = s
  /-- The counts take note of a denial or of an unreadable request, and of nothing else. -/
  tally : t.state.tally = op.noteFailure r s.tally
  /-- Observers are told nothing. -/
  events : t.events = []
  /-- Only a lock request is answered, once and at its own address. -/
  answers : t.answers.map (·.1) = op.reply?.toList

/-- A renewal that fails leaves the registry as it is, whether it is refused or the clock cannot
name the new end of the lease. -/
theorem renew_of_error {r : Sessions} {id now : Nat} {failure : Failure}
    (hfailed : (r.renew id now).1 = .error failure) : (r.renew id now).2 = r := by
  unfold Sessions.renew at hfailed ⊢
  cases hs : r.get? id with
  | none => rfl
  | some o =>
    rw [hs] at hfailed
    dsimp only at hfailed ⊢
    split
    · rfl
    · rename_i hlive
      rw [if_neg hlive] at hfailed
      cases hadd : Time.add? now r.lease with
      | none => rfl
      | some expiry =>
        rw [hadd] at hfailed
        cases hfailed

namespace State.Untouched

variable {op : Operation ρ}

/-- An operation that is no lock request and leads to a turn that has not done anything. -/
theorem of_start {r : Result} (hperform : s.perform op = (r, .start s))
    (hnote : op.noteFailure r s.tally = s.tally) (hreply : op.reply? = none) :
    s.Untouched op (s.perform op).1 (s.perform op).2 := by
  rw [hperform]
  exact ⟨rfl, hnote.symm, rfl, by rw [hreply]; rfl⟩

/-- A request that is refused or denied is answered, and nothing else happens.  The refusal of a
request that could be read is not counted. -/
theorem of_requested {session handle : Nat} {mode : Mode} {tryOnly : Bool} {reply : ρ}
    {r : LockOutcome × Turn ρ} (hr : s.Requested session handle mode tryOnly reply r)
    (hfailed : (Result.outcome r.1).Failed) (hreply : op.reply? = some reply)
    (hread : ∀ code, op.noteFailure (.outcome (.refused code)) s.tally = s.tally) :
    s.Untouched op (.outcome r.1) r.2 := by
  cases hr with
  | refused checked => exact ⟨rfl, (hread _).symm, rfl, by rw [hreply]; rfl⟩
  | granted checked alone admitted => exact hfailed.elim
  | denied checked blocked impatient => exact ⟨rfl, rfl, rfl, by rw [hreply]; rfl⟩
  | queued checked blocked patient => exact hfailed.elim

/-- A request in the form of bytes that cannot be read is counted. -/
theorem dispatch {session : Nat} {payload : Bytes} {reply : ρ}
    (hfailed : (Result.outcome (s.dispatch session payload reply).1).Failed) :
    s.Untouched (.dispatch session payload reply) (.outcome (s.dispatch session payload reply).1)
      (s.dispatch session payload reply).2 := by
  rcases s.dispatch_cases session payload reply with
    ⟨request, mode, hread, heq⟩ | ⟨fault, hread, heq⟩
  · rw [heq] at hfailed ⊢
    refine of_requested (s.requested_acquire _ _ _ _ _) hfailed rfl fun code => ?_
    simp [Operation.noteFailure, hread]
  · rw [heq]
    refine ⟨rfl, ?_, rfl, rfl⟩
    simp [Operation.noteFailure, hread, Turn.answer, Turn.count, Turn.start]

end State.Untouched

/-- An operation that fails changes nothing. -/
theorem failed_untouched (s : State ρ) (op : Operation ρ) (hfailed : (s.perform op).1.Failed) :
    s.Untouched op (s.perform op).1 (s.perform op).2 := by
  cases op with
  | createSession now => exact hfailed.elim
  | expire now => exact hfailed.elim
  | renew session now =>
    cases hr : (s.sessions.renew session now).1 with
    | ok expiry => simp [State.perform, State.renew, hr, Result.Failed] at hfailed
    | error failure =>
      refine .of_start (r := .renewed (.error failure)) ?_ rfl rfl
      simp [State.perform, State.renew, hr, renew_of_error hr]
  | closeSession session =>
    rcases s.closeSession_cases session with ⟨-, heq⟩ | ⟨o, -, heq⟩
    · exact .of_start (by rw [State.perform, heq]) rfl rfl
    · rw [State.perform, heq] at hfailed
      exact hfailed.elim
  | openHandle session name =>
    rcases s.openHandle_cases session name with ⟨-, heq⟩ | ⟨-, heq⟩
    · exact .of_start (by rw [State.perform, heq]) rfl rfl
    · rw [State.perform, heq] at hfailed
      exact hfailed.elim
  | closeHandle session handle =>
    rcases s.closeHandle_cases session handle with ⟨fault, heq⟩ | ⟨-, heq⟩
    · exact .of_start (by rw [State.perform, heq]) rfl rfl
    · rw [State.perform, heq] at hfailed
      exact hfailed.elim
  | acquire session handle mode tryOnly reply =>
    exact .of_requested (s.requested_acquire session handle mode tryOnly reply) hfailed rfl
      fun _ => rfl
  | dispatch session payload reply => exact .dispatch hfailed
  | release session handle =>
    rcases s.release_cases session handle with ⟨-, fault, heq⟩ | ⟨x, t, -, -, heq⟩
    · exact .of_start (by rw [State.perform, heq]) rfl rfl
    · rw [State.perform, heq] at hfailed
      exact hfailed.elim
  | cancel session handle =>
    rcases s.cancel_cases session handle with ⟨-, heq⟩ | ⟨x, t, -, -, heq⟩
    · exact .of_start (by rw [State.perform, heq]) rfl rfl
    · rw [State.perform, heq] at hfailed
      cases hfailed

/-- Session 1 holds the lock of handle 1, which session 2 has open too. -/
def contested : State Nat :=
  (State.empty 10).after [.createSession 0, .createSession 0, .openHandle 1 "a", .openHandle 2 "a",
    .acquire 1 1 .exclusive false 0]

/-- A request that would not wait is denied. -/
theorem failed_untouched_denied :
    (contested.perform (.acquire 2 1 .shared true 1)).1.Failed ∧
      contested.Untouched (.acquire 2 1 .shared true 1) (.outcome .denied)
        (contested.perform (.acquire 2 1 .shared true 1)).2 ∧
      (contested.perform (.acquire 2 1 .shared true 1)).2.state.tally = ⟨1, 1, 0, 0, 0, 0⟩ := by
  have hfailed : (contested.perform (.acquire 2 1 .shared true 1)).1.Failed := by
    show True
    trivial
  exact ⟨hfailed, failed_untouched _ _ hfailed, by decide⟩

end LeaseLock.Coordinator
