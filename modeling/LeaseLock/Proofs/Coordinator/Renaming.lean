import LeaseLock.Coordinator.Operation
import LeaseLock.Coordinator.Snapshot
import LeaseLock.Proofs.Table

/-
  LeaseLock: the coordinator does not look at reply addresses.
  The addresses in a state can be replaced by others (`State.mapReply`), even by equal ones for
  different ones.  Whatever the coordinator is asked, it then does the same (`perform_mapReply`):
  the results and the events are the same, and so are the answers but for their addresses.
-/

namespace LeaseLock

/-! ## Tables -/

namespace Table

universe u v

variable {β : Type u} {γ : Type v} (t : Table β) (g : Nat → β → γ)

theorem map_insert (k : Nat) (x : β) : (t.insert k x).map g = (t.map g).insert k (g k x) := by
  ext1 j
  rw [get?_map, get?_insert, get?_insert, get?_map]
  by_cases h : j = k
  · rw [if_pos h, if_pos h, h]
    rfl
  · rw [if_neg h, if_neg h]

theorem map_erase (k : Nat) : (t.erase k).map g = (t.map g).erase k := by
  ext1 j
  rw [get?_map, get?_erase, get?_erase, get?_map]
  by_cases h : j = k
  · rw [if_pos h, if_pos h]
    rfl
  · rw [if_neg h, if_neg h]

theorem map_modify (k : Nat) {u : β → β} {u' : γ → γ} (hu : ∀ x, g k (u x) = u' (g k x)) :
    (t.modify k u).map g = (t.map g).modify k u' := by
  ext1 j
  rw [get?_map, get?_modify, get?_modify, get?_map, get?_map]
  by_cases h : j = k
  · rw [if_pos h, if_pos h, h]
    cases t.get? k with
    | none => rfl
    | some x => exact congrArg some (hu x)
  · rw [if_neg h, if_neg h]

theorem map_congr {g g' : Nat → β → γ} (h : ∀ k x, t.get? k = some x → g k x = g' k x) :
    t.map g = t.map g' := by
  ext1 k
  rw [get?_map, get?_map]
  cases hx : t.get? k with
  | none => rfl
  | some x => exact congrArg some (h k x hx)

@[simp] theorem map_id : (t.map fun _ x => x) = t := by
  ext1 k
  rw [get?_map]
  exact Option.map_id_apply

end Table

namespace Coordinator

variable {ρ σ : Type} (f : ρ → σ)

/-! ## Requests and handles -/

/-- The same request with another address. -/
def Waiter.mapReply (w : Waiter ρ) : Waiter σ := ⟨w.session, w.mode, f w.reply⟩

namespace Handle

/-- The same handle with other addresses. -/
def mapReply (h : Handle ρ) : Handle σ where
  name := h.name
  holders := h.holders
  openers := h.openers
  waiters := h.waiters.map (·.mapReply f)
  generation := h.generation

/-- The same admission with another address. -/
def Admission.mapReply : Admission ρ → Admission σ
  | .granted w generation => .granted (w.mapReply f) generation
  | .lapsed w => .lapsed (w.mapReply f)

variable (h : Handle ρ)

theorem grant_mapReply (session : Nat) (mode : Mode) :
    (h.mapReply f).grant session mode = (h.grant session mode).mapReply f := rfl

theorem involves_mapReply (session : Nat) :
    (h.mapReply f).involves session = h.involves session := by
  unfold involves mapReply
  rw [List.any_map]
  rfl

theorem withdraw_mapReply (session : Nat) : (h.mapReply f).withdraw session =
    ((h.withdraw session).1.map (·.mapReply f), (h.withdraw session).2.mapReply f) := by
  unfold withdraw mapReply
  rw [List.find?_map, List.eraseP_map]
  rfl

theorem serve_mapReply (registered : Nat → Bool) (ws : List (Waiter ρ)) :
    (h.mapReply f).serve registered (ws.map (·.mapReply f)) =
      ((h.serve registered ws).1.map (·.mapReply f), (h.serve registered ws).2.mapReply f) := by
  induction ws generalizing h with
  | nil => rfl
  | cons w rest ih =>
    unfold serve
    rw [List.map_cons]
    dsimp only
    rw [show (h.mapReply f).admits (w.mapReply f).mode = h.admits w.mode from rfl,
      show (w.mapReply f).session = w.session from rfl,
      show (w.mapReply f).mode = w.mode from rfl, grant_mapReply, ih, ih]
    by_cases hadmits : h.admits w.mode = true
    · rw [if_pos hadmits, if_pos hadmits]
      by_cases hregistered : registered w.session = true
      · rw [if_pos hregistered, if_pos hregistered]
        rfl
      · rw [if_neg hregistered, if_neg hregistered]
        rfl
    · rw [if_neg hadmits, if_neg hadmits]
      rfl

theorem pump_mapReply (registered : Nat → Bool) : (h.mapReply f).pump registered =
    ((h.pump registered).1.map (·.mapReply f), (h.pump registered).2.mapReply f) :=
  serve_mapReply f h registered h.waiters

end Handle

/-! ## States -/

namespace State

/-- The same state with other addresses. -/
def mapReply (s : State ρ) : State σ where
  sessions := s.sessions
  handles := s.handles.map fun _ h => h.mapReply f
  names := s.names
  nextHandle := s.nextHandle
  tally := s.tally

variable (s : State ρ)

theorem handle?_mapReply (id : Nat) :
    (s.mapReply f).handle? id = (s.handle? id).map (·.mapReply f) := Table.get?_map _ _ id

/-- Statistics do not tell of addresses. -/
theorem snapshot_mapReply : (s.mapReply f).snapshot = s.snapshot := by
  unfold snapshot mapReply Table.map
  rw [List.map_map]
  refine congrArg (Snapshot.mk _ · _) (List.map_congr_left fun e _ => ?_)
  unfold Handle.snapshot Handle.mapReply
  exact congrArg (HandleSnapshot.mk _ _ _ _ _ · _) (List.length_map _)

end State

/-! ## Turns -/

namespace Turn

/-- The same turn with other addresses. -/
def mapReply (t : Turn ρ) : Turn σ where
  state := t.state.mapReply f
  events := t.events
  answers := t.answers.map fun p => (f p.1, p.2)

variable (t : Turn ρ)

@[simp] theorem start_mapReply (s : State ρ) :
    (start s).mapReply f = start (s.mapReply f) := rfl

@[simp] theorem state_mapReply : (t.mapReply f).state = t.state.mapReply f := rfl

@[simp] theorem emit_mapReply (e : LockEvent) :
    (t.mapReply f).emit e = (t.emit e).mapReply f := rfl

@[simp] theorem count_mapReply (u : Tally → Tally) :
    (t.mapReply f).count u = (t.count u).mapReply f := rfl

@[simp] theorem onSessions_mapReply (u : Sessions → Sessions) :
    (t.mapReply f).onSessions u = (t.onSessions u).mapReply f := rfl

@[simp] theorem answer_mapReply (reply : ρ) (a : Answer) :
    (t.mapReply f).answer (f reply) a = (t.answer reply a).mapReply f := by
  unfold answer mapReply
  rw [List.map_append]
  rfl

theorem insert_mapReply (handle : Nat) (x : Handle ρ) :
    (t.mapReply f).onHandles (fun hs => hs.insert handle (x.mapReply f)) =
      (t.onHandles fun hs => hs.insert handle x).mapReply f := by
  unfold onHandles mapReply State.mapReply
  rw [Table.map_insert]

@[simp] theorem recordGrant_mapReply (handle session : Nat) (mode : Mode) (generation : Nat)
    (reply : ρ) : (t.mapReply f).recordGrant handle session mode generation (f reply) =
      (t.recordGrant handle session mode generation reply).mapReply f := by
  unfold recordGrant
  simp only [onSessions_mapReply, count_mapReply, emit_mapReply, answer_mapReply]

theorem recordAdmission_mapReply (handle : Nat) (a : Handle.Admission ρ) :
    (t.mapReply f).recordAdmission handle (a.mapReply f) =
      (t.recordAdmission handle a).mapReply f := by
  cases a with
  | granted w generation => exact recordGrant_mapReply f t handle _ _ _ _
  | lapsed w =>
    unfold recordAdmission Handle.Admission.mapReply
    dsimp only
    rw [count_mapReply]
    exact answer_mapReply f _ w.reply _

theorem pump_mapReply (handle : Nat) :
    (t.mapReply f).pump handle = (t.pump handle).mapReply f := by
  unfold pump
  rw [state_mapReply, State.handle?_mapReply]
  cases t.state.handle? handle with
  | none => rfl
  | some x =>
    dsimp only [Option.map_some]
    rw [Handle.pump_mapReply, List.foldl_map, insert_mapReply]
    exact List.foldl_hom (Turn.mapReply f) fun t a => recordAdmission_mapReply f t handle a

theorem withdraw_mapReply (handle session : Nat) (a : Answer) :
    (t.mapReply f).withdraw handle session a =
      ((t.withdraw handle session a).1, (t.withdraw handle session a).2.mapReply f) := by
  unfold withdraw
  rw [state_mapReply, State.handle?_mapReply]
  cases t.state.handle? handle with
  | none => rfl
  | some x =>
    dsimp only [Option.map_some]
    rw [Handle.withdraw_mapReply]
    obtain ⟨_ | w, x'⟩ := x.withdraw session
    · rfl
    · refine congrArg (Prod.mk true) ?_
      dsimp only
      rw [insert_mapReply, count_mapReply]
      exact answer_mapReply f _ w.reply a

theorem unlock_mapReply (handle session : Nat) (reason : ReleaseReason) :
    (t.mapReply f).unlock handle session reason =
      ((t.unlock handle session reason).1, (t.unlock handle session reason).2.mapReply f) := by
  unfold unlock
  rw [state_mapReply, State.handle?_mapReply]
  cases t.state.handle? handle with
  | none => rfl
  | some x =>
    dsimp only [Option.map_some]
    rw [show (x.mapReply f).holders = x.holders from rfl]
    split
    · refine congrArg (Prod.mk true) ?_
      exact congrArg (Turn.emit · _)
        (insert_mapReply f t handle { x with holders := x.holders.erase session })
    · rfl

theorem shut_mapReply (handle session : Nat) :
    (t.mapReply f).shut handle session = (t.shut handle session).mapReply f := by
  unfold shut onHandles mapReply State.mapReply
  dsimp only
  rw [Table.map_modify]
  exact fun _ => rfl

theorem destroyUnopened_mapReply (handle : Nat) :
    (t.mapReply f).destroyUnopened handle = (t.destroyUnopened handle).mapReply f := by
  unfold destroyUnopened
  rw [state_mapReply, State.handle?_mapReply]
  cases t.state.handle? handle with
  | none => rfl
  | some x =>
    dsimp only [Option.map_some]
    rw [show (x.mapReply f).openers = x.openers from rfl]
    split
    · have hanswered : (x.mapReply f).waiters.foldl
          (fun t w => t.answer w.reply (.refused (.unknownHandle handle))) (t.mapReply f) =
            (x.waiters.foldl (fun t w => t.answer w.reply (.refused (.unknownHandle handle)))
              t).mapReply f := by
        unfold Handle.mapReply
        rw [List.foldl_map]
        exact List.foldl_hom (Turn.mapReply f) fun t w => answer_mapReply f t w.reply _
      rw [hanswered]
      unfold mapReply State.mapReply
      rw [Table.map_erase]
      rfl
    · rfl

theorem detach_mapReply (handle session : Nat) (reason : ReleaseReason) :
    (t.mapReply f).detach handle session reason =
      ((t.detach handle session reason).1, (t.detach handle session reason).2.mapReply f) := by
  unfold detach
  rw [withdraw_mapReply]
  dsimp only
  rw [unlock_mapReply]
  dsimp only
  rw [shut_mapReply, pump_mapReply, destroyUnopened_mapReply]

theorem detachAll_mapReply (session : Nat) (reason : ReleaseReason) (handles : List Nat) :
    (t.mapReply f).detachAll session reason handles =
      ((t.detachAll session reason handles).1,
        (t.detachAll session reason handles).2.mapReply f) := by
  induction handles generalizing t with
  | nil => rfl
  | cons handle rest ih =>
    unfold detachAll
    rw [detach_mapReply]
    dsimp only
    rw [ih]

theorem expireAll_mapReply (gone : List (Nat × Session)) :
    (t.mapReply f).expireAll gone = (t.expireAll gone).mapReply f := by
  induction gone generalizing t with
  | nil => rfl
  | cons p rest ih =>
    unfold expireAll
    rw [detachAll_mapReply]
    dsimp only
    rw [emit_mapReply, ih]

end Turn

/-! ## Operations -/

namespace State

variable (s : State ρ) (session handle : Nat)

theorem closeSession_mapReply : (s.mapReply f).closeSession session =
    ((s.closeSession session).1, (s.closeSession session).2.mapReply f) := by
  unfold closeSession
  rw [show (s.mapReply f).sessions = s.sessions from rfl]
  obtain ⟨_ | gone, sessions⟩ := s.sessions.remove session
  · rfl
  · have h := Turn.detachAll_mapReply f (.start { s with sessions }) session .sessionClosed
      gone.opened.keys
    exact congrArg (fun r : List Nat × Turn σ => (Except.ok (), r.2)) h

theorem ensureHandle_mapReply (name : String) : (s.mapReply f).ensureHandle name =
    ((s.ensureHandle name).1, (s.ensureHandle name).2.mapReply f) := by
  unfold ensureHandle
  rw [show (s.mapReply f).named? name = s.named? name from rfl]
  cases s.named? name with
  | some id => rfl
  | none =>
    dsimp only
    unfold mapReply
    rw [Table.map_insert]
    rfl

theorem openHandle_mapReply (name : String) : (s.mapReply f).openHandle session name =
    ((s.openHandle session name).1, (s.openHandle session name).2.mapReply f) := by
  unfold openHandle
  rw [show (s.mapReply f).sessions = s.sessions from rfl, ensureHandle_mapReply]
  split
  · obtain ⟨id, s'⟩ := s.ensureHandle name
    refine congrArg (Prod.mk (Except.ok id)) ?_
    unfold mapReply
    dsimp only
    rw [Table.map_modify]
    exact fun _ => rfl
  · rfl

theorem closeHandle_mapReply : (s.mapReply f).closeHandle session handle =
    ((s.closeHandle session handle).1, (s.closeHandle session handle).2.mapReply f) := by
  unfold closeHandle
  rw [show (s.mapReply f).sessions = s.sessions from rfl]
  cases s.sessions.get? session with
  | none => rfl
  | some owner =>
    dsimp only
    split
    · have h := Turn.detach_mapReply f (.start { s with
        sessions := s.sessions.modify session fun o =>
          { o with opened := o.opened.erase handle, held := o.held.erase handle } })
        handle session .handleClosed
      exact congrArg (fun r : Bool × Turn σ => (Except.ok (), r.2)) h
    · rfl

theorem checkRequest_mapReply : (s.mapReply f).checkRequest session handle =
    (s.checkRequest session handle).map (·.mapReply f) := by
  unfold checkRequest
  rw [show (s.mapReply f).sessions = s.sessions from rfl, handle?_mapReply]
  cases s.sessions.get? session with
  | none => rfl
  | some owner =>
    dsimp only
    split
    · cases s.handle? handle with
      | none => rfl
      | some x =>
        dsimp only [Option.map_some]
        rw [Handle.involves_mapReply]
        split <;> rfl
    · rfl

theorem acquire_mapReply (mode : Mode) (tryOnly : Bool) (reply : ρ) :
    (s.mapReply f).acquire session handle mode tryOnly (f reply) =
      ((s.acquire session handle mode tryOnly reply).1,
        (s.acquire session handle mode tryOnly reply).2.mapReply f) := by
  unfold acquire
  rw [checkRequest_mapReply]
  dsimp only
  rw [← Turn.start_mapReply]
  cases s.checkRequest session handle with
  | error fault => exact congrArg (Prod.mk _) (Turn.answer_mapReply f _ reply _)
  | ok x =>
    dsimp only [Except.map]
    rw [show (x.mapReply f).waiters.isEmpty = x.waiters.isEmpty from List.isEmpty_map,
      show (x.mapReply f).admits mode = x.admits mode from rfl]
    split
    · refine congrArg (Prod.mk _) ?_
      rw [Handle.grant_mapReply, Turn.insert_mapReply]
      exact Turn.recordGrant_mapReply f _ handle session mode _ reply
    · split
      · refine congrArg (Prod.mk _) ?_
        rw [Turn.count_mapReply, Turn.answer_mapReply]
      · have hqueued : { x.mapReply f with
            waiters := (x.mapReply f).waiters ++ [⟨session, mode, f reply⟩] } =
              ({ x with waiters := x.waiters ++ [⟨session, mode, reply⟩] } : Handle ρ).mapReply
                f := by
          unfold Handle.mapReply
          rw [List.map_append]
          rfl
        refine congrArg (Prod.mk _) ?_
        rw [hqueued, Turn.insert_mapReply]
        rfl

theorem dispatch_mapReply (payload : Bytes) (reply : ρ) :
    (s.mapReply f).dispatch session payload (f reply) =
      ((s.dispatch session payload reply).1,
        (s.dispatch session payload reply).2.mapReply f) := by
  unfold dispatch
  cases readRequest payload with
  | ok p => exact acquire_mapReply f s session _ _ _ reply
  | error fault =>
    refine congrArg (Prod.mk _) ?_
    dsimp only
    rw [← Turn.start_mapReply, Turn.count_mapReply, Turn.answer_mapReply]

theorem release_mapReply : (s.mapReply f).release session handle =
    ((s.release session handle).1, (s.release session handle).2.mapReply f) := by
  unfold release
  rw [handle?_mapReply]
  cases s.handle? handle with
  | none => rfl
  | some x =>
    have h := Turn.unlock_mapReply f (.start s) handle session .explicit
    rw [Turn.start_mapReply] at h
    dsimp only [Option.map_some]
    rw [h]
    obtain ⟨_ | _, t⟩ := (Turn.start s).unlock handle session .explicit
    · rfl
    · exact congrArg (Prod.mk _)
        (Turn.pump_mapReply f (t.onSessions fun r => r.unhold session handle) handle)

theorem cancel_mapReply : (s.mapReply f).cancel session handle =
    ((s.cancel session handle).1, (s.cancel session handle).2.mapReply f) := by
  unfold cancel
  have h := Turn.withdraw_mapReply f (.start s) handle session .cancelled
  rw [Turn.start_mapReply] at h
  rw [h]
  obtain ⟨_ | _, t⟩ := (Turn.start s).withdraw handle session .cancelled
  · rfl
  · exact congrArg (Prod.mk true) (Turn.pump_mapReply f t handle)

theorem expire_mapReply (now : Nat) : (s.mapReply f).expire now =
    ((s.expire now).1, (s.expire now).2.mapReply f) := by
  have h := Turn.expireAll_mapReply f (.start (s.unregister ((s.lapsed now).map (·.1))))
    (s.lapsed now)
  exact congrArg (fun t : Turn σ => ((s.lapsed now).map (·.1), t.count _)) h

/-- Whatever the coordinator is asked, it does the same, but for the addresses of its answers. -/
theorem perform_mapReply (op : Operation ρ) : (s.mapReply f).perform (op.mapReply f) =
    ((s.perform op).1, (s.perform op).2.mapReply f) := by
  cases op with
  | createSession now => rfl
  | renew session now => rfl
  | closeSession session =>
    exact congrArg (fun r : Except Fault Unit × Turn σ => (Result.done r.1, r.2))
      (closeSession_mapReply f s session)
  | openHandle session name =>
    exact congrArg (fun r : Except Fault Nat × State σ => (Result.opened r.1, Turn.start r.2))
      (openHandle_mapReply f s session name)
  | closeHandle session handle =>
    exact congrArg (fun r : Except Fault Unit × Turn σ => (Result.done r.1, r.2))
      (closeHandle_mapReply f s session handle)
  | acquire session handle mode tryOnly reply =>
    exact congrArg (fun r : LockOutcome × Turn σ => (Result.outcome r.1, r.2))
      (acquire_mapReply f s session handle mode tryOnly reply)
  | dispatch session payload reply =>
    exact congrArg (fun r : LockOutcome × Turn σ => (Result.outcome r.1, r.2))
      (dispatch_mapReply f s session payload reply)
  | release session handle =>
    exact congrArg (fun r : Except Fault Unit × Turn σ => (Result.done r.1, r.2))
      (release_mapReply f s session handle)
  | cancel session handle =>
    exact congrArg (fun r : Bool × Turn σ => (Result.withdrawn r.1, r.2))
      (cancel_mapReply f s session handle)
  | expire now =>
    exact congrArg (fun r : List Nat × Turn σ => (Result.expired r.1, r.2))
      (expire_mapReply f s now)

/-- If nobody waits at an address that is replaced, nothing is. -/
theorem mapReply_eq_self {f : ρ → ρ}
    (hf : ∀ handle x, s.handle? handle = some x → ∀ w ∈ x.waiters, f w.reply = w.reply) :
    s.mapReply f = s := by
  have hhandles : s.handles.map (fun _ x => x.mapReply f) = s.handles.map fun _ x => x := by
    refine s.handles.map_congr fun handle x hx => ?_
    have hwaiters : x.waiters.map (·.mapReply f) = x.waiters.map id :=
      List.map_congr_left fun w hw => congrArg (Waiter.mk w.session w.mode) (hf handle x hx w hw)
    rw [List.map_id] at hwaiters
    exact congrArg (Handle.mk x.name x.holders x.openers · x.generation) hwaiters
  unfold mapReply
  rw [hhandles, Table.map_id]

end State

end Coordinator

end LeaseLock
