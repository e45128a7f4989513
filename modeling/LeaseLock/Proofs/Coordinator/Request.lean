import LeaseLock.Proofs.Coordinator.Queue

/-
  LeaseLock: what each operation does to the requests.
  A lock request is answered by the call that makes it or joins one queue (`Placed`).  Any other
  operation answers exactly the requests that it takes out of the queues, with a grant, with
  "cancelled" or with the end of the asking session (`Departure.Proper`).
-/

namespace LeaseLock.Coordinator

variable {ρ : Type} {lent : Nat → Nat → Prop} {s : State ρ}

/-! ## Lock requests -/

/-- The session that asks for a lock, if the operation is a lock request. -/
def Operation.asker? : Operation ρ → Option Nat
  | .acquire session _ _ _ _ => some session
  | .dispatch session _ _ => some session
  | _ => none

theorem Operation.asker?_mapReply {σ : Type} (op : Operation ρ) (f : ρ → σ) :
    (op.mapReply f).asker? = op.asker? := by
  cases op <;> rfl

/-- The answer to a request, as far as the outcome of the call determines it. -/
def LockOutcome.Agrees : LockOutcome → Answer → Prop
  | .granted generation, a => a = .granted generation
  | .denied, a => a = .busy
  | .refused code, a =>
    ∃ fault : Fault, fault.code = code ∧ (a = .refused fault ∨ a = .malformed fault)
  | .queued, _ => False

/-- A lock request has been made: it has been answered, or it has joined a queue. -/
inductive Placed (s : State ρ) (session : Nat) (reply : ρ) : LockOutcome → Turn ρ → Prop
  /-- It has been answered, and no queue has changed. -/
  | answered {o : LockOutcome} {t : Turn ρ} (a : Answer) (agrees : o.Agrees a)
      (answers : t.answers = [(reply, a)]) (queue : s.queue.Perm t.state.queue)
      (gave : ∀ generation, o = .granted generation →
        ∃ handle mode, t.Gave handle session mode generation) : Placed s session reply o t
  /-- It has joined the queue of a handle, and nobody has been answered. -/
  | queued {t : Turn ρ} (handle : Nat) (mode : Mode) (answers : t.answers = [])
      (queue : ((handle, ⟨session, mode, reply⟩) :: s.queue).Perm t.state.queue) :
      Placed s session reply .queued t

theorem placed_acquire (session handle : Nat) (mode : Mode) (tryOnly : Bool) (reply : ρ) :
    Placed s session reply (s.acquire session handle mode tryOnly reply).1
      (s.acquire session handle mode tryOnly reply).2 := by
  have hr := s.requested_acquire session handle mode tryOnly reply
  generalize s.acquire session handle mode tryOnly reply = r at hr ⊢
  cases hr with
  | refused checked =>
    rename_i fault
    refine .answered (.refused fault) ⟨fault, rfl, .inl rfl⟩ rfl (.refl _) ?_
    intro generation heq
    cases heq
  | denied checked blocked impatient =>
    refine .answered .busy rfl rfl (.refl _) ?_
    intro generation heq
    cases heq
  | granted checked alone admitted =>
    rename_i x
    have hx : s.handle? handle = some x := (State.of_checkRequest checked).1
    refine .answered _ rfl rfl ?_ ?_
    · exact State.queue_insert_of_eq (y := x.grant session mode) hx rfl rfl
    · intro generation heq
      cases heq
      have hheld : (x.grant session mode).holders.get? session = some mode :=
        Table.get?_insert_self _ _ _
      refine ⟨handle, mode, List.mem_singleton.2 rfl, x.grant session mode, ?_, hheld, rfl⟩
      exact Table.get?_insert_self _ _ _
  | queued checked blocked patient =>
    rename_i x
    refine .queued handle mode rfl ?_
    have hq : s.queue.Perm (x.waiters.map (handle, ·) ++
        Handle.places (s.handles.erase handle)) :=
      Handle.places_perm (State.of_checkRequest checked).1
    have hq' := Handle.places_insert s.handles handle
      { x with waiters := x.waiters ++ [⟨session, mode, reply⟩] }
    rw [List.map_append, List.append_assoc] at hq'
    refine (hq.cons _).trans (List.Perm.trans ?_ hq'.symm)
    exact List.perm_middle.symm

theorem placed_dispatch (session : Nat) (payload : Bytes) (reply : ρ) :
    Placed s session reply (s.dispatch session payload reply).1
      (s.dispatch session payload reply).2 := by
  rcases s.dispatch_cases session payload reply with ⟨request, mode, -, heq⟩ | ⟨fault, -, heq⟩
  · rw [heq]
    exact placed_acquire session _ _ _ reply
  · rw [heq]
    refine .answered (.malformed fault) ⟨fault, rfl, .inr rfl⟩ rfl (.refl _) ?_
    intro generation heq
    cases heq

theorem placed_perform {op : Operation Unit} {session : Nat} (hop : op.asker? = some session)
    (reply : ρ) :
    ∃ o, (s.perform (op.mapReply fun _ => reply)).1 = .outcome o ∧
      Placed s session reply o (s.perform (op.mapReply fun _ => reply)).2 := by
  cases op <;> cases hop
  · exact ⟨_, rfl, placed_acquire session _ _ _ reply⟩
  · exact ⟨_, rfl, placed_dispatch session _ reply⟩

/-! ## All other operations -/

/-- Between two turns requests have left the queues, all of them properly answered. -/
def Accounted (t t' : Turn ρ) : Prop := ∃ out, Departed out t t' ∧ ∀ d ∈ out, d.Proper

/-- The queues are as they were, and nobody has been answered. -/
theorem accounted_of_perm {t t' : Turn ρ} (hq : t.state.queue.Perm t'.state.queue)
    (ha : t'.answers = t.answers) : Accounted t t' := by
  refine ⟨[], ⟨hq, ?_, fun _ hm => ?_⟩, fun _ hm => ?_⟩
  · rw [ha, List.map_nil, List.append_nil]
  · cases hm
  · cases hm

theorem Cascade.accounted {reason : ReleaseReason} {t₀ t : Turn ρ} {owed : List (Nat × Nat)}
    (hc : Cascade reason t₀ lent owed t) : Accounted t₀ t := by
  obtain ⟨out, hout, hswept⟩ := hc.departed
  exact ⟨out, hout, fun d hd => (hswept d hd).proper⟩

theorem accounted_closeSession (hs : Coherent [] lent s) (session : Nat) :
    Accounted (.start s) (s.closeSession session).2 := by
  rcases s.closeSession_cases session with ⟨-, heq⟩ | ⟨gone, hg, heq⟩
  · rw [heq]
    exact accounted_of_perm (.refl _) rfl
  · have hc : Cascade .sessionClosed (.start { s with sessions := (s.sessions.remove session).2 })
        s.sessions.Held (gone.opened.keys.map (session, ·) ++ [])
        (.start { s with sessions := (s.sessions.remove session).2 }) := by
      rw [List.append_nil]
      refine .start (hs.unregister_session hg) ?_
      intro p hp
      obtain ⟨j, -, rfl⟩ := List.mem_map.1 hp
      show (s.sessions.table.erase session).contains session = false
      rw [Table.contains, Table.get?_erase, if_pos rfl]
      rfl
    obtain ⟨out, hout, hproper⟩ := hc.detachAll.accounted
    rw [heq]
    exact ⟨out, { hout with }, hproper⟩

theorem State.contains_unregister (ids : List Nat) (sid : Nat) :
    (s.unregister ids).sessions.contains sid = (!ids.contains sid && s.sessions.contains sid) :=
  Sessions.contains_filterKeys _

/-- The cascade that the end of leases sets off. -/
theorem cascade_expire (hs : Coherent [] lent s) (now : Nat) :
    Cascade .sessionExpired (.start (s.unregister ((s.lapsed now).map (·.1)))) s.sessions.Held []
      ((Turn.start (s.unregister ((s.lapsed now).map (·.1)))).expireAll (s.lapsed now)) := by
  refine Cascade.expireAll _ (.start (hs.unregister_lapsed now) ?_)
  intro p hp
  show (s.unregister _).sessions.contains p.1 = false
  rw [State.contains_unregister, (State.mem_owes_lapsed.1 hp).1]
  rfl

theorem accounted_expire (hs : Coherent [] lent s) (now : Nat) :
    Accounted (.start s) (s.expire now).2 := by
  obtain ⟨out, hout, hproper⟩ := (cascade_expire hs now).accounted
  exact ⟨out, { hout with }, hproper⟩

theorem accounted_closeHandle (hs : Coherent [] lent s) (session handle : Nat) :
    Accounted (.start s) (s.closeHandle session handle).2 := by
  rcases s.closeHandle_cases session handle with ⟨fault, heq⟩ | ⟨hopened, heq⟩
  · rw [heq]
    exact accounted_of_perm (.refl _) rfl
  · obtain ⟨x, hx⟩ := hs.handle_of_opened hopened
    have hd := departed_detach
      (t := .start { s with sessions := s.sessions.giveUp session handle })
      hx (hs.booked_nil hx).wf session .handleClosed
    rw [heq]
    refine ⟨_, { hd with }, ?_⟩
    intro d hm
    rcases List.mem_append.1 hm with hm | hm
    · exact .inr (.inl (of_mem_withdrawn hm).2)
    · exact (served_of_mem_admitted hm).proper

theorem queue_ensureHandle (hs : Coherent [] lent s) (name : String) :
    s.queue.Perm (s.ensureHandle name).2.queue := by
  unfold State.ensureHandle
  cases s.named? name with
  | some id => exact .refl _
  | none =>
    have hfree : s.handles.contains s.nextHandle = false := by
      rw [← Bool.not_eq_true]
      intro hc
      obtain ⟨x, hx⟩ := Option.isSome_iff_exists.1 hc
      exact absurd (hs.handle_lt _ x hx) (Nat.lt_irrefl _)
    have hq := Handle.places_insert s.handles s.nextHandle (.fresh name)
    rw [Turn.erase_of_not_mem hfree] at hq
    exact hq.symm

theorem State.queue_addOpener (s : State ρ) (handle session : Nat) :
    s.queue.Perm (s.addOpener handle session).queue := by
  unfold State.addOpener Table.modify
  cases hx : s.handles.get? handle with
  | none => exact .refl _
  | some x =>
    exact State.queue_insert_of_eq hx (y := { x with openers := IdSet.add x.openers session }) rfl
      rfl

theorem queue_openHandle (hs : Coherent [] lent s) (session : Nat) (name : String) :
    s.queue.Perm (s.openHandle session name).2.queue := by
  rcases s.openHandle_cases session name with ⟨-, heq⟩ | ⟨-, heq⟩
  · rw [heq]
  · rw [heq]
    exact (queue_ensureHandle hs name).trans (State.queue_addOpener _ _ _)

theorem accounted_release (hs : Coherent [] lent s) (session handle : Nat) :
    Accounted (.start s) (s.release session handle).2 := by
  rcases s.release_cases session handle with ⟨-, fault, heq⟩ | ⟨x, t, hx, hu, heq⟩
  · rw [heq]
    exact accounted_of_perm (.refl _) rfl
  · have hfirst : Departed [] (.start s) (t.onSessions fun r => r.unhold session handle) :=
      .of_insert hx hu.handles rfl hu.answers
    have hnd : (x.waiters.map (·.session)).Nodup := (hs.booked_nil hx).wf.waits_once
    have hpump := departed_pump (t := t.onSessions fun r => r.unhold session handle) hu.handle? hnd
    rw [heq]
    refine ⟨_, hfirst.trans hpump ?_, ?_⟩
    · intro d hm
      cases hm
    · intro d hm
      exact (served_of_mem_admitted hm).proper

theorem accounted_cancel (hs : Coherent [] lent s) (session handle : Nat) :
    Accounted (.start s) (s.cancel session handle).2 := by
  rcases s.cancel_cases session handle with ⟨-, heq⟩ | ⟨x, t, hx, hw, heq⟩
  · rw [heq]
    exact accounted_of_perm (.refl _) rfl
  · have hd : Departed (withdrawn handle session .cancelled x) (.start s) t :=
      departed_withdraw hx hw fun _ h => by cases h
    have hnd : ((x.withdraw session).2.waiters.map (·.session)).Nodup :=
      ((hs.booked_nil hx).wf.withdraw session).waits_once
    rw [heq]
    refine ⟨_, hd.trans (departed_pump hw.handle? hnd) ?_, ?_⟩
    · intro d hm generation ha
      rw [(of_mem_withdrawn hm).2] at ha
      cases ha
    · intro d hm
      rcases List.mem_append.1 hm with hm | hm
      · exact .inr (.inl (of_mem_withdrawn hm).2)
      · exact (served_of_mem_admitted hm).proper

/-- An operation that is not a lock request answers exactly the requests that it takes out of the
queues, and answers them properly. -/
theorem accounted_perform (hs : Coherent [] lent s) {op : Operation ρ} (hop : op.asker? = none) :
    Accounted (.start s) (s.perform op).2 := by
  cases op with
  | createSession now => exact accounted_of_perm (.refl _) rfl
  | renew session now => exact accounted_of_perm (.refl _) rfl
  | closeSession session => exact accounted_closeSession hs session
  | openHandle session name => exact accounted_of_perm (queue_openHandle hs session name) rfl
  | closeHandle session handle => exact accounted_closeHandle hs session handle
  | acquire session handle mode tryOnly reply => cases hop
  | dispatch session payload reply => cases hop
  | release session handle => exact accounted_release hs session handle
  | cancel session handle => exact accounted_cancel hs session handle
  | expire now => exact accounted_expire hs now

end LeaseLock.Coordinator
