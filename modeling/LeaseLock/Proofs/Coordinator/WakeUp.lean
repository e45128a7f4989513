import LeaseLock.Proofs.Coordinator.Consistency

/-
  LeaseLock: nobody waits for a lock that is free for it.
  Every queue is settled at all times: its head cannot be admitted beside the holders.  This does
  not depend on who is registered, so it holds within a cascade as well.  `awake_after` draws the
  consequences: nobody waits for an unlocked handle, and whoever waits at the head for a shared lock
  waits for an exclusive holder.
-/

namespace LeaseLock.Coordinator

variable {ρ : Type}

/-- All queues are settled. -/
def State.Settled (s : State ρ) : Prop := ∀ h x, s.handle? h = some x → x.Settled

variable {s s' : State ρ} {t : Turn ρ}

namespace State.Settled

/-- One handle changes. -/
theorem insert (hs : s.Settled) {h : Nat} {y : Handle ρ}
    (hhandles : s'.handles = s.handles.insert h y) (hy : y.Settled) : s'.Settled := by
  intro j z hz
  rw [State.handle?, hhandles, Table.get?_insert] at hz
  split at hz
  · obtain rfl := Option.some.inj hz
    exact hy
  · exact hs j z hz

/-- Serving the queue after a change of the handle makes up for the change. -/
theorem pump_insert (hs : s.Settled) {handle : Nat} {y : Handle ρ}
    (hhandles : t.state.handles = s.handles.insert handle y) : (t.pump handle).state.Settled := by
  have hx : t.state.handle? handle = some y := by
    rw [State.handle?, hhandles, Table.get?_insert_self]
  have hsettled : (t.served y).2.Settled := Handle.settled_pump
  refine hs.insert (h := handle) ?_ hsettled
  rw [(Turn.pumped_pump hx).handles, hhandles, Table.insert_insert]

theorem detach (hs : t.state.Settled) (session handle : Nat) (reason : ReleaseReason) :
    (t.detach handle session reason).2.state.Settled := by
  cases hx : t.state.handle? handle with
  | none =>
    rw [Turn.detach_of_none hx]
    exact hs
  | some x =>
    have hr := Turn.detached_detach hx session reason
    intro j z hz
    rw [hr.handle?] at hz
    split at hz
    · split at hz
      · cases hz
      · obtain rfl := Option.some.inj hz
        exact Handle.settled_pump
    · exact hs j z hz

theorem detachAll (hs : t.state.Settled) (session : Nat) (reason : ReleaseReason)
    (handles : List Nat) : (t.detachAll session reason handles).2.state.Settled :=
  Turn.detachAll_induction (P := fun _ t => t.state.Settled)
    (fun h _ _ ht => ht.detach session h reason) handles [] hs

theorem expireAll (hs : t.state.Settled) (gone : List (Nat × Session)) :
    (t.expireAll gone).state.Settled :=
  Turn.expireAll_induction (P := fun _ t => t.state.Settled)
    (fun d h _ _ ht => ht.detach d h .sessionExpired) (fun _ _ _ _ ht => ht) gone hs

/-! ## Operations -/

theorem closeSession (hs : s.Settled) (session : Nat) :
    (s.closeSession session).2.state.Settled := by
  rcases s.closeSession_cases session with ⟨-, heq⟩ | ⟨gone, -, heq⟩
  · rw [heq]
    exact hs
  · rw [heq]
    refine detachAll ?_ session .sessionClosed _
    exact hs

theorem ensureHandle (hs : s.Settled) (name : String) : (s.ensureHandle name).2.Settled := by
  unfold State.ensureHandle
  split
  · exact hs
  · exact hs.insert rfl (Handle.settled_of_no_waiters rfl)

theorem openHandle (hs : s.Settled) (session : Nat) (name : String) :
    (s.openHandle session name).2.Settled := by
  rcases s.openHandle_cases session name with ⟨-, heq⟩ | ⟨-, heq⟩
  · rw [heq]
    exact hs
  · rw [heq]
    intro j z hz
    -- openers do not matter to a queue
    have hz := (Table.get?_modify _ _ _ _).symm.trans hz
    split at hz
    · obtain ⟨x, hx, rfl⟩ := Option.map_eq_some_iff.1 hz
      exact hs.ensureHandle name _ x hx
    · exact hs.ensureHandle name j z hz

theorem closeHandle (hs : s.Settled) (session handle : Nat) :
    (s.closeHandle session handle).2.state.Settled := by
  rcases s.closeHandle_cases session handle with ⟨fault, heq⟩ | ⟨-, heq⟩
  · rw [heq]
    exact hs
  · rw [heq]
    refine detach ?_ session handle .handleClosed
    exact hs

theorem acquire (hs : s.Settled) (session handle : Nat) (mode : Mode) (tryOnly : Bool)
    (reply : ρ) : (s.acquire session handle mode tryOnly reply).2.state.Settled := by
  have hr := s.requested_acquire session handle mode tryOnly reply
  generalize s.acquire session handle mode tryOnly reply = r at hr ⊢
  cases hr with
  | refused checked => exact hs
  | denied checked blocked impatient => exact hs
  | granted checked alone admitted =>
    rename_i x
    exact hs.insert (y := x.grant session mode) rfl (Handle.settled_of_no_waiters alone)
  | queued checked blocked patient =>
    rename_i x
    have hx := hs handle x (State.of_checkRequest checked).1
    exact hs.insert (y := { x with waiters := x.waiters ++ [⟨session, mode, reply⟩] }) rfl
      (hx.enqueue blocked)

theorem dispatch (hs : s.Settled) (session : Nat) (payload : Bytes) (reply : ρ) :
    (s.dispatch session payload reply).2.state.Settled := by
  rcases s.dispatch_cases session payload reply with ⟨request, mode, -, heq⟩ | ⟨fault, -, heq⟩
  · rw [heq]
    exact hs.acquire session _ _ _ reply
  · rw [heq]
    exact hs

theorem release (hs : s.Settled) (session handle : Nat) :
    (s.release session handle).2.state.Settled := by
  rcases s.release_cases session handle with ⟨-, fault, heq⟩ | ⟨x, t, -, hu, heq⟩
  · rw [heq]
    exact hs
  · rw [heq]
    exact hs.pump_insert hu.handles

theorem cancel (hs : s.Settled) (session handle : Nat) :
    (s.cancel session handle).2.state.Settled := by
  rcases s.cancel_cases session handle with ⟨-, heq⟩ | ⟨x, t, -, hw, heq⟩
  · rw [heq]
    exact hs
  · rw [heq]
    exact hs.pump_insert hw.handles

/-- Every operation leaves all queues settled. -/
theorem perform (hs : s.Settled) (op : Operation ρ) : (s.perform op).2.state.Settled := by
  cases op with
  | createSession now => exact hs
  | renew session now => exact hs
  | closeSession session => exact hs.closeSession session
  | openHandle session name => exact hs.openHandle session name
  | closeHandle session handle => exact hs.closeHandle session handle
  | acquire session handle mode tryOnly reply => exact hs.acquire session handle mode tryOnly reply
  | dispatch session payload reply => exact hs.dispatch session payload reply
  | release session handle => exact hs.release session handle
  | cancel session handle => exact hs.cancel session handle
  | expire now =>
    refine expireAll ?_ (s.lapsed now)
    exact hs

end State.Settled

theorem settled_after (lease : Nat) (ops : List (Operation ρ)) :
    ((State.empty lease).after ops).Settled :=
  State.after_induction lease (fun _ _ hx => by cases hx) (fun _ op hs => hs.perform op) ops

/-! ## What a waiter can rely on -/

/-- Whoever waits for the lock waits for a holder. -/
structure Handle.Awake (x : Handle ρ) : Prop where
  /-- The queue is empty, or a holder is in the way of the request at its head. -/
  blocked : x.waiters = [] ∨ ∃ w rest sid held, x.waiters = w :: rest ∧
    x.holders.get? sid = some held ∧ held.compatible w.mode = false
  /-- Nobody waits for an unlocked handle. -/
  unlocked : x.lockState = .unlocked → x.waiters = []
  /-- A request for a shared lock at the head of the queue waits for an exclusive holder. -/
  shared : ∀ w rest, x.waiters = w :: rest → w.mode = .shared →
    ∃ sid, x.lockState = .exclusive sid ∧ x.holders.entries = [(sid, .exclusive)]

theorem Handle.Settled.awake {x : Handle ρ} (hs : x.Settled) (he : x.Exclusion) : x.Awake where
  blocked := by
    cases hq : x.waiters with
    | nil => exact .inl rfl
    | cons w rest =>
      obtain ⟨sid, held, hheld, hc⟩ := Handle.admits_eq_false_iff.1 (hs w rest hq)
      exact .inr ⟨w, rest, sid, held, rfl, hheld, hc⟩
  unlocked := by
    intro hu
    cases hq : x.waiters with
    | nil => rfl
    | cons w rest =>
      obtain ⟨sid, held, hheld, -⟩ := Handle.admits_eq_false_iff.1 (hs w rest hq)
      have hm := Table.mem_entries_iff.2 hheld
      unfold Handle.lockState at hu
      split at hu
      · rename_i hnil
        rw [hnil] at hm
        simp at hm
      · cases hu
      · cases hu
  shared := by
    intro w rest hq hmode
    obtain ⟨sid, held, hheld, hc⟩ := Handle.admits_eq_false_iff.1 (hs w rest hq)
    rcases he with hall | ⟨j, hone⟩
    · rw [hall sid held hheld, hmode] at hc
      cases hc
    · refine ⟨j, ?_, hone⟩
      rw [Handle.lockState, hone]

/-- No wake-up has been lost on any handle. -/
def State.Awake (s : State ρ) : Prop := ∀ h x, s.handle? h = some x → x.Awake

/-- Whatever operations have been carried out, no wake-up has been lost. -/
theorem awake_after (lease : Nat) (ops : List (Operation ρ)) :
    ((State.empty lease).after ops).Awake := by
  intro h x hx
  have hb := (coherent_after lease ops).booked_nil hx
  exact (settled_after lease ops h x hx).awake hb.wf.exclusion

end LeaseLock.Coordinator
