import LeaseLock.Proofs.Coordinator.Chronicle

/-
  LeaseLock: first come, first served.
  A run decides requests one after another (`Traffic.decided`).  `served_in_order` says of every
  run that no lock is given past a request that waits for it since before: whoever has joined the
  queue of a handle has been answered before a later request for this handle gets the lock.  The
  queues are always in the order in which the requests were made, and a request gets its lock at
  once exactly if nobody waits and all holders admit it.
-/

namespace LeaseLock.Coordinator

variable {ρ : Type}

namespace Traffic

variable {t : Traffic}

/-! ## Every request is decided once -/

/-- What has been decided has been received or is on its way. -/
theorem decided_perm (lease : Nat) (moves : List Move) :
    (((start lease).run moves).decided.map (·.1)).Perm
      (((start lease).run moves).received.map (·.request) ++
        ((start lease).run moves).underWay.map (·.request)) := by
  have key : ∀ t : Traffic, (t.decided.map (·.1)).Perm
      (t.received.map (·.request) ++ t.underWay.map (·.request)) →
      ((t.run moves).decided.map (·.1)).Perm
        ((t.run moves).received.map (·.request) ++ (t.run moves).underWay.map (·.request)) := by
    induction moves with
    | nil => exact fun _ ht => ht
    | cons move rest ih =>
      refine fun t ht => ih _ ?_
      cases move with
      | call op =>
        show ((t.calls ++ [Call.make t.state op t.calls.length]).flatMap _ |>.map _).Perm
          (t.received.map _ ++ (t.underWay ++ _).map _)
        rw [List.flatMap_append, List.flatMap_singleton, List.map_append, List.map_append,
          ← List.append_assoc]
        refine List.Perm.append ht (.of_eq ?_)
        rw [Call.notices, List.map_map]
        rfl
      | receive i =>
        unfold Traffic.next
        dsimp only
        cases hd : t.underWay[i]? with
        | none => exact ht
        | some d =>
          obtain ⟨hi, rfl⟩ := List.getElem?_eq_some_iff.1 hd
          have hp := (List.getElem_cons_eraseIdx_perm hi).symm.map (·.request)
          refine ht.trans ((hp.append_left _).trans (.of_eq ?_))
          rw [List.map_cons, List.map_append, List.append_assoc]
          rfl
  exact key _ (.refl _)

theorem nodup_decided (lease : Nat) (moves : List Move) :
    (((start lease).run moves).decided.map (·.1)).Nodup := by
  have hl := (Ledger.start lease).run moves
  have hnd := hl.balance.nodup_iff.2 nodup_requests
  rw [(decided_perm lease moves).nodup_iff]
  exact (List.nodup_append.1 hnd).1

/-! ## No overtaking -/

/-- A place in a list of readings is the place of what is read there. -/
theorem split_of_filterMap {α β : Type} {f : α → Option β} {l : List α} {pre post : List β}
    {b : β} (hl : l.filterMap f = pre ++ b :: post) :
    ∃ l₁ a l₂, l = l₁ ++ a :: l₂ ∧ l₁.filterMap f = pre ∧ f a = some b := by
  obtain ⟨l₁, l₂, rfl, h1, h2⟩ := List.filterMap_eq_append_iff.1 hl
  obtain ⟨l₃, a, l₄, rfl, hnone, ha, -⟩ := List.filterMap_eq_cons_iff.1 h2
  refine ⟨l₁ ++ l₃, a, l₄, (List.append_assoc _ _ _).symm, ?_, ha⟩
  rw [List.filterMap_append, h1, List.filterMap_eq_nil_iff.2 hnone, List.append_nil]

/-- A request that has joined a queue is answered before a later one for the same handle gets the
lock. -/
theorem Chronicle.no_overtaking {ds : List (Deed Nat)} (hc : Chronicle t ds) {handle : Nat}
    {v w : Waiter Nat} (hv : t.Asked handle v) (hqueued : t.Queued v.reply v.session)
    (hw : t.Asked handle w) (hlt : v.reply < w.reply) {pre post : List (Nat × Answer)}
    {generation : Nat} (hd : t.decided = pre ++ (w.reply, .granted generation) :: post) :
    ∃ a, (v.reply, a) ∈ pre ∧ ((∃ generation, a = .granted generation) ∨ a = .cancelled ∨
      a = .refused (.sessionExpired v.session)) := by
  have hwf : (⟨∅, 1⟩ : Shelf Nat).Wf := fun _ _ hx => by cases hx
  obtain ⟨before, d, after, rfl, hpre, hmessage⟩ :=
    split_of_filterMap (hc.answers.symm.trans hd)
  -- the deed that gives the lock
  obtain ⟨s₁, hcourse, hrest⟩ := hc.course.split
  cases hrest with
  | cons first rest =>
    obtain ⟨handle', w', hgrants, hreply⟩ := first.grants hmessage
    have hasked : t.Asked handle' w' :=
      hc.asked_of_grants (List.mem_append_right _ List.mem_cons_self) hgrants
    obtain ⟨rfl, rfl⟩ := hasked.unique hw hreply
    -- the deed with which the other one joined the queue
    obtain ⟨c, hcall, -, hresult⟩ := hqueued
    obtain ⟨handle', v', hasked', hreply', hjoined⟩ := hc.parked _ c hcall hresult
    obtain ⟨rfl, rfl⟩ := hasked'.unique hv hreply'
    obtain ⟨e, he, hleaves⟩ :=
      hc.course.no_overtaking hwf rfl hc.inOrder hgrants hjoined hlt
    obtain ⟨_, _, hleads⟩ := hcourse.leads_of_mem he
    obtain ⟨a, ha, hproper⟩ := hleads.answers hleaves
    refine ⟨a, ?_, hproper⟩
    rw [← hpre]
    exact List.mem_filterMap.2 ⟨e, he, ha⟩

/-- Of two requests that get their lock from the queue of a handle, the earlier one gets it
first. -/
theorem Chronicle.granted_in_order {ds : List (Deed Nat)} (hc : Chronicle t ds)
    (hnd : (t.decided.map (·.1)).Nodup) {handle : Nat} {v w : Waiter Nat}
    (hv : t.Asked handle v) (hw : t.Asked handle w) (hqueued : t.Queued w.reply w.session)
    {pre mid post : List (Nat × Answer)} {generation generation' : Nat}
    (hd : t.decided = pre ++ (v.reply, .granted generation) ::
      (mid ++ (w.reply, .granted generation') :: post)) : v.reply < w.reply := by
  have hsecond : w.reply ∈ (mid ++ (w.reply, Answer.granted generation') :: post).map (·.1) :=
    List.mem_map.2 ⟨_, List.mem_append_right _ List.mem_cons_self, rfl⟩
  have hparts := hnd
  rw [hd, List.map_append, List.map_cons, List.nodup_append, List.nodup_cons] at hparts
  rcases Nat.lt_trichotomy v.reply w.reply with hlt | heq | hgt
  · exact hlt
  · exfalso
    apply hparts.2.1.1
    rw [heq]
    exact hsecond
  · -- otherwise the later one of them is answered twice
    exfalso
    obtain ⟨a, ha, -⟩ := hc.no_overtaking hw hqueued hv hgt hd
    have hfirst : w.reply ∈ pre.map (·.1) := List.mem_map.2 ⟨_, ha, rfl⟩
    exact hparts.2.2 _ hfirst _ (List.mem_cons_of_mem _ hsecond) rfl

end Traffic

/-! ## Requests that do not wait -/

theorem State.acquire_granted_iff {s : State ρ} {session handle : Nat} {x : Handle ρ}
    (hopened : s.sessions.Opened session handle) (hx : s.handle? handle = some x)
    (hnew : x.involves session = false) (mode : Mode) (tryOnly : Bool) (reply : ρ) :
    (∃ generation, (s.acquire session handle mode tryOnly reply).1 = .granted generation) ↔
      x.waiters = [] ∧ x.admits mode = true := by
  have hchecked : s.checkRequest session handle = .ok x := by
    obtain ⟨o, ho, hopen⟩ := hopened
    have hopen : o.opened.contains handle = true := hopen
    unfold checkRequest
    rw [ho]
    dsimp only
    rw [if_pos hopen, hx]
    dsimp only
    rw [hnew]
    rfl
  have hr := s.requested_acquire session handle mode tryOnly reply
  generalize s.acquire session handle mode tryOnly reply = r at hr ⊢
  have hno : (x.waiters ≠ [] ∨ x.admits mode = false) →
      ¬ (x.waiters = [] ∧ x.admits mode = true) := by
    rintro (hw | ha) ⟨hw', ha'⟩
    · exact hw hw'
    · rw [ha'] at ha
      cases ha
  cases hr with
  | refused checked =>
    rw [hchecked] at checked
    cases checked
  | granted checked alone admitted =>
    rw [hchecked] at checked
    cases checked
    exact iff_of_true ⟨_, rfl⟩ ⟨alone, admitted⟩
  | denied checked blocked impatient =>
    rw [hchecked] at checked
    cases checked
    refine iff_of_false ?_ (hno blocked)
    rintro ⟨generation, hg⟩
    cases hg
  | queued checked blocked patient =>
    rw [hchecked] at checked
    cases checked
    refine iff_of_false ?_ (hno blocked)
    rintro ⟨generation, hg⟩
    cases hg

/-- A request that nothing speaks against gets the lock at once exactly if nobody waits and all
holders admit it. -/
theorem State.granted_iff {s : State ρ} {op : Operation ρ} {handle : Nat} {w : Waiter ρ}
    {x : Handle ρ} (hop : op.request? = some (handle, w))
    (hopened : s.sessions.Opened w.session handle) (hx : s.handle? handle = some x)
    (hholder : w.session ∉ x.holders) (hwaiter : ∀ v ∈ x.waiters, v.session ≠ w.session) :
    (∃ generation, (s.perform op).1 = .outcome (.granted generation)) ↔
      x.waiters = [] ∧ ∀ sid held, x.holders.get? sid = some held →
        held.compatible w.mode = true := by
  have hnew : x.involves w.session = false := by
    rw [Handle.involves, Bool.or_eq_false_iff, List.any_eq_false]
    refine ⟨eq_false_of_ne_true hholder, fun v hv => ?_⟩
    rw [beq_iff_eq]
    exact hwaiter v hv
  rw [← Handle.admits_iff]
  have houtcome : ∀ o : LockOutcome,
      (∃ generation, Result.outcome o = .outcome (.granted generation))
      ↔ ∃ generation, o = .granted generation := by
    intro o
    simp only [Result.outcome.injEq]
  cases op with
  | acquire session handle' mode tryOnly reply =>
    cases hop
    exact (houtcome _).trans (acquire_granted_iff hopened hx hnew _ _ _)
  | dispatch session payload reply =>
    rcases s.dispatch_cases session payload reply with ⟨request, mode, hr, heq⟩ | ⟨fault, hr, -⟩
    · rw [Operation.request?, hr] at hop
      cases hop
      have hgranted := acquire_granted_iff hopened hx hnew mode request.tryOnly reply
      rw [← heq] at hgranted
      exact (houtcome _).trans hgranted
    · rw [Operation.request?, hr] at hop
      cases hop
  | createSession now => cases hop
  | renew session now => cases hop
  | closeSession session => cases hop
  | openHandle session name => cases hop
  | closeHandle session handle => cases hop
  | release session handle => cases hop
  | cancel session handle => cases hop
  | expire now => cases hop

/-! ## Order of the queues -/

/-- An operation leaves everyone who still waits in the same order; its own request stands last. -/
theorem State.line_perform {lent : Nat → Nat → Prop} {s : State ρ} (hs : Coherent [] lent s)
    (op : Operation ρ) (handle : Nat) :
    ∃ own, ((s.perform op).2.state.line handle).Sublist (s.line handle ++ own) ∧
      (own.map (handle, ·)).Sublist op.request?.toList := by
  obtain ⟨registered, ds, hd⟩ := carried_perform hs op
  refine ⟨ds.filterMap (Deed.joins? handle), hd.did.course.line_sublist hs.wf_shelf handle, ?_⟩
  exact (Deed.joined_sublist ds handle).trans hd.requests

/-- The request of an operation is made in the name of the session that asks. -/
theorem Operation.asker?_of_request? {op : Operation Unit} {n : Nat} {p : Nat × Waiter Nat}
    (hp : (op.mapReply fun _ => n).request? = some p) : op.asker? = some p.2.session := by
  cases op with
  | acquire session handle mode tryOnly reply =>
    cases hp
    rfl
  | dispatch session payload reply =>
    rw [mapReply, request?] at hp
    split at hp
    · cases hp
      rfl
    · cases hp
  | createSession now => cases hp
  | renew session now => cases hp
  | closeSession session => cases hp
  | openHandle session name => cases hp
  | closeHandle session handle => cases hp
  | release session handle => cases hp
  | cancel session handle => cases hp
  | expire now => cases hp

namespace Traffic

/-- The requests of a run are served in the order of their arrival. -/
structure ServedInOrder (t : Traffic) : Prop where
  /-- Who asks for a lock after another request has joined the queue of the handle does not get it
  before this one has been granted, has been cancelled or has failed because its session
  expired. -/
  no_overtaking : ∀ handle v w, t.Asked handle v → t.Queued v.reply v.session →
    t.Asked handle w → v.reply < w.reply → ∀ pre generation post,
      t.decided = pre ++ (w.reply, .granted generation) :: post →
        ∃ a, (v.reply, a) ∈ pre ∧ ((∃ generation, a = .granted generation) ∨ a = .cancelled ∨
          a = .refused (.sessionExpired v.session))
  /-- Those who get a lock from the queue get it in the order in which they asked. -/
  in_order : ∀ handle v w, t.Asked handle v → t.Queued v.reply v.session → t.Asked handle w →
    t.Queued w.reply w.session → ∀ pre generation mid generation' post,
      t.decided = pre ++ (v.reply, .granted generation) ::
        (mid ++ (w.reply, .granted generation') :: post) → v.reply < w.reply
  /-- A request of a session that has the handle open, and neither holds its lock nor waits for
  it, is granted at once exactly if nobody waits and all holders are compatible with it. -/
  at_once : ∀ (op : Operation Nat) handle w x, op.request? = some (handle, w) →
    t.state.sessions.Opened w.session handle → t.state.handle? handle = some x →
    w.session ∉ x.holders → (∀ v ∈ x.waiters, v.session ≠ w.session) →
      ((∃ generation, (t.state.perform op).1 = .outcome (.granted generation)) ↔
        x.waiters = [] ∧ ∀ sid held, x.holders.get? sid = some held →
          held.compatible w.mode = true)
  /-- Every queue is in the order in which the requests were made. -/
  sorted : ∀ handle, (t.state.line handle).Pairwise fun v w => v.reply < w.reply
  /-- An operation that is not a lock request leaves the requests that still wait in their
  order. -/
  kept : ∀ op handle, op.asker? = none →
    ((t.next (.call op)).state.line handle).Sublist (t.state.line handle)
  /-- A lock request leaves them in their order too, and stands behind them if it has to wait. -/
  joins_last : ∀ op handle, ∃ own,
    ((t.next (.call op)).state.line handle).Sublist (t.state.line handle ++ own) ∧
      own.length ≤ 1 ∧ ∀ w ∈ own, w.reply = t.calls.length ∧ op.asker? = some w.session

/-- A call leaves everyone who still waits in the same order; its own request stands last. -/
theorem Ledger.line_call {t : Traffic} (hl : Ledger t) (op : Operation Unit) (handle : Nat) :
    ∃ own, ((t.next (.call op)).state.line handle).Sublist (t.state.line handle ++ own) ∧
      own.length ≤ 1 ∧ ∀ w ∈ own, w.reply = t.calls.length ∧ op.asker? = some w.session := by
  obtain ⟨own, hline, hown⟩ :=
    State.line_perform hl.coherent (op.mapReply fun _ => t.calls.length) handle
  refine ⟨own, hline, ?_, fun w hw => ?_⟩
  · have hlength := hown.length_le
    rw [List.length_map] at hlength
    refine Nat.le_trans hlength ?_
    cases (op.mapReply fun _ => t.calls.length).request? with
    | none => exact Nat.zero_le 1
    | some p => exact Nat.le_refl 1
  · have hrequest := Option.mem_toList.1 (hown.subset (List.mem_map.2 ⟨w, hw, rfl⟩))
    exact ⟨Operation.reply_of_request? hrequest, Operation.asker?_of_request? hrequest⟩

/-- Queues are in the order in which the requests were made. -/
theorem Chronicle.sorted {t : Traffic} {ds : List (Deed Nat)} (hc : Chronicle t ds)
    (handle : Nat) : (t.state.line handle).Pairwise fun v w => v.reply < w.reply := by
  have hline := hc.course.line_sublist (fun _ _ hx => by cases hx) handle
  exact (hc.inOrder.joined handle).sublist hline

/-- In every run, however calls and the delivery of their replies follow each other, requests are
served in the order of their arrival. -/
theorem served_in_order (lease : Nat) (moves : List Move) :
    ((start lease).run moves).ServedInOrder := by
  obtain ⟨ds, hc⟩ := exists_chronicle lease moves
  have hl := (Ledger.start lease).run moves
  have hnd := nodup_decided lease moves
  exact {
    no_overtaking := fun handle v w hv hqueued hw hlt pre generation post hd =>
      hc.no_overtaking hv hqueued hw hlt hd
    in_order := fun handle v w hv _ hw hqueued pre generation mid generation' post hd =>
      hc.granted_in_order hnd hv hw hqueued hd
    at_once := fun op handle w x hop hopened hx hholder hwaiter =>
      State.granted_iff hop hopened hx hholder hwaiter
    sorted := hc.sorted
    kept := by
      intro op handle hop
      obtain ⟨own, hline, -, hown⟩ := hl.line_call op handle
      cases own with
      | nil =>
        rw [List.append_nil] at hline
        exact hline
      | cons w rest =>
        have hasks := (hown w List.mem_cons_self).2
        rw [hop] at hasks
        cases hasks
    joins_last := fun op handle => hl.line_call op handle }

end Traffic

end LeaseLock.Coordinator
