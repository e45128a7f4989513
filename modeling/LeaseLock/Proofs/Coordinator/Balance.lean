import LeaseLock.Proofs.Coordinator.Chronicle
import Mathlib.Algebra.GroupWithZero.Nat

/-
  LeaseLock: the counts balance.
  The counts are kept apart from the changes that they count.  Within an operation that is not a
  lock request the grants go with the events and the cancellations with the answers
  (`Turn.Tallied`), whichever steps it consists of; a lock request changes one count at most.  Hence
  each call keeps the counts in balance with the events and the queues (`Call.Balanced`), and so
  does every run (`counts_balance`).  That as many locks are held as were given and not released
  is a property of deeds (`Course.held`).
-/

namespace LeaseLock.Coordinator

variable {ρ : Type}

/-! ## What is counted -/

namespace LockEvent

/-- A lock has been given. -/
def isAcquired : LockEvent → Bool
  | acquired _ _ _ _ => true
  | released _ _ _ => false
  | expired _ _ => false

/-- A lock has been released. -/
def isReleased : LockEvent → Bool
  | acquired _ _ _ _ => false
  | released _ _ _ => true
  | expired _ _ => false

/-- A lease has ended. -/
def isExpired : LockEvent → Bool
  | acquired _ _ _ _ => false
  | released _ _ _ => false
  | expired _ _ => true

end LockEvent

namespace Answer

/-- The lock has been given. -/
def isGrant : Answer → Bool
  | granted _ => true
  | _ => false

/-- A request that waited has been answered without the lock. -/
def isWithdrawal : Answer → Bool
  | cancelled => true
  | refused (.sessionExpired _) => true
  | _ => false

end Answer

/-- Whether a session waits for a handle. -/
def State.waits (s : State ρ) (handle session : Nat) : Bool :=
  (s.line handle).any fun w => w.session == session

/-- The number of locks that are held, all handles together. -/
def State.held (s : State ρ) : Nat := (s.handles.entries.map fun e => e.2.holders.size).sum

/-- The event tells of a lock that goes to a session which waits for it in this state. -/
def State.serves (s : State ρ) : LockEvent → Bool
  | .acquired handle session _ _ => s.waits handle session
  | _ => false

/-- The number of locks that the call has given to requests out of queues. -/
def Call.served (c : Call) : Nat := c.turn.events.countP c.found.serves

/-- The call returns that the request is refused. -/
def Result.isRefused : Result → Bool
  | .outcome (.refused _) => true
  | _ => false

namespace Traffic

/-- The number of locks that have been given to requests out of queues. -/
def served (t : Traffic) : Nat := (t.calls.map Call.served).sum

/-- The number of lock requests whose call returned that they are refused. -/
def refused (t : Traffic) : Nat := t.calls.countP fun c => c.result.isRefused

end Traffic

/-! ## Locks that are held -/

section Held

variable {s s' : Shelf ρ} {x y : Handle ρ} {c : Change ρ} {d : Deed ρ} {ds : List (Deed ρ)}

/-- The number of locks that are held, all handles together. -/
def Shelf.held (s : Shelf ρ) : Nat := (s.handles.entries.map fun e => e.2.holders.size).sum

theorem held_of_get? {handles : Table (Handle ρ)} {handle : Nat}
    (hx : handles.get? handle = some x) (next : Nat) :
    (Shelf.mk handles next).held =
      x.holders.size + (Shelf.mk (handles.erase handle) next).held := by
  have hperm := (Table.entries_perm hx).map fun e => e.2.holders.size
  rw [List.map_cons] at hperm
  exact hperm.sum_nat

theorem Shelf.held_put (handle : Nat) (y : Handle ρ) :
    (s.put handle y).held =
      y.holders.size + (Shelf.mk (s.handles.erase handle) s.next).held := by
  have hget : (s.handles.insert handle y).get? handle = some y := Table.get?_insert_self ..
  have hput := held_of_get? hget s.next
  rwa [Table.erase_insert] at hput

theorem size_grant {sid : Nat} (hnot : sid ∉ x.holders) (mode : Mode) :
    (x.grant sid mode).holders.size = x.holders.size + 1 :=
  Table.size_insert_of_none (Table.not_mem_iff.1 hnot) mode

/-- A handle has one holder more when its lock is given, and one less when it is released. -/
theorem Handle.Undergoes.held (hc : x.Undergoes c y) (hwf : x.Wf) (handle : Nat) :
    x.holders.size + (c.event? handle).toList.countP LockEvent.isAcquired =
      y.holders.size + (c.event? handle).toList.countP LockEvent.isReleased := by
  cases hc with
  | given alone admits opener new =>
    rename_i w
    have hnot : w.session ∉ x.holders := by
      intro hm
      have hheld : x.holders.contains w.session = true := hm
      simp [Handle.involves, hheld] at new
    exact (size_grant hnot w.mode).symm
  | admitted head admits =>
    rename_i w rest
    have hnot : w.session ∉ x.holders := hwf.waiter_not_holder w (by simp [head])
    exact (size_grant hnot w.mode).symm
  | unlocked held =>
    obtain ⟨mode, hmode⟩ := Table.mem_iff_get?.1 held
    exact (Table.size_erase_of_some hmode).symm
  | joined blocked opener new => rfl
  | lapsed head admits => rfl
  | withdrawn found proper => rfl
  | opened session => rfl
  | shut opener idle quiet => rfl

/-- Nobody holds the lock of a handle that nobody has open. -/
theorem Handle.Wf.holders_eq_empty (hwf : x.Wf) (ho : x.openers.isEmpty = true) :
    x.holders.size = 0 := by
  have hnone : x.holders.isEmpty = true :=
    Table.isEmpty_iff.2 fun sid hm => Table.isEmpty_iff.1 ho sid (hwf.holder_opener sid hm)
  rw [Table.size, List.length_eq_zero_iff]
  exact List.isEmpty_iff.1 hnone

theorem Deed.Leads.held (hd : d.Leads s s') (hwf : s.Wf) :
    s.held + d.event?.toList.countP LockEvent.isAcquired =
      s'.held + d.event?.toList.countP LockEvent.isReleased := by
  cases hd with
  | on found change =>
    rename_i handle x y c
    have hold : s.held = _ := held_of_get? found s.next
    have hnew := s.held_put handle y
    have hchange := change.held (hwf _ _ found).1 handle
    simp only [Deed.event?]
    omega
  | created name =>
    have hnone : s.handles.get? s.next = none := by
      cases hx : s.handles.get? s.next with
      | none => rfl
      | some x => exact absurd (hwf _ x hx).2 (Nat.lt_irrefl _)
    have hnew := s.held_put s.next (.fresh name)
    rw [Table.erase_of_none hnone] at hnew
    exact (hnew.trans (Nat.zero_add _)).symm
  | destroyed found unused =>
    have hold : s.held = _ := held_of_get? found s.next
    rw [(hwf _ _ found).1.holders_eq_empty unused, Nat.zero_add] at hold
    exact hold
  | turnedAway bare => rfl
  | ended session locks => rfl

/-- As many locks are held as were given and not released. -/
theorem Course.held (hc : Course s ds s') (hwf : s.Wf) :
    s.held + (ds.filterMap Deed.event?).countP LockEvent.isAcquired =
      s'.held + (ds.filterMap Deed.event?).countP LockEvent.isReleased := by
  induction hc with
  | nil => rfl
  | cons first rest ih =>
    have hfirst := first.held hwf
    have hrest := ih (first.wf hwf)
    simp only [Deed.filterMap_cons, List.countP_append]
    omega

end Held

/-! ## The counts of a turn -/

namespace Turn

variable {t : Turn ρ} {y : Tally} {n handle session : Nat}

/-- The counts of a turn were `y` when it began, and have grown with what it tells and answers; it
tells of the ends of `n` leases. -/
structure Tallied (y : Tally) (n : Nat) (t : Turn ρ) : Prop where
  tally : t.state.tally =
    { y with
      grants := y.grants + t.events.countP LockEvent.isAcquired
      cancelled := y.cancelled + t.answers.countP fun p => p.2.isWithdrawal }
  told : (t.answers.countP fun p => p.2.isGrant) = t.events.countP LockEvent.isAcquired
  ended : t.events.countP LockEvent.isExpired = n

namespace Tallied

theorem start {s : State ρ} (h : s.tally = y) : Tallied y 0 (.start s) := ⟨h, rfl, rfl⟩

/-- What only concerns sessions, handles and names is not counted. -/
theorem of_same {t' : Turn ρ} (h : Tallied y n t) (htally : t'.state.tally = t.state.tally)
    (hevents : t'.events = t.events) (hanswers : t'.answers = t.answers) : Tallied y n t' := by
  refine ⟨?_, ?_, ?_⟩
  · rw [htally, hevents, hanswers, h.tally]
  · rw [hevents, hanswers, h.told]
  · rw [hevents, h.ended]

theorem released (h : Tallied y n t) (reason : ReleaseReason) :
    Tallied y n (t.emit (.released handle session reason)) := by
  refine ⟨?_, ?_, ?_⟩
  all_goals simp [emit, LockEvent.isAcquired, LockEvent.isExpired, h.tally, h.told, h.ended]

theorem expired (h : Tallied y n t) (session : Nat) (locks : List Nat) :
    Tallied y (n + 1) (t.emit (.expired session locks)) := by
  refine ⟨?_, ?_, ?_⟩
  all_goals simp [emit, LockEvent.isAcquired, LockEvent.isExpired, h.tally, h.told, h.ended]

/-- A request that waited is answered without the lock. -/
theorem withdrawn (h : Tallied y n t) {a : Answer} (ha : a.isWithdrawal = true)
    (hg : a.isGrant = false) (reply : ρ) :
    Tallied y n ((t.count fun c => { c with cancelled := c.cancelled + 1 }).answer reply a) := by
  refine ⟨?_, ?_, ?_⟩
  all_goals simp [count, answer, ha, hg, h.tally, h.told, h.ended, Nat.add_assoc]

theorem recordGrant (h : Tallied y n t) (mode : Mode) (generation : Nat) (reply : ρ) :
    Tallied y n (t.recordGrant handle session mode generation reply) := by
  have hg : (Answer.granted generation).isGrant = true := rfl
  have hw : (Answer.granted generation).isWithdrawal = false := rfl
  refine ⟨?_, ?_, ?_⟩
  all_goals simp [Turn.recordGrant, onSessions, count, emit, answer, LockEvent.isAcquired,
    LockEvent.isExpired, hg, hw, h.tally, h.told, h.ended, Nat.add_assoc]

theorem recordAdmission (h : Tallied y n t) (a : Handle.Admission ρ) :
    Tallied y n (Turn.recordAdmission handle t a) := by
  cases a with
  | granted w generation => exact h.recordGrant w.mode generation w.reply
  | lapsed w => exact h.withdrawn rfl rfl w.reply

theorem pump (h : Tallied y n t) (handle : Nat) : Tallied y n (t.pump handle) := by
  unfold Turn.pump
  split
  · exact h
  · rename_i x hx
    have hfirst : Tallied y n (t.onHandles fun hs =>
        hs.insert handle (x.pump t.state.sessions.contains).2) := h.of_same rfl rfl rfl
    revert hfirst
    dsimp only
    generalize (t.onHandles fun hs => hs.insert handle _) = first
    intro hfirst
    induction (x.pump t.state.sessions.contains).1 generalizing first with
    | nil => exact hfirst
    | cons a rest ih => exact ih _ (hfirst.recordAdmission a)

theorem withdraw (h : Tallied y n t) {a : Answer} (ha : a.isWithdrawal = true)
    (hg : a.isGrant = false) : Tallied y n (t.withdraw handle session a).2 := by
  unfold Turn.withdraw
  split
  · exact h
  · split
    · exact h
    · rename_i x hx w x' hw
      have hfirst : Tallied y n (t.onHandles fun hs => hs.insert handle x') :=
        h.of_same rfl rfl rfl
      exact hfirst.withdrawn ha hg w.reply

theorem unlock (h : Tallied y n t) (handle session : Nat) (reason : ReleaseReason) :
    Tallied y n (t.unlock handle session reason).2 := by
  unfold Turn.unlock
  split
  · exact h
  · split
    · rename_i x hx hheld
      have hfirst : Tallied y n (t.onHandles fun hs =>
          hs.insert handle { x with holders := x.holders.erase session }) := h.of_same rfl rfl rfl
      exact hfirst.released reason
    · exact h

theorem destroyUnopened (h : Tallied y n t) : Tallied y n (t.destroyUnopened handle) := by
  cases hx : t.state.handle? handle with
  | none =>
    rw [Turn.destroyUnopened, hx]
    exact h
  | some x =>
    rw [destroyUnopened_eq hx]
    split
    · have hrefused : ∀ p : Answer → Bool, p (.refused (.unknownHandle handle)) = false →
          (x.waiters.map fun w => (w.reply, Answer.refused (.unknownHandle handle))).countP
            (fun q => p q.2) = 0 := by
        intro p hp
        simp [List.countP_map, Function.comp_def, hp]
      refine ⟨?_, ?_, h.ended⟩
      · simp [List.countP_append, hrefused Answer.isWithdrawal rfl, h.tally]
      · simp [List.countP_append, hrefused Answer.isGrant rfl, h.told]
    · exact h

theorem detach (h : Tallied y n t) (handle session : Nat) (reason : ReleaseReason) :
    Tallied y n (t.detach handle session reason).2 := by
  have hfarewell : (farewell session reason).isWithdrawal = true ∧
      (farewell session reason).isGrant = false := by
    cases reason <;> exact ⟨rfl, rfl⟩
  have hwithdraw : Tallied y n (t.withdraw handle session (farewell session reason)).2 :=
    h.withdraw hfarewell.1 hfarewell.2
  have hunlock := hwithdraw.unlock handle session reason
  have hshut : Tallied y n (Turn.shut _ handle session) := hunlock.of_same rfl rfl rfl
  exact (hshut.pump handle).destroyUnopened

theorem detachAll (h : Tallied y n t) (session : Nat) (reason : ReleaseReason)
    (handles : List Nat) : Tallied y n (t.detachAll session reason handles).2 :=
  detachAll_induction (P := fun _ t => Tallied y n t) (fun _ _ _ ht => ht.detach _ _ _) handles []
    h

theorem expireAll (h : Tallied y n t) (gone : List (Nat × Session)) :
    Tallied y (n + gone.length) (t.expireAll gone) := by
  induction gone generalizing t n with
  | nil => exact h
  | cons e rest ih =>
    have hnext := (h.detachAll e.1 .sessionExpired e.2.opened.keys).expired e.1
      (t.detachAll e.1 .sessionExpired e.2.opened.keys).1
    have hrest := ih hnext
    rwa [Nat.add_assoc, Nat.add_comm 1] at hrest

end Tallied

/-- An operation that is no lock request has counted what it has told and answered. -/
structure Counted (y : Tally) (t : Turn ρ) : Prop where
  tally : t.state.tally =
    { y with
      grants := y.grants + t.events.countP LockEvent.isAcquired
      cancelled := y.cancelled + t.answers.countP fun p => p.2.isWithdrawal
      expiredSessions := y.expiredSessions + t.events.countP LockEvent.isExpired }
  told : (t.answers.countP fun p => p.2.isGrant) = t.events.countP LockEvent.isAcquired

theorem Tallied.counted (h : Tallied y 0 t) : Counted y t where
  tally := by
    rw [h.ended, Nat.add_zero]
    exact h.tally
  told := h.told

end Turn

namespace State

variable {s : State ρ} {lent : Nat → Nat → Prop}

open Turn (Tallied Counted)

theorem tallied_closeSession (s : State ρ) (session : Nat) :
    Tallied s.tally 0 (s.closeSession session).2 := by
  rcases s.closeSession_cases session with ⟨-, heq⟩ | ⟨gone, -, heq⟩
  · rw [heq]
    exact .start rfl
  · have hstart : Tallied s.tally 0 (.start { s with sessions := (s.sessions.remove session).2 }) :=
      .start rfl
    rw [heq]
    exact hstart.detachAll session .sessionClosed gone.opened.keys

theorem tallied_openHandle (s : State ρ) (session : Nat) (name : String) :
    Tallied s.tally 0 (.start (s.openHandle session name).2) := by
  have hensure : (s.ensureHandle name).2.tally = s.tally := by
    unfold ensureHandle
    split <;> rfl
  rcases s.openHandle_cases session name with ⟨-, heq⟩ | ⟨-, heq⟩
  · rw [heq]
    exact .start rfl
  · rw [heq]
    exact .start hensure

theorem tallied_closeHandle (s : State ρ) (session handle : Nat) :
    Tallied s.tally 0 (s.closeHandle session handle).2 := by
  rcases s.closeHandle_cases session handle with ⟨fault, heq⟩ | ⟨-, heq⟩
  · rw [heq]
    exact .start rfl
  · have hstart : Tallied s.tally 0 (.start { s with
        sessions := s.sessions.giveUp session handle }) := .start rfl
    rw [heq]
    exact hstart.detach handle session .handleClosed

theorem tallied_release (s : State ρ) (session handle : Nat) :
    Tallied s.tally 0 (s.release session handle).2 := by
  have hstart : Tallied s.tally 0 (.start s) := .start rfl
  have hu := hstart.unlock handle session .explicit
  unfold release
  split
  · exact hstart
  · generalize (Turn.start s).unlock handle session .explicit = r at hu
    obtain ⟨found, t⟩ := r
    cases found with
    | false => exact hu
    | true =>
      have hgiven : Tallied s.tally 0 (t.onSessions fun r => r.unhold session handle) :=
        hu.of_same rfl rfl rfl
      exact hgiven.pump handle

theorem tallied_cancel (s : State ρ) (session handle : Nat) :
    Tallied s.tally 0 (s.cancel session handle).2 := by
  have hstart : Tallied s.tally 0 (.start s) := .start rfl
  have hw : Tallied s.tally 0 ((Turn.start s).withdraw handle session .cancelled).2 :=
    hstart.withdraw rfl rfl
  unfold cancel
  generalize (Turn.start s).withdraw handle session .cancelled = r at hw
  obtain ⟨found, t⟩ := r
  cases found with
  | false => exact hw
  | true => exact hw.pump handle

theorem counted_expire (s : State ρ) (now : Nat) : Counted s.tally (s.expire now).2 := by
  have hstart : Tallied s.tally 0 (.start (s.unregister ((s.lapsed now).map (·.1)))) :=
    .start rfl
  have hall := hstart.expireAll (s.lapsed now)
  refine ⟨?_, hall.told⟩
  have hended := hall.ended
  rw [Nat.zero_add] at hended
  simp [expire, Turn.count, hall.tally, hended]

/-- An operation that is no lock request counts the locks that it gives by its events, and the
requests that it takes out of queues without the lock by its answers. -/
theorem counted_perform (s : State ρ) {op : Operation ρ} (hop : op.asker? = none) :
    Counted s.tally (s.perform op).2 := by
  cases op with
  | createSession now => exact Tallied.counted (.start rfl)
  | renew session now => exact Tallied.counted (.start rfl)
  | closeSession session => exact (s.tallied_closeSession session).counted
  | openHandle session name => exact (s.tallied_openHandle session name).counted
  | closeHandle session handle => exact (s.tallied_closeHandle session handle).counted
  | release session handle => exact (s.tallied_release session handle).counted
  | cancel session handle => exact (s.tallied_cancel session handle).counted
  | expire now => exact s.counted_expire now
  | acquire session handle mode tryOnly reply => cases hop
  | dispatch session payload reply => cases hop

/-- Whoever is given a lock by an operation that is no lock request waited for it before. -/
theorem waits_of_acquired (hs : Coherent [] lent s) {op : Operation ρ} (hop : op.asker? = none)
    {handle session generation : Nat} {mode : Mode}
    (he : .acquired handle session mode generation ∈ (s.perform op).2.events) :
    s.waits handle session = true := by
  obtain ⟨registered, ds, hc⟩ := carried_perform hs op
  have hevents : (s.perform op).2.events = ds.filterMap Deed.event? := hc.did.events
  rw [hevents] at he
  obtain ⟨d, hd, hevent⟩ := List.mem_filterMap.1 he
  obtain ⟨w, hg, rfl, -⟩ := Deed.grants_of_event hevent
  -- nobody makes a request, so whoever gets the lock leaves the line, and nobody joins it
  have hnone : ds.filterMap Deed.request? = [] := by
    have hrequest : op.request? = none := by cases op <;> first | rfl | cases hop
    have hsub := hc.requests
    rw [hrequest] at hsub
    exact List.sublist_nil.1 hsub
  have hleaves : d.leaves? handle = some w := by
    rcases Deed.grants?_eq_some hg with rfl | rfl
    · exact nomatch List.filterMap_eq_nil_iff.1 hnone _ hd
    · exact if_pos rfl
  have hjoins : ds.filterMap (Deed.joins? handle) = [] := by
    have hsub := Deed.joined_sublist ds handle
    rw [hnone] at hsub
    exact List.map_eq_nil_iff.1 (List.sublist_nil.1 hsub)
  have hline := hc.did.course.line_perm hs.wf_shelf handle
  rw [hjoins, List.append_nil] at hline
  have hw : w ∈ s.line handle :=
    hline.mem_iff.2 (List.mem_append_left _ (List.mem_filterMap.2 ⟨d, hd, hleaves⟩))
  exact List.any_eq_true.2 ⟨w, hw, beq_self_eq_true _⟩

end State

/-! ## The balance of a call -/

/-- A turn that started from a state leaves the counts in balance: with its events, with the
requests that have joined or left queues, and with those that have been made and refused. -/
structure Turn.Balances (s : State ρ) (asked refused : Nat) (t : Turn ρ) : Prop where
  grants : t.state.tally.grants = s.tally.grants + t.events.countP LockEvent.isAcquired
  expired : t.state.tally.expiredSessions =
    s.tally.expiredSessions + t.events.countP LockEvent.isExpired
  queued : t.state.tally.queued + s.tally.cancelled + s.queue.length =
    s.tally.queued + t.state.tally.cancelled + t.events.countP s.serves + t.state.queue.length
  requests :
    asked + (s.tally.grants + s.tally.denials + s.tally.cancelled + s.queue.length) =
      t.state.tally.grants + t.state.tally.denials + t.state.tally.cancelled +
        t.state.queue.length + refused

namespace State

variable {s : State ρ} {lent : Nat → Nat → Prop}

/-- Every request that leaves a queue is answered with the lock or without it. -/
theorem countP_answers {out : List (Departure ρ)} (hproper : ∀ d ∈ out, d.Proper) :
    ((out.map Departure.message).countP fun p => p.2.isGrant) +
      (out.map Departure.message).countP (fun p => p.2.isWithdrawal) = out.length := by
  induction out with
  | nil => rfl
  | cons d rest ih =>
    have hrest := ih fun e he => hproper e (List.mem_cons_of_mem _ he)
    have hone : (if d.answer.isGrant then 1 else 0) + (if d.answer.isWithdrawal then 1 else 0) =
        1 := by
      rcases hproper d List.mem_cons_self with ⟨g, ha⟩ | ha | ha <;> rw [ha] <;> rfl
    simp only [List.map_cons, List.countP_cons, List.length_cons]
    have hmessage : d.message.2 = d.answer := rfl
    rw [hmessage]
    omega

/-- An operation that is no lock request serves queues and takes requests out of them. -/
theorem balances_other (hs : Coherent [] lent s) {op : Operation ρ} (hop : op.asker? = none) :
    Turn.Balances s 0 0 (s.perform op).2 := by
  obtain ⟨tally, told⟩ := s.counted_perform hop
  obtain ⟨out, hout, hproper⟩ := accounted_perform hs hop
  have hanswers : (s.perform op).2.answers = out.map Departure.message := hout.answers
  have hcount := countP_answers hproper
  rw [← hanswers] at hcount
  have hlength : s.queue.length = out.length + (s.perform op).2.state.queue.length := by
    have hperm := hout.queue.length_eq
    rw [List.length_append, List.length_map] at hperm
    exact hperm
  have hserves : (s.perform op).2.events.countP s.serves =
      (s.perform op).2.events.countP LockEvent.isAcquired := by
    refine List.countP_congr fun e he => ?_
    cases e with
    | acquired handle session mode generation =>
      exact ⟨fun _ => rfl, fun _ => waits_of_acquired hs hop he⟩
    | released handle session reason => exact .rfl
    | expired session locks => exact .rfl
  refine ⟨?_, ?_, ?_, ?_⟩ <;> rw [tally] <;> dsimp only
  all_goals omega

/-- A session that asks for a lock does not wait for it. -/
theorem waits_eq_false {session handle : Nat} {x : Handle ρ}
    (hok : s.checkRequest session handle = .ok x) : s.waits handle session = false := by
  obtain ⟨hx, -, hnew⟩ := of_checkRequest hok
  rw [Handle.involves, Bool.or_eq_false_iff] at hnew
  rw [waits, line, hx]
  exact hnew.2

theorem length_queue_of_queued {session : Nat} {reply : ρ} {t : Turn ρ}
    (hp : Placed s session reply .queued t) : t.state.queue.length = s.queue.length + 1 := by
  cases hp with
  | answered a agrees answers queue gave => cases agrees
  | queued handle mode answers queue => exact queue.length_eq.symm

/-- A request for a lock is given it, denied or refused, or joins a queue. -/
theorem balances_acquire (s : State ρ) (session handle : Nat) (mode : Mode) (tryOnly : Bool)
    (reply : ρ) :
    let r := s.acquire session handle mode tryOnly reply
    Turn.Balances s 1 (if (Result.outcome r.1).isRefused then 1 else 0) r.2 := by
  intro r
  have hr : Requested s session handle mode tryOnly reply r := requested_acquire ..
  have hp : Placed s session reply r.1 r.2 := placed_acquire ..
  generalize r = r at hr hp ⊢
  cases hr with
  | refused checked =>
    refine ⟨rfl, rfl, ?_, ?_⟩
    all_goals simp [Turn.start, Turn.answer, Result.isRefused]
    omega
  | denied checked blocked impatient =>
    refine ⟨rfl, rfl, ?_, ?_⟩
    all_goals simp [Turn.start, Turn.answer, Turn.count, Result.isRefused, State.queue]
    omega
  | granted checked alone admitted =>
    rename_i x
    have hserves : s.serves (.acquired handle session mode (x.grant session mode).generation) =
        false := waits_eq_false checked
    have hperm : s.queue.Perm
        (State.queue { s with handles := s.handles.insert handle (x.grant session mode) }) :=
      State.queue_insert_of_eq (y := x.grant session mode) (of_checkRequest checked).1 rfl rfl
    have hqueue : s.queue.length =
        (Handle.places (s.handles.insert handle (x.grant session mode))).length := hperm.length_eq
    refine ⟨rfl, rfl, ?_, ?_⟩
    · simp [Turn.start, Turn.onHandles, Turn.recordGrant, Turn.onSessions, Turn.count, Turn.emit,
        Turn.answer, State.queue, ← hqueue, hserves]
    · simp [Turn.start, Turn.onHandles, Turn.recordGrant, Turn.onSessions, Turn.count, Turn.emit,
        Turn.answer, State.queue, Result.isRefused, ← hqueue]
      omega
  | queued checked blocked patient =>
    rename_i x
    have hqueue := length_queue_of_queued hp
    refine ⟨rfl, rfl, ?_, ?_⟩
    · show s.tally.queued + 1 + s.tally.cancelled + s.queue.length =
        s.tally.queued + s.tally.cancelled + 0 + _
      rw [hqueue]
      omega
    · show 1 + (s.tally.grants + s.tally.denials + s.tally.cancelled + s.queue.length) =
        s.tally.grants + s.tally.denials + s.tally.cancelled + _ + 0
      rw [hqueue]
      omega

theorem balances_dispatch (s : State ρ) (session : Nat) (payload : Bytes) (reply : ρ) :
    let r := s.dispatch session payload reply
    Turn.Balances s 1 (if (Result.outcome r.1).isRefused then 1 else 0) r.2 := by
  rcases s.dispatch_cases session payload reply with ⟨request, mode, -, heq⟩ | ⟨fault, -, heq⟩
  · rw [heq]
    exact s.balances_acquire session request.handle.toNat mode request.tryOnly reply
  · rw [heq]
    refine ⟨rfl, rfl, ?_, ?_⟩
    all_goals simp [Turn.start, Turn.answer, Turn.count, Result.isRefused, State.queue]
    omega

/-- Every operation leaves the counts in balance. -/
theorem balances_perform (hs : Coherent [] lent s) (op : Operation ρ) :
    Turn.Balances s (if op.asker?.isSome then 1 else 0)
      (if (s.perform op).1.isRefused then 1 else 0) (s.perform op).2 := by
  cases op with
  | acquire session handle mode tryOnly reply =>
    exact s.balances_acquire session handle mode tryOnly reply
  | dispatch session payload reply => exact s.balances_dispatch session payload reply
  | createSession now => exact balances_other hs rfl
  | renew session now => exact balances_other hs rfl
  | closeSession session => exact balances_other hs rfl
  | openHandle session name => exact balances_other hs rfl
  | closeHandle session handle => exact balances_other hs rfl
  | release session handle => exact balances_other hs rfl
  | cancel session handle => exact balances_other hs rfl
  | expire now => exact balances_other hs rfl

end State

/-! ## The balance of a run -/

namespace Traffic

variable {t : Traffic}

/-- The counts of a run are in balance. -/
structure Balanced (t : Traffic) : Prop where
  grants : t.state.tally.grants = t.stream.countP LockEvent.isAcquired
  expired : t.state.tally.expiredSessions = t.stream.countP LockEvent.isExpired
  queued : t.state.tally.queued = t.state.tally.cancelled + t.served + t.state.queue.length
  requests : t.requests.length =
    t.state.tally.grants + t.state.tally.denials + t.state.tally.cancelled + t.refused +
      t.state.queue.length

namespace Balanced

theorem start (lease : Nat) : Balanced (Traffic.start lease) := ⟨rfl, rfl, rfl, rfl⟩

theorem call (hb : Balanced t) (hl : Ledger t) (op : Operation Unit) :
    Balanced (t.next (.call op)) := by
  have h := State.balances_perform hl.coherent (op.mapReply fun _ => t.calls.length)
  rw [Operation.asker?_mapReply] at h
  have hstream : (t.next (.call op)).stream = t.stream ++
      (t.state.perform (op.mapReply fun _ => t.calls.length)).2.events := by
    simp [next, stream, Call.make]
  have hserved : (t.next (.call op)).served = t.served +
      (t.state.perform (op.mapReply fun _ => t.calls.length)).2.events.countP t.state.serves := by
    simp [next, served, Call.make, Call.served]
  have hrefused : (t.next (.call op)).refused = t.refused +
      if (t.state.perform (op.mapReply fun _ => t.calls.length)).1.isRefused then 1 else 0 := by
    simp [next, refused, Call.make]
  have hrequests : (t.next (.call op)).requests.length =
      t.requests.length + if op.asker?.isSome then 1 else 0 := by
    rw [requests_call, List.length_append]
    split <;> rfl
  have hstate : (t.next (.call op)).state =
      (t.state.perform (op.mapReply fun _ => t.calls.length)).2.state := rfl
  obtain ⟨grants, expired, queued, requests⟩ := h
  obtain ⟨grants', expired', queued', requests'⟩ := hb
  refine ⟨?_, ?_, ?_, ?_⟩
  · rw [hstream, hstate, List.countP_append, grants, grants']
  · rw [hstream, hstate, List.countP_append, expired, expired']
  · rw [hserved, hstate]
    omega
  · rw [hrequests, hrefused, hstate]
    omega

theorem receive (hb : Balanced t) (i : Nat) : Balanced (t.next (.receive i)) := by
  unfold Traffic.next
  dsimp only
  split
  · exact hb
  · exact { hb with }

theorem run (hb : Balanced t) (hl : Ledger t) (moves : List Move) : Balanced (t.run moves) := by
  induction moves generalizing t with
  | nil => exact hb
  | cons move rest ih =>
    cases move with
    | call op => exact ih (hb.call hl op) (hl.next (.call op))
    | receive i => exact ih (hb.receive i) (hl.next (.receive i))

end Balanced

/-- Every lock that has been given has been released or is held. -/
theorem Chronicle.held {ds : List (Deed Nat)} (hc : Chronicle t ds) :
    t.stream.countP LockEvent.isAcquired =
      t.stream.countP LockEvent.isReleased + t.state.held := by
  have hheld := hc.course.held fun _ _ hx => nomatch hx
  rw [← hc.events] at hheld
  have hempty : (Shelf.mk (ρ := Nat) ∅ 1).held = 0 := rfl
  have hshelf : t.state.shelf.held = t.state.held := rfl
  omega

end Traffic

/-- In every run the counts agree with what has happened.  As many locks have been given as have
been told of, and each of them has been released or is held.  Each request that joined a queue has
been withdrawn, has got the lock, or waits.  Each lock request that was made has got the lock, has
been denied, withdrawn or refused, or waits. -/
theorem counts_balance (lease : Nat) (moves : List Traffic.Move) :
    let t := (Traffic.start lease).run moves
    let counts := t.state.tally
    counts.grants = t.stream.countP LockEvent.isAcquired ∧
    counts.grants = t.stream.countP LockEvent.isReleased + t.state.held ∧
    counts.queued = counts.cancelled + t.served + t.state.queue.length ∧
    counts.expiredSessions = t.stream.countP LockEvent.isExpired ∧
    t.requests.length =
      counts.grants + counts.denials + counts.cancelled + t.refused + t.state.queue.length := by
  intro t counts
  have hb : t.Balanced := (Traffic.Balanced.start lease).run (.start lease) moves
  obtain ⟨ds, hc⟩ := Traffic.exists_chronicle lease moves
  exact ⟨hb.grants, hb.grants.trans hc.held, hb.queued, hb.expired, hb.requests⟩

end LeaseLock.Coordinator
