import LeaseLock.Proofs.Coordinator.Arrival
import LeaseLock.Proofs.Coordinator.Standing

/-
  LeaseLock: what becomes of one request.
  A request for a lock waits, has been granted, was refused, or is over again (`Bid`).
  `Stands b s handle w bid` says what that means for the lock and the queue in the state `s`, if
  the request was made in the state `b`.  As long as its session does not act on the handle, the
  request can at most get from waiting to holding (`Stands.perform`), and its sender is told just
  that (`Stands.after`).  When the session itself asks, withdraws or releases, `Stands.request`,
  `Stands.cancel` and `Stands.release` say how the request stands then.
-/

namespace LeaseLock.Coordinator

variable {ρ : Type} {lent : Nat → Nat → Prop} {s : State ρ} {op : Operation ρ}
  {ops : List (Operation ρ)} {handle session generation : Nat} {mode : Mode}

/-! ## Several operations -/

theorem Operation.reply?_of_request? {p : Nat × Waiter ρ} (hp : op.request? = some p) :
    op.reply? = some p.2.reply := by
  cases op with
  | acquire session handle mode tryOnly reply =>
    cases hp
    rfl
  | dispatch session payload reply =>
    cases hr : State.readRequest payload with
    | ok r =>
      rw [Operation.request?, hr] at hp
      cases hp
      rfl
    | error fault =>
      rw [Operation.request?, hr] at hp
      cases hp
  | createSession now => cases hp
  | renew session now => cases hp
  | closeSession session => cases hp
  | openHandle session name => cases hp
  | closeHandle session handle => cases hp
  | release session handle => cases hp
  | cancel session handle => cases hp
  | expire now => cases hp

theorem Operation.asker?_of_reply? (hr : op.reply? = none) : op.asker? = none := by
  cases op <;> first | rfl | cases hr

theorem Coherent.after (hs : Coherent [] lent s) (ops : List (Operation ρ)) :
    Coherent [] lent (s.after ops) := by
  induction ops generalizing s with
  | nil => exact hs
  | cons op rest ih => exact ih (hs.perform op)

namespace State

/-- The answers that operations give, one after another. -/
def told (s : State ρ) : List (Operation ρ) → List (ρ × Answer)
  | [] => []
  | op :: rest => (s.perform op).2.answers ++ (s.perform op).2.state.told rest

/-- A session does not act on a handle while operations are carried out. -/
def Idle (s : State ρ) (session handle : Nat) : List (Operation ρ) → Prop
  | [] => True
  | op :: rest => ¬ s.ActsOn op session handle ∧ (s.perform op).2.state.Idle session handle rest

theorem after_cons (s : State ρ) (op : Operation ρ) (rest : List (Operation ρ)) :
    s.after (op :: rest) = (s.perform op).2.state.after rest := rfl

theorem after_append (s : State ρ) (ops ops' : List (Operation ρ)) :
    s.after (ops ++ ops') = (s.after ops).after ops' := List.foldl_append

theorem told_append (s : State ρ) (ops ops' : List (Operation ρ)) :
    s.told (ops ++ ops') = s.told ops ++ (s.after ops).told ops' := by
  induction ops generalizing s with
  | nil => rfl
  | cons op rest ih =>
    show _ ++ State.told _ (rest ++ ops') = _
    rw [ih, ← List.append_assoc]
    rfl

/-- Every address is that of a request which has been answered or waits. -/
theorem answers_perm (hs : Coherent [] lent s) (op : Operation ρ) :
    ((s.perform op).2.answers.map (·.1) ++ (s.perform op).2.state.queue.map (·.2.reply)).Perm
      (s.queue.map (·.2.reply) ++ op.reply?.toList) := by
  have hrequest : ∀ {session reply o} {t : Turn ρ}, Placed s session reply o t →
      (t.answers.map (·.1) ++ t.state.queue.map (·.2.reply)).Perm
        (s.queue.map (·.2.reply) ++ [reply]) := by
    intro session reply o t hp
    cases hp with
    | answered a agrees answers queue gave =>
      rw [answers]
      exact List.perm_append_comm.trans ((queue.symm.map _).append_right _)
    | queued handle mode answers queue =>
      rw [answers]
      exact (queue.symm.map _).trans (List.perm_append_singleton _ _).symm
  cases hr : op.reply? with
  | some reply =>
    cases op with
    | acquire session handle mode tryOnly reply =>
      cases hr
      exact hrequest (placed_acquire session handle mode tryOnly reply)
    | dispatch session payload reply =>
      cases hr
      exact hrequest (placed_dispatch session payload reply)
    | createSession now => cases hr
    | renew session now => cases hr
    | closeSession session => cases hr
    | openHandle session name => cases hr
    | closeHandle session handle => cases hr
    | release session handle => cases hr
    | cancel session handle => cases hr
    | expire now => cases hr
  | none =>
    obtain ⟨out, hout, -⟩ := accounted_perform hs (Operation.asker?_of_reply? hr)
    have hqueue := hout.queue.map (·.2.reply)
    have hanswers : (s.perform op).2.answers = out.map Departure.message := hout.answers
    rw [List.map_append, List.map_map] at hqueue
    rw [hanswers, List.map_map, Option.toList_none, List.append_nil]
    exact hqueue.symm

theorem told_perm (hs : Coherent [] lent s) (ops : List (Operation ρ)) :
    ((s.told ops).map (·.1) ++ (s.after ops).queue.map (·.2.reply)).Perm
      (s.queue.map (·.2.reply) ++ ops.filterMap Operation.reply?) := by
  induction ops generalizing s with
  | nil => exact .of_eq (List.append_nil _).symm
  | cons op rest ih =>
    have hstep : (op :: rest).filterMap Operation.reply? =
        op.reply?.toList ++ rest.filterMap Operation.reply? := by
      rw [List.filterMap_cons]
      cases op.reply? <;> rfl
    rw [hstep, ← List.append_assoc, told, List.map_append, List.append_assoc, after_cons]
    refine ((ih (hs.perform op)).append_left _).trans ?_
    rw [← List.append_assoc]
    exact (answers_perm hs op).append_right _

/-! ## Locks and queues of a session that does not act -/

theorem granted_perform (hs : Coherent [] lent s) (hidle : ¬ s.ActsOn op session handle)
    (hg : s.Granted handle session mode generation) :
    (s.perform op).2.state.Granted handle session mode generation := by
  obtain ⟨registered, ds, hd⟩ := carried_perform hs op
  exact hd.did.course.keeps_grant hs.wf_shelf hd.did.fits hidle hg

theorem locked_perform (hs : Coherent [] lent s) (hidle : ¬ s.ActsOn op session handle)
    (hl : s.Locked handle session mode) : (s.perform op).2.state.Locked handle session mode := by
  obtain ⟨generation, hg⟩ := hl.granted
  exact (granted_perform hs hidle hg).locked

theorem out_perform (hs : Coherent [] lent s) (hidle : ¬ s.ActsOn op session handle)
    (hout : s.Out handle session) : (s.perform op).2.state.Out handle session := by
  obtain ⟨registered, ds, hd⟩ := carried_perform hs op
  exact hd.did.course.keeps_out hs.wf_shelf hd.did.fits hidle hout

/-- A session that neither waits nor acts does not get the lock. -/
theorem locked_of_perform (hs : Coherent [] lent s) (hidle : ¬ s.ActsOn op session handle)
    (hout : s.Out handle session) (hl : (s.perform op).2.state.Locked handle session mode) :
    s.Locked handle session mode := by
  obtain ⟨registered, ds, hd⟩ := carried_perform hs op
  obtain ⟨generation, hg⟩ := hl.granted
  obtain ⟨g, hg⟩ := hd.did.course.gains_nothing hs.wf_shelf hd.did.fits hidle hout hg
  exact State.Granted.locked hg

theorem mem_line_perform (hs : Coherent [] lent s) {w : Waiter ρ}
    (hw : w ∈ (s.perform op).2.state.line handle) :
    w ∈ s.line handle ∨ op.request? = some (handle, w) := by
  obtain ⟨own, hline, hown⟩ := s.line_perform hs op handle
  rcases List.mem_append.1 (hline.subset hw) with hold | hnew
  · exact .inl hold
  · exact .inr (Option.mem_toList.1 (hown.subset (List.mem_map.2 ⟨w, hnew, rfl⟩)))

theorem mem_queue_perform (hs : Coherent [] lent s) {p : Nat × Waiter ρ}
    (hp : p ∈ (s.perform op).2.state.queue) : p ∈ s.queue ∨ op.request? = some p := by
  rcases mem_line_perform hs (mem_queue_iff_line.1 hp) with hold | hnew
  · exact .inl (mem_queue_iff_line.2 hold)
  · exact .inr hnew

theorem mem_queue_after (hs : Coherent [] lent s) {p : Nat × Waiter ρ}
    (hp : p ∈ (s.after ops).queue) : p ∈ s.queue ∨ ∃ op ∈ ops, op.request? = some p := by
  induction ops generalizing s with
  | nil => exact .inl hp
  | cons op rest ih =>
    rcases ih (hs.perform op) hp with hfirst | ⟨op', hm, hp⟩
    · refine (mem_queue_perform hs hfirst).imp_right fun hp => ⟨op, List.mem_cons_self, hp⟩
    · exact .inr ⟨op', List.mem_cons_of_mem _ hm, hp⟩

/-- Whoever is told something has waited or has just asked. -/
theorem sender_of_told (hs : Coherent [] lent s) {reply : ρ} {a : Answer}
    (ha : (reply, a) ∈ s.told ops) :
    (∃ p ∈ s.queue, p.2.reply = reply) ∨ ∃ op ∈ ops, op.reply? = some reply := by
  have hmem := (told_perm hs ops).subset
    (List.mem_append_left _ (List.mem_map.2 ⟨(reply, a), ha, rfl⟩))
  exact (List.mem_append.1 hmem).imp List.mem_map.1 List.mem_filterMap.1

/-- Whoever holds a lock does not wait for it. -/
theorem Granted.out (hs : Coherent [] lent s) (hg : s.Granted handle session mode generation) :
    s.Out handle session := by
  obtain ⟨x, hx, hm⟩ := hg
  rintro w hw rfl
  obtain ⟨y, hy, hw⟩ := mem_queue.1 (mem_queue_iff_line.2 hw)
  obtain rfl : x = y := Option.some.inj (hx.symm.trans hy)
  exact (hs.booked_nil hx).wf.waiter_not_holder w hw (Table.mem_of_get? hm.1)

theorem Granted.generation_eq {mode' : Mode} {generation' : Nat}
    (hg : s.Granted handle session mode generation)
    (hg' : s.Granted handle session mode' generation') : generation = generation' := by
  obtain ⟨x, hx, hm⟩ := hg
  obtain ⟨y, hy, hm'⟩ := hg'
  obtain rfl : x = y := Option.some.inj (hx.symm.trans hy)
  exact hm.2.symm.trans hm'.2

/-- No request with this address waits for a handle. -/
def Gone (s : State ρ) (handle : Nat) (reply : ρ) : Prop :=
  ∀ v ∈ s.line handle, v.reply ≠ reply

theorem gone_perform (hs : Coherent [] lent s) {reply : ρ} (hg : s.Gone handle reply)
    (hnew : ∀ v, op.request? = some (handle, v) → v.reply ≠ reply) :
    (s.perform op).2.state.Gone handle reply := by
  intro v hv
  rcases mem_line_perform hs hv with hold | hrequest
  · exact hg v hold
  · exact hnew v hrequest

/-- A request of a session that does not act is told nothing but a grant, and holds the lock
then. -/
theorem granted_of_answer (hs : Coherent [] lent s) {w : Waiter ρ} {a : Answer}
    (hidle : ¬ s.ActsOn op w.session handle)
    (hsole : ∀ p ∈ s.queue, p.2.reply = w.reply → p = (handle, w))
    (hreply : op.reply? ≠ some w.reply) (ha : (w.reply, a) ∈ (s.perform op).2.answers) :
    w ∈ s.line handle ∧ ∃ generation, a = .granted generation ∧
      (s.perform op).2.state.Granted handle w.session w.mode generation := by
  obtain ⟨registered, ds, hd⟩ := carried_perform hs op
  rw [hd.answers_eq, (Deed.messages_perm ds).mem_iff] at ha
  rcases List.mem_append.1 ha with hown | hleft
  · have hmem := hd.replies.subset (List.mem_map.2 ⟨_, hown, rfl⟩)
    exact absurd (Option.mem_toList.1 hmem) hreply
  · obtain ⟨⟨h, v, answer⟩, hm, heq⟩ := List.mem_map.1 hleft
    obtain ⟨hv, rfl⟩ : v.reply = w.reply ∧ answer = a := Prod.mk.inj heq
    have hplace : (h, v) = (handle, w) := by
      rcases hd.mem_line_of_departure hs hm with hline | hjoined
      · exact hsole _ (mem_queue_iff_line.2 hline) hv
      · have hrequest := (Deed.joined_sublist ds h).subset (List.mem_map.2 ⟨v, hjoined, rfl⟩)
        have hop := Option.mem_toList.1 (hd.requests.subset hrequest)
        exact absurd ((Operation.reply?_of_request? hop).trans (congrArg some hv)) hreply
    obtain ⟨rfl, rfl⟩ := Prod.mk.inj hplace
    obtain ⟨hline, generation, ha, hdeed⟩ := hd.admitted_of_departure hs hm hidle
    exact ⟨hline, generation, ha,
      hd.did.course.granted_of_admitted hs.wf_shelf hd.did.fits hidle hdeed⟩

theorem granted_after (hs : Coherent [] lent s) (hidle : s.Idle session handle ops)
    (hg : s.Granted handle session mode generation) :
    (s.after ops).Granted handle session mode generation := by
  induction ops generalizing s with
  | nil => exact hg
  | cons op rest ih => exact ih (hs.perform op) hidle.2 (granted_perform hs hidle.1 hg)

theorem granted_of_told (hs : Coherent [] lent s) {w : Waiter ρ} {a : Answer}
    (hidle : s.Idle w.session handle ops)
    (hsole : ∀ p ∈ s.queue, p.2.reply = w.reply → p = (handle, w))
    (hreply : ∀ op ∈ ops, op.reply? ≠ some w.reply) (ha : (w.reply, a) ∈ s.told ops) :
    w ∈ s.line handle ∧ ∃ generation, a = .granted generation ∧
      (s.after ops).Granted handle w.session w.mode generation := by
  induction ops generalizing s with
  | nil => cases ha
  | cons op rest ih =>
    have hfirst : op.reply? ≠ some w.reply := hreply op List.mem_cons_self
    have hs' := hs.perform op
    rcases List.mem_append.1 ha with hnow | hlater
    · obtain ⟨hline, generation, rfl, hg⟩ := granted_of_answer hs hidle.1 hsole hfirst hnow
      refine ⟨hline, generation, rfl, ?_⟩
      rw [after_cons]
      exact granted_after hs' hidle.2 hg
    · have hrequest : ∀ p : Nat × Waiter ρ, op.request? = some p → p.2.reply ≠ w.reply :=
        fun p hp heq => hfirst ((Operation.reply?_of_request? hp).trans (congrArg some heq))
      have hsole' : ∀ p ∈ (s.perform op).2.state.queue, p.2.reply = w.reply →
          p = (handle, w) := by
        intro p hp heq
        rcases mem_queue_perform hs hp with hold | hnew
        · exact hsole p hold heq
        · exact absurd heq (hrequest p hnew)
      obtain ⟨hline, hg⟩ := ih hs' hidle.2 hsole'
        (fun op hm => hreply op (List.mem_cons_of_mem _ hm)) hlater
      exact ⟨(mem_line_perform hs hline).resolve_right fun hnew => hrequest _ hnew rfl, hg⟩

end State

/-! ## How a request stands -/

/-- How a request for a lock stands. -/
inductive Bid where
  /-- It waits. -/
  | waiting
  /-- It has been granted, in this generation, and its session still holds the lock. -/
  | holding (generation : Nat)
  /-- It has been refused, or has not been taken up. -/
  | refused
  /-- It has been taken up, and now its session neither waits for the lock nor holds it. -/
  | spent

namespace Bid

/-- What can become of a request while its session does not act on the handle. -/
def Becomes (bid bid' : Bid) : Prop :=
  bid' = bid ∨ bid = waiting ∧ ∃ generation, bid' = holding generation

/-- The answer agrees with how the request stands. -/
def Tells : Bid → Answer → Prop
  | waiting, _ => False
  | holding generation, a => a = .granted generation
  | refused, a => ∀ generation, a ≠ .granted generation
  | spent, _ => True

theorem Becomes.refl (bid : Bid) : bid.Becomes bid := .inl rfl

theorem Becomes.trans {bid bid' bid'' : Bid} (h : bid.Becomes bid') (h' : bid'.Becomes bid'') :
    bid.Becomes bid'' := by
  rcases h with rfl | ⟨rfl, g, rfl⟩
  · exact h'
  · rcases h' with rfl | ⟨hw, -⟩
    · exact .inr ⟨rfl, g, rfl⟩
    · cases hw

theorem Becomes.eq {bid bid' : Bid} (h : bid.Becomes bid') (hne : bid ≠ .waiting) :
    bid' = bid := h.resolve_right fun hw => hne hw.1

end Bid

/-- How a request `w` for the lock of a handle stands that was made in the state `b`. -/
inductive Stands (b s : State ρ) (handle : Nat) (w : Waiter ρ) : Bid → Prop
  | waiting (line : w ∈ s.line handle) (single : ∀ v ∈ s.line handle, v.reply = w.reply → v = w)
      (new : ∀ mode, ¬ b.Locked handle w.session mode) : Stands b s handle w .waiting
  | holding {generation : Nat} (lock : s.Granted handle w.session w.mode generation)
      (gone : s.Gone handle w.reply) (new : ∀ mode, ¬ b.Locked handle w.session mode) :
      Stands b s handle w (.holding generation)
  | refused (gone : s.Gone handle w.reply)
      (keeps : ∀ mode, b.Locked handle w.session mode → s.Locked handle w.session mode)
      (same : b.Out handle w.session → s.Out handle w.session ∧
        ∀ mode, s.Locked handle w.session mode → b.Locked handle w.session mode) :
      Stands b s handle w .refused
  | spent (gone : s.Gone handle w.reply) (out : s.Out handle w.session)
      (bare : ∀ mode, ¬ s.Locked handle w.session mode)
      (new : ∀ mode, ¬ b.Locked handle w.session mode) : Stands b s handle w .spent

namespace Stands

variable {b : State ρ} {w : Waiter ρ} {bid : Bid}

/-- Before it is made, a request stands like one that has not been taken up. -/
theorem start (hgone : b.Gone handle w.reply) : Stands b b handle w .refused :=
  .refused hgone (fun _ hl => hl) fun hout => ⟨hout, fun _ hl => hl⟩

theorem gone (hb : Stands b s handle w bid) (hne : bid ≠ .waiting) : s.Gone handle w.reply := by
  cases hb with
  | waiting line single new => exact absurd rfl hne
  | holding lock gone new => exact gone
  | refused gone keeps same => exact gone
  | spent gone out bare new => exact gone

/-! ### While the session does not act -/

/-- As long as the session of a request does not act on the handle, the request can only get the
lock. -/
theorem perform (hb : Stands b s handle w bid) (hs : Coherent [] lent s)
    (hidle : ¬ s.ActsOn op w.session handle)
    (hnew : ∀ v, op.request? = some (handle, v) → v.reply ≠ w.reply) :
    ∃ bid', bid.Becomes bid' ∧ Stands b (s.perform op).2.state handle w bid' := by
  cases hb with
  | waiting line single new =>
    have hsingle : ∀ v ∈ (s.perform op).2.state.line handle, v.reply = w.reply → v = w := by
      intro v hv hreply
      rcases State.mem_line_perform hs hv with hold | hrequest
      · exact single v hold hreply
      · exact absurd hreply (hnew v hrequest)
    obtain ⟨registered, ds, hd⟩ := State.carried_perform hs op
    have hreg := hd.registered_of_mem_line hs line hidle
    rcases hd.did.course.keeps_request hs.wf_shelf hd.did.fits hidle hreg line with
      hline | ⟨generation, -, hg⟩
    · exact ⟨.waiting, .refl _, .waiting hline hsingle new⟩
    · have hg : (s.perform op).2.state.Granted handle w.session w.mode generation := hg
      refine ⟨.holding generation, .inr ⟨rfl, generation, rfl⟩, .holding hg ?_ new⟩
      intro v hv hreply
      exact hg.out (hs.perform op) v hv (congrArg Waiter.session (hsingle v hv hreply))
  | holding lock gone new =>
    exact ⟨_, .refl _, .holding (State.granted_perform hs hidle lock)
      (State.gone_perform hs gone hnew) new⟩
  | refused gone keeps same =>
    refine ⟨_, .refl _, .refused (State.gone_perform hs gone hnew)
      (fun mode hl => State.locked_perform hs hidle (keeps mode hl)) fun hout => ?_⟩
    obtain ⟨hout, hback⟩ := same hout
    exact ⟨State.out_perform hs hidle hout,
      fun mode hl => hback mode (State.locked_of_perform hs hidle hout hl)⟩
  | spent gone out bare new =>
    exact ⟨_, .refl _, .spent (State.gone_perform hs gone hnew) (State.out_perform hs hidle out)
      (fun mode hl => bare mode (State.locked_of_perform hs hidle out hl)) new⟩

/-- The request stands as it did, or it has got the lock. -/
theorem after (hb : Stands b s handle w bid) (hs : Coherent [] lent s)
    (hidle : s.Idle w.session handle ops)
    (hnew : ∀ op ∈ ops, ∀ v, op.request? = some (handle, v) → v.reply ≠ w.reply) :
    ∃ bid', bid.Becomes bid' ∧ Stands b (s.after ops) handle w bid' := by
  induction ops generalizing s bid with
  | nil => exact ⟨bid, .refl _, hb⟩
  | cons op rest ih =>
    obtain ⟨bid₁, hstep, hb₁⟩ := hb.perform hs hidle.1 (hnew op List.mem_cons_self)
    obtain ⟨bid₂, hrest, hb₂⟩ := ih hb₁ (hs.perform op) hidle.2
      fun op hm => hnew op (List.mem_cons_of_mem _ hm)
    exact ⟨bid₂, hstep.trans hrest, hb₂⟩

/-- Whatever the sender of a request is told agrees with how the request stands then. -/
theorem tells {bid' : Bid} (hb : Stands b s handle w bid) (hs : Coherent [] lent s)
    (hidle : s.Idle w.session handle ops)
    (hsole : ∀ p ∈ s.queue, p.2.reply = w.reply → p = (handle, w))
    (hreply : ∀ op ∈ ops, op.reply? ≠ some w.reply) (hbecomes : bid.Becomes bid')
    (hb' : Stands b (s.after ops) handle w bid') {a : Answer} (ha : (w.reply, a) ∈ s.told ops) :
    bid'.Tells a := by
  obtain ⟨hline, generation, rfl, hg⟩ := State.granted_of_told hs hidle hsole hreply ha
  cases hb' with
  | waiting line single new => exact absurd rfl (hg.out (hs.after ops) w line)
  | holding lock gone new => exact congrArg Answer.granted (hg.generation_eq lock)
  | refused gone keeps same =>
    -- a request that was refused does not wait
    have hbid : bid = .refused := by
      rcases hbecomes with heq | ⟨-, g, heq⟩
      · exact heq.symm
      · cases heq
    subst hbid
    exact absurd rfl (hb.gone (fun h => by cases h) w hline)
  | spent gone out bare new => trivial

/-! ### When the session acts -/

/-- Who may ask for a lock does not hold it. -/
theorem new_of_checked {x : Handle ρ}
    (keeps : ∀ mode, b.Locked handle session mode → s.Locked handle session mode)
    (hchecked : s.checkRequest session handle = .ok x) (mode : Mode) :
    ¬ b.Locked handle session mode := by
  intro hl
  obtain ⟨hx, -, hinvolved⟩ := State.of_checkRequest hchecked
  obtain ⟨y, hy, hm⟩ := keeps mode hl
  obtain rfl : x = y := Option.some.inj (hx.symm.trans hy)
  rw [Handle.involves, Bool.or_eq_false_iff] at hinvolved
  exact ne_true_of_eq_false hinvolved.1 (Table.mem_of_get? hm)

/-- The request is answered, or it waits. -/
theorem acquire (hb : Stands b s handle w .refused) (tryOnly : Bool) :
    ∃ bid, bid ≠ .spent ∧
      Stands b (s.acquire w.session handle w.mode tryOnly w.reply).2.state handle w bid ∧
      ∀ p ∈ (s.acquire w.session handle w.mode tryOnly w.reply).2.answers, bid.Tells p.2 := by
  have hreq := s.requested_acquire w.session handle w.mode tryOnly w.reply
  generalize s.acquire w.session handle w.mode tryOnly w.reply = r at hreq ⊢
  cases hb with
  | refused gone keeps same =>
    cases hreq with
    | refused checked =>
      refine ⟨.refused, nofun, .refused gone keeps same, fun p hp => ?_⟩
      obtain rfl := List.mem_singleton.1 hp
      exact fun generation => nofun
    | denied checked blocked impatient =>
      refine ⟨.refused, nofun, .refused gone keeps same, fun p hp => ?_⟩
      obtain rfl := List.mem_singleton.1 hp
      exact fun generation => nofun
    | granted checked alone admitted =>
      rename_i x
      have hx : (s.handles.insert handle (x.grant w.session w.mode)).get? handle =
          some (x.grant w.session w.mode) := Table.get?_insert_self _ _ _
      have hlock : (x.grant w.session w.mode).Grants w.session w.mode _ :=
        ⟨Table.get?_insert_self _ _ _, rfl⟩
      refine ⟨.holding _, nofun, .holding ⟨_, hx, hlock⟩ ?_ (new_of_checked keeps checked),
        fun p hp => ?_⟩
      · intro v hv
        obtain ⟨y, hy, hv⟩ := State.mem_queue.1 (State.mem_queue_iff_line.2 hv)
        obtain rfl : x.grant w.session w.mode = y := Option.some.inj (hx.symm.trans hy)
        rw [Handle.grant, alone] at hv
        cases hv
      · obtain rfl := List.mem_singleton.1 hp
        exact rfl
    | queued checked blocked patient =>
      rename_i x
      have hx : (s.handles.insert handle { x with waiters := x.waiters ++ [w] }).get? handle =
          some { x with waiters := x.waiters ++ [w] } := Table.get?_insert_self _ _ _
      refine ⟨.waiting, Bid.noConfusion, .waiting ?_ ?_ (new_of_checked keeps checked),
        fun p hp => ?_⟩
      · exact State.mem_queue_iff_line.1 (State.mem_queue.2
          ⟨_, hx, List.mem_append_right _ (List.mem_singleton.2 rfl)⟩)
      · intro v hv hreply
        obtain ⟨y, hy, hv⟩ := State.mem_queue.1 (State.mem_queue_iff_line.2 hv)
        obtain rfl : { x with waiters := x.waiters ++ [w] } = y :=
          Option.some.inj (hx.symm.trans hy)
        rcases List.mem_append.1 hv with hold | hlast
        · have hline := State.mem_queue_iff_line.1
            (State.mem_queue.2 ⟨x, (State.of_checkRequest checked).1, hold⟩)
          exact absurd hreply (gone v hline)
        · exact List.mem_singleton.1 hlast
      · cases hp

/-- The request is made in the form of bytes. -/
theorem dispatch (hb : Stands b s handle w .refused) {payload : Bytes}
    {request : Wire.LockRequest} (hr : State.readRequest payload = .ok (request, w.mode))
    (hhandle : request.handle.toNat = handle) :
    ∃ bid, bid ≠ .spent ∧ Stands b (s.dispatch w.session payload w.reply).2.state handle w bid ∧
      ∀ p ∈ (s.dispatch w.session payload w.reply).2.answers, bid.Tells p.2 := by
  unfold State.dispatch
  rw [hr]
  dsimp only
  rw [hhandle]
  exact hb.acquire request.tryOnly

end Stands

/-! ### Serving the queue -/

namespace Turn

variable {t : Turn ρ}

/-- The queue of a handle is served by way of deeds in which nobody acts. -/
theorem served_pump (t : Turn ρ) (handle : Nat) :
    ∃ ds, Did (fun _ _ => False) t.state.sessions.contains t ds (t.pump handle) := by
  have hg : Goes (fun _ _ => False) t.state.sessions.contains t (t.pump handle) :=
    t.goes_pump handle
  obtain ⟨ds, hd, -⟩ := hg
  exact ⟨ds, hd⟩

theorem locked_pump (hwf : t.state.shelf.Wf) (hl : t.state.Locked handle session mode) :
    (t.pump handle).state.Locked handle session mode := by
  obtain ⟨ds, hd⟩ := t.served_pump handle
  obtain ⟨generation, hg⟩ := hl.granted
  exact State.Granted.locked (hd.course.keeps_grant hwf hd.fits (fun h => h) hg)

theorem out_pump (hwf : t.state.shelf.Wf) (hout : t.state.Out handle session) :
    (t.pump handle).state.Out handle session := by
  obtain ⟨ds, hd⟩ := t.served_pump handle
  exact hd.course.keeps_out hwf hd.fits (fun h => h) hout

/-- Whoever does not wait does not get the lock when the queue is served. -/
theorem locked_of_pump (hwf : t.state.shelf.Wf) (hout : t.state.Out handle session)
    (hl : (t.pump handle).state.Locked handle session mode) :
    t.state.Locked handle session mode := by
  obtain ⟨ds, hd⟩ := t.served_pump handle
  obtain ⟨generation, hg⟩ := hl.granted
  obtain ⟨g, hg⟩ := hd.course.gains_nothing hwf hd.fits (fun h => h) hout hg
  exact State.Granted.locked hg

theorem mem_line_pump (hwf : t.state.shelf.Wf) {v : Waiter ρ}
    (hv : v ∈ (t.pump handle).state.line handle) : v ∈ t.state.line handle := by
  obtain ⟨ds, hd⟩ := t.served_pump handle
  rcases List.mem_append.1 ((hd.course.line_sublist hwf handle).subset hv) with hold | hnew
  · exact hold
  · exact (Course.acts_of_joins hd.fits hnew).elim

end Turn

/-! ### Withdrawing and releasing -/

theorem Shelf.Wf.put {s : Shelf ρ} (hs : s.Wf) {x y : Handle ρ}
    (hx : s.handles.get? handle = some x) (hy : y.Wf) : (s.put handle y).Wf := by
  intro j z hz
  rw [Shelf.get?_put] at hz
  split at hz
  · rename_i hj
    obtain rfl := Option.some.inj hz
    exact ⟨hy, hj ▸ (hs handle x hx).2⟩
  · exact hs j z hz

theorem State.line_of_handle? {x : Handle ρ} (hx : s.handle? handle = some x) :
    s.line handle = x.waiters := by
  unfold State.line
  rw [hx]
  rfl

section Withdrawn

variable {t : Turn ρ} {x : Handle ρ}

theorem Turn.Withdrawn.wf_shelf (hs : Coherent [] lent s) (hx : s.handle? handle = some x)
    (hw : Turn.Withdrawn (.start s) handle session .cancelled x (true, t)) :
    t.state.shelf.Wf := by
  rw [State.shelf, hw.handles, hw.nextHandle]
  exact hs.wf_shelf.put hx ((hs.booked_nil hx).wf.withdraw _)

/-- The line loses what the session had in it. -/
theorem Turn.Withdrawn.mem_line (hs : Coherent [] lent s) (hx : s.handle? handle = some x)
    (hw : Turn.Withdrawn (.start s) handle session .cancelled x (true, t)) {v : Waiter ρ}
    (hv : v ∈ t.state.line handle) : v ∈ s.line handle ∧ v.session ≠ session := by
  rw [State.line_of_handle? hw.handle?, Handle.withdraw,
    Handle.eraseP_eq_filter (hs.booked_nil hx).wf.waits_once, List.mem_filter, Bool.not_eq_true',
    beq_eq_false_iff_ne] at hv
  rw [State.line_of_handle? hx]
  exact hv

theorem Turn.Withdrawn.locked_iff (hx : s.handle? handle = some x)
    (hw : Turn.Withdrawn (.start s) handle session .cancelled x (true, t)) (mode : Mode) :
    t.state.Locked handle session mode ↔ s.Locked handle session mode := by
  unfold State.Locked
  rw [hx, hw.handle?]
  constructor
  · rintro ⟨y, hy, hm⟩
    obtain rfl := Option.some.inj hy
    exact ⟨x, rfl, hm⟩
  · rintro ⟨y, hy, hm⟩
    obtain rfl := Option.some.inj hy
    exact ⟨_, rfl, hm⟩

theorem Turn.Withdrawn.not_out (hx : s.handle? handle = some x)
    (hw : Turn.Withdrawn (.start s) handle session .cancelled x (true, t)) :
    ¬ s.Out handle session := by
  obtain ⟨v, hv⟩ := Option.isSome_iff_exists.1 hw.found.symm
  have hsession := List.find?_some hv
  intro hout
  refine hout v ?_ (beq_iff_eq.1 hsession)
  rw [State.line_of_handle? hx]
  exact List.mem_of_find?_eq_some hv

end Withdrawn

namespace Stands

variable {b : State ρ} {w : Waiter ρ} {bid : Bid}

/-- The session withdraws a request for the lock: either there is none, or this one is over, or it
had been refused and it was another one that waited. -/
theorem cancel (hb : Stands b s handle w bid) (hs : Coherent [] lent s) :
    s.cancel w.session handle = (false, .start s) ∧ bid ≠ .waiting ∨
      (s.cancel w.session handle).1 = true ∧
        ∃ bid', (bid' = .spent ∨ bid' = .refused ∧ bid = .refused) ∧
        Stands b (s.cancel w.session handle).2.state handle w bid' := by
  rcases s.cancel_cases w.session handle with ⟨hnone, heq⟩ | ⟨x, t, hx, hw, heq⟩
  · refine .inl ⟨heq, ?_⟩
    rintro rfl
    cases hb with
    | waiting line single new =>
      obtain ⟨x, hx, hm⟩ := State.mem_queue.1 (State.mem_queue_iff_line.2 line)
      exact hnone x hx w hm rfl
  · rw [heq]
    have hwf := hw.wf_shelf hs hx
    have hout : t.state.Out handle w.session := fun v hv => (hw.mem_line hs hx hv).2
    refine .inr ⟨rfl, ?_⟩
    cases hb with
    | waiting line single new =>
      refine ⟨.spent, .inl rfl, .spent ?_ (Turn.out_pump hwf hout) ?_ new⟩
      · intro v hv hreply
        obtain ⟨hold, hne⟩ := hw.mem_line hs hx (Turn.mem_line_pump hwf hv)
        exact hne (congrArg Waiter.session (single v hold hreply))
      · intro mode hl
        have hl := (hw.locked_iff hx mode).1 (Turn.locked_of_pump hwf hout hl)
        obtain ⟨generation, hg⟩ := hl.granted
        exact hg.out hs w line rfl
    | holding lock gone new => exact absurd (lock.out hs) (hw.not_out hx)
    | refused gone keeps same =>
      refine ⟨.refused, .inr ⟨rfl, rfl⟩,
        .refused ?_ ?_ fun hno => absurd (same hno).1 (hw.not_out hx)⟩
      · exact fun v hv => gone v (hw.mem_line hs hx (Turn.mem_line_pump hwf hv)).1
      · exact fun mode hl => Turn.locked_pump hwf ((hw.locked_iff hx mode).2 (keeps mode hl))
    | spent gone out bare new => exact absurd out (hw.not_out hx)

/-- The session releases the lock that the request has got. -/
theorem release {generation : Nat} (hb : Stands b s handle w (.holding generation))
    (hs : Coherent [] lent s) :
    Stands b (s.release w.session handle).2.state handle w .spent := by
  cases hb with
  | holding lock gone new =>
    have hout := lock.out hs
    obtain ⟨y, hy, hm⟩ := lock
    rcases s.release_cases w.session handle with ⟨hnone, -⟩ | ⟨x, t, hx, hu, heq⟩
    · exact absurd (Table.mem_of_get? hm.1) (hnone y hy)
    · rw [heq]
      have hx' : (t.onSessions fun r => r.unhold w.session handle).state.handle? handle =
          some { x with holders := x.holders.erase w.session } := by
        show t.state.handles.get? handle = _
        rw [hu.handles, Table.get?_insert_self]
      have hwf : (t.onSessions fun r => r.unhold w.session handle).state.shelf.Wf := by
        show (Shelf.mk t.state.handles t.state.nextHandle).Wf
        rw [hu.handles, hu.nextHandle]
        exact hs.wf_shelf.put hx ((hs.booked_nil hx).wf.unlock _)
      have hline : (t.onSessions fun r => r.unhold w.session handle).state.line handle =
          s.line handle := by
        rw [State.line_of_handle? hx', State.line_of_handle? hx]
      have hout' : (t.onSessions fun r => r.unhold w.session handle).state.Out handle
          w.session := by
        unfold State.Out
        rw [hline]
        exact hout
      refine .spent ?_ (Turn.out_pump hwf hout') ?_ new
      · intro v hv
        have hv := Turn.mem_line_pump hwf hv
        rw [hline] at hv
        exact gone v hv
      · intro mode hl
        obtain ⟨z, hz, hheld⟩ := Turn.locked_of_pump hwf hout' hl
        obtain rfl := Option.some.inj (hx'.symm.trans hz)
        rw [Table.get?_erase_self] at hheld
        cases hheld

end Stands

end LeaseLock.Coordinator
