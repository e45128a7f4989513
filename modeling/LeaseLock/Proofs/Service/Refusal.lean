import LeaseLock.Proofs.Service.Handler

/-
  LeaseLock: a request for a lock that cannot be granted.
  Whoever holds a lock or waits for it (`State.Involved`) is refused when it asks again, and nothing
  else comes of that (`State.dispatch_of_involved`).  Other operations leave it involved, unless
  they act for it (`State.involved_perform`).  The service itself answers a request for a lock only
  with errors (`worked_lock`); so a request of somebody who is involved is not granted, whatever the
  server does with it.
-/

namespace LeaseLock

open Reactor Coordinator

namespace Coordinator.State

variable {ρ : Type} {lent : Nat → Nat → Prop} {s : State ρ} {op : Operation ρ}
  {ops : List (Operation ρ)} {handle session : Nat} {mode : Mode}

/-! ## Who holds a lock or waits for it -/

/-- The session holds the lock of the handle or waits for it. -/
def Involved (s : State ρ) (handle session : Nat) : Prop :=
  (∃ mode, s.Locked handle session mode) ∨ ∃ w ∈ s.line handle, w.session = session

instance (s : State ρ) (handle session : Nat) : Decidable (s.Involved handle session) :=
  decidable_of_iff (((s.handle? handle).bind fun x => x.holders.get? session).isSome = true ∨
      ∃ w ∈ s.line handle, w.session = session) <| or_congr_left <| by
    rw [Option.isSome_iff_exists]
    exact exists_congr fun mode => Option.bind_eq_some_iff

/-- Whoever may ask for a lock is not involved. -/
theorem Involved.not_checked (hi : s.Involved handle session) {x : Handle ρ} :
    s.checkRequest session handle ≠ .ok x := by
  intro hok
  obtain ⟨hx, -, hnot⟩ := of_checkRequest hok
  rw [Handle.involves, Bool.or_eq_false_iff, List.any_eq_false] at hnot
  rcases hi with ⟨mode, y, hy, hm⟩ | ⟨w, hw, rfl⟩
  · obtain rfl : x = y := Option.some.inj (hx.symm.trans hy)
    exact ne_true_of_eq_false hnot.1 (Table.mem_of_get? hm)
  · obtain ⟨y, hy, hw⟩ := mem_queue.1 (mem_queue_iff_line.2 hw)
    obtain rfl : x = y := Option.some.inj (hx.symm.trans hy)
    exact hnot.2 w hw (beq_self_eq_true _)

/-- Whoever is involved is refused. -/
theorem acquire_of_involved (hi : s.Involved handle session) (mode : Mode) (tryOnly : Bool)
    (reply : ρ) : ∃ fault, (s.acquire session handle mode tryOnly reply).2 =
      (Turn.start s).answer reply (.refused fault) := by
  have hreq := s.requested_acquire session handle mode tryOnly reply
  generalize s.acquire session handle mode tryOnly reply = r at hreq ⊢
  cases hreq with
  | refused checked => exact ⟨_, rfl⟩
  | granted checked alone admitted => exact absurd checked hi.not_checked
  | denied checked blocked impatient => exact absurd checked hi.not_checked
  | queued checked blocked patient => exact absurd checked hi.not_checked

theorem dispatch_of_involved {payload : Bytes} {request : Wire.LockRequest}
    (hr : readRequest payload = .ok (request, mode))
    (hi : s.Involved request.handle.toNat session) (reply : ρ) :
    ∃ fault, (s.dispatch session payload reply).2 =
      (Turn.start s).answer reply (.refused fault) := by
  unfold dispatch
  rw [hr]
  exact acquire_of_involved hi mode request.tryOnly reply

/-! ## Nobody acts for the session -/

/-- Whoever waits still waits, or has got the lock. -/
theorem waits_or_locked_perform (hs : Coherent [] lent s) {w : Waiter ρ}
    (hidle : ¬ s.ActsOn op w.session handle) (hw : w ∈ s.line handle) :
    w ∈ (s.perform op).2.state.line handle ∨
      (s.perform op).2.state.Locked handle w.session w.mode := by
  obtain ⟨registered, ds, hd⟩ := carried_perform hs op
  have hreg := hd.registered_of_mem_line hs hw hidle
  rcases hd.did.course.keeps_request hs.wf_shelf hd.did.fits hidle hreg hw with hline | ⟨g, -, hg⟩
  · exact .inl hline
  · exact .inr (Granted.locked hg)

theorem involved_perform (hs : Coherent [] lent s) (hidle : ¬ s.ActsOn op session handle)
    (hi : s.Involved handle session) : (s.perform op).2.state.Involved handle session := by
  rcases hi with ⟨mode, hl⟩ | ⟨w, hw, rfl⟩
  · exact .inl ⟨mode, locked_perform hs hidle hl⟩
  · rcases waits_or_locked_perform hs hidle hw with hw | hl
    · exact .inr ⟨w, hw, rfl⟩
    · exact .inl ⟨_, hl⟩

theorem answers_of_harmless (hop : op.Harmless) : (s.perform op).2.answers = [] := by
  cases op <;> first | rfl | cases hop

/-- Operations that are harmless, or ask for the lock on behalf of somebody who is involved, give
the asker no lock. -/
theorem refused_after (hs : Coherent [] lent s) {payload : Bytes} {request : Wire.LockRequest}
    (hr : readRequest payload = .ok (request, mode)) {reply : ρ}
    (hops : ∀ op ∈ ops, op.Harmless ∨ op = .dispatch session payload reply)
    (hi : s.Involved request.handle.toNat session) (hgone : ∀ p ∈ s.queue, p.2.reply ≠ reply) :
    (∀ p ∈ (s.after ops).queue, p.2.reply ≠ reply) ∧
      ∀ a, (reply, a) ∈ s.told ops → ∃ fault, a = .refused fault := by
  induction ops generalizing s with
  | nil => exact ⟨hgone, nofun⟩
  | cons op rest ih =>
    have hrest := fun op hm => hops op (List.mem_cons_of_mem _ hm)
    rcases hops op List.mem_cons_self with hharmless | rfl
    · have hidle := hharmless.not_actsOn s session request.handle.toNat
      obtain ⟨hqueue, htold⟩ := ih (hs.perform op) hrest (involved_perform hs hidle hi)
        fun p hp => hgone p ((mem_queue_perform hs hp).resolve_right
          (by rw [hharmless.request?]; exact nofun))
      refine ⟨hqueue, fun a ha => htold a ?_⟩
      rw [told, answers_of_harmless hharmless, List.nil_append] at ha
      exact ha
    · obtain ⟨fault, heq⟩ := dispatch_of_involved hr hi reply
      have hstate : (s.perform (.dispatch session payload reply)).2.state = s :=
        congrArg Turn.state heq
      have hanswers : (s.perform (.dispatch session payload reply)).2.answers =
          [(reply, .refused fault)] := congrArg Turn.answers heq
      obtain ⟨hqueue, htold⟩ := ih hs hrest hi hgone
      refine ⟨?_, fun a ha => ?_⟩
      · rw [after_cons, hstate]
        exact hqueue
      · rw [told, hstate, hanswers] at ha
        rcases List.mem_cons.1 ha with heq | ha
        · exact ⟨fault, congrArg Prod.snd heq⟩
        · exact htold a ha

end Coordinator.State

/-! ## What an operation leaves to a session -/

namespace Coordinator.Operation

variable {ρ : Type} {op : Operation ρ} {handle session : Nat} {mode : Mode}

/-- The session does not lose the lock of the handle by the operation. -/
def KeepsLocks (op : Operation ρ) (handle session : Nat) : Prop :=
  ∀ (s : State ρ) lent, Coherent [] lent s → ∀ mode, s.Locked handle session mode →
    (s.perform op).2.state.Locked handle session mode

/-- No request of the session leaves the queue of the handle by the operation, unless it gets the
lock. -/
def KeepsRequests (op : Operation ρ) (handle session : Nat) : Prop :=
  ∀ (s : State ρ) lent, Coherent [] lent s → ∀ w ∈ s.line handle, w.session = session →
    w ∈ (s.perform op).2.state.line handle ∨
      (s.perform op).2.state.Locked handle w.session w.mode

theorem keepsLocks_of_idle (hidle : ∀ s : State ρ, ¬ s.ActsOn op session handle) :
    op.KeepsLocks handle session :=
  fun s _ hs _ hl => State.locked_perform hs (hidle s) hl

theorem keepsRequests_of_idle (hidle : ∀ s : State ρ, ¬ s.ActsOn op session handle) :
    op.KeepsRequests handle session := by
  rintro s lent hs w hw rfl
  exact State.waits_or_locked_perform hs (hidle s) hw

section Dispatch

variable {payload : Bytes} {request : Wire.LockRequest}
  (hr : State.readRequest payload = .ok (request, mode)) (reply : ρ)

include hr

/-- Nothing comes of asking for a lock that one holds or waits for. -/
theorem keepsLocks_dispatch : (Operation.dispatch session payload reply).KeepsLocks
    request.handle.toNat session := by
  intro s lent hs mode hl
  obtain ⟨fault, heq⟩ := State.dispatch_of_involved hr (.inl ⟨mode, hl⟩) reply
  have hstate : (s.perform (.dispatch session payload reply)).2.state = s :=
    congrArg Turn.state heq
  rw [hstate]
  exact hl

theorem keepsRequests_dispatch : (Operation.dispatch session payload reply).KeepsRequests
    request.handle.toNat session := by
  intro s lent hs w hw hsession
  obtain ⟨fault, heq⟩ := State.dispatch_of_involved hr (.inr ⟨w, hw, hsession⟩) reply
  have hstate : (s.perform (.dispatch session payload reply)).2.state = s :=
    congrArg Turn.state heq
  rw [hstate]
  exact .inl hw

end Dispatch

/-- Whoever holds a lock has no request to withdraw. -/
theorem keepsLocks_cancel (session handle : Nat) :
    (Operation.cancel session handle : Operation ρ).KeepsLocks handle session := by
  intro s lent hs mode hl
  obtain ⟨generation, hg⟩ := hl.granted
  have hout := hg.out hs
  rcases s.cancel_cases session handle with ⟨-, heq⟩ | ⟨x, t, hx, hw, -⟩
  · have hstate : (s.perform (.cancel session handle)).2.state = s :=
      congrArg (fun r => r.2.state) heq
    rw [hstate]
    exact hl
  · exact absurd hout (hw.not_out hx)

end Coordinator.Operation

namespace Coordinator.State

variable {ρ : Type} {lent : Nat → Nat → Prop} {s : State ρ} {ops : List (Operation ρ)}
  {handle session : Nat} {mode : Mode}

theorem locked_after (hs : Coherent [] lent s) (hops : ∀ op ∈ ops, op.KeepsLocks handle session)
    (hl : s.Locked handle session mode) : (s.after ops).Locked handle session mode := by
  induction ops generalizing s with
  | nil => exact hl
  | cons op rest ih =>
    exact ih (hs.perform op) (fun op hm => hops op (List.mem_cons_of_mem _ hm))
      (hops op List.mem_cons_self s lent hs mode hl)

theorem waits_or_locked_after (hs : Coherent [] lent s) {w : Waiter ρ}
    (hlocks : ∀ op ∈ ops, op.KeepsLocks handle w.session)
    (hrequests : ∀ op ∈ ops, op.KeepsRequests handle w.session) (hw : w ∈ s.line handle) :
    w ∈ (s.after ops).line handle ∨ (s.after ops).Locked handle w.session w.mode := by
  induction ops generalizing s with
  | nil => exact .inl hw
  | cons op rest ih =>
    have hlocks' := fun op hm => hlocks op (List.mem_cons_of_mem _ hm)
    have hs' := hs.perform op
    rcases hrequests op List.mem_cons_self s lent hs w hw rfl with hw' | hl
    · exact ih hs' hlocks' (fun op hm => hrequests op (List.mem_cons_of_mem _ hm)) hw'
    · have hlast : ((s.perform op).2.state.after rest).Locked handle w.session w.mode :=
        locked_after hs' hlocks' hl
      exact .inr hlast

/-- Whoever still waits stands as before, and new requests come last. -/
theorem line_after (hs : Coherent [] lent s) (handle : Nat) :
    ∃ joined, ((s.after ops).line handle).Sublist (s.line handle ++ joined) ∧
      ∀ w ∈ joined, ∃ op ∈ ops, op.request? = some (handle, w) := by
  induction ops generalizing s with
  | nil => exact ⟨[], (List.append_nil _).symm ▸ .refl _, nofun⟩
  | cons op rest ih =>
    obtain ⟨own, hline, hown⟩ := s.line_perform hs op handle
    obtain ⟨joined, hline', hjoined⟩ := ih (hs.perform op)
    refine ⟨own ++ joined, ?_, fun w hw => ?_⟩
    · rw [← List.append_assoc]
      exact hline'.trans (hline.append_right _)
    · rcases List.mem_append.1 hw with hw | hw
      · exact ⟨op, List.mem_cons_self,
          Option.mem_toList.1 (hown.subset (List.mem_map.2 ⟨w, hw, rfl⟩))⟩
      · obtain ⟨op', hm, hr⟩ := hjoined w hw
        exact ⟨op', List.mem_cons_of_mem _ hm, hr⟩

end Coordinator.State

/-! ## What the service answers itself -/

namespace Service

variable {α : Type} {dest : ReplyTo} {asked : Option (Operation ReplyTo)} {session : Nat}
  {payload : Bytes} {m : Server.Loop}

/-- A program serves the sender of a request, whom the service itself tells of nothing but
errors. -/
def Errs (dest : ReplyTo) (asked : Option (Operation ReplyTo)) (p : Activity Unit Unit α)
    (m : Server.Loop) : Prop :=
  ∃ ops own r, Does p m ops own r ∧ Handles dest asked ops own ∧
    ∀ p ∈ own, ∃ code : FaultCode, p.2.status = code.toStatus

namespace Errs

theorem reject (asked : Option (Operation ReplyTo)) (code : FaultCode) (message : String) :
    Errs dest asked (Service.reject dest code message) m := by
  refine ⟨_, _, _, does_sendResponse _ _ m, ⟨nofun, .refl _⟩, fun p hp => ⟨code, ?_⟩⟩
  rw [List.mem_singleton.1 hp]
  rfl

/-- Harmless operations come first. -/
theorem bind {β : Type} {p : Activity Unit Unit α} {f : α → Activity Unit Unit β}
    {ops : List (Operation ReplyTo)} {a : α} (hp : Does p m ops [] (.ok a))
    (hops : ∀ op ∈ ops, op.Harmless) (hf : ∀ m', Work m ops [] m' → Errs dest asked (f a) m') :
    Errs dest asked (p >>= f) m := by
  obtain ⟨m₁, hrun, hw⟩ := hp
  obtain ⟨ops', own, r, ⟨m₂, hrun', hw'⟩, hh, herrs⟩ := hf m₁ hw
  refine ⟨_, _, r, ⟨m₂, (Machine.run_bind_of_ok f hrun).trans hrun', hw.trans hw'⟩, ⟨?_, ?_⟩,
    herrs⟩
  · intro op hm
    exact (List.mem_append.1 hm).elim (fun hm => .inl (hops op hm)) (hh.licit op)
  · rw [List.filterMap_append, List.filterMap_eq_nil_iff.2 fun op hm => (hops op hm).reply?]
    exact hh.addresses

/-- Harmless operations, and then a crash. -/
theorem bind_error {β : Type} {p : Activity Unit Unit α} {f : α → Activity Unit Unit β}
    {ops : List (Operation ReplyTo)} {c : Crash} (hp : Does p m ops [] (.error c))
    (hops : ∀ op ∈ ops, op.Harmless) : Errs dest asked (p >>= f) m := by
  refine ⟨_, _, _, hp.bind_error, ⟨fun op hm => .inl (hops op hm), ?_⟩, nofun⟩
  rw [List.filterMap_eq_nil_iff.2 fun op hm => (hops op hm).reply?]
  exact List.nil_sublist _

end Errs

theorem errs_executeFor_lock (dest : ReplyTo) (session : Nat) (payload : Bytes)
    (m : Server.Loop) : Errs dest (some (.dispatch session payload dest))
      (executeFor dest session (.lock payload)) m := by
  refine ⟨_, _, _, does_executeFor_lock dest session payload m, ⟨fun op hm => .inr ?_, .refl _⟩,
    nofun⟩
  exact congrArg some (List.mem_singleton.1 hm).symm

theorem errs_onCommand_lock (dest : ReplyTo) (payload : Bytes) (m : Server.Loop) :
    Errs dest ((m.world.sessionFor dest.endpoint).map fun session =>
      .dispatch session payload dest) (onCommand dest (.lock payload)) m := by
  refine .bind (does_world m) nofun fun m₁ hw => ?_
  cases m.world.sessionFor dest.endpoint with
  | none => exact .reject _ _ _
  | some session =>
    have hharmless := Operation.harmless_renew (ρ := ReplyTo) session m₁.clock
    have hrenew := does_renew session m₁
    cases hr : renewal (m₁.world.coordinator.renew session m₁.clock).1 with
    | error c =>
      rw [hr] at hrenew
      exact .bind_error hrenew hharmless
    | ok result =>
      rw [hr] at hrenew
      refine .bind hrenew hharmless fun m₂ _ => ?_
      cases result with
      | ok _ => exact errs_executeFor_lock dest session payload m₂
      | error fault =>
        exact .bind (does_change (fun s => s.unbind dest.endpoint) m₂ rfl) nofun
          fun m₃ _ => .reject _ _ _

/-- What a frame asks for that can be read. -/
theorem asks_encode {endpoint : Nat} {request : Wire.Request} {command : Wire.Command}
    (hc : Wire.Command.decode request.command request.body = .ok (some command)) :
    asks endpoint session request.encode =
      operation? ⟨endpoint, request.id⟩ session command := by
  unfold asks command? origin
  rw [Wire.Request.decode_encode]
  dsimp only
  rw [hc]
  rfl

/-- A request for a lock comes to harmless operations and to the one that it asks for; the service
itself answers it with errors only. -/
theorem worked_lock (endpoint : Nat) {request : Wire.Request}
    (hc : Wire.Command.decode request.command request.body = .ok (some (.lock payload)))
    (m : Server.Loop) :
    ∃ ops own, Work m ops own (m.dispatch Server.wiring (.data endpoint request.encode)) ∧
      Handles ⟨endpoint, request.id⟩ ((m.world.sessionFor endpoint).map fun session =>
        .dispatch session payload ⟨endpoint, request.id⟩) ops own ∧
      ∀ p ∈ own, ∃ code : FaultCode, p.2.status = code.toStatus := by
  unfold Machine.dispatch
  dsimp only
  cases m.endpoints.get? endpoint with
  | none =>
    exact ⟨[], [], .of_same rfl (fun _ _ hx => hx) rfl rfl rfl, ⟨nofun, List.nil_sublist _⟩, nofun⟩
  | some e =>
    have hframe : (onFrame endpoint request.encode : Activity Unit Unit Unit) =
        onCommand ⟨endpoint, request.id⟩ (.lock payload) := by
      unfold onFrame
      rw [Wire.Request.decode_encode]
      dsimp only
      rw [hc]
    obtain ⟨ops, own, r, hp, hh, herrs⟩ := errs_onCommand_lock ⟨endpoint, request.id⟩ payload
      (m.record (.invoked e.handler (.data endpoint request.encode)))
    rw [← hframe] at hp
    exact ⟨ops, own, work_invoke hp, hh, herrs⟩

end Service

end LeaseLock
