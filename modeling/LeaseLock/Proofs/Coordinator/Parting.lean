import LeaseLock.Proofs.Coordinator.Bid
import LeaseLock.Proofs.Coordinator.Registry

/-
  LeaseLock: how a request leaves its queue.
  A request leaves its queue because it is served, or because its session withdraws it, closes the
  handle or is ended.  Either way its sender is told, and what he is told agrees with the lock
  (`Parted`): whoever is told of a grant holds the lock in that generation, and whoever is told
  anything else does not hold it (`parted_perform`).
-/

namespace LeaseLock.Coordinator

variable {ρ : Type} {lent : Nat → Nat → Prop} {s : State ρ} {op : Operation ρ}
  {handle session now : Nat} {mode : Mode} {w : Waiter ρ}

/-- A request has left its queue with an answer, and the lock agrees with the answer. -/
inductive Parted (s : State ρ) (handle : Nat) (w : Waiter ρ) : Answer → Prop
  /-- The request has been granted. -/
  | granted {generation : Nat} (lock : s.Granted handle w.session w.mode generation) :
      Parted s handle w (.granted generation)
  /-- It has been withdrawn. -/
  | cancelled (bare : ∀ mode, ¬ s.Locked handle w.session mode) : Parted s handle w .cancelled
  /-- Its session has ended. -/
  | expired (bare : ∀ mode, ¬ s.Locked handle w.session mode) :
      Parted s handle w (.refused (.sessionExpired w.session))

namespace State

/-! ## Without the handle there is no lock -/

theorem Locked.opened (hs : Coherent [] lent s) (hl : s.Locked handle session mode) :
    s.sessions.Opened session handle := by
  obtain ⟨x, hx, hm⟩ := hl
  exact hs.opened_of_held _ _ (((hs.booked_nil hx).holder_iff _).1 (Table.mem_of_get? hm))

/-- A session that has ended has no handle open. -/
theorem not_opened_closeSession (s : State ρ) (session handle : Nat) :
    ¬ (s.closeSession session).2.state.sessions.Opened session handle := by
  rcases s.closeSession_cases session with ⟨hnone, heq⟩ | ⟨o, -, heq⟩
  · rw [heq]
    rintro ⟨o, ho, -⟩
    cases hnone.symm.trans ho
  · have hsame := Turn.sessions_detachAll
      (.start { s with sessions := (s.sessions.remove session).2 }) session .sessionClosed
      o.opened.keys
    rw [heq, hsame.opened]
    rintro ⟨o', ho', -⟩
    have hgone : (s.sessions.table.erase session).get? session = some o' := ho'
    rw [Table.get?_erase_self] at hgone
    cases hgone

theorem not_opened_expire {o : Session} (ho : s.sessions.get? session = some o)
    (hlapsed : o.expiry ≤ now) :
    ¬ (s.expire now).2.state.sessions.Opened session handle := by
  have hsame := Turn.sessions_expireAll
    (.start (s.unregister ((s.lapsed now).map (·.1)))) (s.lapsed now)
  have hexpire : (s.expire now).2.state.sessions = ((Turn.start (s.unregister
      ((s.lapsed now).map (·.1)))).expireAll (s.lapsed now)).state.sessions := rfl
  rw [hexpire, hsame.opened]
  intro hopened
  have hcontains := hopened.contains
  rw [show (Turn.start (s.unregister ((s.lapsed now).map (·.1)))).state.sessions.contains session =
    _ from contains_unregister _ session,
    contains_lapsed.2 ⟨o, ho, decide_eq_true hlapsed⟩] at hcontains
  cases hcontains

/-! ## Leaving a queue -/

/-- Lock requests take nobody out of a queue. -/
theorem mem_queue_of_placed {reply : ρ} {o : LockOutcome} {t : Turn ρ} {p : Nat × Waiter ρ}
    (hp : Placed s session reply o t) (hq : p ∈ s.queue) : p ∈ t.state.queue := by
  cases hp with
  | answered a agrees answers queue gave => exact queue.subset hq
  | queued handle mode answers queue => exact queue.subset (List.mem_cons_of_mem _ hq)

/-- A session that closes a handle does not get its lock. -/
theorem bare_of_closeHandle (hs : Coherent [] lent s) (hold : (handle, w) ∈ s.queue)
    (hleft : (handle, w) ∉ (s.closeHandle w.session handle).2.state.queue) (mode : Mode) :
    ¬ (s.closeHandle w.session handle).2.state.Locked handle w.session mode := by
  intro hl
  have hopened : (s.closeHandle w.session handle).2.state.sessions.Opened w.session handle :=
    hl.opened (hs.perform (.closeHandle w.session handle))
  rcases s.closeHandle_cases w.session handle with ⟨fault, heq⟩ | ⟨-, heq⟩
  · rw [heq] at hleft
    exact hleft hold
  · have hsame := Turn.sessions_detach
      (.start { s with sessions := s.sessions.giveUp w.session handle }) w.session handle
      .handleClosed
    rw [heq, hsame.opened] at hopened
    exact (Sessions.opened_giveUp.1 hopened).2 rfl rfl

/-- A session that waits holds nothing that it could release, and goes on waiting. -/
theorem mem_queue_release (hs : Coherent [] lent s) (hold : (handle, w) ∈ s.queue) :
    (handle, w) ∈ (s.release w.session handle).2.state.queue := by
  rcases s.release_cases w.session handle with ⟨-, fault, heq⟩ | ⟨x, t, hx, hu, heq⟩
  · rw [heq]
    exact hold
  · have hheld : w.session ∈ x.holders := hu.found.symm
    obtain ⟨y, hy, hm⟩ := mem_queue.1 hold
    obtain rfl : x = y := Option.some.inj (hx.symm.trans hy)
    exact absurd hheld ((hs.booked_nil hx).wf.waiter_not_holder w hm)

/-- A session that withdraws its request does not get the lock. -/
theorem bare_of_cancel (hs : Coherent [] lent s) (hw : w ∈ s.line handle)
    (hsole : ∀ p ∈ s.queue, p.2.reply = w.reply → p = (handle, w)) (mode : Mode) :
    ¬ (s.cancel w.session handle).2.state.Locked handle w.session mode := by
  have hnew : ∀ mode, ¬ s.Locked handle w.session mode := fun mode hl => by
    obtain ⟨generation, hg⟩ := hl.granted
    exact hg.out hs w hw rfl
  have hstands : Stands s s handle w .waiting := .waiting hw
    (fun v hv hreply => (Prod.mk.inj (hsole (handle, v) (mem_queue_iff_line.2 hv) hreply)).2)
    hnew
  rcases hstands.cancel hs with ⟨-, hne⟩ | ⟨-, bid, hbid, hafter⟩
  · exact absurd rfl hne
  · obtain rfl : bid = .spent := hbid.resolve_right fun h => by cases h.2
    cases hafter with
    | spent gone out bare new => exact bare mode

/-- A session that takes its own request out of a queue does not get the lock. -/
theorem bare_of_actsOn (hs : Coherent [] lent s) (hw : w ∈ s.line handle)
    (hsole : ∀ p ∈ s.queue, p.2.reply = w.reply → p = (handle, w))
    (ha : s.ActsOn op w.session handle) (hleft : w ∉ (s.perform op).2.state.line handle)
    (mode : Mode) : ¬ (s.perform op).2.state.Locked handle w.session mode := by
  have hqueue : (handle, w) ∉ (s.perform op).2.state.queue :=
    fun hm => hleft (mem_queue_iff_line.1 hm)
  have hold : (handle, w) ∈ s.queue := mem_queue_iff_line.2 hw
  rcases ha with ht | ⟨now, o, rfl, ho, hlapsed⟩
  · cases op with
    | closeSession session =>
      obtain rfl : w.session = session := ht
      exact fun hl => s.not_opened_closeSession _ _
        (hl.opened (hs.perform (.closeSession w.session)))
    | closeHandle session h =>
      obtain ⟨rfl, rfl⟩ : w.session = session ∧ handle = h := ht
      exact bare_of_closeHandle hs hold hqueue mode
    | acquire session h m tryOnly reply =>
      exact absurd (mem_queue_of_placed (placed_acquire session h m tryOnly reply) hold) hqueue
    | dispatch session payload reply =>
      exact absurd (mem_queue_of_placed (placed_dispatch session payload reply) hold) hqueue
    | release session h =>
      obtain ⟨rfl, rfl⟩ : w.session = session ∧ handle = h := ht
      exact absurd (mem_queue_release hs hold) hqueue
    | cancel session h =>
      obtain ⟨rfl, rfl⟩ : w.session = session ∧ handle = h := ht
      exact bare_of_cancel hs hw hsole mode
    | createSession now => cases ht
    | renew session now => cases ht
    | openHandle session name => cases ht
    | expire now => cases ht
  · exact fun hl => not_opened_expire ho hlapsed (hl.opened (hs.perform (.expire now)))

/-- A request that leaves its queue is answered, and the lock agrees with the answer. -/
theorem parted_perform (hs : Coherent [] lent s) (hw : w ∈ s.line handle)
    (hsole : ∀ p ∈ s.queue, p.2.reply = w.reply → p = (handle, w))
    (hreply : op.reply? ≠ some w.reply) (hleft : w ∉ (s.perform op).2.state.line handle) :
    ∃ a, (w.reply, a) ∈ (s.perform op).2.answers ∧ Parted (s.perform op).2.state handle w a := by
  have hold : (handle, w) ∈ s.queue := mem_queue_iff_line.2 hw
  have hqueue : (handle, w) ∉ (s.perform op).2.state.queue :=
    fun hm => hleft (mem_queue_iff_line.1 hm)
  have hasker : op.asker? = none := by
    cases op with
    | acquire session h mode tryOnly reply =>
      exact absurd (mem_queue_of_placed (placed_acquire session h mode tryOnly reply) hold) hqueue
    | dispatch session payload reply =>
      exact absurd (mem_queue_of_placed (placed_dispatch session payload reply) hold) hqueue
    | _ => rfl
  obtain ⟨out, hout, hproper⟩ := accounted_perform hs hasker
  rcases List.mem_append.1 (hout.queue.subset hold) with hleaves | hstays
  · obtain ⟨d, hd, hplace⟩ := List.mem_map.1 hleaves
    obtain ⟨h, v, a⟩ := d
    obtain ⟨rfl, rfl⟩ : h = handle ∧ v = w := Prod.mk.inj hplace
    have hanswers : (s.perform op).2.answers = out.map Departure.message := hout.answers
    have ha : (v.reply, a) ∈ (s.perform op).2.answers :=
      hanswers ▸ List.mem_map.2 ⟨_, hd, rfl⟩
    -- a session that does not act on the handle is told nothing but a grant
    have hbare : (∀ generation, a ≠ .granted generation) →
        ∀ mode, ¬ (s.perform op).2.state.Locked h v.session mode := by
      intro hnot
      by_cases hacts : s.ActsOn op v.session h
      · exact bare_of_actsOn hs hw hsole hacts hleft
      · obtain ⟨-, generation, heq, -⟩ := granted_of_answer hs hacts hsole hreply ha
        exact absurd heq (hnot generation)
    refine ⟨a, ha, ?_⟩
    rcases hproper _ hd with ⟨generation, heq⟩ | heq | heq
    · obtain rfl : a = .granted generation := heq
      exact .granted (hout.gave _ hd generation rfl).2
    · obtain rfl : a = .cancelled := heq
      exact .cancelled (hbare nofun)
    · obtain rfl : a = .refused (.sessionExpired v.session) := heq
      exact .expired (hbare nofun)
  · exact absurd hstays hqueue

end State

end LeaseLock.Coordinator
