import LeaseLock.Proofs.Coordinator.Carried

/-
  LeaseLock: what operations do to the registry of sessions.
  An operation changes the lease and the open handles of the sessions that it is about, and of no
  others (`kept_perform`).  A session that is not registered never becomes registered again, as
  every new session has a new id.
-/

namespace LeaseLock

namespace Sessions

/-- A registry after a change that is about some sessions. -/
structure Kept (acts : Nat → Prop) (r r' : Sessions) : Prop where
  /-- All other sessions keep their lease and their open handles. -/
  record : ∀ sid, ¬ acts sid → (r'.get? sid).map (fun o => (o.expiry, o.opened)) =
    (r.get? sid).map fun o => (o.expiry, o.opened)
  /-- Ids are not used again. -/
  nextId : r.nextId ≤ r'.nextId
  /-- Whoever is registered was registered before, or has a new id. -/
  fresh : ∀ sid, r'.contains sid = true →
    r.contains sid = true ∨ sid = r.nextId ∧ r.nextId < r'.nextId

variable {r r' r'' : Sessions} {acts : Nat → Prop} {id : Nat}

theorem SameButHeld.kept (h : r.SameButHeld r') : r.Kept acts r' where
  record := fun sid _ => h.record sid
  nextId := Nat.le_of_eq h.nextId.symm
  fresh := fun sid hc => .inl ((h.contains sid).symm.trans hc)

theorem Kept.trans (h : r.Kept acts r') (h' : r'.SameButHeld r'') : r.Kept acts r'' where
  record := fun sid hs => (h'.record sid).trans (h.record sid hs)
  nextId := by
    rw [h'.nextId]
    exact h.nextId
  fresh := fun sid hc => by
    rw [h'.nextId]
    exact h.fresh sid ((h'.contains sid).symm.trans hc)

/-- What is recorded for one session changes. -/
theorem kept_modify (r : Sessions) (id : Nat) (f : Session → Session) :
    r.Kept (· = id) (r.modify id f) where
  record := fun sid hs => by rw [get?_modify, if_neg hs]
  nextId := Nat.le_refl _
  fresh := fun sid hc => .inl ((contains_modify f).symm.trans hc)

/-- Sessions leave the registry. -/
theorem kept_filterKeys (r : Sessions) {stays : Nat → Bool}
    (hstays : ∀ sid, ¬ acts sid → stays sid = true ∨ r.contains sid = false) :
    r.Kept acts { r with table := r.table.filterKeys stays } where
  record := fun sid hs => by
    rw [get?_filterKeys]
    rcases hstays sid hs with hstay | hnot
    · rw [if_pos hstay]
    · rw [contains_eq_false_iff.1 hnot, ite_self]
  nextId := Nat.le_refl _
  fresh := fun sid hc => by
    rw [contains_filterKeys, Bool.and_eq_true] at hc
    exact .inl hc.2

/-- A session begins. -/
theorem kept_create (r : Sessions) (now : Nat) :
    r.Kept (· = r.nextId) (r.create now).2 where
  record := fun sid hs => by
    rcases create_cases r now with ⟨expiry, heq⟩ | heq
    · rw [heq]
      show ((r.table.insert r.nextId _).get? sid).map _ = _
      rw [Table.get?_insert, if_neg hs]
      rfl
    · rw [heq]
      rfl
  nextId := by
    rw [nextId_create]
    exact Nat.le_succ _
  fresh := fun sid hc => by
    rw [nextId_create]
    rcases contains_create hc with hs | hs
    · exact .inr ⟨hs, Nat.lt_succ_self _⟩
    · exact .inl hs

theorem kept_renew (r : Sessions) (id now : Nat) : r.Kept (· = id) (r.renew id now).2 := by
  rcases renew_cases r id now with heq | ⟨expiry, heq⟩
  · rw [heq]
    exact (SameButHeld.refl r).kept
  · rw [heq]
    exact kept_modify r id _

end Sessions

namespace Coordinator.State

variable {ρ : Type}

open Sessions (Kept)

theorem kept_closeSession (s : State ρ) (session : Nat) :
    Kept (· = session) s.sessions (s.closeSession session).2.state.sessions := by
  rcases s.closeSession_cases session with ⟨-, heq⟩ | ⟨gone, -, heq⟩
  · rw [heq]
    exact (Sessions.SameButHeld.refl _).kept
  · have hgone : Kept (· = session) s.sessions (s.sessions.remove session).2 :=
      s.sessions.kept_filterKeys fun sid hs => .inl (bne_iff_ne.2 hs)
    have hdetached := Turn.sessions_detachAll
      (.start { s with sessions := (s.sessions.remove session).2 }) session .sessionClosed
      gone.opened.keys
    rw [heq]
    exact hgone.trans hdetached

theorem kept_openHandle (s : State ρ) (session : Nat) (name : String) :
    Kept (· = session) s.sessions (s.openHandle session name).2.sessions := by
  rcases s.openHandle_cases session name with ⟨-, heq⟩ | ⟨-, heq⟩
  · rw [heq]
    exact (Sessions.SameButHeld.refl _).kept
  · rw [heq]
    show Kept _ _ ((s.ensureHandle name).2.sessions.openHandle session _)
    rw [sessions_ensureHandle]
    exact Sessions.kept_modify _ _ _

theorem kept_closeHandle (s : State ρ) (session handle : Nat) :
    Kept (· = session) s.sessions (s.closeHandle session handle).2.state.sessions := by
  rcases s.closeHandle_cases session handle with ⟨fault, heq⟩ | ⟨-, heq⟩
  · rw [heq]
    exact (Sessions.SameButHeld.refl _).kept
  · have hgiven : Kept (· = session) s.sessions (s.sessions.giveUp session handle) :=
      Sessions.kept_modify _ _ _
    have hdetached := Turn.sessions_detach
      (.start { s with sessions := s.sessions.giveUp session handle }) session handle .handleClosed
    rw [heq]
    exact hgiven.trans hdetached

theorem sameButHeld_acquire (s : State ρ) (session handle : Nat) (mode : Mode) (tryOnly : Bool)
    (reply : ρ) : s.sessions.SameButHeld
      (s.acquire session handle mode tryOnly reply).2.state.sessions := by
  have hr := s.requested_acquire session handle mode tryOnly reply
  generalize s.acquire session handle mode tryOnly reply = r at hr ⊢
  cases hr with
  | refused checked => exact .refl _
  | granted checked alone admitted => exact Sessions.sameButHeld_hold
  | denied checked blocked impatient => exact .refl _
  | queued checked blocked patient => exact .refl _

theorem sameButHeld_dispatch (s : State ρ) (session : Nat) (payload : Bytes) (reply : ρ) :
    s.sessions.SameButHeld (s.dispatch session payload reply).2.state.sessions := by
  rcases s.dispatch_cases session payload reply with ⟨request, mode, -, heq⟩ | ⟨fault, -, heq⟩
  · rw [heq]
    exact s.sameButHeld_acquire _ _ _ _ _
  · rw [heq]
    exact .refl _

theorem sameButHeld_release (s : State ρ) (session handle : Nat) :
    s.sessions.SameButHeld (s.release session handle).2.state.sessions := by
  rcases s.release_cases session handle with ⟨-, fault, heq⟩ | ⟨x, t, -, hu, heq⟩
  · rw [heq]
    exact .refl _
  · rw [heq]
    refine Sessions.SameButHeld.trans ?_ (Turn.sessions_pump _ handle)
    show s.sessions.SameButHeld (t.state.sessions.unhold session handle)
    rw [hu.sessions]
    exact Sessions.sameButHeld_unhold

theorem sameButHeld_cancel (s : State ρ) (session handle : Nat) :
    s.sessions.SameButHeld (s.cancel session handle).2.state.sessions := by
  rcases s.cancel_cases session handle with ⟨-, heq⟩ | ⟨x, t, -, hw, heq⟩
  · rw [heq]
    exact .refl _
  · have hpump := t.sessions_pump handle
    rw [hw.sessions] at hpump
    rw [heq]
    exact hpump

theorem kept_expire (s : State ρ) (now : Nat) :
    Kept (s.Acts (.expire now)) s.sessions (s.expire now).2.state.sessions := by
  have hgone : Kept (s.Acts (.expire now)) s.sessions
      (s.unregister ((s.lapsed now).map (·.1))).sessions := by
    refine s.sessions.kept_filterKeys fun sid hs => .inl ?_
    rw [Bool.not_eq_true', ← Bool.not_eq_true]
    intro hl
    obtain ⟨o, ho, hl⟩ := contains_lapsed.1 hl
    exact hs ⟨o, ho, of_decide_eq_true hl⟩
  have hexpired := Turn.sessions_expireAll
    (.start (s.unregister ((s.lapsed now).map (·.1)))) (s.lapsed now)
  exact hgone.trans hexpired

/-- An operation leaves all sessions as they were but those that it is about. -/
theorem kept_perform (s : State ρ) (op : Operation ρ) :
    Kept (s.Acts op) s.sessions (s.perform op).2.state.sessions := by
  cases op with
  | createSession now => exact s.sessions.kept_create now
  | renew session now => exact s.sessions.kept_renew session now
  | closeSession session => exact s.kept_closeSession session
  | openHandle session name => exact s.kept_openHandle session name
  | closeHandle session handle => exact s.kept_closeHandle session handle
  | acquire session handle mode tryOnly reply =>
    exact (s.sameButHeld_acquire session handle mode tryOnly reply).kept
  | dispatch session payload reply => exact (s.sameButHeld_dispatch session payload reply).kept
  | release session handle => exact (s.sameButHeld_release session handle).kept
  | cancel session handle => exact (s.sameButHeld_cancel session handle).kept
  | expire now => exact s.kept_expire now

end Coordinator.State

end LeaseLock
