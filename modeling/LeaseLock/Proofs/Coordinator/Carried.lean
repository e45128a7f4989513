import LeaseLock.Proofs.Coordinator.Deed
import LeaseLock.Proofs.Coordinator.Request

/-
  LeaseLock: what the operations do, deed by deed.
  `carried_perform` takes every operation apart into deeds that are done by the sessions that the
  operation is about (`State.Acts`).  What holds of the events, of the order of the queues and of
  sessions that have no part in an operation is then proved by induction on the deeds, with one
  case for each thing that can happen to a handle.
-/

namespace LeaseLock.Coordinator

variable {ρ : Type}

/-! ## Requests and actors -/

/-- The request for a lock that an operation makes, with the id of the handle. -/
def Operation.request? : Operation ρ → Option (Nat × Waiter ρ)
  | .acquire session handle mode _ reply => some (handle, ⟨session, mode, reply⟩)
  | .dispatch session payload reply =>
    match State.readRequest payload with
    | .ok (request, mode) => some (request.handle.toNat, ⟨session, mode, reply⟩)
    | .error _ => none
  | _ => none

/-- The address to which the answer to a lock request goes. -/
def Operation.reply? : Operation ρ → Option ρ
  | .acquire _ _ _ _ reply => some reply
  | .dispatch _ _ reply => some reply
  | _ => none

/-- The sessions that an operation is about: the one that asks for it, or those whose lease has
ended. -/
def State.Acts (s : State ρ) : Operation ρ → Nat → Prop
  | .createSession _, sid => sid = s.sessions.nextId
  | .renew session _, sid => sid = session
  | .closeSession session, sid => sid = session
  | .openHandle session _, sid => sid = session
  | .closeHandle session _, sid => sid = session
  | .acquire session _ _ _ _, sid => sid = session
  | .dispatch session _ _, sid => sid = session
  | .release session _, sid => sid = session
  | .cancel session _, sid => sid = session
  | .expire now, sid => ∃ o, s.sessions.get? sid = some o ∧ o.expiry ≤ now

/-- An operation is about what a session does with a handle. -/
def Operation.Touches (sid handle : Nat) : Operation ρ → Prop
  | .closeSession session => sid = session
  | .closeHandle session h => sid = session ∧ handle = h
  | .acquire session h _ _ _ => sid = session ∧ handle = h
  | .dispatch session payload _ => sid = session ∧ ∃ request mode,
      State.readRequest payload = .ok (request, mode) ∧ handle = request.handle.toNat
  | .release session h => sid = session ∧ handle = h
  | .cancel session h => sid = session ∧ handle = h
  | _ => False

instance (sid handle : Nat) (op : Operation ρ) : Decidable (op.Touches sid handle) :=
  match op with
  | .closeSession _ => inferInstanceAs (Decidable (_ = _))
  | .closeHandle _ _ => inferInstanceAs (Decidable (_ ∧ _))
  | .acquire _ _ _ _ _ => inferInstanceAs (Decidable (_ ∧ _))
  | .release _ _ => inferInstanceAs (Decidable (_ ∧ _))
  | .cancel _ _ => inferInstanceAs (Decidable (_ ∧ _))
  | .dispatch session payload _ =>
    match h : State.readRequest payload with
    | .ok (request, mode) =>
      decidable_of_iff (sid = session ∧ handle = request.handle.toNat)
        ⟨fun ⟨hs, hh⟩ => ⟨hs, request, mode, h, hh⟩, fun ⟨hs, _, _, hr, hh⟩ => by
          cases h.symm.trans hr
          exact ⟨hs, hh⟩⟩
    | .error _ => isFalse fun ⟨_, _, _, hr, _⟩ => nomatch h.symm.trans hr
  | .createSession _ => isFalse nofun
  | .renew _ _ => isFalse nofun
  | .openHandle _ _ => isFalse nofun
  | .expire _ => isFalse nofun

/-- A session acts on a handle with an operation: it asks for it, or its lease has ended. -/
def State.ActsOn (s : State ρ) (op : Operation ρ) (sid handle : Nat) : Prop :=
  op.Touches sid handle ∨
    ∃ now o, op = .expire now ∧ s.sessions.get? sid = some o ∧ o.expiry ≤ now

theorem State.ActsOn.acts {s : State ρ} {op : Operation ρ} {sid handle : Nat}
    (ha : s.ActsOn op sid handle) : s.Acts op sid := by
  rcases ha with ht | ⟨now, o, rfl, ho, hl⟩
  · cases op with
    | closeSession session => exact ht
    | closeHandle session h => exact ht.1
    | acquire session h mode tryOnly reply => exact ht.1
    | dispatch session payload reply => exact ht.1
    | release session h => exact ht.1
    | cancel session h => exact ht.1
    | createSession now => cases ht
    | renew session now => cases ht
    | openHandle session name => cases ht
    | expire now => cases ht
  · exact ⟨o, ho, hl⟩

/-! ## Operations by way of deeds -/

namespace State

variable {s : State ρ} {lent : Nat → Nat → Prop} {registered : Nat → Bool}

open Turn (Goes)

/-- An operation is carried out by way of deeds. -/
structure Carried (s : State ρ) (op : Operation ρ) (registered : Nat → Bool)
    (ds : List (Deed ρ)) : Prop where
  /-- The deeds make up what the operation does. -/
  did : Turn.Did (s.ActsOn op) registered (.start s) ds (s.perform op).2
  /-- A registered session that does not act on every handle counts as registered. -/
  stays : ∀ sid handle, s.sessions.contains sid = true → ¬ s.ActsOn op sid handle →
    registered sid = true
  /-- The only request that is taken up is the one that the operation makes. -/
  requests : (ds.filterMap Deed.request?).Sublist op.request?.toList
  /-- The only request that is answered without a wait is the one that the operation makes. -/
  replies : ((ds.filterMap Deed.reply?).map (·.1)).Sublist op.reply?.toList
  /-- A request that has to wait joins a queue. -/
  parked : (s.perform op).1 = .outcome .queued →
    ∃ h w, op.request? = some (h, w) ∧ .on h (.joined w) ∈ ds
  /-- Only who asks to open a handle joins its openers. -/
  opens : ∀ h sid, .on h (.opened sid) ∈ ds → ∃ name, op = .openHandle sid name

theorem Carried.of_goes {op : Operation ρ}
    (hg : Goes (s.ActsOn op) registered (.start s) (s.perform op).2)
    (hstays : ∀ sid handle, s.sessions.contains sid = true → ¬ s.ActsOn op sid handle →
      registered sid = true)
    (hresult : (s.perform op).1 ≠ .outcome .queued) :
    ∃ registered ds, s.Carried op registered ds := by
  obtain ⟨ds, hd, hquiet⟩ := hg
  refine ⟨registered, ds, hd, hstays, ?_, ?_, fun hq => absurd hq hresult, fun h sid hm => ?_⟩
  · rw [List.filterMap_eq_nil_iff.2 fun d hm => (hquiet d hm).request?]
    exact List.nil_sublist _
  · rw [List.filterMap_eq_nil_iff.2 fun d hm => (hquiet d hm).reply?]
    exact List.nil_sublist _
  · cases hquiet _ hm

/-! ### One lemma for each operation -/

theorem goes_closeSession (hs : Coherent [] lent s) (session : Nat) :
    ∃ registered,
      Goes (s.ActsOn (.closeSession session)) registered (.start s) (s.closeSession session).2 ∧
      ∀ sid, s.sessions.contains sid = true → sid ≠ session → registered sid = true := by
  rcases s.closeSession_cases session with ⟨-, heq⟩ | ⟨gone, hg, heq⟩
  · rw [heq]
    exact ⟨s.sessions.contains, Turn.goes_of_same rfl rfl rfl, fun _ hc _ => hc⟩
  · refine ⟨(s.sessions.remove session).2.contains, ?_, ?_⟩
    · have hstart : Turn.Going (s.ActsOn (.closeSession session))
          (s.sessions.remove session).2.contains (.start s)
          s.sessions.Held (gone.opened.keys.map (session, ·) ++ [])
          (.start { s with sessions := (s.sessions.remove session).2 }) := by
        rw [List.append_nil]
        refine ⟨hs.unregister_session hg, ?_, rfl, Turn.goes_of_same rfl rfl rfl⟩
        intro p hp
        obtain ⟨j, -, rfl⟩ := List.mem_map.1 hp
        exact .inl rfl
      rw [heq]
      exact (hstart.detachAll .sessionClosed).goes
    · intro sid hc hne
      show (s.sessions.table.erase session).contains sid = true
      rw [Table.contains, Table.get?_erase, if_neg hne]
      exact hc

theorem goes_expire (hs : Coherent [] lent s) (now : Nat) :
    Goes (s.ActsOn (.expire now)) (s.unregister ((s.lapsed now).map (·.1))).sessions.contains
      (.start s) (s.expire now).2 := by
  have hstart : Turn.Going (s.ActsOn (.expire now))
      (s.unregister ((s.lapsed now).map (·.1))).sessions.contains (.start s) s.sessions.Held
      (Turn.owes (s.lapsed now)) (.start (s.unregister ((s.lapsed now).map (·.1)))) := by
    refine ⟨hs.unregister_lapsed now, ?_, rfl, Turn.goes_of_same rfl rfl rfl⟩
    rintro ⟨sid, h⟩ hp
    obtain ⟨o, ho, hl⟩ := contains_lapsed.1 (mem_owes_lapsed.1 hp).1
    exact .inr ⟨now, o, rfl, ho, of_decide_eq_true hl⟩
  exact (hstart.expireAll _).goes.trans (Turn.goes_of_same rfl rfl rfl)

theorem goes_closeHandle (hs : Coherent [] lent s) (session handle : Nat) :
    Goes (s.ActsOn (.closeHandle session handle)) s.sessions.contains (.start s)
      (s.closeHandle session handle).2 := by
  rcases s.closeHandle_cases session handle with ⟨fault, heq⟩ | ⟨hopened, heq⟩
  · rw [heq]
    exact Turn.goes_of_same rfl rfl rfl
  · obtain ⟨x, hx⟩ := hs.handle_of_opened hopened
    have hb := hs.booked_nil hx
    have hopener : session ∈ x.openers := (hb.opener_iff session).2 hopened
    have hdetach : Goes (s.ActsOn (.closeHandle session handle)) _ _ _ :=
      Turn.goes_detach (t := .start { s with sessions := s.sessions.giveUp session handle }) hx
        hb.wf hopener .handleClosed (.inl ⟨rfl, rfl⟩)
    have hregistry : (s.sessions.giveUp session handle).contains = s.sessions.contains :=
      funext fun _ => Sessions.contains_giveUp
    have hfirst : Goes (s.ActsOn (.closeHandle session handle))
        (s.sessions.giveUp session handle).contains (.start s)
        (.start { s with sessions := s.sessions.giveUp session handle }) :=
      Turn.goes_of_same rfl rfl rfl
    rw [heq, ← hregistry]
    exact hfirst.trans hdetach

theorem carried_openHandle (hs : Coherent [] lent s) (session : Nat) (name : String) :
    ∃ registered ds, s.Carried (.openHandle session name) registered ds := by
  rcases s.openHandle_cases session name with ⟨-, heq⟩ | ⟨-, heq⟩
  · have hg : Goes (s.ActsOn (.openHandle session name)) s.sessions.contains (.start s)
        (.start (s.openHandle session name).2) := by
      rw [heq]
      exact Turn.goes_of_same rfl rfl rfl
    refine Carried.of_goes hg (fun _ _ hc _ => hc) fun h => ?_
    cases h
  · obtain ⟨ds, hd, hquiet⟩ : Goes (s.ActsOn (.openHandle session name)) s.sessions.contains
        (.start s) (.start (s.ensureHandle name).2) := by
      unfold ensureHandle
      cases s.named? name with
      | some id => exact Turn.goes_of_same rfl rfl rfl
      | none => exact Turn.goes_of_deed (.created (s := s.shelf) name) rfl rfl trivial trivial
    obtain ⟨x, he⟩ := hs.ensured_ensureHandle name
    have hx : (s.ensureHandle name).2.handles.get? (s.ensureHandle name).1 = some x :=
      (he.handle? _).trans (if_pos rfl)
    have hlast : Turn.Did (s.ActsOn (.openHandle session name)) s.sessions.contains
        (.start (s.ensureHandle name).2) [.on (s.ensureHandle name).1 (.opened session)]
        (.start (s.openHandle session name).2) := by
      refine ⟨?_, rfl, rfl, fun d hm => ?_⟩
      · have hshelf : (s.openHandle session name).2.shelf = (s.ensureHandle name).2.shelf.put
            (s.ensureHandle name).1 { x with openers := IdSet.add x.openers session } := by
          rw [heq]
          show Shelf.mk ((s.ensureHandle name).2.handles.modify _ _) _ = _
          rw [Table.modify, hx]
          rfl
        show Course _ _ (s.openHandle session name).2.shelf
        rw [hshelf]
        exact .single (.on hx (.opened session))
      · rw [List.mem_singleton.1 hm]
        trivial
    refine ⟨s.sessions.contains, _, hd.append hlast, fun _ _ hc _ => hc, ?_, ?_, fun h => ?_,
      fun h sid hm => ?_⟩
    · rw [List.filterMap_append, List.filterMap_eq_nil_iff.2 fun d hm => (hquiet d hm).request?]
      exact List.nil_sublist _
    · rw [List.filterMap_append, List.filterMap_eq_nil_iff.2 fun d hm => (hquiet d hm).reply?]
      exact List.nil_sublist _
    · cases h
    · rcases List.mem_append.1 hm with hm | hm
      · cases hquiet _ hm
      · cases List.mem_singleton.1 hm
        exact ⟨name, rfl⟩

theorem goes_release (s : State ρ) (session handle : Nat) :
    Goes (s.ActsOn (.release session handle)) s.sessions.contains (.start s)
      (s.release session handle).2 := by
  rcases s.release_cases session handle with ⟨-, fault, heq⟩ | ⟨x, t, hx, hu, heq⟩
  · rw [heq]
    exact Turn.goes_of_same rfl rfl rfl
  · have hunlock : Goes (s.ActsOn (.release session handle)) s.sessions.contains (.start s) t :=
      Turn.goes_unlock (t := .start s) hx hu (.inl ⟨rfl, rfl⟩)
    have hsame : (t.onSessions fun r => r.unhold session handle).state.sessions.contains =
        s.sessions.contains := by
      show (t.state.sessions.unhold session handle).contains = _
      rw [hu.sessions]
      exact funext Sessions.sameButHeld_unhold.contains
    have hpump : Goes (s.ActsOn (.release session handle)) _ _ _ :=
      (t.onSessions fun r => r.unhold session handle).goes_pump handle
    have hunhold : Goes (s.ActsOn (.release session handle)) s.sessions.contains t
        (t.onSessions fun r => r.unhold session handle) := Turn.goes_of_same rfl rfl rfl
    rw [hsame] at hpump
    rw [heq]
    exact hunlock.trans (hunhold.trans hpump)

theorem goes_cancel (s : State ρ) (session handle : Nat) :
    Goes (s.ActsOn (.cancel session handle)) s.sessions.contains (.start s)
      (s.cancel session handle).2 := by
  rcases s.cancel_cases session handle with ⟨-, heq⟩ | ⟨x, t, hx, hw, heq⟩
  · rw [heq]
    exact Turn.goes_of_same rfl rfl rfl
  · have hwithdraw : Goes (s.ActsOn (.cancel session handle)) s.sessions.contains (.start s) t :=
      Turn.goes_withdraw (t := .start s) hx hw (.inl rfl) (.inl ⟨rfl, rfl⟩)
    have hpump : Goes (s.ActsOn (.cancel session handle)) _ _ _ := t.goes_pump handle
    rw [hw.sessions] at hpump
    rw [heq]
    exact hwithdraw.trans hpump

/-- A request is answered with one deed, or joins a queue with one. -/
theorem did_acquire (hs : Coherent [] lent s) (session handle : Nat) (mode : Mode)
    (tryOnly : Bool) (reply : ρ) :
    ∃ d : Deed ρ,
      Turn.Did (fun sid h => sid = session ∧ h = handle) s.sessions.contains (.start s) [d]
        (s.acquire session handle mode tryOnly reply).2 ∧
      ([d].filterMap Deed.request?).Sublist [(handle, ⟨session, mode, reply⟩)] ∧
      (([d].filterMap Deed.reply?).map (·.1)).Sublist [reply] ∧
      ((s.acquire session handle mode tryOnly reply).1 = .queued →
        d = .on handle (.joined ⟨session, mode, reply⟩)) ∧
      ∀ h sid, d ≠ .on h (.opened sid) := by
  have hr := s.requested_acquire session handle mode tryOnly reply
  generalize s.acquire session handle mode tryOnly reply = r at hr ⊢
  have hone : ∀ {d : Deed ρ}, d.Fits (fun sid h => sid = session ∧ h = handle) s.sessions.contains →
      ∀ e ∈ [d], e.Fits (fun sid h => sid = session ∧ h = handle) s.sessions.contains := by
    intro d hd e he
    rw [List.mem_singleton.1 he]
    exact hd
  cases hr with
  | refused checked =>
    refine ⟨.turnedAway reply _, ⟨.single (.turnedAway fun g => ?_), rfl, rfl, hone trivial⟩,
      List.nil_sublist _, .refl _, fun hq => ?_, fun h sid hd => ?_⟩
    · intro heq
      cases heq
    · cases hq
    · cases hd
  | denied checked blocked impatient =>
    refine ⟨.turnedAway reply .busy, ⟨.single (.turnedAway fun g => ?_), rfl, rfl, hone trivial⟩,
      List.nil_sublist _, .refl _, fun hq => ?_, fun h sid hd => ?_⟩
    · intro heq
      cases heq
    · cases hq
    · cases hd
  | granted checked alone admitted =>
    rename_i x
    obtain ⟨hx, hopened, hnew⟩ := of_checkRequest checked
    have hopener : session ∈ x.openers := ((hs.booked_nil hx).opener_iff session).2 hopened
    refine ⟨.on handle (.given ⟨session, mode, reply⟩ (x.grant session mode).generation),
      ⟨.single (.on (s := s.shelf) hx (.given alone admitted hopener hnew)), rfl, rfl,
        hone ⟨rfl, rfl⟩⟩,
      .refl _, .refl _, fun hq => ?_, fun h sid hd => ?_⟩
    · cases hq
    · cases hd
  | queued checked blocked patient =>
    rename_i x
    obtain ⟨hx, hopened, hnew⟩ := of_checkRequest checked
    have hopener : session ∈ x.openers := ((hs.booked_nil hx).opener_iff session).2 hopened
    refine ⟨.on handle (.joined ⟨session, mode, reply⟩),
      ⟨.single (.on (s := s.shelf) hx (.joined blocked hopener hnew)), rfl, rfl, hone ⟨rfl, rfl⟩⟩,
      .refl _, List.nil_sublist _, fun _ => rfl, fun h sid hd => ?_⟩
    cases hd

theorem carried_acquire (hs : Coherent [] lent s) (session handle : Nat) (mode : Mode)
    (tryOnly : Bool) (reply : ρ) :
    ∃ registered ds, s.Carried (.acquire session handle mode tryOnly reply) registered ds := by
  obtain ⟨d, hd, hrequest, hreply, hqueued, hopens⟩ :=
    did_acquire hs session handle mode tryOnly reply
  refine ⟨s.sessions.contains, [d], hd.mono fun _ _ ha => .inl ha, fun _ _ hc _ => hc, hrequest,
    hreply, fun hq => ?_,
    fun h sid hm => absurd (List.mem_singleton.1 hm).symm (hopens h sid)⟩
  exact ⟨handle, _, rfl, List.mem_singleton.2 (hqueued (Result.outcome.inj hq)).symm⟩

theorem carried_dispatch (hs : Coherent [] lent s) (session : Nat) (payload : Bytes)
    (reply : ρ) : ∃ registered ds, s.Carried (.dispatch session payload reply) registered ds := by
  rcases s.dispatch_cases session payload reply with ⟨request, mode, hr, heq⟩ | ⟨fault, hr, heq⟩
  · obtain ⟨d, hd, hrequest, hreply, hqueued, hopens⟩ :=
      did_acquire hs session request.handle.toNat mode request.tryOnly reply
    rw [← heq] at hd hqueued
    have hacts : ∀ sid h, sid = session ∧ h = request.handle.toNat →
        s.ActsOn (.dispatch session payload reply) sid h := fun sid h ha =>
      .inl ⟨ha.1, request, mode, hr, ha.2⟩
    have hop : (Operation.dispatch session payload reply).request? =
        some (request.handle.toNat, ⟨session, mode, reply⟩) := by
      rw [Operation.request?, hr]
    refine ⟨s.sessions.contains, [d], hd.mono hacts, fun _ _ hc _ => hc, ?_, hreply, fun hq => ?_,
      fun h sid hm => absurd (List.mem_singleton.1 hm).symm (hopens h sid)⟩
    · rw [hop]
      exact hrequest
    · exact ⟨_, _, hop, List.mem_singleton.2 (hqueued (Result.outcome.inj hq)).symm⟩
  · refine ⟨s.sessions.contains, [.turnedAway reply (.malformed fault)], ⟨?_, ?_, ?_, ?_⟩,
      fun _ _ hc _ => hc, List.nil_sublist _, .refl _, fun hq => ?_, fun h sid hm => ?_⟩
    · show Course s.shelf _ (s.dispatch session payload reply).2.state.shelf
      rw [heq]
      refine .single (.turnedAway fun g hg => ?_)
      cases hg
    · show (s.dispatch session payload reply).2.events = _
      rw [heq]
      rfl
    · show (s.dispatch session payload reply).2.answers = _
      rw [heq]
      rfl
    · intro d hd
      rw [List.mem_singleton.1 hd]
      trivial
    · have hq : (s.dispatch session payload reply).1 = .queued := Result.outcome.inj hq
      rw [heq] at hq
      cases hq
    · cases List.mem_singleton.1 hm

/-- Every operation is carried out by way of deeds. -/
theorem carried_perform (hs : Coherent [] lent s) (op : Operation ρ) :
    ∃ registered ds, s.Carried op registered ds := by
  have hall : ∀ sid handle, s.sessions.contains sid = true → ¬ s.ActsOn op sid handle →
      s.sessions.contains sid = true := fun _ _ hc _ => hc
  cases op with
  | createSession now =>
    refine Carried.of_goes (Turn.goes_of_same rfl rfl rfl) hall fun h => ?_
    cases h
  | renew session now =>
    refine Carried.of_goes (Turn.goes_of_same rfl rfl rfl) hall fun h => ?_
    cases h
  | closeSession session =>
    obtain ⟨registered, hg, hstays⟩ := goes_closeSession hs session
    refine Carried.of_goes hg (fun sid _ hc hnot => hstays sid hc fun heq => hnot (.inl heq)) ?_
    intro h
    cases h
  | openHandle session name => exact carried_openHandle hs session name
  | closeHandle session handle =>
    refine Carried.of_goes (goes_closeHandle hs session handle) hall fun h => ?_
    cases h
  | acquire session handle mode tryOnly reply =>
    exact carried_acquire hs session handle mode tryOnly reply
  | dispatch session payload reply => exact carried_dispatch hs session payload reply
  | release session handle =>
    refine Carried.of_goes (s.goes_release session handle) hall fun h => ?_
    cases h
  | cancel session handle =>
    refine Carried.of_goes (s.goes_cancel session handle) hall fun h => ?_
    cases h
  | expire now =>
    refine Carried.of_goes (goes_expire hs now) ?_ fun h => ?_
    · intro sid handle hc hnot
      rw [contains_unregister, hc, Bool.and_true, Bool.not_eq_true', ← Bool.not_eq_true]
      intro hl
      obtain ⟨o, ho, hl⟩ := contains_lapsed.1 hl
      exact hnot (.inr ⟨now, o, rfl, ho, of_decide_eq_true hl⟩)
    · cases h

end State

end LeaseLock.Coordinator
