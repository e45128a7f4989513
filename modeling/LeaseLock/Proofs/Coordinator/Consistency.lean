import LeaseLock.Proofs.Coordinator.Coherence
import LeaseLock.Proofs.Coordinator.Operation

/-
  LeaseLock: the coordinator stays consistent.
  Every operation keeps the books coherent with nothing owed (`Coherent.perform`), hence every
  run does.  `State.Consistent` spells out what that means for the holders, the openers, the
  queues and the names; `consistent_after` says it of every state that a list of operations leads
  to.
-/

namespace LeaseLock.Coordinator

variable {ρ : Type}

/-! ## Runs -/

/-- The state after operations, carried out one after another. -/
def State.after (s : State ρ) (ops : List (Operation ρ)) : State ρ :=
  ops.foldl (fun s op => (s.perform op).2.state) s

/-- What the start has and every operation keeps holds after every run. -/
theorem State.after_induction {P : State ρ → Prop} (lease : Nat) (start : P (.empty lease))
    (step : ∀ s op, P s → P (s.perform op).2.state) (ops : List (Operation ρ)) :
    P ((State.empty lease).after ops) := by
  have key : ∀ s, P s → P (s.after ops) := by
    induction ops with
    | nil => exact fun _ hs => hs
    | cons op rest ih => exact fun s hs => ih _ (step s op hs)
  exact key _ start

/-! ## The start -/

variable {owed : List (Nat × Nat)} {lent : Nat → Nat → Prop} {s : State ρ} {t : Turn ρ}

theorem coherent_empty (lease : Nat) : Coherent [] lent (State.empty lease : State ρ) where
  booked := fun h x hx => by cases hx
  exists_handle := fun sid h ho => by
    rw [State.opens_nil] at ho
    obtain ⟨o, hs, -⟩ := ho
    cases hs
  opened_of_held := fun sid h hh => by
    obtain ⟨o, hs, -⟩ := hh
    cases hs
  not_opened := fun sid h hm => by simp at hm
  owed_alone := fun sid h hm => by simp at hm
  owed_once := List.nodup_nil
  named := fun n h => by
    constructor
    · intro hn
      cases hn
    · rintro ⟨x, hx, -⟩
      cases hx
  handle_lt := fun h x hx => by cases hx
  session_lt := fun sid hc => by cases hc

namespace Coherent

/-! ## Sessions -/

/-- Changes of the registry that leave open and held what was. -/
theorem reregister_nil (hs : Coherent [] lent s) {r : Sessions}
    (hopened : ∀ sid h, r.Opened sid h ↔ s.sessions.Opened sid h)
    (hheld : ∀ sid h, r.Held sid h ↔ s.sessions.Held sid h)
    (hlt : ∀ sid, r.contains sid = true → sid < r.nextId) :
    Coherent [] lent { s with sessions := r } := by
  refine hs.reregister ?_ ?_ ?_ ?_ ?_ List.nodup_nil hlt
  · intro sid h
    rw [State.opens_nil, State.opens_nil]
    exact hopened sid h
  · intro sid h
    rw [State.holds_nil, State.holds_nil]
    exact hheld sid h
  · intro sid h hh
    rw [hopened]
    exact hs.opened_of_held sid h ((hheld sid h).1 hh)
  · intro sid h hm
    simp at hm
  · intro sid h hm
    simp at hm

theorem next_not_registered (hs : Coherent owed lent s) :
    s.sessions.contains s.sessions.nextId = false := by
  rw [← Bool.not_eq_true]
  intro hc
  exact Nat.lt_irrefl _ (hs.session_lt _ hc)

theorem createSession (hs : Coherent [] lent s) (now : Nat) :
    Coherent [] lent (s.createSession now).2 := by
  show Coherent [] lent { s with sessions := (s.sessions.create now).2 }
  refine hs.reregister_nil (fun sid h => Sessions.opened_create hs.next_not_registered)
    (fun sid h => Sessions.held_create hs.next_not_registered) ?_
  intro sid hc
  rw [Sessions.nextId_create]
  rcases Sessions.contains_create hc with rfl | hc
  · exact Nat.lt_succ_self _
  · exact Nat.lt_succ_of_lt (hs.session_lt sid hc)

theorem renew (hs : Coherent [] lent s) (session now : Nat) :
    Coherent [] lent (s.renew session now).2 := by
  show Coherent [] lent { s with sessions := (s.sessions.renew session now).2 }
  refine hs.reregister_nil (fun sid h => Sessions.opened_renew now)
    (fun sid h => Sessions.held_renew now) ?_
  intro sid hc
  have hold : s.sessions.contains sid = true := (Sessions.contains_renew now).symm.trans hc
  rw [Sessions.nextId_renew]
  exact hs.session_lt sid hold

/-- Sessions leave the registry; what they had open is owed from now on. -/
theorem unregister (hs : Coherent [] lent s) (stays : Nat → Bool)
    (howed : ∀ sid h, (sid, h) ∈ owed ↔ stays sid = false ∧ s.sessions.Opened sid h)
    (honce : owed.Nodup) :
    Coherent owed s.sessions.Held
      { s with sessions := { s.sessions with table := s.sessions.table.filterKeys stays } } := by
  refine hs.reregister ?_ ?_ ?_ ?_ ?_ honce ?_
  · intro sid h
    rw [State.opens_nil, State.Opens, howed, Sessions.opened_filterKeys]
    cases stays sid <;> simp
  · intro sid h
    rw [State.holds_nil, State.Holds, howed, Sessions.held_filterKeys]
    have hho := hs.opened_of_held sid h
    cases stays sid <;> simp_all
  · intro sid h hh
    rw [Sessions.held_filterKeys] at hh
    rw [Sessions.opened_filterKeys]
    exact ⟨hh.1, hs.opened_of_held sid h hh.2⟩
  · intro sid h hm ho
    rw [Sessions.opened_filterKeys] at ho
    rw [howed, ho.1] at hm
    exact absurd hm.1 Bool.false_ne_true.symm
  · intro sid h hm hc
    rw [Sessions.contains_filterKeys, ((howed sid h).1 hm).1, Bool.false_and] at hc
    exact absurd hc Bool.false_ne_true
  · intro sid hc
    rw [Sessions.contains_filterKeys, Bool.and_eq_true] at hc
    exact hs.session_lt sid hc.2

/-! ## Cascades -/

theorem detach {d h : Nat} (hs : Coherent ((d, h) :: owed) lent t.state) (reason : ReleaseReason) :
    Coherent owed lent (t.detach h d reason).2.state := by
  obtain ⟨x, hx⟩ := hs.exists_handle d h (.inr List.mem_cons_self)
  exact hs.of_detached hx (Turn.detached_detach hx d reason)

theorem detachAll {d : Nat} (reason : ReleaseReason) (handles : List Nat)
    (hs : Coherent (handles.map (d, ·) ++ owed) lent t.state) :
    Coherent owed lent (t.detachAll d reason handles).2.state :=
  Turn.detachAll_induction (P := fun owed t => Coherent owed lent t.state)
    (fun _ _ _ h => h.detach reason) handles owed hs

theorem expireAll (gone : List (Nat × Session)) (hs : Coherent (Turn.owes gone) lent t.state) :
    Coherent [] lent (t.expireAll gone).state :=
  Turn.expireAll_induction (P := fun owed t => Coherent owed lent t.state)
    (fun _ _ _ _ h => h.detach _) (fun _ _ _ _ h => h) gone hs

/-- A session has left the registry, and is still to be taken out of its handles. -/
theorem unregister_session (hs : Coherent [] lent s) {session : Nat} {gone : Session}
    (hg : s.sessions.get? session = some gone) :
    Coherent (gone.opened.keys.map (session, ·)) s.sessions.Held
      { s with sessions := (s.sessions.remove session).2 } := by
  refine hs.unregister (fun sid => sid != session) ?_ ?_
  · intro sid h
    rw [List.mem_map, bne_eq_false_iff_eq]
    constructor
    · rintro ⟨j, hj, heq⟩
      obtain ⟨rfl, rfl⟩ := Prod.mk.inj heq
      exact ⟨rfl, (Sessions.opened_iff hg).2 (Table.mem_keys_iff.1 hj)⟩
    · rintro ⟨rfl, ho⟩
      exact ⟨h, Table.mem_keys_iff.2 ((Sessions.opened_iff hg).1 ho), rfl⟩
  · unfold List.Nodup
    rw [List.pairwise_map]
    exact (Table.nodup_keys gone.opened).imp fun hne heq => hne (Prod.mk.inj heq).2

theorem closeSession (hs : Coherent [] lent s) (session : Nat) :
    Coherent [] lent (s.closeSession session).2.state := by
  rcases s.closeSession_cases session with ⟨-, heq⟩ | ⟨gone, hg, heq⟩
  · rw [heq]
    exact hs
  · have hgone : Coherent (gone.opened.keys.map (session, ·) ++ []) s.sessions.Held
        { s with sessions := (s.sessions.remove session).2 } := by
      rw [List.append_nil]
      exact hs.unregister_session hg
    rw [heq]
    exact (detachAll (t := .start _) .sessionClosed _ hgone).relend lent

end Coherent

/-! ## Lapsed sessions -/

theorem State.mem_lapsed {now sid : Nat} {o : Session} :
    (sid, o) ∈ s.lapsed now ↔ s.sessions.get? sid = some o ∧ o.lapsed now = true := by
  rw [State.lapsed, List.mem_filter, Table.mem_entries_iff]
  rfl

theorem State.pairwise_lapsed (now : Nat) :
    (s.lapsed now).Pairwise fun a b => a.1 < b.1 :=
  s.sessions.table.ascending.filter _

theorem State.contains_lapsed {now sid : Nat} :
    ((s.lapsed now).map (·.1)).contains sid = true ↔
      ∃ o, s.sessions.get? sid = some o ∧ o.lapsed now = true := by
  rw [List.contains_iff_mem, List.mem_map]
  constructor
  · rintro ⟨⟨i, o⟩, hm, rfl⟩
    exact ⟨o, State.mem_lapsed.1 hm⟩
  · rintro ⟨o, ho⟩
    exact ⟨(sid, o), State.mem_lapsed.2 ho, rfl⟩

theorem State.mem_owes_lapsed {now sid h : Nat} : (sid, h) ∈ Turn.owes (s.lapsed now) ↔
    ((s.lapsed now).map (·.1)).contains sid = true ∧ s.sessions.Opened sid h := by
  rw [Turn.mem_owes, State.contains_lapsed]
  constructor
  · rintro ⟨o, hm, hh⟩
    have ho := State.mem_lapsed.1 hm
    exact ⟨⟨o, ho⟩, o, ho.1, hh⟩
  · rintro ⟨⟨o, ho⟩, o', hs, hh⟩
    rw [ho.1] at hs
    obtain rfl := Option.some.inj hs
    exact ⟨o, State.mem_lapsed.2 ho, hh⟩

theorem State.nodup_owes_lapsed (now : Nat) : (Turn.owes (s.lapsed now)).Nodup :=
  Turn.nodup_owes ((s.pairwise_lapsed now).imp fun h => Nat.ne_of_lt h)

namespace Coherent

/-- Lapsed sessions have left the registry, and are still to be taken out of their handles. -/
theorem unregister_lapsed (hs : Coherent [] lent s) (now : Nat) :
    Coherent (Turn.owes (s.lapsed now)) s.sessions.Held
      (s.unregister ((s.lapsed now).map (·.1))) := by
  refine hs.unregister (fun id => !((s.lapsed now).map (·.1)).contains id) ?_
    (s.nodup_owes_lapsed now)
  intro sid h
  rw [State.mem_owes_lapsed, Bool.not_eq_false']

theorem expire (hs : Coherent [] lent s) (now : Nat) :
    Coherent [] lent (s.expire now).2.state := by
  have hgone : Coherent [] s.sessions.Held
      ((Turn.start (s.unregister ((s.lapsed now).map (·.1)))).expireAll (s.lapsed now)).state :=
    expireAll _ (hs.unregister_lapsed now)
  have hcount := hgone.relend lent
  exact { hcount with }

/-! ## Handles -/

/-- A session gives up a handle, and is still to be taken out of it. -/
theorem giveUp (hs : Coherent [] lent s) {session handle : Nat}
    (hopened : s.sessions.Opened session handle) :
    Coherent [(session, handle)] s.sessions.Held
      { s with sessions := s.sessions.giveUp session handle } := by
  have hm : ∀ sid h, (sid, h) ∈ [(session, handle)] ↔ sid = session ∧ h = handle :=
    fun sid h => by rw [List.mem_singleton, Prod.mk.injEq]
  refine hs.reregister ?_ ?_ ?_ ?_ ?_ (by simp) ?_
  · intro sid h
    rw [State.opens_nil, State.Opens, hm, Sessions.opened_giveUp]
    by_cases heq : sid = session ∧ h = handle
    · obtain ⟨rfl, rfl⟩ := heq
      simp [hopened]
    · simp only [heq, or_false, and_iff_left_iff_imp]
      intro _ h1 h2
      exact heq ⟨h1, h2⟩
  · intro sid h
    rw [State.holds_nil, State.Holds, hm, Sessions.held_giveUp]
    by_cases heq : sid = session ∧ h = handle
    · obtain ⟨rfl, rfl⟩ := heq
      simp
    · simp only [heq, false_and, or_false, and_iff_left_iff_imp]
      intro _ h1 h2
      exact heq ⟨h1, h2⟩
  · intro sid h hheld
    rw [Sessions.held_giveUp] at hheld
    exact Sessions.opened_giveUp.2 ⟨hs.opened_of_held sid h hheld.1, hheld.2⟩
  · intro sid h hmem hop
    obtain ⟨h1, h2⟩ := (hm sid h).1 hmem
    exact (Sessions.opened_giveUp.1 hop).2 h1 h2
  · intro sid h hmem _
    rw [hm] at hmem
    rw [hmem.1, hmem.2]
  · intro sid hc
    rw [Sessions.contains_giveUp] at hc
    exact hs.session_lt sid hc

theorem closeHandle (hs : Coherent [] lent s) (session handle : Nat) :
    Coherent [] lent (s.closeHandle session handle).2.state := by
  rcases s.closeHandle_cases session handle with ⟨fault, heq⟩ | ⟨hopened, heq⟩
  · rw [heq]
    exact hs
  · rw [heq]
    exact (detach (t := .start _) (hs.giveUp hopened) .handleClosed).relend lent

/-- The handle of a name, `x`, exists.  It is an old one, or it is new and nobody has it open. -/
structure Ensured (s : State ρ) (e : Nat × State ρ) (x : Handle ρ) : Prop where
  handle? : ∀ j, e.2.handle? j = if j = e.1 then some x else s.handle? j
  wf : x.Wf
  opener_iff : ∀ sid, sid ∈ x.openers ↔ s.sessions.Opened sid e.1
  holder_iff : ∀ sid, sid ∈ x.holders ↔ s.sessions.Held sid e.1
  named : e.2.Named
  handle_lt : ∀ j z, e.2.handle? j = some z → j < e.2.nextHandle
  sessions : e.2.sessions = s.sessions

theorem next_handle_free (hs : Coherent owed lent s) : s.handle? s.nextHandle = none := by
  cases hx : s.handle? s.nextHandle with
  | none => rfl
  | some x => exact absurd (hs.handle_lt _ x hx) (Nat.lt_irrefl _)

theorem ensured_ensureHandle (hs : Coherent [] lent s) (name : String) :
    ∃ x, Ensured s (s.ensureHandle name) x := by
  unfold State.ensureHandle
  cases hn : s.named? name with
  | some id =>
    obtain ⟨x, hx, hxn⟩ := (hs.named name id).1 hn
    have hb := hs.booked_nil hx
    refine ⟨x, ?_, hb.wf, hb.opener_iff, hb.holder_iff, hs.named, hs.handle_lt, rfl⟩
    intro j
    dsimp only
    split
    · subst_vars
      exact hx
    · rfl
  | none =>
    have hfree := hs.next_handle_free
    have hunopened : ∀ sid, ¬ s.sessions.Opened sid s.nextHandle := by
      intro sid ho
      obtain ⟨x, hx⟩ := hs.handle_of_opened ho
      rw [hfree] at hx
      cases hx
    have hat : ∀ j, (s.handles.insert s.nextHandle (.fresh name)).get? j =
        if j = s.nextHandle then some (.fresh name) else s.handle? j := fun j =>
      Table.get?_insert _ _ _ _
    refine ⟨.fresh name, hat, Handle.wf_fresh name, ?_, ?_, hs.named.add hfree hn hat rfl, ?_, rfl⟩
    · intro sid
      exact iff_of_false (IdSet.not_mem_empty sid) (hunopened sid)
    · intro sid
      exact iff_of_false (Table.not_mem_empty sid) fun hh =>
        hunopened sid (hs.opened_of_held sid _ hh)
    · intro j z hz
      unfold State.handle? at hz
      dsimp only at hz ⊢
      rw [hat] at hz
      split at hz
      · rename_i hj
        rw [hj]
        exact Nat.lt_succ_self _
      · exact Nat.lt_succ_of_lt (hs.handle_lt j z hz)

theorem addOpener (hs : Coherent [] lent s) {e : Nat × State ρ} {x : Handle ρ} (he : Ensured s e x)
    {session : Nat} (hc : s.sessions.contains session = true) :
    Coherent [] lent (e.2.addOpener e.1 session) := by
  have hx : e.2.handle? e.1 = some x := (he.handle? e.1).trans (if_pos rfl)
  have hat : ∀ j, (e.2.addOpener e.1 session).handle? j =
      if j = e.1 then some { x with openers := IdSet.add x.openers session }
      else e.2.handle? j := by
    intro j
    have hget : e.2.handles.get? e.1 = some x := hx
    refine (Table.get?_modify _ _ _ _).trans ?_
    rw [hget]
    rfl
  have ho : ∀ sid j, (e.2.addOpener e.1 session).sessions.Opened sid j ↔
      s.sessions.Opened sid j ∨ sid = session ∧ j = e.1 := by
    intro sid j
    refine Sessions.opened_openHandle.trans ?_
    rw [he.sessions, hc]
    simp
  have hh : ∀ sid j, (e.2.addOpener e.1 session).sessions.Held sid j ↔
      s.sessions.Held sid j := by
    intro sid j
    refine Sessions.held_openHandle.trans ?_
    rw [he.sessions]
  have hins : ∀ j, (e.2.addOpener e.1 session).handle? j =
      if j = e.1 then some { x with openers := IdSet.add x.openers session }
      else s.handle? j := by
    intro j
    refine (hat j).trans ?_
    split
    · rfl
    · rename_i hj
      exact (he.handle? j).trans (if_neg hj)
  have hin : session ∈ IdSet.add x.openers session := IdSet.mem_add.2 (.inl rfl)
  have hnamed : (e.2.addOpener e.1 session).Named := he.named.replace hx hat rfl rfl
  refine hs.of_insert (h := e.1) hins ⟨he.wf.add_opener session, ⟨session, hin⟩, ?_, ?_⟩ ?_
    (fun sid j _ => hh sid j) hnamed ?_ ?_
  · intro sid
    rw [IdSet.mem_add, he.opener_iff, ho, or_comm]
    simp
  · intro sid
    rw [hh]
    exact he.holder_iff sid
  · intro sid j hj
    rw [ho]
    simp [hj]
  · intro j z hz
    rw [hat] at hz
    split at hz
    · rename_i hj
      rw [hj]
      exact he.handle_lt e.1 x hx
    · exact he.handle_lt j z hz
  · intro sid hcs
    have hcs := (Sessions.contains_modify _).symm.trans hcs
    rw [he.sessions] at hcs
    show sid < e.2.sessions.nextId
    rw [he.sessions]
    exact hs.session_lt sid hcs

theorem openHandle (hs : Coherent [] lent s) (session : Nat) (name : String) :
    Coherent [] lent (s.openHandle session name).2 := by
  rcases s.openHandle_cases session name with ⟨-, heq⟩ | ⟨hc, heq⟩
  · rw [heq]
    exact hs
  · rw [heq]
    obtain ⟨x, he⟩ := hs.ensured_ensureHandle name
    exact hs.addOpener he hc

/-! ## Locks -/

theorem pump (hs : Coherent [] lent t.state) (handle : Nat) :
    Coherent [] lent (t.pump handle).state := by
  cases hx : t.state.handle? handle with
  | none =>
    rw [Turn.pump_of_none hx]
    exact hs
  | some x =>
    have hp := Turn.pumped_pump hx
    have hb := hs.booked_nil hx
    refine hs.rehandle hx hp.handles hp.names hp.nextHandle hp.sessions hb.wf.pump
      (Handle.serve_name _) (Handle.serve_openers _) ?_ ?_
    · intro sid
      rw [hp.held]
      refine Handle.mem_holders_serve.trans ?_
      rw [hb.holder_iff]
      simp [Turn.served, Handle.pump]
    · intro sid j hj
      rw [hp.held]
      simp [hj]

theorem acquire (hs : Coherent [] lent s) (session handle : Nat) (mode : Mode) (tryOnly : Bool)
    (reply : ρ) : Coherent [] lent (s.acquire session handle mode tryOnly reply).2.state := by
  have hr := s.requested_acquire session handle mode tryOnly reply
  generalize s.acquire session handle mode tryOnly reply = r at hr ⊢
  cases hr with
  | refused checked => exact hs
  | denied checked blocked impatient => exact { hs with }
  | granted checked alone admitted =>
    rename_i x
    obtain ⟨hx, hopened, -⟩ := State.of_checkRequest checked
    have hb := hs.booked_nil hx
    have hheld : ∀ sid j, (s.sessions.hold session handle).Held sid j ↔
        s.sessions.Held sid j ∨ sid = session ∧ j = handle := fun sid j => by
      rw [Sessions.held_hold, hopened.contains]
      simp
    have hopener : session ∈ x.openers := (hb.opener_iff session).2 hopened
    have hnobody : ∀ w ∈ x.waiters, w.session ≠ session := by
      intro w hw
      rw [alone] at hw
      cases hw
    have hwf : (x.grant session mode).Wf := hb.wf.grant admitted hopener hnobody
    refine hs.rehandle hx rfl rfl rfl Sessions.sameButHeld_hold hwf rfl rfl ?_ ?_
    · intro sid
      rw [Handle.grant_holders, Table.mem_insert, hb.holder_iff, or_comm]
      refine Iff.trans ?_ (hheld sid handle).symm
      simp
    · intro sid j hj
      refine (hheld sid j).trans ?_
      simp [hj]
  | queued checked blocked patient =>
    rename_i x
    obtain ⟨hx, hopened, hinv⟩ := State.of_checkRequest checked
    have hb := hs.booked_nil hx
    have hopener : session ∈ x.openers := (hb.opener_iff session).2 hopened
    have hwf := hb.wf.enqueue (w := ⟨session, mode, reply⟩) hopener hinv
    exact hs.rehandle hx rfl rfl rfl (.refl _) hwf rfl rfl hb.holder_iff fun _ _ _ => .rfl

theorem dispatch (hs : Coherent [] lent s) (session : Nat) (payload : Bytes) (reply : ρ) :
    Coherent [] lent (s.dispatch session payload reply).2.state := by
  rcases s.dispatch_cases session payload reply with ⟨request, mode, -, heq⟩ | ⟨fault, -, heq⟩
  · rw [heq]
    exact hs.acquire session _ _ _ reply
  · rw [heq]
    exact { hs with }

theorem release (hs : Coherent [] lent s) (session handle : Nat) :
    Coherent [] lent (s.release session handle).2.state := by
  rcases s.release_cases session handle with ⟨-, fault, heq⟩ | ⟨x, t, hx, hu, heq⟩
  · rw [heq]
    exact hs
  · rw [heq]
    refine Coherent.pump ?_ handle
    have hb := hs.booked_nil hx
    have hheld : ∀ sid j, (t.state.sessions.unhold session handle).Held sid j ↔
        s.sessions.Held sid j ∧ (sid = session → j ≠ handle) := fun sid j => by
      rw [Sessions.held_unhold, hu.sessions]
      rfl
    have hsame : s.sessions.SameButHeld (t.state.sessions.unhold session handle) := by
      rw [hu.sessions]
      exact Sessions.sameButHeld_unhold
    have hwf := hb.wf.unlock session
    refine hs.rehandle hx hu.handles hu.names hu.nextHandle hsame hwf rfl rfl ?_ ?_
    · intro sid
      refine Iff.trans ?_ (hheld sid handle).symm
      rw [Table.mem_erase, hb.holder_iff]
      simp [and_comm]
    · intro sid j hj
      refine (hheld sid j).trans ?_
      simp [hj]

theorem cancel (hs : Coherent [] lent s) (session handle : Nat) :
    Coherent [] lent (s.cancel session handle).2.state := by
  rcases s.cancel_cases session handle with ⟨-, heq⟩ | ⟨x, t, hx, hw, heq⟩
  · rw [heq]
    exact hs
  · rw [heq]
    refine Coherent.pump ?_ handle
    have hb := hs.booked_nil hx
    have hsame : s.sessions.SameButHeld t.state.sessions := by
      rw [hw.sessions]
      exact .refl _
    have hwf := hb.wf.withdraw session
    refine hs.rehandle hx hw.handles hw.names hw.nextHandle hsame hwf rfl rfl ?_ ?_
    · intro sid
      rw [hw.sessions]
      exact hb.holder_iff sid
    · intro sid j _
      rw [hw.sessions]
      rfl

/-- Every operation keeps the books coherent. -/
theorem perform (hs : Coherent [] lent s) (op : Operation ρ) :
    Coherent [] lent (s.perform op).2.state := by
  cases op with
  | createSession now => exact hs.createSession now
  | renew session now => exact hs.renew session now
  | closeSession session => exact hs.closeSession session
  | openHandle session name => exact hs.openHandle session name
  | closeHandle session handle => exact hs.closeHandle session handle
  | acquire session handle mode tryOnly reply => exact hs.acquire session handle mode tryOnly reply
  | dispatch session payload reply => exact hs.dispatch session payload reply
  | release session handle => exact hs.release session handle
  | cancel session handle => exact hs.cancel session handle
  | expire now => exact hs.expire now

end Coherent

theorem coherent_after (lease : Nat) (ops : List (Operation ρ)) :
    Coherent [] (fun _ _ => False) ((State.empty lease).after ops) :=
  State.after_induction lease (coherent_empty lease) (fun _ op hs => hs.perform op) ops

/-! ## What a reader of the state sees -/

/-- The holders, the openers, the queues, the names and the ids of the coordinator fit. -/
structure State.Consistent (s : State ρ) : Prop where
  /-- All holders share a lock, or one holds it exclusively. -/
  exclusion : ∀ h x, s.handle? h = some x →
    (∀ sid mode, x.holders.get? sid = some mode → mode = .shared) ∨
      ∃ sid, x.holders.entries = [(sid, .exclusive)]
  /-- The holders of a handle are the registered sessions that are recorded to hold it. -/
  holder_iff : ∀ sid h, (∃ x, s.handle? h = some x ∧ sid ∈ x.holders) ↔
    ∃ o, s.sessions.get? sid = some o ∧ h ∈ o.held
  /-- The openers of a handle are the registered sessions that are recorded to have it open. -/
  opener_iff : ∀ sid h, (∃ x, s.handle? h = some x ∧ sid ∈ x.openers) ↔
    ∃ o, s.sessions.get? sid = some o ∧ h ∈ o.opened
  /-- Holders have the handle open. -/
  holder_opener : ∀ h x, s.handle? h = some x → ∀ sid, sid ∈ x.holders → sid ∈ x.openers
  /-- Waiters have the handle open. -/
  waiter_opener : ∀ h x, s.handle? h = some x → ∀ w ∈ x.waiters, w.session ∈ x.openers
  /-- Nobody holds a lock and waits for it. -/
  waiter_not_holder : ∀ h x, s.handle? h = some x → ∀ w ∈ x.waiters, w.session ∉ x.holders
  /-- Nobody waits twice for a handle. -/
  waits_once : ∀ h x, s.handle? h = some x → (x.waiters.map (·.session)).Nodup
  /-- Every handle has an opener. -/
  in_use : ∀ h x, s.handle? h = some x → ∃ sid, sid ∈ x.openers
  /-- A name leads to the handle that bears it, and every handle is found by its name. -/
  named_iff : ∀ n h, s.named? n = some h ↔ ∃ x, s.handle? h = some x ∧ x.name = n
  /-- Handle ids are below the next one. -/
  handle_lt : ∀ h x, s.handle? h = some x → h < s.nextHandle
  /-- Session ids are below the next one. -/
  session_lt : ∀ sid o, s.sessions.get? sid = some o → sid < s.sessions.nextId

theorem Coherent.consistent (hs : Coherent [] lent s) : s.Consistent where
  exclusion := fun h x hx => (hs.booked_nil hx).wf.exclusion
  holder_iff := fun sid h => by
    constructor
    · rintro ⟨x, hx, hm⟩
      exact ((hs.booked_nil hx).holder_iff sid).1 hm
    · intro hh
      obtain ⟨x, hx⟩ := hs.handle_of_opened (hs.opened_of_held sid h hh)
      exact ⟨x, hx, ((hs.booked_nil hx).holder_iff sid).2 hh⟩
  opener_iff := fun sid h => by
    constructor
    · rintro ⟨x, hx, hm⟩
      exact ((hs.booked_nil hx).opener_iff sid).1 hm
    · intro ho
      obtain ⟨x, hx⟩ := hs.handle_of_opened ho
      exact ⟨x, hx, ((hs.booked_nil hx).opener_iff sid).2 ho⟩
  holder_opener := fun h x hx => (hs.booked_nil hx).wf.holder_opener
  waiter_opener := fun h x hx => (hs.booked_nil hx).wf.waiter_opener
  waiter_not_holder := fun h x hx => (hs.booked_nil hx).wf.waiter_not_holder
  waits_once := fun h x hx => (hs.booked_nil hx).wf.waits_once
  in_use := fun h x hx => (hs.booked_nil hx).in_use
  named_iff := hs.named
  handle_lt := hs.handle_lt
  session_lt := fun sid o ho => hs.session_lt sid (Sessions.contains_iff.2 ⟨o, ho⟩)

/-- Whatever operations have been carried out, the coordinator is consistent. -/
theorem consistent_after (lease : Nat) (ops : List (Operation ρ)) :
    ((State.empty lease).after ops).Consistent :=
  (coherent_after lease ops).consistent

end LeaseLock.Coordinator
