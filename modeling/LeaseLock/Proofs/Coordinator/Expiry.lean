import LeaseLock.Proofs.Coordinator.Sweep

/-
  LeaseLock: what the end of leases tells everyone.
  Besides the state that a sweep leaves (`Sweep`), this is about its answers and its events: who
  is told what, who is given a lock, and which locks each lapsed session is said to have held.
  `swept_after` puts it all together for every state that a run can reach.
-/

namespace LeaseLock.Coordinator

/-- The session whose lease has ended and the locks that it held, if the event tells of that. -/
def LockEvent.expired? : LockEvent → Option (Nat × List Nat)
  | .expired sid locks => some (sid, locks)
  | _ => none

variable {ρ : Type} {s : State ρ} {t : Turn ρ} {owed : List (Nat × Nat)} {lent : Nat → Nat → Prop}

/-! ## Who is given a lock -/

/-- Whoever has been given a lock in this turn satisfies `p`. -/
def Turn.GivesOnly (t : Turn ρ) (p : Nat → Bool) : Prop :=
  ∀ h sid mode generation, .acquired h sid mode generation ∈ t.events → p sid = true

/-- Only registered sessions are given locks when a session is taken out of a handle. -/
theorem Turn.GivesOnly.detach (hg : t.GivesOnly t.state.sessions.contains) (d h : Nat)
    (reason : ReleaseReason) :
    (t.detach h d reason).2.GivesOnly t.state.sessions.contains := by
  cases hx : t.state.handle? h with
  | none =>
    rw [detach_of_none hx]
    exact hg
  | some x =>
    have hr := detached_detach hx d reason
    intro j sid mode generation he
    rw [hr.events, List.mem_append, List.mem_append] at he
    rcases he with (he | he) | he
    · exact hg j sid mode generation he
    · split at he
      · cases List.mem_singleton.1 he
      · cases he
    · obtain ⟨a, ha, heq⟩ := List.mem_filterMap.1 he
      have hreg := Handle.registered_of_serve (h := x.drop d) ha
      cases a with
      | granted w g =>
        cases heq
        exact hreg
      | lapsed w => cases heq

theorem Turn.GivesOnly.expireAll (hg : t.GivesOnly t.state.sessions.contains)
    (gone : List (Nat × Session)) :
    (t.expireAll gone).GivesOnly t.state.sessions.contains := by
  have key : (t.expireAll gone).state.sessions.contains = t.state.sessions.contains ∧
      (t.expireAll gone).GivesOnly t.state.sessions.contains := by
    refine expireAll_induction (P := fun _ t' =>
      t'.state.sessions.contains = t.state.sessions.contains ∧
        t'.GivesOnly t.state.sessions.contains) ?_ ?_ gone ⟨rfl, hg⟩
    · rintro d h _ t' ⟨hreg, hg⟩
      rw [← hreg] at hg ⊢
      exact ⟨funext (t'.sessions_detach d h _).contains, hg.detach d h _⟩
    · rintro _ t' d released ⟨hreg, hg⟩
      refine ⟨hreg, fun h sid mode generation he => ?_⟩
      rcases List.mem_append.1 he with he | he
      · exact hg h sid mode generation he
      · cases List.mem_singleton.1 he
  exact key.2

/-! ## What lapsed sessions are said to have held -/

theorem Turn.expired_detach (t : Turn ρ) (d h : Nat) (reason : ReleaseReason) :
    (t.detach h d reason).2.events.filterMap LockEvent.expired? =
      t.events.filterMap LockEvent.expired? := by
  cases hx : t.state.handle? h with
  | none => rw [detach_of_none hx]
  | some x =>
    have hr := detached_detach hx d reason
    have hgrants : ((t.expelled x d).1.filterMap (Handle.Admission.event? h)).filterMap
        LockEvent.expired? = [] := by
      rw [List.filterMap_filterMap, List.filterMap_eq_nil_iff]
      intro a _
      cases a <;> rfl
    rw [hr.events, List.filterMap_append, List.filterMap_append, hgrants, List.append_nil]
    split
    · exact List.append_nil _
    · exact List.append_nil _

theorem Turn.expired_detachAll (t : Turn ρ) (d : Nat) (reason : ReleaseReason)
    (handles : List Nat) :
    (t.detachAll d reason handles).2.events.filterMap LockEvent.expired? =
      t.events.filterMap LockEvent.expired? :=
  detachAll_induction
    (P := fun _ t' =>
      t'.events.filterMap LockEvent.expired? = t.events.filterMap LockEvent.expired?)
    (fun h _ t' ht => (t'.expired_detach d h reason).trans ht) handles [] rfl

/-- A session that is taken out of its handles is found to hold the locks that it held when it left
the registry. -/
theorem Coherent.released_detachAll {d : Nat} {held : IdSet} (reason : ReleaseReason)
    (handles : List Nat) (hs : Coherent (handles.map (d, ·) ++ owed) lent t.state)
    (hd : t.state.sessions.contains d = false) (hlent : ∀ h, lent d h ↔ h ∈ held) :
    (t.detachAll d reason handles).1 = handles.filter held.contains := by
  induction handles generalizing t with
  | nil => rfl
  | cons h rest ih =>
    rw [List.map_cons, List.cons_append] at hs
    obtain ⟨x, hx⟩ := hs.exists_handle d h (.inr List.mem_cons_self)
    have hr := Turn.detached_detach hx d reason
    have hreleased : (t.detach h d reason).1 = held.contains h := by
      rw [hr.released, Bool.eq_iff_iff]
      refine ((hs.booked h x hx).holder_iff d).trans ?_
      have hnot : ¬ t.state.sessions.Held d h := fun hh => by
        rw [hh.contains] at hd
        cases hd
      have howed : (d, h) ∈ (d, h) :: (rest.map (d, ·) ++ owed) := List.mem_cons_self
      rw [State.Holds, iff_false_intro hnot, false_or, and_iff_right howed]
      exact hlent h
    have hd' : (t.detach h d reason).2.state.sessions.contains d = false :=
      (hr.sessions.contains d).trans hd
    have hrest := ih (hs.detach reason) hd'
    unfold Turn.detachAll
    dsimp only
    rw [hreleased, hrest]
    cases hh : held.contains h with
    | true =>
      rw [List.filter_cons_of_pos hh]
      rfl
    | false =>
      have hh' : ¬ held.contains h = true := ne_true_of_eq_false hh
      rw [List.filter_cons_of_neg hh']
      rfl

theorem Turn.expired_expireAll (gone : List (Nat × Session))
    (hs : Coherent (owes gone) lent t.state)
    (hout : ∀ e ∈ gone, t.state.sessions.contains e.1 = false)
    (hlent : ∀ e ∈ gone, ∀ h, lent e.1 h ↔ h ∈ e.2.held)
    (hsub : ∀ e ∈ gone, ∀ h, h ∈ e.2.held → h ∈ e.2.opened) :
    (t.expireAll gone).events.filterMap LockEvent.expired? =
      t.events.filterMap LockEvent.expired? ++ gone.map fun e => (e.1, e.2.held.keys) := by
  induction gone generalizing t with
  | nil => exact (List.append_nil _).symm
  | cons e rest ih =>
    obtain ⟨d, o⟩ := e
    have hfirst : ((d, o) : Nat × Session) ∈ (d, o) :: rest := List.mem_cons_self
    have hreleased := hs.released_detachAll .sessionExpired o.opened.keys (hout _ hfirst)
      (hlent _ hfirst)
    have hkeys : o.opened.keys.filter o.held.contains = o.held.keys := by
      rw [← Table.keys_filterKeys]
      congr 1
      refine IdSet.ext fun h => ?_
      rw [Table.mem_filterKeys]
      exact and_iff_left_of_imp (hsub _ hfirst h)
    have hcontains : (t.detachAll d .sessionExpired o.opened.keys).2.state.sessions.contains =
        t.state.sessions.contains :=
      funext (t.sessions_detachAll d .sessionExpired o.opened.keys).contains
    rw [hkeys] at hreleased
    unfold expireAll
    dsimp only
    rw [ih]
    · rw [hreleased, emit, List.filterMap_append, expired_detachAll, List.append_assoc]
      rfl
    · exact hs.detachAll .sessionExpired o.opened.keys
    · intro e he
      show (t.detachAll d .sessionExpired o.opened.keys).2.state.sessions.contains e.1 = false
      rw [hcontains]
      exact hout e (List.mem_cons_of_mem _ he)
    · exact fun e he => hlent e (List.mem_cons_of_mem _ he)
    · exact fun e he => hsub e (List.mem_cons_of_mem _ he)

/-! ## The sweep -/

/-- What a sweep does to a state: it ends all lapsed sessions as if at once. -/
structure State.SweptAtOnce (s : State ρ) (now : Nat) : Prop where
  /-- It returns the registered sessions whose lease has ended. -/
  returned : ∀ sid, sid ∈ (s.expire now).1 ↔ ∃ o, s.sessions.get? sid = some o ∧ o.expiry ≤ now
  /-- It returns them in ascending order. -/
  ascending : (s.expire now).1.Pairwise (· < ·)
  /-- It leaves what remains if they are struck off everything in one stroke and every handle that
  is left is served once, in any order. -/
  at_once : ∀ handles : List Nat, handles.Perm (s.strike (s.hasLapsed now)).handles.keys →
    (s.expire now).2.state.Alike
      ((Turn.start (s.strike (s.hasLapsed now))).pumpAll handles).state
  /-- It leaves what remains if they are taken out of their handles one by one, in any order. -/
  any_order : ∀ pairs : List (Nat × Nat), pairs.Perm (Turn.owes (s.lapsed now)) →
    (s.expire now).2.state.Alike
      ((Turn.start (s.unregister (s.expire now).1)).detachEach .sessionExpired pairs).state
  /-- It answers the requests that leave a queue, and nobody else: those of lapsed sessions are
  refused because their own session has expired, all others are granted. -/
  answered : ∃ out, Departed out (.start s) (s.expire now).2 ∧
    ∀ d ∈ out, if s.hasLapsed now d.waiter.session
      then d.answer = .refused (.sessionExpired d.waiter.session)
      else ∃ generation, d.answer = .granted generation
  /-- No request of a lapsed session is left. -/
  cleared : ∀ p ∈ (s.expire now).2.state.queue, s.hasLapsed now p.2.session = false
  /-- No lapsed session is given a lock. -/
  granted : ∀ h sid mode generation, .acquired h sid mode generation ∈ (s.expire now).2.events →
    s.hasLapsed now sid = false
  /-- Of each lapsed session it is told once which locks it held, in ascending order. -/
  told : (s.expire now).2.events.filterMap LockEvent.expired? =
    (s.lapsed now).map fun e => (e.1, e.2.held.keys)
  /-- The locks that it is told of are those that the session held before the sweep. -/
  held : ∀ sid released, .expired sid released ∈ (s.expire now).2.events →
    released.Pairwise (· < ·) ∧
      ∀ h, h ∈ released ↔ ∃ o, s.sessions.get? sid = some o ∧ h ∈ o.held

theorem State.hasLapsed_eq_true {now sid : Nat} :
    s.hasLapsed now sid = true ↔ ∃ o, s.sessions.get? sid = some o ∧ o.expiry ≤ now := by
  unfold hasLapsed
  rw [Option.any_eq_true]
  simp only [Session.lapsed, decide_eq_true_eq]

/-- After the sweep those sessions are registered that were and have not lapsed. -/
theorem State.contains_unregister_lapsed (now sid : Nat) :
    (s.unregister ((s.lapsed now).map (·.1))).sessions.contains sid =
      (!s.hasLapsed now sid && s.sessions.contains sid) := by
  rw [contains_unregister, s.contains_lapsed_eq]

/-- The requests that leave a queue in a sweep, and what they are told. -/
theorem Coherent.departed_expire (hs : Coherent [] lent s) (now : Nat) :
    ∃ out, Departed out (.start s) (s.expire now).2 ∧
      ∀ d ∈ out, if s.hasLapsed now d.waiter.session
        then d.answer = .refused (.sessionExpired d.waiter.session)
        else ∃ generation, d.answer = .granted generation := by
  obtain ⟨out, hout, hswept⟩ := (cascade_expire hs now).departed
  refine ⟨out, { hout with }, fun d hd => ?_⟩
  have hplace : d.place ∈ s.queue :=
    hout.queue.mem_iff.2 (List.mem_append_left _ (List.mem_map.2 ⟨d, hd, rfl⟩))
  have hreg : (Turn.start (s.unregister ((s.lapsed now).map (·.1)))).state.sessions.contains
      d.waiter.session = !s.hasLapsed now d.waiter.session := by
    have hc : s.sessions.contains d.waiter.session = true := hs.contains_of_mem_queue hplace
    refine (State.contains_unregister_lapsed now _).trans ?_
    rw [hc, Bool.and_true]
  have hd := hswept d hd
  unfold Departure.Swept Departure.Served at hd
  rw [hreg] at hd
  cases hl : s.hasLapsed now d.waiter.session with
  | true =>
    rw [hl] at hd
    simpa [Turn.farewell] using hd
  | false =>
    rw [hl] at hd
    simpa using hd

/-- The events of a sweep that tell of lapsed sessions. -/
theorem Coherent.expired_expire (hs : Coherent [] lent s) (now : Nat) :
    (s.expire now).2.events.filterMap LockEvent.expired? =
      (s.lapsed now).map fun e => (e.1, e.2.held.keys) := by
  refine Turn.expired_expireAll _ (hs.unregister_lapsed now) ?_ ?_ ?_
  · intro e he
    refine (State.contains_unregister_lapsed now e.1).trans ?_
    rw [State.hasLapsed_eq_true.2 ⟨e.2, by simpa [Session.lapsed] using State.mem_lapsed.1 he⟩]
    rfl
  · intro e he h
    exact Sessions.held_iff (State.mem_lapsed.1 he).1
  · intro e he h hh
    have hg := (State.mem_lapsed.1 he).1
    exact (Sessions.opened_iff hg).1 (hs.opened_of_held e.1 h ((Sessions.held_iff hg).2 hh))

theorem Coherent.sweptAtOnce (hs : Coherent [] lent s) (hset : s.Settled) (now : Nat) :
    s.SweptAtOnce now := by
  have hsweep := (Sweep.start hs hset now (.refl _)).expireAll (s.lapsed now)
  have hcascade := cascade_expire hs now
  refine {
    returned := fun sid => ?_
    ascending := ?_
    at_once := fun handles hp => ?_
    any_order := fun pairs hp => ?_
    answered := ?_
    cleared := fun p hp => ?_
    granted := fun h sid mode generation he => ?_
    told := ?_
    held := fun sid released he => ?_ }
  · rw [← State.hasLapsed_eq_true, ← s.contains_lapsed_eq, List.contains_iff_mem]
    rfl
  · show ((s.lapsed now).map (·.1)).Pairwise (· < ·)
    rw [List.pairwise_map]
    exact s.pairwise_lapsed now
  · exact { hsweep.alike_strike hs hp with }
  · exact { hsweep.alike ((Sweep.start hs hset now hp).detachEach _ pairs) with }
  · exact hs.departed_expire now
  · have hp := hcascade.coherent.contains_of_mem_queue hp
    rw [hcascade.registered] at hp
    have hp := (State.contains_unregister_lapsed now _).symm.trans hp
    rw [Bool.and_eq_true, Bool.not_eq_true'] at hp
    exact hp.1
  · have hgives : (Turn.start (s.unregister ((s.lapsed now).map (·.1)))).GivesOnly
        (s.unregister ((s.lapsed now).map (·.1))).sessions.contains := fun _ _ _ _ he => by cases he
    have hreg := hgives.expireAll (s.lapsed now) h sid mode generation he
    have hreg := (State.contains_unregister_lapsed now _).symm.trans hreg
    rw [Bool.and_eq_true, Bool.not_eq_true'] at hreg
    exact hreg.1
  · exact hs.expired_expire now
  · have hm : (sid, released) ∈ (s.expire now).2.events.filterMap LockEvent.expired? :=
      List.mem_filterMap.2 ⟨_, he, rfl⟩
    rw [hs.expired_expire now] at hm
    obtain ⟨⟨d, o⟩, hlapsed, heq⟩ := List.mem_map.1 hm
    obtain ⟨rfl, rfl⟩ := Prod.mk.inj heq
    refine ⟨Table.keys_ascending _, fun h => ?_⟩
    rw [Table.mem_keys_iff]
    exact (Sessions.held_iff (State.mem_lapsed.1 hlapsed).1).symm

/-- In whatever state a run has led to, the end of leases takes effect as if at once. -/
theorem swept_after (lease : Nat) (ops : List (Operation ρ)) (now : Nat) :
    ((State.empty lease).after ops).SweptAtOnce now :=
  (coherent_after lease ops).sweptAtOnce (settled_after lease ops) now

end LeaseLock.Coordinator
