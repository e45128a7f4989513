import LeaseLock.Proofs.Service.Scene
import LeaseLock.Server

/-
  LeaseLock: lapsed sessions do not linger.
  The service looks for lapsed leases again and again, by a timer that each look schedules anew.
  Two things can go wrong.  If the first timer fires before the start of the service has stored its
  id, it is taken for a stranger's, and nobody looks for lapsed leases any more.  And a look reads
  the clock twice: if it moves in between, the next look is late by that much.  But for the first,
  exactly one timer of the service is on its way at every moment (`Tended`), and no lease ends
  earlier than the last look; so when the loop has nothing to do, no session is left whose lease
  ended a whole interval before, unless the clock moved within that look
  (`sessions_do_not_linger`).
-/

namespace LeaseLock.Service

open Reactor Coordinator

variable {κ η τ : Type} {w : Wiring κ η State τ LockEvent} {me : η} {m m' : Loop κ η τ}
  {looked id deadline floor : Nat}

/-! ## The service's timer -/

/-- A look at the instant `looked` has left no lease that had ended, and none has been started
before. -/
structure Upheld (looked : Nat) (m : Loop κ η τ) : Prop where
  past : looked ≤ m.clock
  leases : m.world.coordinator.LeasesFrom looked

/-- The timer `id` of the service, which is due at `deadline`, is the only one of the service that
is pending. -/
structure Booked (me : η) (looked id deadline : Nat) (m : Loop κ η τ) : Prop where
  alone : ∀ id' d, m.timers.Pending id' d me ↔ id' = id ∧ d = deadline
  spaced : looked + m.world.sweepInterval ≤ deadline
  soon : deadline ≤ m.clock + m.world.sweepInterval

/-- A program is about to schedule the timer for the next look. -/
inductive Plan (me : η) (looked : Nat) (m : Loop κ η τ) : Activity κ η Unit → Prop
  | schedule : Plan me looked m (scheduleSweep me)
  | planning : Plan me looked m (planning me m.world.sweepInterval)
  | booking {deadline : Nat} (spaced : looked + m.world.sweepInterval ≤ deadline)
    (soon : deadline ≤ m.clock + m.world.sweepInterval) : Plan me looked m (booking me deadline)

namespace Upheld

theorem apart (h : Upheld looked m) (ha : Apart me floor m m') (hfloor : looked ≤ floor) :
    Upheld looked m' where
  past := Nat.le_trans h.past ha.clock
  leases := by
    obtain ⟨ops, hops, hcoordinator⟩ := ha.world.ops
    rw [hcoordinator]
    exact h.leases.after hops hfloor

end Upheld

theorem Booked.apart (h : Booked me looked id deadline m) (ha : Apart me floor m m') :
    Booked me looked id deadline m' where
  alone := fun id' d => (ha.pending id' d).trans (h.alone id' d)
  spaced := by
    rw [ha.world.sweepInterval]
    exact h.spaced
  soon := by
    rw [ha.world.sweepInterval]
    exact Nat.le_trans h.soon (Nat.add_le_add_right ha.clock _)

namespace Plan

variable {p : Activity κ η Unit}

/-- The settings are the same, and the clock has not gone back. -/
theorem later (h : Plan me looked m p) (hclock : m.clock ≤ m'.clock)
    (hinterval : m'.world.sweepInterval = m.world.sweepInterval) : Plan me looked m' p := by
  cases h with
  | schedule => exact .schedule
  | planning =>
    rw [← hinterval]
    exact .planning
  | booking spaced soon =>
    rw [← hinterval] at spaced soon
    exact .booking spaced (Nat.le_trans soon (Nat.add_le_add_right hclock _))

theorem apart (h : Plan me looked m p) (ha : Apart me floor m m') : Plan me looked m' p :=
  h.later ha.clock ha.world.sweepInterval

theorem not_ended (h : Plan me looked m p) : p.ended = false := by
  cases h <;> rfl

/-- A pace goes on with the plan, or the timer is scheduled. -/
theorem pace (h : Plan me looked m p) (hq : m.timers.Wf) (hpast : looked ≤ m.clock)
    (hnone : ∀ id d, ¬ m.timers.Pending id d me)
    (htime : m.clock + m.world.sweepInterval < Time.limit) :
    let m' := (m.pace w p).2
    m'.timers.Wf ∧ m'.clock = m.clock ∧ m'.world = m.world ∧
      ((Plan me looked m' (m.pace w p).1 ∧ m'.timers = m.timers) ∨
        ∃ id deadline, (m.pace w p).1 = store id ∧ Booked me looked id deadline m') := by
  cases h with
  | schedule => exact ⟨hq, rfl, rfl, .inl ⟨.planning, rfl⟩⟩
  | planning =>
    rw [pace_planning htime]
    exact ⟨hq, rfl, rfl, .inl ⟨.booking (Nat.add_le_add_right hpast _) (Nat.le_refl _), rfl⟩⟩
  | @booking deadline spaced soon =>
    have htraced := m.traced_schedule deadline me
    have hpruned := m.timers.trimmed_prune
    have hwf := hpruned.wf hq
    have htimers : (m.schedule deadline me).2.timers =
        (m.timers.prune.schedule deadline me).2 := by
      unfold Machine.schedule
      dsimp only
      split <;> rfl
    have hworld : (m.schedule deadline me).2.world = m.world := htraced.world
    have hclock : (m.schedule deadline me).2.clock = m.clock := htraced.clock
    refine ⟨?_, hclock, hworld, .inr ⟨m.timers.nextId, deadline, rfl, fun id d => ?_, ?_, ?_⟩⟩
    · show (m.schedule deadline me).2.timers.Wf
      rw [htimers]
      exact TimerQueue.wf_schedule hwf deadline me
    · show (m.schedule deadline me).2.timers.Pending id d me ↔ _
      rw [htimers, TimerQueue.pending_schedule hwf, hpruned.pending, or_iff_left (hnone id d)]
      exact ⟨fun h => ⟨h.1, h.2.1⟩, fun h => ⟨h.1, h.2, rfl⟩⟩
    · show looked + (m.schedule deadline me).2.world.sweepInterval ≤ deadline
      rw [hworld]
      exact spaced
    · show deadline ≤ (m.schedule deadline me).2.clock + (m.schedule deadline me).2.world.sweepInterval
      rw [hworld, hclock]
      exact soon

end Plan

/-! ## Where the timer is -/

/-- The service is at work for its timer: it has been told of it, looks for lapsed leases, or
schedules the next look. -/
inductive Busy (me : η) (x : Scene κ η τ) : Prop
  | told {id : Nat} (hand : x.hand = handle me (.timer id)) (looked : x.looked = none)
    (knows : x.Knows id) (timeless : x.Timeless me)
  | looking (hand : x.hand = sweep me) (looked : x.looked = none) (beside : x.beside = .done ())
    (timeless : x.Timeless me)
  | expiring {t : Nat} (hand : x.hand = expireSessions t >>= fun _ => scheduleSweep me)
    (looked : x.looked = some t) (past : t ≤ x.loop.clock) (beside : x.beside = .done ())
    (timeless : x.Timeless me)
  | tidying {t : Nat} {p : Activity κ η (List Nat)}
    (hand : x.hand = p >>= fun _ => scheduleSweep me) (gentle : Gentle t False p)
    (looked : x.looked = some t) (upheld : Upheld t x.loop) (beside : x.beside = .done ())
    (timeless : x.Timeless me)
  | planning {t : Nat} (plan : Plan me t x.loop x.hand) (looked : x.looked = some t)
    (upheld : Upheld t x.loop) (beside : x.beside = .done ()) (timeless : x.Timeless me)
  | storing {t id deadline : Nat} (hand : x.hand = store id)
    (booked : Booked me t id deadline x.loop) (looked : x.looked = some t)
    (upheld : Upheld t x.loop) (beside : x.beside = .done ()) (others : ∀ p ∈ x.batch, p.2 ≠ me)

/-- How the service stands, which has been started or not. -/
inductive Tended (me : η) (x : Scene κ η τ) : Bool → Prop
  /-- It has not been started, and has no timers. -/
  | idle (beside : x.beside = .done ()) (gentle : Gentle x.handed True x.hand)
    (timeless : x.Timeless me) : Tended me x false
  /-- Its start is at work for the first timer. -/
  | starting {t : Nat} (plan : Plan me t x.loop x.beside) (minds : x.Minds t)
    (looked : x.looked = some t) (upheld : Upheld t x.loop) (timeless : x.Timeless me) :
    Tended me x true
  /-- Its timer is pending. -/
  | armed {t id deadline : Nat} (booked : Booked me t id deadline x.loop) (minds : x.Minds t)
    (knows : x.Knows id) (looked : x.looked = some t) (upheld : Upheld t x.loop)
    (others : ∀ p ∈ x.batch, p.2 ≠ me) : Tended me x true
  /-- Its timer has been taken out. -/
  | due {id : Nat} (minds : x.Minds 0) (knows : x.Knows id)
    (none : ∀ id d, ¬ x.loop.timers.Pending id d me) (mine : (id, me) ∈ x.batch)
    (alone : ∀ p ∈ x.batch, p.2 = me → p.1 = id) : Tended me x true
  /-- Its timer has been handed over. -/
  | busy (work : Busy me x) : Tended me x true

variable {x x' : Scene κ η τ} {started : Bool}

theorem Gentle.not_ended {p : Activity κ η (List Nat)} (hp : Gentle floor False p) :
    (p >>= fun _ => scheduleSweep me).ended = false := by
  cases hp with
  | crash may => exact may.elim
  | done | now | world | update | send | note => rfl

theorem Busy.not_ended (h : Busy me x) : x.hand.ended = false := by
  cases h with
  | told hand | looking hand | expiring hand | storing hand =>
    rw [hand]
    rfl
  | tidying hand gentle =>
    rw [hand]
    exact gentle.not_ended
  | planning plan => exact plan.not_ended

/-- A program that has ended does nothing any more. -/
theorem Gentle.of_ended {p : Activity κ η Unit} (h : p.ended = true) : Gentle floor True p := by
  cases p with
  | done a => exact .done a
  | crash c => exact .crash trivial c
  | ask => cases h

theorem Scene.minds_of_ended (h : x.hand.ended = true) (hfloor : floor ≤ x.loop.clock) :
    x.Minds floor := ⟨floor, Nat.le_refl _, hfloor, .of_ended h⟩

/-! ## What others do -/

/-- Between two scenes the service's timer is left alone; its start has done nothing. -/
structure Scene.Passes (me : η) (floor : Nat) (x x' : Scene κ η τ) : Prop where
  apart : Apart me floor x.loop x'.loop
  batch : x'.batch = x.batch
  beside : x'.beside = x.beside
  looked : ∀ t, x.looked = some t → x'.looked = some t

namespace Scene

theorem Timeless.passes (h : x.Timeless me) (hx : x.Passes me floor x') : x'.Timeless me where
  none := fun id d hp => h.none id d ((hx.apart.pending id d).1 hp)
  others := hx.batch ▸ h.others

theorem Knows.passes (h : x.Knows id) (hx : x.Passes me floor x') : x'.Knows id := by
  unfold Knows at *
  rw [hx.beside, hx.apart.world.sweepTimer]
  exact h

theorem Minds.later (h : x.Minds floor) (hclock : x.loop.clock ≤ x'.loop.clock)
    (hhand : x'.hand = x.hand) : x'.Minds floor := by
  obtain ⟨t, hle, hpast, hgentle⟩ := h
  exact ⟨t, hle, Nat.le_trans hpast hclock, hhand ▸ hgentle⟩

end Scene

/-- What others do makes no difference to the service's work. -/
theorem Busy.passes (h : Busy me x) (hx : x.Passes me x.loop.clock x') (hhand : x'.hand = x.hand)
    (hlooked : x'.looked = x.looked) : Busy me x' := by
  have hapart := hx.apart
  cases h with
  | told hand looked knows timeless =>
    exact .told (hhand.trans hand) (hlooked.trans looked) (knows.passes hx) (timeless.passes hx)
  | looking hand looked beside timeless =>
    exact .looking (hhand.trans hand) (hlooked.trans looked) (hx.beside.trans beside)
      (timeless.passes hx)
  | expiring hand looked past beside timeless =>
    exact .expiring (hhand.trans hand) (hlooked.trans looked) (Nat.le_trans past hapart.clock)
      (hx.beside.trans beside) (timeless.passes hx)
  | tidying hand gentle looked upheld beside timeless =>
    exact .tidying (hhand.trans hand) gentle (hlooked.trans looked)
      (upheld.apart hapart upheld.past) (hx.beside.trans beside) (timeless.passes hx)
  | planning plan looked upheld beside timeless =>
    exact .planning (hhand ▸ plan.apart hapart) (hlooked.trans looked)
      (upheld.apart hapart upheld.past) (hx.beside.trans beside) (timeless.passes hx)
  | storing hand booked looked upheld beside others =>
    exact .storing (hhand.trans hand) (booked.apart hapart) (hlooked.trans looked)
      (upheld.apart hapart upheld.past) (hx.beside.trans beside) (hx.batch ▸ others)

theorem Tended.passes (h : Tended me x started) (hx : x.Passes me x.loop.clock x')
    (hhand : x'.hand = x.hand) (hhanded : x'.handed = x.handed) (hlooked : x'.looked = x.looked) :
    Tended me x' started := by
  have hapart := hx.apart
  cases h with
  | idle beside gentle timeless =>
    exact .idle (hx.beside.trans beside) (by rw [hhand, hhanded]; exact gentle)
      (timeless.passes hx)
  | starting plan minds looked upheld timeless =>
    exact .starting (hx.beside ▸ plan.apart hapart) (minds.later hapart.clock hhand)
      (hlooked.trans looked) (upheld.apart hapart upheld.past) (timeless.passes hx)
  | armed booked minds knows looked upheld others =>
    exact .armed (booked.apart hapart) (minds.later hapart.clock hhand) (knows.passes hx)
      (hlooked.trans looked) (upheld.apart hapart upheld.past) (hx.batch ▸ others)
  | due minds knows none mine alone =>
    exact .due (minds.later hapart.clock hhand) (knows.passes hx)
      (fun id d hp => none id d ((hapart.pending id d).1 hp)) (hx.batch ▸ mine) (hx.batch ▸ alone)
  | busy work => exact .busy (work.passes hx hhand hlooked)

/-! ## What the service does -/

/-- As long as it is not at work for its timer, the service is as considerate as others. -/
theorem Scene.Minds.work (h : x.Minds floor) (me : η) (hq : x.loop.timers.Wf) :
    (x.work w).Minds floor ∧ x.Passes me floor (x.work w) := by
  obtain ⟨t, hle, hpast, hgentle⟩ := h
  obtain ⟨hleft, hapart⟩ := hgentle.pace_self (w := w) me hq hpast
  refine ⟨⟨t, hle, Nat.le_trans hpast hapart.clock, hleft⟩, hapart.mono hle, rfl, rfl,
    fun t ht => ?_⟩
  show x.looked.or _ = _
  rw [ht]
  rfl

theorem Scene.passes_work {p : Activity κ η Unit} (hpace : x.loop.pace w x.hand = (p, m'))
    (ha : Apart me floor x.loop m') : x.Passes me floor (x.work w) where
  apart := by
    show Apart me floor x.loop (x.loop.pace w x.hand).2
    rw [hpace]
    exact ha
  batch := rfl
  beside := rfl
  looked := fun t ht => by
    show x.looked.or _ = _
    rw [ht]
    rfl

/-- The timers are in order, and the clock has not gone back. -/
structure Scene.Follows (x x' : Scene κ η τ) : Prop where
  wf : x'.loop.timers.Wf
  clock : x.loop.clock ≤ x'.loop.clock

theorem Scene.Passes.follows (h : x.Passes me floor x') : x.Follows x' :=
  ⟨h.apart.wf, h.apart.clock⟩

/-- The timer for the next look is scheduled, or about to be. -/
theorem Busy.work_plan {t : Nat} (plan : Plan me t x.loop x.hand) (hlooked : x.looked = some t)
    (upheld : Upheld t x.loop) (beside : x.beside = .done ()) (timeless : x.Timeless me)
    (hq : x.loop.timers.Wf) (intime : x.InTime) : x.Follows (x.work w) ∧ Busy me (x.work w) := by
  obtain ⟨hwf, hclock, hworld, hplan⟩ := plan.pace (w := w) hq upheld.past timeless.none intime
  have hlooked' : (x.work w).looked = some t := by
    show x.looked.or _ = _
    rw [hlooked]
    rfl
  have hupheld : Upheld t (x.work w).loop :=
    ⟨Nat.le_trans upheld.past (Nat.le_of_eq hclock.symm), by
      show (x.loop.pace w x.hand).2.world.coordinator.LeasesFrom t
      rw [hworld]
      exact upheld.leases⟩
  refine ⟨⟨hwf, Nat.le_of_eq hclock.symm⟩, ?_⟩
  rcases hplan with ⟨hplan, htimers⟩ | ⟨id, deadline, hstore, hbooked⟩
  · refine .planning hplan hlooked' hupheld beside ⟨fun id d hp => ?_, timeless.others⟩
    have hp : (x.loop.pace w x.hand).2.timers.Pending id d me := hp
    rw [htimers] at hp
    exact timeless.none id d hp
  · exact .storing hstore hbooked hlooked' hupheld beside timeless.others

/-- At work for its timer, the service keeps it in hand until the next one is pending. -/
theorem Busy.work (h : Busy me x) (hq : x.loop.timers.Wf) (intime : x.InTime)
    (stored : ∀ id, x.hand = handle me (.timer id) → x.beside ≠ store id) :
    x.Follows (x.work w) ∧ Tended me (x.work w) true := by
  have hsame : ∀ r : Request κ η State LockEvent, r = .world ∨ r = .now →
      Apart me x.loop.clock x.loop (x.loop.perform w r).2 := by
    rintro r (rfl | rfl) <;> exact .of_same hq rfl rfl rfl
  cases h with
  | told hand looked knows timeless =>
    have hcurrent := knows.resolve_right (stored _ hand)
    have hpace := (congrArg _ hand).trans (pace_handle_timer (w := w) me hcurrent.2)
    have hpasses := Scene.passes_work hpace (hsame _ (.inl rfl))
    refine ⟨hpasses.follows, .busy (.looking (congrArg Prod.fst hpace) ?_ hcurrent.1
      (timeless.passes hpasses))⟩
    show x.looked.or (if x.hand.readsClock then _ else _) = none
    rw [looked, hand]
    rfl
  | looking hand looked beside timeless =>
    have hpace := (congrArg _ hand).trans (pace_sweep (w := w) (m := x.loop) me)
    have hpasses := Scene.passes_work hpace (hsame _ (.inr rfl))
    refine ⟨hpasses.follows, .busy (.expiring (congrArg Prod.fst hpace) ?_ hpasses.apart.clock beside
      (timeless.passes hpasses))⟩
    show x.looked.or (if x.hand.readsClock then _ else _) = _
    rw [looked, hand]
    rfl
  | @expiring t hand looked past beside timeless =>
    obtain ⟨p, hgentle, hleft, hclock, htimers, hworld⟩ := pace_expireSessions (w := w)
      (m := x.loop) t t fun _ => (scheduleSweep me : Activity κ η Unit)
    rw [← hand] at hleft hclock htimers hworld
    have hgoes : x.loop.world.Goes x.loop.clock (x.loop.pace w x.hand).2.world := by
      rw [hworld]
      exact ⟨rfl, rfl, [.expire t], fun op hm => List.mem_singleton.1 hm ▸ trivial, rfl⟩
    have hpasses : x.Passes me x.loop.clock (x.work w) :=
      Scene.passes_work rfl (.of_timers hq hgoes hclock htimers)
    refine ⟨hpasses.follows, .busy (.tidying hleft hgentle (hpasses.looked t looked)
      ⟨Nat.le_trans past hpasses.apart.clock, ?_⟩ beside (timeless.passes hpasses))⟩
    show (x.loop.pace w x.hand).2.world.coordinator.LeasesFrom t
    rw [hworld]
    exact (x.loop.world.coordinator.leasesFrom_expire t).mono (Nat.le_succ t)
  | @tidying t p hand gentle looked upheld beside timeless =>
    cases hends : p.ended with
    | true =>
      have hplan : x.hand = scheduleSweep me := by
        cases gentle with
        | done a => exact hand
        | crash may => exact may.elim
        | now | world | update | send | note => cases hends
      obtain ⟨hfollows, hbusy⟩ := Busy.work_plan (w := w) (hplan ▸ .schedule) looked upheld beside
        timeless hq intime
      exact ⟨hfollows, .busy hbusy⟩
    | false =>
      obtain ⟨p', hgentle, hleft, hapart⟩ := gentle.pace (w := w)
        (f := fun _ => scheduleSweep me) me hends (fun _ => nofun) hq upheld.past
      rw [← hand] at hleft hapart
      have hpasses := Scene.passes_work rfl hapart
      exact ⟨hpasses.follows, .busy (.tidying hleft hgentle (hpasses.looked t looked)
        (upheld.apart hapart (Nat.le_refl t)) beside (timeless.passes hpasses))⟩
  | planning plan looked upheld beside timeless =>
    obtain ⟨hfollows, hbusy⟩ := Busy.work_plan (w := w) plan looked upheld beside timeless hq intime
    exact ⟨hfollows, .busy hbusy⟩
  | @storing t id deadline hand booked looked upheld beside others =>
    have hpace : x.loop.pace w x.hand = _ := congrArg _ hand
    have hfollows : x.Follows (x.work w) := by
      constructor
      · show (x.loop.pace w x.hand).2.timers.Wf
        rw [hpace]
        exact hq
      · show x.loop.clock ≤ (x.loop.pace w x.hand).2.clock
        rw [hpace]
        exact Nat.le_refl _
    have hwork : x.work w = { x with
      loop := (x.loop.pace w (store id)).2
      hand := .done ()
      looked := some t } := by
      unfold Scene.work
      rw [hpace, looked]
      rfl
    refine ⟨hfollows, ?_⟩
    rw [hwork]
    exact .armed ⟨booked.alone, booked.spaced, booked.soon⟩
      (Scene.minds_of_ended rfl upheld.past) (.inl ⟨beside, rfl⟩) rfl
      ⟨upheld.past, upheld.leases⟩ others

/-- The service goes on for a pace. -/
theorem Tended.work (h : Tended me x started) (hq : x.loop.timers.Wf)
    (hhanded : x.handed ≤ x.loop.clock) (intime : x.InTime)
    (stored : ∀ id, x.hand = handle me (.timer id) → x.beside ≠ store id) :
    x.Follows (x.work w) ∧ Tended me (x.work w) started := by
  cases h with
  | idle beside gentle timeless =>
    obtain ⟨hleft, hapart⟩ := gentle.pace_self (w := w) me hq hhanded
    have hpasses := Scene.passes_work rfl hapart
    exact ⟨hpasses.follows, .idle beside hleft (timeless.passes hpasses)⟩
  | @starting t plan minds looked upheld timeless =>
    obtain ⟨hminds, hpasses⟩ := minds.work (w := w) me hq
    exact ⟨hpasses.follows, .starting (plan.apart hpasses.apart) hminds (hpasses.looked t looked)
      (upheld.apart hpasses.apart (Nat.le_refl t)) (timeless.passes hpasses)⟩
  | @armed t id deadline booked minds knows looked upheld others =>
    obtain ⟨hminds, hpasses⟩ := minds.work (w := w) me hq
    exact ⟨hpasses.follows, .armed (booked.apart hpasses.apart) hminds (knows.passes hpasses)
      (hpasses.looked t looked) (upheld.apart hpasses.apart (Nat.le_refl t)) others⟩
  | due minds knows none mine alone =>
    obtain ⟨hminds, hpasses⟩ := minds.work (w := w) me hq
    exact ⟨hpasses.follows, .due hminds (knows.passes hpasses)
      (fun id d hp => none id d ((hpasses.apart.pending id d).1 hp)) mine alone⟩
  | busy work => exact work.work hq intime stored

/-! ## What its start does -/

theorem Scene.prepare_of_done (h : x.beside = .done ()) : x.prepare w = x := by
  unfold Scene.prepare
  rw [h]
  exact congrArg (fun p => { x with beside := p }) h.symm

/-- At most the id of the timer is still to be stored. -/
theorem Scene.Knows.prepare (h : x.Knows id) : ∃ trace, x.prepare w = { x with
    loop := { x.loop with world := { x.loop.world with sweepTimer := some id }, trace }
    beside := .done () } := by
  rcases h with ⟨hdone, hstored⟩ | hstore
  · refine ⟨x.loop.trace, ?_⟩
    rw [prepare_of_done hdone, ← hstored, ← hdone]
  · unfold Scene.prepare
    rw [hstore]
    exact ⟨_, rfl⟩

/-- The start of the service goes on for a pace. -/
theorem Tended.prepare (h : Tended me x started) (hq : x.loop.timers.Wf) (intime : x.InTime) :
    x.Follows (x.prepare w) ∧ Tended me (x.prepare w) started := by
  have hidle : x.beside = .done () → Tended me x started →
      x.Follows (x.prepare w) ∧ Tended me (x.prepare w) started := by
    intro hdone h
    rw [Scene.prepare_of_done hdone]
    exact ⟨⟨hq, Nat.le_refl _⟩, h⟩
  cases h with
  | idle beside gentle timeless => exact hidle beside (.idle beside gentle timeless)
  | @starting t plan minds looked upheld timeless =>
    obtain ⟨hwf, hclock, hworld, hplan⟩ := plan.pace (w := w) hq upheld.past timeless.none intime
    have hle := Nat.le_of_eq hclock.symm
    have hupheld : Upheld t (x.prepare w).loop := ⟨Nat.le_trans upheld.past hle, by
      show (x.loop.pace w x.beside).2.world.coordinator.LeasesFrom t
      rw [hworld]
      exact upheld.leases⟩
    have hminds : (x.prepare w).Minds t := minds.later hle rfl
    refine ⟨⟨hwf, hle⟩, ?_⟩
    rcases hplan with ⟨hplan, htimers⟩ | ⟨id, deadline, hstore, hbooked⟩
    · refine .starting hplan hminds looked hupheld ⟨fun id d hp => ?_, timeless.others⟩
      have hp : (x.loop.pace w x.beside).2.timers.Pending id d me := hp
      rw [htimers] at hp
      exact timeless.none id d hp
    · exact .armed hbooked hminds (.inr hstore) looked hupheld timeless.others
  | armed booked minds knows looked upheld others =>
    obtain ⟨trace, hprepare⟩ := knows.prepare (w := w)
    rw [hprepare]
    exact ⟨⟨hq, Nat.le_refl _⟩, .armed ⟨booked.alone, booked.spaced, booked.soon⟩
      (minds.later (Nat.le_refl _) rfl) (.inl ⟨rfl, rfl⟩) looked ⟨upheld.past, upheld.leases⟩
      others⟩
  | due minds knows none mine alone =>
    obtain ⟨trace, hprepare⟩ := knows.prepare (w := w)
    rw [hprepare]
    exact ⟨⟨hq, Nat.le_refl _⟩, .due (minds.later (Nat.le_refl _) rfl) (.inl ⟨rfl, rfl⟩) none mine
      alone⟩
  | busy work =>
    cases work with
    | told hand looked knows timeless =>
      obtain ⟨trace, hprepare⟩ := knows.prepare (w := w)
      rw [hprepare]
      exact ⟨⟨hq, Nat.le_refl _⟩, .busy (.told hand looked (.inl ⟨rfl, rfl⟩)
        ⟨timeless.none, timeless.others⟩)⟩
    | looking hand looked beside timeless =>
      exact hidle beside (.busy (.looking hand looked beside timeless))
    | expiring hand looked past beside timeless =>
      exact hidle beside (.busy (.expiring hand looked past beside timeless))
    | tidying hand gentle looked upheld beside timeless =>
      exact hidle beside (.busy (.tidying hand gentle looked upheld beside timeless))
    | planning plan looked upheld beside timeless =>
      exact hidle beside (.busy (.planning plan looked upheld beside timeless))
    | storing hand booked looked upheld beside others =>
      exact hidle beside (.busy (.storing hand booked looked upheld beside others))

/-! ## What the loop does -/

/-- The timers that were due at some instant are taken out. -/
theorem Tended.collected (h : Tended me x started) (hq : x.loop.timers.Wf)
    (free : x.hand.ended = true) (handed : x.batch = []) (now : Nat) :
    Tended me { x with
      loop := { x.loop with timers := (x.loop.timers.popDue now).2 }
      batch := (x.loop.timers.popDue now).1 } started := by
  have htimeless : x.Timeless me → Scene.Timeless me { x with
      loop := { x.loop with timers := (x.loop.timers.popDue now).2 }
      batch := (x.loop.timers.popDue now).1 } := by
    refine fun timeless => ⟨fun id d hp =>
      timeless.none id d ((TimerQueue.pending_popDue hq).1 hp).2, ?_⟩
    rintro ⟨id, handler⟩ hp rfl
    obtain ⟨d, -, hpending⟩ := TimerQueue.mem_popDue.1 hp
    exact timeless.none id d hpending
  cases h with
  | idle beside gentle timeless => exact .idle beside gentle (htimeless timeless)
  | starting plan minds looked upheld timeless =>
    exact .starting (plan.later (Nat.le_refl _) rfl) (minds.later (Nat.le_refl _) rfl) looked
      ⟨upheld.past, upheld.leases⟩ (htimeless timeless)
  | @armed t id deadline booked minds knows looked upheld others =>
    by_cases hdue : deadline ≤ now
    · refine .due (Scene.minds_of_ended free (Nat.zero_le _)) knows (fun id' d hp => ?_)
        (TimerQueue.mem_popDue.2 ⟨deadline, hdue, (booked.alone _ _).2 ⟨rfl, rfl⟩⟩) ?_
      · obtain ⟨hlt, hpending⟩ := (TimerQueue.pending_popDue hq).1 hp
        obtain ⟨rfl, rfl⟩ := (booked.alone _ _).1 hpending
        exact absurd hdue (Nat.not_le_of_lt hlt)
      · rintro ⟨id', handler⟩ hp rfl
        obtain ⟨d, -, hpending⟩ := TimerQueue.mem_popDue.1 hp
        exact ((booked.alone _ _).1 hpending).1
    · refine .armed ⟨fun id' d => ?_, booked.spaced, booked.soon⟩
        (minds.later (Nat.le_refl _) rfl) knows looked ⟨upheld.past, upheld.leases⟩ ?_
      · refine (TimerQueue.pending_popDue hq).trans ⟨fun h => (booked.alone id' d).1 h.2,
          fun h => ⟨?_, (booked.alone id' d).2 h⟩⟩
        rw [h.2]
        exact Nat.lt_of_not_le hdue
      · rintro ⟨id', handler⟩ hp rfl
        obtain ⟨d, hd, hpending⟩ := TimerQueue.mem_popDue.1 hp
        obtain ⟨rfl, rfl⟩ := (booked.alone _ _).1 hpending
        exact hdue hd
  | due minds knows none mine alone =>
    rw [handed] at mine
    cases mine
  | busy work =>
    rw [work.not_ended] at free
    cases free

/-- A timer is handed to the service: it is the one whose id is stored, or about to be. -/
theorem Tended.fired {rest : List (Nat × η)} (h : Tended me x started)
    (free : x.hand.ended = true) (hnodup : (x.batch.map (·.1)).Nodup)
    (next : x.batch = (id, me) :: rest) : Tended me { x with
      loop := x.loop.record (.invoked me (.timer id))
      batch := rest
      hand := handle me (.timer id)
      handed := x.loop.clock
      looked := none } started := by
  have hfirst : (id, me) ∈ x.batch := next ▸ List.mem_cons_self
  cases h with
  | idle beside gentle timeless => exact absurd rfl (timeless.others _ hfirst)
  | starting plan minds looked upheld timeless => exact absurd rfl (timeless.others _ hfirst)
  | armed booked minds knows looked upheld others => exact absurd rfl (others _ hfirst)
  | due minds knows none mine alone =>
    obtain rfl := alone _ hfirst rfl
    refine .busy (.told rfl rfl knows ⟨none, fun p hp heq => ?_⟩)
    rw [next, List.map_cons, List.nodup_cons] at hnodup
    exact hnodup.1 (List.mem_map.2 ⟨p, hp, alone p (next ▸ List.mem_cons_of_mem _ hp) heq⟩)
  | busy work =>
    rw [work.not_ended] at free
    cases free

/-- An event that is no timer is handed to the service. -/
theorem Tended.told (h : Tended me x started) (free : x.hand.ended = true) {e : Event}
    (he : ∀ id, e ≠ .timer id) : Tended me { x with
      loop := x.loop.record (.invoked me e)
      hand := handle me e
      handed := x.loop.clock } started := by
  have hminds : ∀ t, t ≤ x.loop.clock → Scene.Minds { x with
      loop := x.loop.record (.invoked me e)
      hand := handle me e
      handed := x.loop.clock } t :=
    fun t ht => ⟨x.loop.clock, ht, Nat.le_refl _, .handle he⟩
  cases h with
  | idle beside gentle timeless =>
    exact .idle beside (.handle he) ⟨timeless.none, timeless.others⟩
  | @starting t plan minds looked upheld timeless =>
    exact .starting (plan.later (Nat.le_refl _) rfl) (hminds t upheld.past) looked
      ⟨upheld.past, upheld.leases⟩ ⟨timeless.none, timeless.others⟩
  | @armed t id deadline booked minds knows looked upheld others =>
    exact .armed ⟨booked.alone, booked.spaced, booked.soon⟩ (hminds t upheld.past) knows looked
      ⟨upheld.past, upheld.leases⟩ others
  | due minds knows none mine alone =>
    exact .due (hminds 0 (Nat.zero_le _)) knows none mine alone
  | busy work =>
    rw [work.not_ended] at free
    cases free

/-- A timer is handed to another handler. -/
theorem Tended.passed {rest : List (Nat × η)} {handler : η} {e : Event} (h : Tended me x started)
    (free : x.hand.ended = true) (next : x.batch = (id, handler) :: rest) (other : handler ≠ me) :
    Tended me { x with loop := x.loop.record (.invoked handler e), batch := rest } started := by
  have hrest : ∀ p ∈ rest, p ∈ x.batch := fun p hp => next ▸ List.mem_cons_of_mem _ hp
  cases h with
  | idle beside gentle timeless =>
    exact .idle beside gentle ⟨timeless.none, fun p hp => timeless.others p (hrest p hp)⟩
  | starting plan minds looked upheld timeless =>
    exact .starting (plan.later (Nat.le_refl _) rfl) (minds.later (Nat.le_refl _) rfl) looked
      ⟨upheld.past, upheld.leases⟩ ⟨timeless.none, fun p hp => timeless.others p (hrest p hp)⟩
  | armed booked minds knows looked upheld others =>
    exact .armed ⟨booked.alone, booked.spaced, booked.soon⟩ (minds.later (Nat.le_refl _) rfl) knows
      looked ⟨upheld.past, upheld.leases⟩ fun p hp => others p (hrest p hp)
  | due minds knows none mine alone =>
    refine .due (minds.later (Nat.le_refl _) rfl) knows none ?_ fun p hp => alone p (hrest p hp)
    rw [next] at mine
    rcases List.mem_cons.1 mine with heq | hmem
    · exact absurd (Prod.mk.inj heq).2.symm other
    · exact hmem
  | busy work =>
    rw [work.not_ended] at free
    cases free

/-! ## What holds in every run -/

/-- The service is tended, and the loop is in order. -/
structure Scene.Kept (me : η) (x : Scene κ η τ) : Prop where
  wf : x.loop.timers.Wf
  /-- No timer has been taken out twice. -/
  once : (x.batch.map (·.1)).Nodup
  handed : x.handed ≤ x.loop.clock
  tended : Tended me x x.started

theorem Scene.earliest_le (h : x.handed ≤ x.loop.clock) : x.earliest ≤ x.loop.clock := by
  unfold Scene.earliest
  split
  · exact Nat.le_refl _
  · exact h

theorem Scene.minds_earliest (hgentle : Gentle x.handed True x.hand)
    (h : x.handed ≤ x.loop.clock) : x.Minds x.earliest := by
  unfold Scene.earliest
  split
  · rename_i hends
    exact minds_of_ended hends (Nat.le_refl _)
  · exact ⟨x.handed, Nat.le_refl _, h, hgentle⟩

namespace Scene.Kept

/-- The service is started. -/
theorem start (h : x.Kept me) (once : x.started = false)
    (current : ∀ sid o, x.loop.world.coordinator.sessions.get? sid = some o →
      o.lapsed x.loop.clock = false) :
    Scene.Kept me
      { x with beside := Service.start me, looked := some x.earliest, started := true } := by
  refine ⟨h.wf, h.once, h.handed, ?_⟩
  have htended := h.tended
  rw [once] at htended
  cases htended with
  | idle beside gentle timeless =>
    obtain ⟨t, hle, hpast, hgentle⟩ := x.minds_earliest gentle h.handed
    have hearliest := x.earliest_le h.handed
    refine .starting .schedule ⟨t, hle, hpast, hgentle⟩ rfl ⟨hearliest, fun sid expiry hend => ?_⟩
      ⟨timeless.none, timeless.others⟩
    obtain ⟨o, ho, rfl⟩ := Option.map_eq_some_iff.1 hend
    have hlive : ¬ o.expiry ≤ x.loop.clock := of_decide_eq_false (current sid o ho)
    exact Nat.le_trans hearliest (Nat.le_of_not_le hlive)

theorem follows (h : x.Kept me) (hx : x.Follows x') (hbatch : x'.batch = x.batch)
    (hhanded : x'.handed = x.handed) (htended : Tended me x' x'.started) : x'.Kept me where
  wf := hx.wf
  once := hbatch ▸ h.once
  handed := hhanded ▸ Nat.le_trans h.handed hx.clock
  tended := htended

end Scene.Kept

/-- Unless a timer is handed over whose id is still to be stored, the service is tended all along. -/
theorem Watched.kept (hserves : w.handle me = handle me) (h : Watched w me false x) :
    x.Kept me := by
  generalize hlate : false = late at h
  induction h with
  | opening config links =>
    exact ⟨TimerQueue.wf_empty, .nil, Nat.le_refl _, .idle rfl (.done ())
      ⟨fun id d => TimerQueue.not_pending_empty id d me, nofun⟩⟩
  | start before once current ih => exact ih.start once current
  | prepared before intime ih =>
    obtain ⟨hfollows, htended⟩ := ih.tended.prepare (w := w) ih.wf intime
    exact ih.follows hfollows rfl rfl htended
  | worked before intime stored ih =>
    obtain ⟨hfollows, htended⟩ := ih.tended.work (w := w) ih.wf ih.handed intime
      (stored hlate.symm)
    exact ih.follows hfollows rfl rfl htended
  | asked before r considerate ih =>
    have hapart := apart_perform (w := w) ih.wf considerate
    exact ih.follows ⟨hapart.wf, hapart.clock⟩ rfl rfl
      (ih.tended.passes ⟨hapart, rfl, rfl, fun _ ht => ht⟩ rfl rfl rfl)
  | collected before free handed now read ih =>
    exact ⟨TimerQueue.wf_popDue ih.wf now, TimerQueue.nodup_popDue ih.wf now, ih.handed,
      ih.tended.collected ih.wf free handed now⟩
  | fired before free id rest next ih =>
    have hnodup := ih.once
    rw [hserves]
    refine ⟨ih.wf, ?_, Nat.le_refl _, ih.tended.fired free hnodup next⟩
    rw [next] at hnodup
    exact (List.nodup_cons.1 hnodup).2
  | told before free e he ih =>
    rw [hserves]
    exact ⟨ih.wf, ih.once, Nat.le_refl _, ih.tended.told free he⟩
  | passed before free next other ih =>
    have hnodup := ih.once
    rw [next] at hnodup
    exact ⟨ih.wf, (List.nodup_cons.1 hnodup).2, ih.handed, ih.tended.passed free next other⟩
  | @taken x before free queue endpoints trace ih =>
    have hpasses : x.Passes me x.loop.clock
        { x with loop := { x.loop with queue, endpoints, trace } } :=
      ⟨.of_same ih.wf rfl rfl rfl, rfl, rfl, fun _ ht => ht⟩
    exact ih.follows hpasses.follows rfl rfl (ih.tended.passes hpasses rfl rfl rfl)

/-! ## When there is nothing to do -/

/-- The service looks after its leases: its timer `id` is due at `deadline`, and it has looked for
lapsed leases at the instant `looked`. -/
structure Scene.LooksAfter (me : η) (x : Scene κ η τ) (id deadline looked : Nat) : Prop where
  stored : x.loop.world.sweepTimer = some id
  /-- Exactly one pending timer belongs to the service. -/
  alone : ∀ id' d, x.loop.timers.Pending id' d me ↔ id' = id ∧ d = deadline
  /-- It is due within an interval, and later than now. -/
  ahead : x.loop.clock < deadline
  soon : deadline ≤ x.loop.clock + x.loop.world.sweepInterval
  last : x.looked = some looked
  /-- The next look comes an interval after the last one, and later by the time that has passed
  between the two readings of the clock. -/
  spaced : looked + x.loop.world.sweepInterval ≤ deadline
  /-- No lease has ended before the last look. -/
  leases : ∀ sid o, x.loop.world.coordinator.sessions.get? sid = some o → looked ≤ o.expiry
  /-- If the clock stood still between the two readings, no session is registered whose lease ended
  a whole interval ago. -/
  prompt : looked + x.loop.world.sweepInterval = deadline →
    ∀ sid o, x.loop.world.coordinator.sessions.get? sid = some o →
      deadline ≤ o.expiry + x.loop.world.sweepInterval ∧
      x.loop.clock < o.expiry + x.loop.world.sweepInterval

/-- Once the service has been started, it looks after its leases whenever nobody has anything to do
until the clock moves. -/
theorem sessions_do_not_linger (hserves : w.handle me = handle me) (h : Watched w me false x)
    (hstarted : x.started = true) (hrest : x.AtRest) :
    ∃ id deadline looked, x.LooksAfter me id deadline looked := by
  have htended := (h.kept hserves).tended
  rw [hstarted] at htended
  cases htended with
  | starting plan =>
    have hends := hrest.beside
    rw [plan.not_ended] at hends
    cases hends
  | @armed t id deadline booked minds knows looked upheld others =>
    have hstored : x.loop.world.sweepTimer = some id := by
      rcases knows with ⟨-, hstored⟩ | hstore
      · exact hstored
      · have hends := hrest.beside
        rw [hstore] at hends
        cases hends
    have hahead : x.loop.clock < deadline := by
      refine Nat.lt_of_not_le fun hdue => ?_
      have hany := (x.loop.timers.anyDue_iff x.loop.clock).2
        ⟨id, deadline, me, hdue, (booked.alone id deadline).2 ⟨rfl, rfl⟩⟩
      have hquiet := hrest.quiet
      unfold Machine.isQuiet at hquiet
      rw [hany, Bool.not_true, Bool.and_false] at hquiet
      cases hquiet
    have hleases : ∀ sid o, x.loop.world.coordinator.sessions.get? sid = some o → t ≤ o.expiry :=
      fun sid o ho => upheld.leases sid o.expiry (congrArg (Option.map Session.expiry) ho)
    refine ⟨id, deadline, t, hstored, booked.alone, hahead, booked.soon, looked, booked.spaced,
      hleases, fun hstill sid o ho => ?_⟩
    have hend : deadline ≤ o.expiry + x.loop.world.sweepInterval :=
      hstill ▸ Nat.add_le_add_right (hleases sid o ho) _
    exact ⟨hend, Nat.lt_of_lt_of_le hahead hend⟩
  | due minds knows none mine =>
    rw [List.isEmpty_iff.1 hrest.batch] at mine
    cases mine
  | busy work =>
    have hends := hrest.hand
    rw [work.not_ended] at hends
    cases hends

/-! ## Runs that are carried on -/

/-- Let the service go on for so many paces, as long as its start has nothing left to do. -/
def Scene.workOn (w : Wiring κ η State τ LockEvent) : Nat → Scene κ η τ → Option (Scene κ η τ)
  | 0, x => some x
  | n + 1, x => if x.beside.ended ∧ x.InTime then workOn w n (x.work w) else none

theorem Watched.workOn {late : Bool} (h : Watched w me late x) (n : Nat)
    (hsome : (x.workOn w n).isSome) : Watched w me late ((x.workOn w n).get hsome) := by
  have hall : ∀ y, x.workOn w n = some y → Watched w me late y := by
    clear hsome
    induction n generalizing x with
    | zero =>
      rintro y hy
      cases hy
      exact h
    | succ n ih =>
      intro y hy
      unfold Scene.workOn at hy
      split at hy
      · rename_i hgo
        refine ih (h.worked hgo.2 fun _ id _ hstore => ?_) y hy
        have hends := hgo.1
        rw [hstore] at hends
        cases hends
      · cases hy
  exact hall _ (Option.some_get hsome).symm

/-- A client opens a session while the service is being started, and the first timer fires. -/
theorem sessions_do_not_linger_interval :
    ∃ (x : Scene Unit Unit (List (Nat × Bytes))) (id deadline looked : Nat),
      Watched Server.wiring () false x ∧ x.started = true ∧ x.AtRest ∧
        x.LooksAfter () id deadline looked ∧
        x.loop.world.coordinator.sessions.contains 1 = true := by
  have hregistered : Watched Server.wiring () false _ :=
    (Watched.opening .default []).asked (.register () ()) trivial
  have hopened := hregistered.start rfl nofun
  have hbegun := (hopened.prepared (by decide +kernel)).prepared (by decide +kernel)
  have htold := hbegun.told rfl (.data 1 (Wire.Command.openSession.request 1).encode) nofun
  have hbooked := (htold.prepared (by decide +kernel)).prepared (by decide +kernel)
  have hanswered := hbooked.workOn 10 (by decide +kernel)
  have helapsed := hanswered.asked (.elapse (Time.ofMillis 500)) trivial
  have hdue := helapsed.collected (by decide +kernel) rfl (Time.ofMillis 500) (by decide +kernel)
  have hfired := hdue.fired (by decide +kernel) 1 [] (by decide +kernel)
  have hlooked := hfired.workOn 10 (by decide +kernel)
  have hquiet := hlooked.taken (by decide +kernel) [] ∅ []
  obtain ⟨id, deadline, looked, h⟩ :=
    sessions_do_not_linger rfl hquiet (by decide +kernel) (by decide +kernel)
  exact ⟨_, id, deadline, looked, hquiet, by decide +kernel, by decide +kernel, h,
    by decide +kernel⟩

/-- A session can linger for two reasons.  The loop may hand over the first timer while the start of
the service has not stored its id: then the service takes it for a stranger's, and no timer is left.
And the clock may move while the service looks for lapsed leases: then the next look is that much
later. -/
theorem session_lingers :
    (∃ x : Scene Unit Unit (List (Nat × Bytes)), Watched Server.wiring () true x ∧
      x.started = true ∧ x.AtRest ∧ x.loop.timers.size = 0 ∧
      ∃ o, x.loop.world.coordinator.sessions.get? 1 = some o ∧
        o.expiry + x.loop.world.sweepInterval ≤ x.loop.clock) ∧
    ∃ x : Scene Unit Unit (List (Nat × Bytes)), Watched Server.wiring () false x ∧
      x.started = true ∧ x.AtRest ∧ x.loop.timers.size = 1 ∧
      ∃ o, x.loop.world.coordinator.sessions.get? 1 = some o ∧
        o.expiry + x.loop.world.sweepInterval ≤ x.loop.clock := by
  have hregistered : ∀ late, Watched Server.wiring () late _ := fun late =>
    (Watched.opening .default []).asked (.register () ()) trivial
  constructor
  · have hbooked := ((((hregistered true).start rfl nofun).prepared (by decide +kernel)).prepared
      (by decide +kernel)).prepared (by decide +kernel)
    have hdue := (hbooked.asked (.elapse (Time.ofMillis 500)) trivial).collected
      (by decide +kernel) rfl (Time.ofMillis 500) (by decide +kernel)
    have hfired := hdue.fired (by decide +kernel) 1 [] (by decide +kernel)
    -- the service reads which timer is its own, and there is none
    have hstored := (hfired.worked (by decide +kernel) nofun).prepared (by decide +kernel)
    have htold := hstored.told (by decide +kernel)
      (.data 1 (Wire.Command.openSession.request 1).encode) nofun
    have hanswered := htold.workOn 10 (by decide +kernel)
    have helapsed := hanswered.asked (.elapse (Time.ofSeconds 100)) trivial
    have hquiet := helapsed.taken (by decide +kernel) [] ∅ []
    exact ⟨_, hquiet, by decide +kernel, by decide +kernel, by decide +kernel,
      ⟨⟨Time.ofMillis 20500, ∅, ∅⟩, by decide +kernel, by decide +kernel⟩⟩
  · have hstored := (((((hregistered false).start rfl nofun).prepared (by decide +kernel)).prepared
      (by decide +kernel)).prepared (by decide +kernel)).prepared (by decide +kernel)
    have htold := hstored.told rfl (.data 1 (Wire.Command.openSession.request 1).encode) nofun
    have hanswered := htold.workOn 10 (by decide +kernel)
    have hdue := (hanswered.asked (.elapse (Time.ofMillis 500)) trivial).collected
      (by decide +kernel) rfl (Time.ofMillis 500) (by decide +kernel)
    have hfired := hdue.fired (by decide +kernel) 1 [] (by decide +kernel)
    have hlooked := hfired.workOn 3 (by decide +kernel)
    -- the lapsed sessions have been ended, and only now the time goes on
    have hlater := (hlooked.asked (.elapse (Time.ofSeconds 100)) trivial).workOn 10
      (by decide +kernel)
    have hquiet := hlater.taken (by decide +kernel) [] ∅ []
    exact ⟨_, hquiet, by decide +kernel, by decide +kernel, by decide +kernel,
      ⟨⟨Time.ofMillis 20000, ∅, ∅⟩, by decide +kernel, by decide +kernel⟩⟩

end LeaseLock.Service
