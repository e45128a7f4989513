import LeaseLock.Proofs.Fanout.Course
import LeaseLock.Proofs.Reactor.Chores

/-
  LeaseLock: no sub-request is left without a timer, if its timer was not too fast.
  When the loop of a fan-out has nothing to do, each open sub-request has one timer that will fire,
  none that has ended has one, and no frame was sent more often than it may be (`Course.upkept`).
  There is one exception: a sub-request whose first timer fires before it is entered stays open
  without one (`pending_without_timer`).  Other handlers go on with a course if their programs ask
  for nothing else than they may (`Course.program`); then the rounds of the loop do, and the loop that
  is left to itself (`Keeps.round`, `Keeps.settle`).
-/

namespace LeaseLock.Fanout

open Reactor

variable {κ η τ ν : Type} {w : Wiring κ η State τ ν} {me handler : η} {config : Config}
  {m m' : Machine κ η State τ ν} {c : Chore} {chores : List Chore} {batch : List (Nat × η)}
  {os : List (Occasion κ η τ ν)}

/-! ## When the loop has nothing to do -/

/-- How often a timer of a sub-request has fired. -/
def firings (os : List (Occasion κ η τ ν)) (f : Fate) : Nat :=
  (os.filterMap Occasion.fired?).countP fun timer => timer ∈ f.timers

/-- No sub-request is left without a timer, unless it has missed its timer, and none goes on for
ever. -/
structure Upkept (w : Wiring κ η State τ ν) (me : η) (config : Config) (m : Machine κ η State τ ν)
    (chores : List Chore) (os : List (Occasion κ η τ ν)) : Prop where
  /-- The pending sub-requests are the open ones. -/
  pending : ∀ id p, m.world.pending.get? id = some p ↔
    ∃ f ∈ fates (fun _ => true) os, f.isOpen = true ∧ f.id = id ∧ f.pending = p
  /-- All timers that the fan-out has scheduled are those of its sub-requests, or are still to be
  entered with one. -/
  timers : ((os.flatMap (Occasion.errands w me)).filterMap Errand.scheduled?).Perm
    ((fates (fun _ => true) os).flatMap Fate.timers ++ chores.filterMap Chore.loose?)
  /-- Each is that of one. -/
  once : ((fates (fun _ => true) os).flatMap Fate.timers ++ chores.filterMap Chore.loose?).Nodup
  /-- One timer of an open sub-request can still fire, and will within the timeout. -/
  waiting : ∀ f ∈ fates (fun _ => true) os, f.isOpen = true → f.missed = false →
    ∃ deadline, m.clock < deadline ∧ deadline ≤ m.clock + config.timeout ∧
      ∀ timer ∈ f.timers, ∀ d x, m.timers.Pending timer d x ↔
        timer = f.timer ∧ d = deadline ∧ x = me
  /-- None of one that was entered after its timer had fired can. -/
  missed : ∀ f ∈ fates (fun _ => true) os, f.missed = true →
    f.retries = 0 ∧ ∀ timer ∈ f.timers, ∀ d x, ¬ m.timers.Pending timer d x
  /-- None of one that has ended can, but for one that is about to be cancelled. -/
  ended : ∀ f ∈ fates (fun _ => true) os, f.isOpen = false →
    ∀ timer ∈ f.timers, ∀ d x, m.timers.Pending timer d x → .cancel timer ∈ chores
  retries : ∀ f ∈ fates (fun _ => true) os, f.retries ≤ config.maxRetries
  /-- The frames that the fan-out has sent, and those that are still to be sent, are those of its
  sub-requests, each to its endpoint: one for the first attempt, and one for each retry. -/
  sends : ((os.flatMap (Occasion.errands w me)).filterMap Errand.sent? ++
    chores.filterMap Chore.sends?).Perm ((fates (fun _ => true) os).flatMap Fate.sends)
  /-- If its timer fires, a sub-request ends or is sent once more. -/
  fires : ∀ f ∈ fates (fun _ => true) os, f.isOpen = true → ∀ m' : Machine κ η State τ ν,
    (f.next m' (.expire f.timer)).isOpen = false ∨
      (f.next m' (.expire f.timer)).retries = f.retries + 1
  /-- A sub-request that is still open was sent again each time. -/
  survived : ∀ f ∈ fates (fun _ => true) os, f.isOpen = true → f.missed = false →
    firings os f = f.retries
  firings : ∀ f ∈ fates (fun _ => true) os, firings os f ≤ config.maxRetries + 1

theorem not_due_of_isQuiet (h : m.isQuiet = true) {timer d : Nat} {x : η}
    (hpending : m.timers.Pending timer d x) : m.clock < d := by
  refine Nat.lt_of_not_le fun hdue => ?_
  have hany := (m.timers.anyDue_iff m.clock).2 ⟨timer, d, x, hdue, hpending⟩
  unfold Machine.isQuiet at h
  rw [hany, Bool.not_true, Bool.and_false] at h
  cases h

/-- A timer that has gone does not fire. -/
theorem Wheel.not_pending_of_gone {horizon : Nat} {fs : List Fate} {loose cancels gone : List Nat}
    {q : TimerQueue η} {due : List (Nat × η)} (h : Wheel me horizon fs loose cancels q due gone)
    {timer : Nat} (hgone : timer ∈ gone) (d : Nat) (x : η) : ¬ q.Pending timer d x := fun hp => by
  cases (h.out timer (List.mem_append_right _ hgone)).2.symm.trans hp.1

/-- Whenever the loop has nothing to do until the clock moves, each sub-request that is pending has
one timer, within the timeout, and was sent again as often as its timer has fired, which is not more
often than it may be; only those that were entered after their timer had fired have none.  Scatters
may be under way. -/
theorem Course.upkept (h : Course w me config m chores [] os) (hquiet : m.isQuiet = true)
    (hidle : chores.filterMap Chore.expires? = []) : Upkept w me config m chores os := by
  obtain ⟨-, hfollowed, hturning, -, hbooked, hbounded⟩ := h.steady
  have hwheel : Wheel me (m.clock + config.timeout) (fates (fun _ => true) os)
      (chores.filterMap Chore.loose?) (chores.filterMap Chore.cancels?) m.timers []
      (os.filterMap Occasion.fired?) := by
    unfold Turning at hturning
    rw [hidle] at hturning
    exact hturning
  have hearlier : ∀ f ∈ fates (fun _ => true) os, ∀ timer ∈ f.earlier, ∀ d x,
      ¬ m.timers.Pending timer d x := fun f hf timer ht =>
    hwheel.not_pending_of_gone ((hwheel.earlier f hf timer ht).resolve_left nofun)
  exact {
    pending := by
      intro id p
      constructor
      · intro hp
        obtain ⟨f, hf, hopen, rfl⟩ := hfollowed.known id p hp rfl
        exact ⟨f, hf, hopen, rfl, hfollowed.pending_eq hp hf hopen rfl⟩
      · rintro ⟨f, hf, hopen, rfl, rfl⟩
        exact hfollowed.pending f hf hopen
    timers := hbooked.timers
    once := hwheel.once
    waiting := by
      intro f hf hopen hprompt
      obtain ⟨deadline, hsoon, hpending⟩ := (hwheel.running f hf hopen hprompt).resolve_right nofun
      refine ⟨deadline, not_due_of_isQuiet hquiet hpending, hsoon, fun timer ht d x => ?_⟩
      constructor
      · intro hp
        rcases List.mem_cons.1 ht with rfl | ht
        · exact ⟨rfl, hwheel.wf.deadline_eq hp hpending,
            Option.some.inj (hp.1.symm.trans hpending.1)⟩
        · exact absurd hp (hearlier f hf timer ht d x)
      · rintro ⟨rfl, rfl, rfl⟩
        exact hpending
    missed := by
      intro f hf hmissed
      obtain ⟨hgone, hnone⟩ := hwheel.missed f hf hmissed
      refine ⟨congrArg List.length hnone, fun timer ht => ?_⟩
      rcases List.mem_cons.1 ht with rfl | ht
      · exact hwheel.not_pending_of_gone hgone
      · exact hearlier f hf timer ht
    ended := by
      intro f hf hended timer ht d x hp
      rcases List.mem_cons.1 ht with rfl | ht
      · rcases hwheel.ended f hf hended with hdead | hcancel
        · cases hdead.symm.trans hp.1
        · obtain ⟨c, hc, hcancels⟩ := List.mem_filterMap.1 hcancel
          cases c <;> cases hcancels
          exact hc
      · exact absurd hp (hearlier f hf timer ht d x)
    retries := hbounded
    sends := hbooked.sends
    fires := fun f _ hopen m' => Fate.next_expire hopen m'
    survived := fun f hf hopen hprompt => hwheel.countP_gone hf hopen hprompt
    firings := fun f hf => Nat.le_trans hwheel.countP_gone_le (Nat.succ_le_succ (hbounded f hf)) }

/-- Signals are taken off the queue. -/
theorem Course.taken (h : Course w me config m chores batch os) (queue : List Signal) :
    Course w me config { m with queue } chores batch (.others m m.world.countdowns :: os) :=
  h.moved rfl rfl rfl

/-- A target is silent: its timer has fired, and its frame was sent again. -/
theorem Course.upkept_silent :
    ∃ (m : Machine (Option Scenario.Destinations.Behaviour) (Option Unit) State (Table Nat) Empty)
      (chores : List Chore) (os : List (Occasion (Option Scenario.Destinations.Behaviour)
        (Option Unit) (Table Nat) Empty)),
      Upkept Scenario.Destinations.stage.wiring (some ()) ⟨5, 1⟩ m chores os ∧ chores = [] ∧
      m.clock = 5 ∧ m.world.pending.keys = [1] ∧
      (fates (fun _ => true) os).map (fun f => (f.retries, f.timer, f.earlier)) =
        [(1, 2, [1])] := by
  have hstart : Course Scenario.Destinations.stage.wiring (some ()) ⟨5, 1⟩ _ _ _ _ := .start ∅
  have hattached := hstart.asked (.register (some ⟨none, none, 0⟩) (some ())) trivial
  have hcalled := hattached.called (.scatter 7 5 [(1, [])]) trivial rfl
  have hsent := hcalled.advance 7 (by decide +kernel)
  have hdue := (hsent.asked (.elapse 5) trivial).due 5 (by decide +kernel)
  rw [show (TimerQueue.popDue _ 5).1 = [(1, some ())] by decide +kernel] at hdue
  have hresent := hdue.fired.advance 2 (by decide +kernel)
  exact ⟨_, _, _, (hresent.taken []).upkept (by decide +kernel) (by decide +kernel),
    by decide +kernel, by decide +kernel, by decide +kernel, by decide +kernel⟩

/-- A target is silent, and its timer fires between its being scheduled and its sub-request being
entered.  The loop has nothing to do then and nothing is left of the scatter, but the sub-request is
pending, and there is no timer any more that would end it or have it sent again. -/
theorem pending_without_timer :
    ∃ (m : Machine (Option Scenario.Destinations.Behaviour) (Option Unit) State (Table Nat) Empty)
      (chores : List Chore) (os : List (Occasion (Option Scenario.Destinations.Behaviour)
        (Option Unit) (Table Nat) Empty)),
      Course Scenario.Destinations.stage.wiring (some ()) ⟨5, 1⟩ m chores [] os ∧
      m.isQuiet = true ∧ chores = [] ∧ m.world.pending.keys = [1] ∧ m.timers.live.keys = [] ∧
      m.world.byTimer.get? 1 = some 1 := by
  have hstart : Course Scenario.Destinations.stage.wiring (some ()) ⟨5, 1⟩ _ _ _ _ := .start ∅
  have hattached := hstart.asked (.register (some ⟨none, none, 0⟩) (some ())) trivial
  have hcalled := hattached.called (.scatter 7 5 [(1, [])]) trivial rfl
  have hscheduled := hcalled.advance 4 (by decide +kernel)
  have hdue := (hscheduled.asked (.elapse 5) trivial).due 5 (by decide +kernel)
  rw [show (TimerQueue.popDue _ 5).1 = [(1, some ())] by decide +kernel] at hdue
  have hentered := hdue.fired.advance 4 (by decide +kernel)
  exact ⟨_, _, _, hentered.taken [], by decide +kernel, by decide +kernel, by decide +kernel,
    by decide +kernel, by decide +kernel⟩

/-! ## The loop -/

/-- The clock can name the deadline of another attempt. -/
def Timely (m : Machine κ η State τ ν) : Prop := m.clock + m.world.config.timeout < Time.limit

/-- A program that asks for nothing that it may not, while these chores wait. -/
def Civil (w : Wiring κ η State τ ν) (chores : List Chore) :
    Program κ η State ν Unit → Machine κ η State τ ν → Prop
  | .done _, _ => True
  | .crash _, _ => True
  | .ask r next, m =>
    Polite m chores r ∧ Civil w chores (next (m.perform w r).1) (m.perform w r).2

/-- What such a program asks for belongs to a course. -/
theorem Course.program {p : Program κ η State ν Unit} (h : Course w me config m chores batch os)
    (hp : Civil w chores p m) :
    ∃ os', Course w me config (m.run w p).2 chores batch (os' ++ os) := by
  induction p generalizing m os with
  | done | crash => exact ⟨[], h⟩
  | ask r next ih =>
    obtain ⟨os', hrest⟩ := ih _ (h.asked r hp.1) hp.2
    rw [← List.singleton_append, ← List.append_assoc] at hrest
    exact ⟨_, hrest⟩

/-- A course goes on from these occasions, and deadlines can be named. -/
def Keeps (w : Wiring κ η State τ ν) (me : η) (config : Config) (os : List (Occasion κ η τ ν))
    (chores : List Chore) (batch : List (Nat × η)) (m : Machine κ η State τ ν) : Prop :=
  Timely m ∧ ∃ os', Course w me config m chores batch (os' ++ os)

/-- Other handlers leave the fan-out to itself. -/
structure Courteous (w : Wiring κ η State τ ν) (fanout : η) (config : Config) : Prop where
  own : w.handle fanout = handle fanout
  others : ∀ handler event m chores batch os, handler ≠ fanout →
    Keeps w fanout config os chores batch m →
    Keeps w fanout config os chores batch (m.invoke w handler event)

namespace Keeps

/-- A chore that enters no sub-request is done. -/
theorem did (h : Keeps w me config os (c :: chores) batch m) (hc : c.rank < 5) :
    ∃ cs m', m.run w (c.act me) = (.ok cs, m') ∧ (∀ c' ∈ cs, c'.rank < c.rank) ∧
      Keeps w me config os (cs ++ chores) batch m' := by
  obtain ⟨htimely, os', hcourse⟩ := h
  have hfree : c.Free m.world := by
    cases c with
    | enter d timer => exact absurd hc (Nat.lt_irrefl 5)
    | _ => trivial
  have hsoon : c.Timely m := by
    cases c with
    | time d timeout => exact absurd hc (show ¬ 7 < 5 by decide)
    | expire timer => exact fun _ _ => htimely
    | _ => trivial
  obtain ⟨es, cs, m', hrun, hdoes⟩ := run_act (w := w) hcourse.story.sound hfree hsoon
  have hdone := hcourse.did (.refl _) hfree (congrArg Prod.fst hrun)
  rw [hrun] at hdone
  refine ⟨cs, m', hrun, hdoes.acts.rank, ?_, _ :: os', hdone⟩
  unfold Timely
  rw [hdoes.acts.configured, hdoes.clock]
  exact htimely

/-- It is carried out to its end. -/
theorem carryOut (h : Keeps w me config os (c :: chores) batch m) (hc : c.rank < 5) :
    ∃ m', m.run w (c.carryOut me) = (.ok (), m') ∧ Keeps w me config os chores batch m' :=
  Machine.run_carryOut (P := fun m chores => Keeps w me config os chores batch m)
    (fun _ _ _ hc h => h.did hc) hc (Nat.lt_of_lt_of_le hc (by decide)) h

/-- The loop goes on, and nothing changes for the fan-out. -/
theorem moved (h : Keeps w me config os chores batch m) (hworld : m'.world = m.world)
    (hclock : m'.clock = m.clock) (htimers : m'.timers = m.timers) :
    Keeps w me config os chores batch m' := by
  obtain ⟨htimely, os', hcourse⟩ := h
  refine ⟨?_, _ :: os', hcourse.moved hworld hclock htimers⟩
  unfold Timely
  rw [hworld, hclock]
  exact htimely

/-- The timers that are due are taken out. -/
theorem due (h : Keeps w me config os chores [] m) :
    Keeps w me config os chores (m.timers.popDue m.clock).1
      { m with timers := (m.timers.popDue m.clock).2 } := by
  obtain ⟨htimely, os', hcourse⟩ := h
  exact ⟨htimely, _ :: os', hcourse.due m.clock (Nat.le_refl _)⟩

/-- The fan-out handles an event. -/
theorem handle (h : Keeps w me config os (Fanout.chores e ++ chores) batch m) :
    ∃ m', m.run w (Fanout.handle me e) = (.ok (), m') ∧ Keeps w me config os chores batch m' := by
  rw [← handle_eq]
  cases e with
  | data endpoint payload =>
    rw [show Fanout.chores (.data endpoint payload) = [.reply endpoint payload] from rfl,
      Program.each_singleton]
    exact h.carryOut (show 2 < 5 by decide)
  | timer timer =>
    rw [show Fanout.chores (.timer timer) = [.expire timer] from rfl, Program.each_singleton]
    exact h.carryOut (show 4 < 5 by decide)
  | state endpoint state =>
    unfold Fanout.chores at h ⊢
    dsimp only at h ⊢
    split at h
    · rename_i hterminal
      rw [if_pos hterminal, Program.each_singleton]
      exact h.carryOut (show 2 < 5 by decide)
    · rename_i hterminal
      rw [if_neg hterminal]
      exact ⟨m, rfl, h⟩

/-- A handler is told of an event that is not about a timer. -/
theorem invoke (hw : Courteous w me config) (h : Keeps w me config os chores batch m) (handler : η)
    {e : Event} (he : ∀ timer, e ≠ .timer timer) :
    Keeps w me config os chores batch (m.invoke w handler e) := by
  by_cases heq : handler = me
  · subst heq
    obtain ⟨htimely, os', hcourse⟩ : Keeps w handler config os chores batch
      (m.record (.invoked handler e)) := h.moved rfl rfl rfl
    have hcalled : Keeps w handler config os (Fanout.chores e ++ chores) batch
        (m.record (.invoked handler e)) := by
      refine ⟨htimely, os', ?_⟩
      cases e with
      | data endpoint payload => exact hcourse.called _ trivial rfl
      | timer timer => exact absurd rfl (he timer)
      | state endpoint state =>
        unfold Fanout.chores
        dsimp only
        split
        · exact hcourse.called _ trivial rfl
        · exact hcourse
    obtain ⟨m', hrun, hkeeps⟩ := hcalled.handle
    unfold Machine.invoke
    rw [hw.own, hrun]
    exact hkeeps
  · exact hw.others handler e m chores batch os heq h

/-- The next timer of the batch is handed over. -/
theorem hand (hw : Courteous w me config) {timer : Nat}
    (h : Keeps w me config os chores ((timer, handler) :: batch) m) :
    Keeps w me config os chores batch (m.invoke w handler (.timer timer)) := by
  by_cases heq : handler = me
  · subst heq
    obtain ⟨htimely, os', hcourse⟩ : Keeps w handler config os chores ((timer, handler) :: batch)
      (m.record (.invoked handler (.timer timer))) := h.moved rfl rfl rfl
    have hcalled : Keeps w handler config os (Fanout.chores (.timer timer) ++ chores) batch
      (m.record (.invoked handler (.timer timer))) := ⟨htimely, os', hcourse.fired⟩
    obtain ⟨m', hrun, hkeeps⟩ := hcalled.handle
    unfold Machine.invoke
    rw [hw.own, hrun]
    exact hkeeps
  · obtain ⟨htimely, os', hcourse⟩ := h
    exact hw.others handler _ m chores batch os heq ⟨htimely, os', hcourse.passed heq⟩

/-- All timers that are due are handed over. -/
theorem fire (hw : Courteous w me config) (h : Keeps w me config os chores [] m) :
    Keeps w me config os chores [] (m.fire w) := by
  have hfold : ∀ (due : List (Nat × η)) (m : Machine κ η State τ ν),
      Keeps w me config os chores due m → Keeps w me config os chores []
        (due.foldl (fun m timer => m.invoke w timer.2 (.timer timer.1)) m) := by
    intro due
    induction due with
    | nil => exact fun _ h => h
    | cons timer rest ih => exact fun m h => ih _ (h.hand hw)
  exact hfold _ _ h.due

theorem dispatch (hw : Courteous w me config) (h : Keeps w me config os chores batch m)
    (e : Event) : Keeps w me config os chores batch (m.dispatch w e) := by
  unfold Machine.dispatch
  cases e with
  | timer id => exact h
  | data endpoint payload =>
    dsimp only
    split
    · exact h.invoke hw _ nofun
    · exact h
  | state endpoint state =>
    dsimp only
    split
    · refine invoke hw ?_ _ nofun
      split
      · exact h.moved rfl rfl rfl
      · exact h
    · exact h

/-- A round of the loop goes on with a course. -/
theorem round (hw : Courteous w me config) (h : Keeps w me config os chores [] m) :
    Keeps w me config os chores [] (m.round w) := by
  have hfired := h.fire hw
  unfold Machine.round Machine.takeSignal
  split
  · exact hfired
  · exact hfired.moved rfl rfl rfl
  · rename_i e rest _
    have hrest : Keeps w me config os chores [] { m.fire w with queue := rest } :=
      hfired.moved rfl rfl rfl
    exact hrest.dispatch hw e

/-- So does the loop that is left to itself, until it is asked to end. -/
theorem settle (hw : Courteous w me config) (h : Keeps w me config os chores [] m) (rounds : Nat) :
    Keeps w me config os chores [] (m.settle w rounds) ∨
      ∃ m', Keeps w me config os chores [] m' ∧ m'.phase = .stopping ∧
        m.settle w rounds = m'.finish := by
  induction rounds generalizing m with
  | zero => exact .inl h
  | succ rounds ih =>
    unfold Machine.settle
    split
    · exact .inl h
    · rename_i hphase
      exact .inr ⟨m, h, hphase, rfl⟩
    · split
      · exact .inl h
      · exact ih (h.round hw)

end Keeps

/-- The script has a handler of its own, which does nothing. -/
theorem courteous_destinations (config : Config) :
    Courteous Scenario.Destinations.stage.wiring (some ()) config where
  own := rfl
  others := by
    intro handler event m chores batch os hne h
    cases handler with
    | some u => exact absurd rfl hne
    | none => exact h.moved rfl rfl rfl

end LeaseLock.Fanout
