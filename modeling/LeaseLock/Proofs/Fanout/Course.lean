import LeaseLock.Proofs.Fanout.Story
import LeaseLock.Proofs.Fanout.Turning
import LeaseLock.Proofs.Reactor.Execution

/-
  LeaseLock: the course of a fan-out in the event loop.
  A `Course` is any sequence of what goes on in the loop of a fan-out: commands are scattered and
  events are handled, one chore after another and each when it comes to it, timers that are due
  are taken out and handed over one by one, and others ask the loop for whatever they like, but for
  the timers of sub-requests and for what the fan-out remembers (`Polite`).  Along a course the
  fates of all sub-requests stay in step with the tables of the fan-out, with the timers of the
  loop, and with the errands of the fan-out (`Course.steady`).
-/

namespace LeaseLock.Fanout

open Reactor

variable {κ η τ ν : Type} {w : Wiring κ η State τ ν} {me : η} {config : Config}
  {m m' : Machine κ η State τ ν} {s' : State} {c : Chore} {cs chores waiting : List Chore}
  {es : List (Errand η)} {batch : List (Nat × η)} {os : List (Occasion κ η τ ν)} {f : Fate}

/-! ## Courses -/

/-- The errands that the fan-out runs at an occasion. -/
def Occasion.errands (w : Wiring κ η State τ ν) (me : η) : Occasion κ η τ ν → List (Errand η)
  | .did m _ c => m.errandsOf w (c.act me)
  | .others _ _ => []

/-- What others may ask of the loop: they leave the timers of pending sub-requests alone and those
that are still to be entered, and what the fan-out remembers but for the countdowns. -/
def Polite (m : Machine κ η State τ ν) (chores : List Chore) : Request κ η State ν → Prop
  | .cancel timer => m.world.byTimer.get? timer = none ∧ timer ∉ chores.filterMap Chore.loose?
  | .remember s => s = { m.world with countdowns := s.countdowns }
  | _ => True

/-- What goes on in the loop of a fan-out, until it ends: the chores that wait, the timers of the
batch that have been taken out and are still to be handed over, and the occasions so far, newest
first. -/
inductive Course (w : Wiring κ η State τ ν) (me : η) (config : Config) :
    Machine κ η State τ ν → List Chore → List (Nat × η) → List (Occasion κ η τ ν) → Prop
  /-- Nothing has happened. -/
  | start (links : τ) : Course w me config (.start (.empty config) links) [] [] []
  /-- Others ask something of the loop. -/
  | asked {m : Machine κ η State τ ν} {chores : List Chore} {batch : List (Nat × η)}
      {os : List (Occasion κ η τ ν)} (before : Course w me config m chores batch os)
      (r : Request κ η State ν) (polite : Polite m chores r) :
      Course w me config (m.perform w r).2 chores batch
        (.others m (m.perform w r).2.world.countdowns :: os)
  /-- The loop goes on; neither the timers nor what the fan-out remembers have changed. -/
  | moved {m m' : Machine κ η State τ ν} {chores : List Chore} {batch : List (Nat × η)}
      {os : List (Occasion κ η τ ν)} (before : Course w me config m chores batch os)
      (world : m'.world = m.world) (clock : m'.clock = m.clock) (timers : m'.timers = m.timers) :
      Course w me config m' chores batch (.others m m.world.countdowns :: os)
  /-- A command is to be scattered, or a frame or the end of an endpoint to be handled. -/
  | called {m : Machine κ η State τ ν} {chores : List Chore} {batch : List (Nat × η)}
      {os : List (Occasion κ η τ ν)} (before : Course w me config m chores batch os) (c : Chore)
      (calls : c.IsCall) (given : c.expires? = none) : Course w me config m (c :: chores) batch os
  /-- One of the waiting chores is done; the clock can name its deadline, and its id is free. -/
  | did {m : Machine κ η State τ ν} {chores waiting cs : List Chore} {c : Chore}
      {batch : List (Nat × η)} {os : List (Occasion κ η τ ν)}
      (before : Course w me config m chores batch os) (next : chores.Perm (c :: waiting))
      (free : c.Free m.world) (ok : (m.run w (c.act me)).1 = .ok cs) :
      Course w me config (m.run w (c.act me)).2 (cs ++ waiting) batch (.did m waiting c :: os)
  /-- A round begins: the clock has been read, and the timers that were due by then are taken
  out. -/
  | due {m : Machine κ η State τ ν} {chores : List Chore} {os : List (Occasion κ η τ ν)}
      (before : Course w me config m chores [] os) (now : Nat) (read : now ≤ m.clock) :
      Course w me config { m with timers := (m.timers.popDue now).2 } chores
        (m.timers.popDue now).1 (.others m m.world.countdowns :: os)
  /-- The next of them is handed to the fan-out. -/
  | fired {m : Machine κ η State τ ν} {chores : List Chore} {timer : Nat} {batch : List (Nat × η)}
      {os : List (Occasion κ η τ ν)}
      (before : Course w me config m chores ((timer, me) :: batch) os) :
      Course w me config m (.expire timer :: chores) batch os
  /-- The next of them is handed to somebody else. -/
  | passed {m : Machine κ η State τ ν} {chores : List Chore} {timer : Nat} {handler : η}
      {batch : List (Nat × η)} {os : List (Occasion κ η τ ν)}
      (before : Course w me config m chores ((timer, handler) :: batch) os)
      (other : handler ≠ me) : Course w me config m chores batch os

theorem nextId_le_timersAfter (m : Machine κ η State τ ν) (r : Request κ η State ν) :
    m.timers.nextId ≤ (m.timersAfter r).nextId := by
  cases r with
  | schedule deadline handler => exact Nat.le_succ _
  | cancel timer => exact Nat.le_of_eq (Machine.nextId_cancel _ _).symm
  | _ => exact Nat.le_refl _

theorem world_perform {r : Request κ η State ν} (h : Polite m chores r) :
    (m.perform w r).2.world =
      { m.world with countdowns := (m.perform w r).2.world.countdowns } := by
  have hsame : ∀ m' : Machine κ η State τ ν, m'.world = m.world →
      m'.world = { m.world with countdowns := m'.world.countdowns } := by
    intro m' heq
    rw [heq]
  cases r with
  | send endpoint frame =>
    obtain ⟨links, queue, heq⟩ := m.send_eq (w := w) endpoint frame
    exact hsame (m.send w endpoint frame).2 (by rw [heq])
  | deliver event =>
    obtain ⟨queue, heq⟩ := m.deliver_eq event
    exact hsame (m.deliver event).2 (by rw [heq])
  | schedule deadline handler =>
    exact hsame _ (Machine.traced_schedule deadline handler m).world
  | elapse duration =>
    refine hsame (m.answer w (.elapse duration)).2 ?_
    dsimp only [Machine.answer]
    split <;> rfl
  | remember s => exact h
  | register | deregister | link | cancel | now | shutdown | isShutdown | pendingTimers
  | endpointCount | world | note => rfl

/-- A course is a story. -/
theorem Course.story (h : Course w me config m chores batch os) :
    Story w me config m chores os := by
  induction h with
  | start links => exact .start links
  | @asked m _ _ _ before r polite ih =>
    refine ih.others _ (world_perform polite) ?_
    exact Nat.le_trans (nextId_le_timersAfter m r)
      (Nat.le_of_eq (congrArg TimerQueue.nextId (m.answered_answer w r).timers).symm)
  | moved before world clock timers ih =>
    exact ih.others _ world (Nat.le_of_eq (congrArg TimerQueue.nextId timers).symm)
  | called before c calls given ih => exact ih.called c calls
  | did before next free ok ih => exact ih.did next free ok
  | due before now read ih => exact ih.others _ rfl (Nat.le_refl _)
  | fired before ih => exact ih.called _ trivial
  | passed before other ih => exact ih

/-- A course goes on with the chores that wait. -/
theorem Course.advance (h : Course w me config m chores batch os) (n : Nat)
    (hsome : (advance w me n m chores).isSome) :
    let r := (Fanout.advance w me n m chores).get hsome
    Course w me config r.1 r.2.1 batch (r.2.2 ++ os) :=
  advance_induction (P := fun m chores os => Course w me config m chores batch os)
    (fun _ _ _ _ _ h free ok => h.did (.refl _) free ok) h n hsome

/-! ## What is kept -/

namespace Fate

/-- A sub-request is not sent again more often than it may be. -/
theorem retries_next (h : f.retries ≤ m.world.config.maxRetries) (c : Chore) :
    (f.next m c).retries ≤ m.world.config.maxRetries := by
  have honly : ∀ id e, (f.only id (close e)).retries ≤ m.world.config.maxRetries := by
    intro id e
    unfold only
    split <;> exact h
  cases c with
  | reply endpoint payload =>
    unfold next
    dsimp only
    cases Wire.Response.decode payload with
    | error e => exact h
    | ok response =>
      dsimp only
      split
      · exact honly _ _
      · exact h
  | expire timer =>
    unfold next
    dsimp only
    split
    · split
      · exact h
      · rename_i hmore
        exact Nat.lt_of_not_le hmore
    · exact h
  | giveUp id => exact honly id _
  | close endpoint =>
    unfold next
    dsimp only
    split <;> exact h
  | scatter | name | time | schedule | enter | count | send | cancel | settle | complete => exact h

/-- When its timer is handled, a sub-request ends or is sent once more. -/
theorem next_expire (h : f.isOpen = true) (m : Machine κ η State τ ν) :
    (f.next m (.expire f.timer)).isOpen = false ∨
      (f.next m (.expire f.timer)).retries = f.retries + 1 := by
  unfold next
  dsimp only
  rw [if_pos ⟨h, rfl⟩]
  split
  · exact .inl rfl
  · exact .inr rfl

end Fate

/-- How sub-requests are sent never changes. -/
theorem Acts.configured (h : Acts me m c s' es cs) : s'.config = m.world.config := by
  cases h with
  | settle id token outcome => cases outcome <;> rfl
  | close endpoint =>
    exact sweep_sentTo _ (P := fun _ s' => s'.config = m.world.config) rfl fun _ _ _ _ h _ => h
  | _ => rfl

/-- The first timer of a sub-request is planned to fire in time. -/
theorem Acts.planned {horizon : Nat} (h : Acts me m c s' es cs)
    (hc : c.Planned m.world.config.timeout horizon)
    (hle : m.clock + m.world.config.timeout ≤ horizon) :
    ∀ c' ∈ cs, c'.Planned m.world.config.timeout horizon := by
  have hstopping : ∀ {id : Nat} {p : Pending} {outcome : Outcome},
      ∀ c' ∈ stopping id p outcome, c'.Planned m.world.config.timeout horizon := by
    intro id p outcome c' hc'
    rcases List.mem_cons.1 hc' with rfl | hc'
    · trivial
    · exact List.mem_singleton.1 hc' ▸ trivial
  intro c' hc'
  cases h with
  | scatter countdown command targets =>
    obtain ⟨target, left, rfl⟩ := mem_unnamed hc'
    trivial
  | name command token target left =>
    obtain rfl := List.mem_singleton.1 hc'
    exact (rfl : m.world.config.timeout = m.world.config.timeout)
  | time d timeout =>
    obtain rfl := List.mem_singleton.1 hc'
    have hsame : timeout = m.world.config.timeout := hc
    rw [hsame]
    exact hle
  | schedule | enter | count | refused | settle | exhausted | again =>
    obtain rfl := List.mem_singleton.1 hc'
    trivial
  | gaveUp found => exact hstopping c' hc'
  | answered decoded found => exact hstopping c' hc'
  | close endpoint =>
    obtain ⟨e, -, he⟩ := List.mem_flatMap.1 hc'
    exact hstopping c' he
  | sent | gone | cancel | complete | stray | unknown => cases hc'

theorem Chore.Planned.later {timeout horizon horizon' : Nat} (h : c.Planned timeout horizon)
    (hle : horizon ≤ horizon') : c.Planned timeout horizon' := by
  cases c with
  | schedule d deadline => exact Nat.le_trans h hle
  | _ => exact h

/-- The fates of all sub-requests are as the tables say and as the timers do, and so are the
errands of the fan-out. -/
structure Steady (w : Wiring κ η State τ ν) (me : η) (config : Config) (m : Machine κ η State τ ν)
    (chores : List Chore) (batch : List (Nat × η)) (os : List (Occasion κ η τ ν)) : Prop where
  configured : m.world.config = config
  followed : Followed (fun _ => true) (fates (fun _ => true) os) m.world
  turning : Turning me (m.clock + config.timeout) (fates (fun _ => true) os) chores m.timers batch
    (os.filterMap Occasion.fired?)
  planned : ∀ c ∈ chores, c.Planned config.timeout (m.clock + config.timeout)
  booked : Booked (fates (fun _ => true) os) chores (os.flatMap (Occasion.errands w me))
  bounded : ∀ f ∈ fates (fun _ => true) os, f.retries ≤ config.maxRetries

namespace Steady

theorem start (links : τ) : Steady w me config (.start (.empty config) links) [] [] [] :=
  ⟨rfl, .empty _ config, Wheel.empty me _, nofun, ⟨.nil, .nil⟩, nofun⟩

/-- It does not matter in which order chores wait. -/
theorem perm (h : Steady w me config m chores batch os) (hp : chores.Perm cs) :
    Steady w me config m cs batch os :=
  { h with
    turning := h.turning.perm hp
    planned := fun c hc => h.planned c (hp.mem_iff.2 hc)
    booked := h.booked.perm hp }

/-- Nothing happens to sub-requests; what happens to the timers keeps the wheel going. -/
theorem others (h : Steady w me config m chores batch os)
    (hconfig : m'.world.config = m.world.config) (hpending : m'.world.pending = m.world.pending)
    (hclock : m.clock ≤ m'.clock) {batch' : List (Nat × η)}
    (hturning : Turning me (m'.clock + config.timeout) (fates (fun _ => true) os) chores m'.timers
      batch' (os.filterMap Occasion.fired?)) (countdowns : Table Countdown) :
    Steady w me config m' chores batch' (.others m countdowns :: os) := by
  have hsame : fates (fun _ => true) (.others m countdowns :: os) = fates (fun _ => true) os :=
    List.append_nil _
  refine ⟨hconfig.trans h.configured, ?_, ?_, fun c hc => ?_, ?_, ?_⟩
  · rw [hsame]
    exact h.followed.of_pending hpending
  · rw [hsame]
    exact hturning
  · exact (h.planned c hc).later (Nat.add_le_add_right hclock _)
  · rw [hsame]
    exact h.booked
  · rw [hsame]
    exact h.bounded

/-- Others ask something of the loop. -/
theorem asked (h : Steady w me config m chores batch os)
    (hs : InStep m.world.byTimer m.world.pending) {r : Request κ η State ν}
    (polite : Polite m chores r) :
    Steady w me config (m.perform w r).2 chores batch
      (.others m (m.perform w r).2.world.countdowns :: os) := by
  have hworld := world_perform (w := w) polite
  have hanswered := m.answered_answer w r
  have hconfig : (m.perform w r).2.world.config = m.world.config := by rw [hworld]
  have hpending : (m.perform w r).2.world.pending = m.world.pending := by rw [hworld]
  refine h.others hconfig hpending hanswered.clock ?_ _
  have hlater := Wheel.later h.turning (Nat.add_le_add_right hanswered.clock config.timeout)
  show Turning _ _ _ _ (m.answer w r).2.timers _ _
  rw [hanswered.timers]
  cases r with
  | schedule deadline handler => exact hlater.schedule deadline handler
  | cancel timer =>
    obtain ⟨hunknown, hloose⟩ := polite
    refine hlater.without (TimerQueue.without_cancel hlater.wf timer) hloose fun f hf hopen heq => ?_
    cases hunknown.symm.trans (heq ▸ h.followed.byTimer hs hf hopen)
  | _ => exact hlater

theorem called (h : Steady w me config m chores batch os) (hc : c.IsCall)
    (hgiven : c.expires? = none) : Steady w me config m (c :: chores) batch os := by
  obtain ⟨hconfig, hfollowed, hturning, hplanned, hbooked, hbounded⟩ := h
  cases c with
  | scatter | reply | close =>
    refine ⟨hconfig, hfollowed, hturning, fun c hc => ?_, ⟨hbooked.timers, hbooked.sends⟩, hbounded⟩
    rcases List.mem_cons.1 hc with rfl | hc
    · trivial
    · exact hplanned c hc
  | expire timer => cases hgiven
  | _ => exact hc.elim

/-- A chore is done. -/
theorem did (h : Steady w me config m (c :: waiting) batch os)
    (hs : InStep m.world.byTimer m.world.pending) (hdoes : Does me m c es cs m')
    (herrands : es = m.errandsOf w (c.act me)) :
    Steady w me config m' (cs ++ waiting) batch (.did m waiting c :: os) := by
  obtain ⟨rfl, hfollowed, hturning, hplanned, hbooked, hbounded⟩ := h
  have hc := hplanned c List.mem_cons_self
  constructor
  · exact hdoes.acts.configured
  · exact hfollowed.acts hs hdoes.acts os
  · rw [hdoes.clock]
    exact hturning.acts hfollowed hs hdoes.acts hdoes.did.timers hc (Nat.le_refl _)
  · rw [hdoes.clock]
    intro c' hc'
    rcases List.mem_append.1 hc' with hc' | hc'
    · exact hdoes.acts.planned hc (Nat.le_refl _) c' hc'
    · exact hplanned c' (List.mem_cons_of_mem c hc')
  · rw [List.flatMap_cons, Occasion.errands, ← herrands]
    exact hbooked.acts hfollowed hs hdoes.acts
  · intro g hg
    rcases List.mem_append.1 hg with hg | hg
    · obtain ⟨f, hf, rfl⟩ := List.mem_map.1 hg
      exact Fate.retries_next (hbounded f hf) c
    · cases c with
      | enter d timer =>
        obtain rfl := List.mem_singleton.1 hg
        exact Nat.zero_le _
      | _ => cases hg

/-- The timers that are due are taken out. -/
theorem due (h : Steady w me config m chores [] os) (now : Nat) :
    Steady w me config { m with timers := (m.timers.popDue now).2 } chores
      (m.timers.popDue now).1 (.others m m.world.countdowns :: os) := by
  have hpopped := Wheel.popDue h.turning now
  rw [List.append_nil] at hpopped
  have hturning : Turning me (m.clock + config.timeout) (fates (fun _ => true) os) chores
      (m.timers.popDue now).2 (m.timers.popDue now).1 (os.filterMap Occasion.fired?) :=
    hpopped.perm (.refl _) (.refl _) List.perm_append_comm
  exact h.others (by rfl) (by rfl) (by exact Nat.le_refl m.clock) hturning _

/-- The next timer is handed to the fan-out. -/
theorem fired {timer : Nat} (h : Steady w me config m chores ((timer, me) :: batch) os) :
    Steady w me config m (.expire timer :: chores) batch os := by
  obtain ⟨hconfig, hfollowed, hturning, hplanned, hbooked, hbounded⟩ := h
  refine ⟨hconfig, hfollowed, ?_, fun c hc => ?_, ⟨hbooked.timers, hbooked.sends⟩, hbounded⟩
  · exact Wheel.perm hturning (.refl _) (.refl _) List.perm_middle
  · rcases List.mem_cons.1 hc with rfl | hc
    · trivial
    · exact hplanned c hc

theorem passed {timer : Nat} {handler : η}
    (h : Steady w me config m chores ((timer, handler) :: batch) os) (other : handler ≠ me) :
    Steady w me config m chores batch os := by
  obtain ⟨hconfig, hfollowed, hturning, hplanned, hbooked, hbounded⟩ := h
  refine ⟨hconfig, hfollowed, ?_, hplanned, hbooked, hbounded⟩
  exact (Wheel.perm hturning (.refl _) (.refl _) List.perm_middle).passed other

end Steady

/-- Whatever goes on, the fates stay in step with the tables, the timers and the errands. -/
theorem Course.steady (h : Course w me config m chores batch os) :
    Steady w me config m chores batch os := by
  induction h with
  | start links => exact .start links
  | asked before r polite ih => exact ih.asked before.story.sound.balanced.timers polite
  | moved before world clock timers ih =>
    refine ih.others (congrArg State.config world) (congrArg State.pending world)
      (Nat.le_of_eq clock.symm) ?_ _
    rw [clock, timers]
    exact ih.turning
  | called before c calls given ih => exact ih.called calls given
  | did before next free ok ih =>
    obtain ⟨es, hdoes⟩ := before.story.does next free ok
    exact (ih.perm next).did before.story.sound.balanced.timers hdoes
      hdoes.did.errandsOf_eq.symm
  | due before now read ih => exact ih.due now
  | fired before ih => exact ih.fired
  | passed before other ih => exact ih.passed other

end LeaseLock.Fanout
