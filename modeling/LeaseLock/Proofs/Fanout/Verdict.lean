import LeaseLock.Proofs.Fanout.Fate

/-
  LeaseLock: the verdict of a fan-out.
  The countdown of a fan-out sums up the fates of its sub-requests, but for the failures that chores
  still have in hand (`Summed`).  A failure is noted before its task is counted, and a retry while the
  task is open, so neither comes too late: when a fan-out is done, its verdict is about all of its
  targets (`Story.verdict_exact`).  A frame that no sub-request of its endpoint waits for changes
  nothing.  What the verdict cannot know is a timeout that nobody has noticed, because the timer had
  fired before its sub-request was entered, or because the clock ran over (`verdict_of_unnoticed`).
-/

namespace LeaseLock.Fanout

open Reactor

variable {κ η τ ν : Type} {w : Wiring κ η State τ ν} {self : η} {config : Config}
  {m m₀ : Machine κ η State τ ν} {s s' : State} {fs fs' : List Fate} {f : Fate} {token : Token}
  {c : Chore} {cs chores waiting : List Chore} {es : List (Errand η)} {targets : List Nat}
  {id timer : Nat} {p : Pending} {count count' : Countdown}

/-! ## Sums of fates -/

namespace Chore

/-- A chore is to complete a task of this token that has failed. -/
def fails (token : Token) : Chore → Bool
  | .settle _ used outcome => decide (used = token) && outcome.isFailure
  | .complete _ used failed => decide (used = token) && failed
  | _ => false

/-- Where the sub-request is to be sent that a chore has in hand, if it has this token. -/
def aims? (token : Token) : Chore → Option Nat
  | .name _ used target _ => if used = token then some target.1 else none
  | .time d _ | .schedule d _ | .enter d _ => if d.token = token then some d.endpoint else none
  | _ => none

theorem holds_of_fails {c : Chore} (h : c.fails token = true) : c.holds token = true := by
  cases c <;> simp_all [fails, holds]

theorem holds_of_aims {c : Chore} (h : (c.aims? token).isSome) : c.holds token = true := by
  cases c <;> simp_all [aims?, holds]

end Chore

theorem aims_singleton (c : Chore) : [c].filterMap (Chore.aims? token) = (c.aims? token).toList := by
  rw [List.filterMap_cons]
  cases c.aims? token <;> rfl

/-- The countdown and the chores that wait sum up the fates of a fan-out to these endpoints. -/
structure Summed (token : Token) (targets : List Nat) (chores : List Chore) (fs : List Fate)
    (count : Countdown) : Prop where
  errors : (count.errors || chores.any (Chore.fails token)) = fs.any Fate.isFailed
  retries : count.retries = fs.any Fate.isRetried
  targets : (fs.map Fate.endpoint ++ chores.filterMap (Chore.aims? token)).Perm targets

namespace Summed

theorem perm (h : Summed token targets chores fs count) (hp : chores.Perm cs) :
    Summed token targets cs fs count where
  errors := hp.any_eq ▸ h.errors
  retries := h.retries
  targets := ((hp.filterMap _).append_left _).symm.trans h.targets

/-- A chore is done: its failures, and perhaps another one, are noted or in hand. -/
theorem step (h : Summed token targets (c :: waiting) fs count) (failed retried : Bool)
    (hfailed : fs'.any Fate.isFailed = (fs.any Fate.isFailed || failed))
    (herrors : (count'.errors || cs.any (Chore.fails token)) =
      (count.errors || c.fails token || failed))
    (hretried : fs'.any Fate.isRetried = (fs.any Fate.isRetried || retried))
    (hretries : count'.retries = (count.retries || retried))
    (htargets : (fs'.map Fate.endpoint ++ cs.filterMap (Chore.aims? token)).Perm
      (fs.map Fate.endpoint ++ (c.aims? token).toList)) :
    Summed token targets (cs ++ waiting) fs' count' where
  errors := by
    have hbefore := h.errors
    rw [List.any_cons, ← Bool.or_assoc] at hbefore
    rw [hfailed, ← hbefore, List.any_append, ← Bool.or_assoc, herrors]
    exact Bool.or_right_comm _ _ _
  retries := by rw [hretried, hretries, h.retries]
  targets := by
    have hbefore := h.targets
    rw [← List.singleton_append, List.filterMap_append, aims_singleton, ← List.append_assoc] at hbefore
    rw [List.filterMap_append, ← List.append_assoc]
    exact (htargets.append_right _).trans hbefore

/-- Neither fates nor flags change, and what is in hand stays so. -/
theorem still (h : Summed token targets (c :: waiting) fs count)
    (herrors : count'.errors = count.errors) (hretries : count'.retries = count.retries)
    (hfails : cs.any (Chore.fails token) = c.fails token)
    (haims : cs.filterMap (Chore.aims? token) = (c.aims? token).toList) :
    Summed token targets (cs ++ waiting) fs count' := by
  refine h.step false false (Bool.or_false _).symm ?_ (Bool.or_false _).symm ?_ ?_
  · rw [herrors, hfails, Bool.or_false]
  · rw [hretries, Bool.or_false]
  · rw [haims]

end Summed

/-! ## Changes of fates -/

namespace Fate

theorem isFailed_of_isOpen (h : f.isOpen = true) : f.isFailed = false := by
  rw [isFailed, Option.isNone_iff_eq_none.1 h]
  rfl

theorem isRetried_only_close {e : Ending} : (f.only id (close e)).isRetried = f.isRetried := by
  unfold only
  split <;> rfl

theorem isFailed_only_resend : (f.only id (resend timer)).isFailed = f.isFailed := by
  unfold only
  split <;> rfl

theorem endpoint_only_close {e : Ending} : (f.only id (close e)).endpoint = f.endpoint := by
  unfold only
  split <;> rfl

theorem endpoint_only_resend : (f.only id (resend timer)).endpoint = f.endpoint := by
  unfold only
  split <;> rfl

theorem isRetried_lost (ids : List Nat) : (f.lost ids).isRetried = f.isRetried := by
  unfold lost
  split <;> rfl

theorem endpoint_lost (ids : List Nat) : (f.lost ids).endpoint = f.endpoint := by
  unfold lost
  split <;> rfl

end Fate

/-- A map that leaves it alone does not change whether some fate is so. -/
theorem any_map_of_eq {u : Fate → Fate} {q : Fate → Bool} (h : ∀ f, q (u f) = q f) :
    (fs.map u).any q = fs.any q := by
  rw [List.any_map]
  exact congrArg fs.any (funext h)

theorem endpoints_map_of_eq {u : Fate → Fate} (h : ∀ f, (u f).endpoint = f.endpoint) :
    (fs.map u).map Fate.endpoint = fs.map Fate.endpoint := by
  rw [List.map_map]
  exact List.map_congr_left fun f _ => h f

namespace Followed

variable (h : Followed (fun t => decide (t = token)) fs s) (hp : s.pending.get? id = some p)

include h hp

/-- A sub-request of this token that ends is one more that may have failed. -/
theorem any_isFailed_close (e : Ending) :
    (fs.map (.only id (.close e))).any Fate.isFailed =
      (fs.any Fate.isFailed || (decide (p.token = token) && e.isFailure)) := by
  by_cases htoken : p.token = token
  · obtain ⟨before, f, after, rfl, hopen, -, -, hmap⟩ := h.place hp (decide_eq_true htoken)
    rw [hmap, decide_eq_true htoken, List.any_append, List.any_append, List.any_cons, List.any_cons,
      Fate.isFailed_of_isOpen hopen]
    show (_ || (e.isFailure || _)) = _
    cases e.isFailure <;> simp
  · rw [h.only_others hp (by simpa using htoken), decide_eq_false htoken, Bool.false_and,
      Bool.or_false]

/-- One that is sent again is one more that was retried. -/
theorem any_isRetried_resend (timer : Nat) :
    (fs.map (.only id (.resend timer))).any Fate.isRetried =
      (fs.any Fate.isRetried || decide (p.token = token)) := by
  by_cases htoken : p.token = token
  · obtain ⟨before, f, after, rfl, -, -, -, hmap⟩ := h.place hp (decide_eq_true htoken)
    rw [hmap, decide_eq_true htoken, Bool.or_true, List.any_append, List.any_cons]
    show (_ || (true || _)) = true
    rw [Bool.true_or, Bool.or_true]
  · rw [h.only_others hp (by simpa using htoken), decide_eq_false htoken, Bool.or_false]

end Followed

/-- A sub-request that was taken out is to be completed as it has ended. -/
theorem any_fails_stopping (id : Nat) (p : Pending) (outcome : Outcome) :
    (stopping id p outcome).any (Chore.fails token) =
      (decide (p.token = token) && outcome.isFailure) := Bool.or_false _

/-- Sub-requests that are taken out with their endpoint have failed. -/
theorem any_isFailed_sweep (h : Followed (fun t => decide (t = token)) fs s) (endpoint : Nat) :
    (fs.map (.lost ((s.sentTo endpoint).map (·.1)))).any Fate.isFailed =
      (fs.any Fate.isFailed ||
        ((s.sentTo endpoint).flatMap fun e => stopping e.1 e.2 .lost).any (Chore.fails token)) := by
  refine (sweep_sentTo endpoint (P := fun es s' =>
    Followed (fun t => decide (t = token)) (fs.map (.lost (es.map (·.1)))) s' ∧
      (fs.map (.lost (es.map (·.1)))).any Fate.isFailed = (fs.any Fate.isFailed ||
        (es.flatMap fun e => stopping e.1 e.2 .lost).any (Chore.fails token)))
    ⟨?_, ?_⟩ fun swept id p s' ⟨hf, heq⟩ hp => ?_).2
  · exact (map_lost_nil fs).symm ▸ h
  · refine (congrArg (fun fs => fs.any Fate.isFailed) (map_lost_nil fs)).trans ?_
    exact (Bool.or_false _).symm
  · rw [List.map_append, List.map_singleton, ← map_only_lost]
    refine ⟨hf.without id p .closed, ?_⟩
    rw [hf.any_isFailed_close hp, heq, List.flatMap_append, List.flatMap_singleton, List.any_append,
      any_fails_stopping, Bool.or_assoc]
    rfl

/-! ## Changes of the countdown -/

theorem countdown_modify_self {name : Nat} (h : (s.countdown name).outstanding ≠ 0)
    (g : Countdown → Countdown) :
    ((s.countdowns.modify name g).get? name).getD .idle = g (s.countdown name) := by
  rw [Table.get?_modify, if_pos rfl]
  unfold State.countdown at *
  cases hc : s.countdowns.get? name with
  | none =>
    rw [hc] at h
    exact absurd rfl h
  | some c => rfl

/-- What is done with a token of another arming leaves the countdown as it is. -/
theorem countdown_modify_others {used : Token} (hne : used ≠ token)
    (hepoch : (s.countdown token.countdown).epoch = token.epoch) {g : Countdown → Countdown}
    (hg : ∀ c : Countdown, c.epoch ≠ used.epoch → g c = c) :
    ((s.countdowns.modify used.countdown g).get? token.countdown).getD .idle =
      s.countdown token.countdown := by
  by_cases hname : used.countdown = token.countdown
  · have hused : used.epoch ≠ token.epoch := by
      intro heq
      rw [ne_eq, Token.mk.injEq] at hne
      exact hne ⟨hname, heq⟩
    rw [hname, Table.get?_modify, if_pos rfl]
    unfold State.countdown at *
    cases hc : s.countdowns.get? token.countdown with
    | none => rfl
    | some c =>
      rw [hc] at hepoch
      exact hg c fun heq => hused (heq.symm.trans hepoch)
  · exact countdown_modify_of_ne hname g

/-- A task of this token that is completed notes whether it has failed. -/
theorem flags_complete (h : Tracked token s (.complete id token failed :: waiting) 0) :
    ((s.complete token failed).countdown token.countdown).errors =
        ((s.countdown token.countdown).errors || failed) ∧
      ((s.complete token failed).countdown token.countdown).retries =
        (s.countdown token.countdown).retries := by
  have htasks : s.tasks token (.complete id token failed :: waiting) - 0 =
      s.tasks token waiting + 1 := by
    have hholds : Chore.holds token (.complete id token failed) = true := decide_eq_true rfl
    rw [State.tasks, State.tasks, List.countP_cons_of_pos hholds]
    rfl
  unfold Tracked at h
  rw [htasks] at h
  have hpos : (s.countdown token.countdown).outstanding ≠ 0 := by
    rw [h.outstanding]
    exact Nat.succ_ne_zero _
  have hself := countdown_modify_self hpos fun c => (c.complete token.epoch failed).2
  unfold State.complete
  rw [State.countdown, hself]
  exact h.flags_complete failed

/-- A sub-request that is pending with this token and is sent again notes that. -/
theorem flags_resent (h : Tracked p.token s chores 0) (hp : s.pending.get? id = some p)
    (timer : Nat) :
    ((s.resent id p timer).countdown p.token.countdown).errors =
        (s.countdown p.token.countdown).errors ∧
      ((s.resent id p timer).countdown p.token.countdown).retries = true := by
  have hload := load_without p.token hp
  rw [if_pos rfl] at hload
  have hpos : s.tasks p.token chores - 0 ≠ 0 := by
    unfold State.tasks
    omega
  have hself := countdown_modify_self (h.outstanding ▸ hpos) fun c => c.retried p.token.epoch
  unfold State.resent
  rw [State.countdown, hself, Countdown.retried, if_pos h.epoch, h.markRetry, bne_iff_ne.2 hpos]
  exact ⟨rfl, Bool.or_true _⟩

/-! ## Chores and verdicts -/

/-- The fates of a fan-out, and what they come to. -/
structure Upheld (token : Token) (targets : List Nat) (chores : List Chore) (fs : List Fate)
    (s : State) : Prop where
  followed : Followed (fun t => decide (t = token)) fs s
  /-- No task with an equal token was there before. -/
  tracked : Tracked token s chores 0
  summed : Summed token targets chores fs (s.countdown token.countdown)

namespace Upheld

theorem perm (h : Upheld token targets chores fs s) (hp : chores.Perm cs) :
    Upheld token targets cs fs s :=
  ⟨h.followed, h.tracked.perm hp, h.summed.perm hp⟩

/-- A sub-request that is taken out ends, and is to be completed as it has ended. -/
theorem summed_without (h : Upheld token targets (c :: waiting) fs s)
    (hp : s.pending.get? id = some p) (e : Ending)
    (hc : c.fails token = false ∧ c.aims? token = none)
    (hfails : cs.any (Chore.fails token) = (decide (p.token = token) && e.isFailure))
    (haims : cs.filterMap (Chore.aims? token) = []) :
    Summed token targets (cs ++ waiting) (fs.map (.only id (.close e)))
      (s.countdown token.countdown) := by
  refine h.summed.step _ false (h.followed.any_isFailed_close hp e) ?_ ?_ (Bool.or_false _).symm ?_
  · rw [hfails, hc.1, Bool.or_false]
  · rw [any_map_of_eq fun f => Fate.isRetried_only_close, Bool.or_false]
  · rw [endpoints_map_of_eq fun f => Fate.endpoint_only_close, haims, hc.2]
    exact .refl _

/-- A task is completed. -/
theorem summed_complete {used : Token} {failed : Bool}
    (h : Upheld token targets (.complete id used failed :: waiting) fs s) :
    Summed token targets waiting fs ((s.complete used failed).countdown token.countdown) := by
  by_cases htoken : used = token
  · subst htoken
    obtain ⟨herrors, hretries⟩ := flags_complete h.tracked
    show Summed _ _ ([] ++ waiting) _ _
    refine h.summed.step false false (Bool.or_false _).symm ?_ (Bool.or_false _).symm ?_ (.refl _)
    · rw [herrors, Chore.fails, decide_eq_true rfl, Bool.true_and]
      rfl
    · rw [hretries, Bool.or_false]
  · have hsame : (s.complete used failed).countdown token.countdown =
        s.countdown token.countdown :=
      countdown_modify_others htoken h.tracked.epoch fun c hc => Countdown.complete_of_ne hc _
    rw [hsame]
    show Summed _ _ ([] ++ waiting) _ _
    refine h.summed.still rfl rfl ?_ rfl
    rw [Chore.fails, decide_eq_false htoken]
    rfl

/-- A sub-request is sent again. -/
theorem summed_resent (h : Upheld token targets (.expire p.timer :: waiting) fs s)
    (hp : s.pending.get? id = some p) (timer : Nat) :
    Summed token targets (.send id p.endpoint p.frame :: waiting)
      (fs.map (.only id (.resend timer))) ((s.resent id p timer).countdown token.countdown) := by
  have hflags : ((s.resent id p timer).countdown token.countdown).errors =
        (s.countdown token.countdown).errors ∧
      ((s.resent id p timer).countdown token.countdown).retries =
        ((s.countdown token.countdown).retries || decide (p.token = token)) := by
    by_cases htoken : p.token = token
    · subst htoken
      obtain ⟨herrors, hretries⟩ := flags_resent h.tracked hp timer
      exact ⟨herrors, by rw [hretries, decide_eq_true rfl, Bool.or_true]⟩
    · have hsame : (s.resent id p timer).countdown token.countdown =
          s.countdown token.countdown :=
        countdown_modify_others htoken h.tracked.epoch fun c hc => Countdown.retried_of_ne hc
      rw [hsame, decide_eq_false htoken, Bool.or_false]
      exact ⟨rfl, rfl⟩
  show Summed _ _ ([.send id p.endpoint p.frame] ++ waiting) _ _
  refine h.summed.step false _ ?_ ?_
    (h.followed.any_isRetried_resend hp timer) hflags.2 ?_
  · rw [any_map_of_eq fun f => Fate.isFailed_only_resend, Bool.or_false]
  · rw [hflags.1]
    exact (Bool.or_false _).symm
  · rw [endpoints_map_of_eq fun f => Fate.endpoint_only_resend]
    exact .refl _

/-- All sub-requests of an endpoint end. -/
theorem summed_close (h : Upheld token targets (.close id :: waiting) fs s) :
    Summed token targets
      ((s.sentTo id).flatMap (fun e => stopping e.1 e.2 .lost) ++ waiting)
      (fs.map (.lost ((s.sentTo id).map (·.1))))
      ((s.swept (s.sentTo id)).countdown token.countdown) := by
  have hsame : (s.swept (s.sentTo id)).countdowns = s.countdowns :=
    sweep_sentTo id (P := fun _ s' => s'.countdowns = s.countdowns) rfl fun _ _ _ _ h _ => h
  have haims := filterMap_stopping (g := Chore.aims? token) (fun _ => rfl) (fun _ _ _ => rfl)
    (s.sentTo id)
  unfold State.countdown
  rw [hsame]
  refine h.summed.step _ false (any_isFailed_sweep h.followed id) ?_ ?_ (Bool.or_false _).symm ?_
  · exact congrArg (fun b => b || _) (Bool.or_false _).symm
  · rw [any_map_of_eq fun f => f.isRetried_lost _, Bool.or_false]
  · rw [endpoints_map_of_eq fun f => f.endpoint_lost _, haims]
    exact .refl _

/-- A sub-request is entered: its endpoint passes from the chore to its fate. -/
theorem summed_entered {d : Draft}
    (h : Upheld token targets (.enter d timer :: waiting) fs s) (missed : Bool) :
    Summed token targets (.count d.id d.endpoint d.frame :: waiting)
      (fs ++ if decide (d.token = token) = true then [.enter d timer missed] else [])
      (s.countdown token.countdown) := by
  show Summed _ _ ([.count d.id d.endpoint d.frame] ++ waiting) _ _
  refine h.summed.step false false ?_ ?_ ?_ ?_ ?_
  · rw [List.any_append]
    split <;> rfl
  · exact (Bool.or_false _).symm
  · rw [List.any_append]
    split <;> rfl
  · rw [Bool.or_false]
  · rw [List.map_append]
    simp only [Chore.aims?, decide_eq_true_eq]
    split <;> exact .of_eq (List.append_nil _)

/-- The targets of a fan-out are in hand. -/
theorem aims_unnamed (command : UInt8) (token : Token) (targets : List (Nat × Bytes)) :
    (unnamed command token targets).filterMap (Chore.aims? token) = targets.map (·.1) := by
  induction targets with
  | nil => rfl
  | cons target rest ih =>
    rw [unnamed, List.filterMap_cons, Chore.aims?, if_pos rfl, ih]
    rfl

/-- Sub-requests of another token concern nobody. -/
theorem idle_unnamed (command : UInt8) (targets : List (Nat × Bytes)) {used : Token}
    (hne : used ≠ token) :
    (unnamed command used targets).any (Chore.fails token) = false ∧
      (unnamed command used targets).filterMap (Chore.aims? token) = [] := by
  constructor
  · refine List.any_eq_false.2 fun c hc => ?_
    obtain ⟨target, left, rfl⟩ := mem_unnamed hc
    exact Bool.false_ne_true
  · induction targets with
    | nil => rfl
    | cons target rest ih =>
      rw [unnamed, List.filterMap_cons, Chore.aims?, if_neg hne]
      exact ih

/-- Whichever chore is done, the fates of a fan-out are upheld, unless its countdown is armed. -/
theorem acts (h : Upheld token targets (c :: waiting) fs m.world)
    (hs : InStep m.world.byTimer m.world.pending) (hacts : Acts self m c s' es cs)
    (hother : c.arms? ≠ some token.countdown) (os : List (Occasion κ η τ ν)) :
    Upheld token targets (cs ++ waiting)
      (Occasion.pass fs (.did m waiting c) ++
        Occasion.opened (fun t => decide (t = token)) os (.did m waiting c)) s' := by
  refine ⟨h.followed.acts hs hacts os, h.tracked.acts hacts hother, ?_⟩
  cases hacts with
  | scatter countdown command targets' =>
    have hne : countdown ≠ token.countdown := fun heq => hother (congrArg some heq)
    obtain ⟨hfails, haims⟩ := idle_unnamed command targets'
      (fun heq => hne (congrArg Token.countdown heq) : (m.world.arm countdown targets'.length).1 ≠ token)
    show Summed token targets _ (fs.map (fun f => f) ++ []) _
    rw [countdown_arm_of_ne hne, List.map_id', List.append_nil]
    exact h.summed.still rfl rfl hfails haims
  | enter d timer free new =>
    show Summed token targets _ (fs.map (fun f => f) ++ _) _
    rw [List.map_id']
    exact h.summed_entered _
  | name | time | schedule | count | refused =>
    show Summed token targets _ (fs.map (fun f => f) ++ []) _
    rw [List.map_id', List.append_nil]
    exact h.summed.still rfl rfl (Bool.or_false _) (aims_singleton _)
  | sent | cancel =>
    show Summed token targets ([] ++ waiting) (fs.map (fun f => f) ++ []) _
    rw [List.map_id', List.append_nil]
    exact h.summed.still rfl rfl rfl rfl
  | settle id used outcome =>
    show Summed token targets ([.complete id used outcome.isFailure] ++ waiting)
      (fs.map (fun f => f) ++ []) _
    rw [List.map_id', List.append_nil]
    refine h.summed.still ?_ ?_ (Bool.or_false _) rfl
    · cases outcome <;> rfl
    · cases outcome <;> rfl
  | complete id used failed =>
    show Summed token targets waiting (fs.map (fun f => f) ++ []) _
    rw [List.map_id', List.append_nil]
    exact h.summed_complete
  | gaveUp found =>
    rw [Occasion.after_of_idle]
    · exact h.summed_without found .refused ⟨rfl, rfl⟩ (any_fails_stopping _ _ _) rfl
    · rfl
  | gone missing =>
    rw [Occasion.after_of_idle, map_next_gone h.followed missing]
    · exact h.summed.still rfl rfl rfl rfl
    · rfl
  | answered decoded found =>
    rw [Occasion.after_of_idle, map_next_answered h.followed decoded found]
    · exact h.summed_without found _ ⟨rfl, rfl⟩ (any_fails_stopping _ _ _) rfl
    · rfl
  | stray stray =>
    rw [Occasion.after_of_idle, map_next_stray h.followed stray]
    · exact h.summed.still rfl rfl rfl rfl
    · rfl
  | unknown unknown =>
    rw [Occasion.after_of_idle, map_next_unknown h.followed hs unknown]
    · exact h.summed.still rfl rfl rfl rfl
    · rfl
  | exhausted found enough =>
    rw [Occasion.after_of_idle, map_next_exhausted h.followed hs found enough]
    · exact h.summed_without found .exhausted ⟨rfl, rfl⟩ (Bool.or_false _) rfl
    · rfl
  | again found more new =>
    rw [Occasion.after_of_idle, map_next_again h.followed hs found more]
    · exact h.summed_resent found _
    · rfl
  | close endpoint =>
    rw [Occasion.after_of_idle, map_next_close h.followed]
    · exact h.summed_close
    · rfl

/-- A fan-out has just begun, with a token that no task has. -/
theorem armed (countdown : Nat) (command : UInt8) (targets : List (Nat × Bytes))
    (hfresh : s.tasks (s.arm countdown targets.length).1 waiting = 0) :
    let token := (s.arm countdown targets.length).1
    Upheld token (targets.map (·.1)) (unnamed command token targets ++ waiting) []
      (s.arm countdown targets.length).2 := by
  intro token
  obtain ⟨hload, hwaiting⟩ := Nat.add_eq_zero_iff.1 hfresh
  have hidle : ∀ c ∈ waiting, c.holds token ≠ true := List.countP_eq_zero.1 hwaiting
  have htracked := tracked_armed s countdown command targets waiting
  dsimp only at htracked
  rw [hfresh] at htracked
  refine ⟨⟨nofun, fun id p hp hmine => ?_, nofun, .nil⟩, htracked, ?_, ?_, ?_⟩
  · exact absurd hmine (List.countP_eq_zero.1 hload (id, p) (Table.mem_entries_iff.2 hp))
  · show (((s.arm countdown targets.length).2.countdown countdown).errors || _) = false
    rw [countdown_arm, Countdown.arm, Bool.false_or]
    refine List.any_eq_false.2 fun c hc hfails => ?_
    rcases List.mem_append.1 hc with hc | hc
    · obtain ⟨target, left, rfl⟩ := mem_unnamed hc
      cases hfails
    · exact hidle c hc (Chore.holds_of_fails hfails)
  · show ((s.arm countdown targets.length).2.countdown countdown).retries = false
    rw [countdown_arm, Countdown.arm]
  · have hnone : waiting.filterMap (Chore.aims? token) = [] := by
      refine List.filterMap_eq_nil_iff.2 fun c hc => Option.not_isSome_iff_eq_none.1 fun haims => ?_
      exact hidle c hc (Chore.holds_of_aims haims)
    rw [List.filterMap_append, hnone, aims_unnamed, List.append_nil]
    exact .refl _

theorem call (h : Upheld token targets chores fs s) (hc : c.IsCall) :
    Upheld token targets (c :: chores) fs s := by
  refine ⟨h.followed, h.tracked.call hc, ?_⟩
  obtain ⟨herrors, hretries, htargets⟩ := h.summed
  cases c <;> first | exact ⟨herrors, hretries, htargets⟩ | exact hc.elim

/-- Others use other countdowns. -/
theorem foreign (h : Upheld token targets chores fs s) (countdowns : Table Countdown)
    (hsame : (countdowns.get? token.countdown).getD .idle = s.countdown token.countdown) :
    Upheld token targets chores fs { s with countdowns } := by
  have hcountdown : State.countdown { s with countdowns } token.countdown =
      s.countdown token.countdown := hsame
  refine ⟨h.followed.of_pending rfl, ?_, hcountdown.symm ▸ h.summed⟩
  have htracked := h.tracked
  unfold Tracked at htracked ⊢
  rw [hcountdown]
  exact htracked

end Upheld

/-- The countdown is not armed, and others leave it as it is. -/
def Occasion.Spares (countdown : Nat) : Occasion κ η τ ν → Prop
  | .did _ _ c => c.arms? ≠ some countdown
  | .others m countdowns => (countdowns.get? countdown).getD .idle = m.world.countdown countdown

instance (countdown : Nat) :
    DecidablePred (Occasion.Spares countdown : Occasion κ η τ ν → Prop)
  | .did _ _ c => inferInstanceAs (Decidable (c.arms? ≠ some countdown))
  | .others m countdowns => inferInstanceAs (Decidable
    ((countdowns.get? countdown).getD .idle = m.world.countdown countdown))

/-- The fates of a fan-out are upheld, whatever happens to it. -/
theorem Story.upheld {os rest before : List (Occasion κ η τ ν)} {countdown : Nat}
    {command : UInt8} {targets : List (Nat × Bytes)} (h : Story w self config m chores os)
    (hplace : os = rest ++ .did m₀ waiting (.scatter countdown command targets) :: before)
    (hfresh : m₀.world.tasks (m₀.world.arm countdown targets.length).1 waiting = 0)
    (hspared : ∀ o ∈ rest, o.Spares countdown) :
    let token := (m₀.world.arm countdown targets.length).1
    Upheld token (targets.map (·.1)) chores (fates (fun t => decide (t = token)) rest) m.world := by
  intro token
  induction h generalizing rest with
  | start links => cases List.append_ne_nil_of_right_ne_nil rest (List.cons_ne_nil _ _) hplace.symm
  | called _ c calls ih => exact (ih hplace hspared).call calls
  | @did m chores waiting' cs c os prior next free ok ih =>
    obtain ⟨es, hdoes⟩ := prior.does next free ok
    have hacts := hdoes.acts
    generalize (m.run w (c.act self)).2.world = s' at hacts ⊢
    cases rest with
    | nil =>
      obtain ⟨hnow, -⟩ := List.cons.inj hplace
      cases hnow
      cases hacts
      exact .armed _ _ _ hfresh
    | cons o rest =>
      obtain ⟨rfl, hprior⟩ := List.cons.inj hplace
      have hbefore := ih hprior fun o ho => hspared o (List.mem_cons_of_mem _ ho)
      exact (hbefore.perm next).acts prior.sound.balanced.timers hacts
        (hspared _ List.mem_cons_self) rest
  | @others m m' chores os prior countdowns world timers ih =>
    cases rest with
    | nil => cases (List.cons.inj hplace).1
    | cons o rest =>
      obtain ⟨rfl, hprior⟩ := List.cons.inj hplace
      have hbefore := ih hprior fun o ho => hspared o (List.mem_cons_of_mem _ ho)
      rw [world]
      show Upheld _ _ chores (fates _ rest ++ []) _
      rw [List.append_nil]
      exact hbefore.foreign countdowns (hspared (.others m countdowns) List.mem_cons_self)

/-! ## The verdict -/

namespace Fate

/-- It has timed out with attempts left.  If that was before it was entered, nobody has noticed. -/
def timedOut (f : Fate) : Bool := f.missed || f.isRetried

theorem isFailed_iff : f.isFailed = true ↔ f.ending = some (.answered true) ∨
    f.ending = some .exhausted ∨ f.ending = some .refused ∨ f.ending = some .closed := by
  obtain ⟨id, endpoint, frame, token, timer, earlier, missed, ending⟩ := f
  rcases ending with _ | ⟨failed⟩ | _ | _ | _ <;> simp [isFailed, Ending.isFailure]

theorem isRetried_iff : f.isRetried = true ↔ 0 < f.retries := by
  obtain ⟨id, endpoint, frame, token, timer, earlier, missed, ending⟩ := f
  cases earlier <;> simp [isRetried, retries]

theorem succeeded_iff : f.ending = some (.answered false) ∧ f.isRetried = false ↔
    f.isOpen = false ∧ f.isFailed = false ∧ f.isRetried = false := by
  obtain ⟨id, endpoint, frame, token, timer, earlier, missed, ending⟩ := f
  rcases ending with _ | ⟨failed⟩ | _ | _ | _ <;> simp [isOpen, isFailed, Ending.isFailure]

end Fate

/-- A countdown says of each of the targets of a fan-out what has become of it, but for what chores
still have in hand. -/
structure Exact (token : Token) (targets : List (Nat × Bytes)) (chores : List Chore)
    (fs : List Fate) (count : Countdown) : Prop where
  /-- There is a fate for each target, or a chore has it in hand. -/
  each : (fs.map Fate.endpoint ++ chores.filterMap (Chore.aims? token)).Perm (targets.map (·.1))
  /-- The fan-out is done when all sub-requests have ended and none is in hand. -/
  done : count.done = true ↔
    (∀ c ∈ chores, c.holds token = false) ∧ ∀ f ∈ fs, f.ending ≠ none
  /-- Then there is a fate for each target. -/
  all : count.done = true → (fs.map Fate.endpoint).Perm (targets.map (·.1))
  /-- A failure is one of these. -/
  errors : (∀ c ∈ chores, c.holds token = false) → (count.errors = true ↔
    ∃ f ∈ fs, f.ending = some (.answered true) ∨ f.ending = some .exhausted ∨
      f.ending = some .refused ∨ f.ending = some .closed)
  /-- A retry is a timeout after which a sub-request was sent again. -/
  retries : count.retries = true ↔ ∃ f ∈ fs, 0 < f.retries
  /-- That is any timeout with attempts left, if no timer has fired before its sub-request was
  entered. -/
  timeouts : (∀ f ∈ fs, f.missed = false) → (count.retries = true ↔ ∃ f ∈ fs, f.timedOut = true)
  /-- Then all is well if and only if every target has succeeded before its first timeout. -/
  verdict : (∀ f ∈ fs, f.missed = false) → (count.verdict = .ok true ↔
    (∀ c ∈ chores, c.holds token = false) ∧
      ∀ f ∈ fs, f.ending = some (.answered false) ∧ f.timedOut = false)

/-- No sub-request of this token is pending when all have ended. -/
theorem Followed.load_eq_zero_iff (h : Followed (fun t => decide (t = token)) fs s) :
    s.load token = 0 ↔ ∀ f ∈ fs, f.ending ≠ none := by
  unfold State.load
  rw [List.countP_eq_zero]
  constructor
  · intro hnone f hf hending
    have hp := h.pending f hf (Option.isNone_iff_eq_none.2 hending)
    exact hnone (f.id, f.pending) (Table.mem_entries_iff.2 hp) (h.mine f hf)
  · intro hended e he hmine
    obtain ⟨f, hf, hopen, -⟩ := h.known e.1 e.2 (Table.mem_entries_iff.1 he) hmine
    exact hended f hf (Option.isNone_iff_eq_none.1 hopen)

theorem Upheld.exact {targets : List (Nat × Bytes)}
    (h : Upheld token (targets.map (·.1)) chores fs s) :
    Exact token targets chores fs (s.countdown token.countdown) := by
  obtain ⟨hfollowed, htracked, herrors, hretries, htargets⟩ := h
  have hidle : chores.countP (Chore.holds token) = 0 ↔ ∀ c ∈ chores, c.holds token = false := by
    rw [List.countP_eq_zero]
    exact forall₂_congr fun c _ => Iff.of_eq (Bool.not_eq_true _)
  have hzero : s.tasks token chores - 0 = 0 ↔
      (∀ c ∈ chores, c.holds token = false) ∧ ∀ f ∈ fs, f.ending ≠ none := by
    rw [Nat.sub_zero, State.tasks, Nat.add_eq_zero_iff, hidle, hfollowed.load_eq_zero_iff, and_comm]
  have hnoted : (∀ c ∈ chores, c.holds token = false) →
      (s.countdown token.countdown).errors = fs.any Fate.isFailed := by
    intro hnone
    rw [← herrors, List.any_eq_false.2 fun c hc hfails => ?_, Bool.or_false]
    exact Bool.eq_false_iff.1 (hnone c hc) (Chore.holds_of_fails hfails)
  have htimedOut : (∀ f ∈ fs, f.missed = false) → ∀ f ∈ fs, f.timedOut = f.isRetried :=
    fun hprompt f hf => by rw [Fate.timedOut, hprompt f hf, Bool.false_or]
  refine ⟨htargets, ?_, ?_, ?_, ?_, ?_, ?_⟩
  · rw [htracked.done, beq_iff_eq]
    exact hzero
  · intro hdone
    rw [htracked.done, beq_iff_eq] at hdone
    have hnone : chores.filterMap (Chore.aims? token) = [] := by
      refine List.filterMap_eq_nil_iff.2 fun c hc => Option.not_isSome_iff_eq_none.1 fun haims => ?_
      exact Bool.eq_false_iff.1 ((hzero.1 hdone).1 c hc) (Chore.holds_of_aims haims)
    rw [hnone, List.append_nil] at htargets
    exact htargets
  · intro hnone
    rw [hnoted hnone, List.any_eq_true]
    exact exists_congr fun f => and_congr_right fun _ => Fate.isFailed_iff
  · rw [hretries, List.any_eq_true]
    exact exists_congr fun f => and_congr_right fun _ => Fate.isRetried_iff
  · intro hprompt
    rw [hretries, List.any_eq_true]
    exact exists_congr fun f => and_congr_right fun hf => by rw [htimedOut hprompt f hf]
  · intro hprompt
    have hall : (∀ f ∈ fs, f.ending = some (.answered false) ∧ f.timedOut = false) ↔
        (∀ f ∈ fs, f.ending ≠ none) ∧ fs.any Fate.isFailed = false ∧
          fs.any Fate.isRetried = false := by
      rw [List.any_eq_false, List.any_eq_false, ← forall₂_and, ← forall₂_and]
      refine forall₂_congr fun f hf => ?_
      rw [htimedOut hprompt f hf, Fate.succeeded_iff, Fate.isOpen, Option.isNone_eq_false_iff,
        Option.isSome_iff_ne_none, Bool.not_eq_true, Bool.not_eq_true]
    rw [hall, ← and_assoc, ← hzero, Countdown.verdict, htracked.outstanding]
    by_cases hdone : s.tasks token chores - 0 = 0
    · rw [if_pos hdone, and_iff_right hdone, hnoted (hzero.1 hdone).1, hretries]
      cases fs.any Fate.isFailed <;> cases fs.any Fate.isRetried <;> simp
    · rw [if_neg hdone]
      exact ⟨fun hok => (by cases hok), fun h => absurd h.1 hdone⟩

/-! ## Stray frames -/

/-- A stray frame changes nothing. -/
theorem run_stray {endpoint : Nat} {payload : Bytes} (h : Stray m.world endpoint payload) :
    ∃ trace, m.run w (handle self (.data endpoint payload)) = (.ok (), { m with trace }) := by
  show ∃ trace, m.run w (onReply endpoint payload) = _
  unfold onReply
  cases hdecode : Wire.Response.decode payload with
  | error e => exact ⟨m.trace, rfl⟩
  | ok response =>
    obtain ⟨trace, hrun⟩ := Machine.run_update_eq (w := w)
      (fun s : State => s.takeFrom endpoint response.id.toNat) m
    dsimp only
    rcases takeFrom_cases m.world endpoint response.id.toNat with
      ⟨hnone, -⟩ | ⟨p, hp, hendpoint, -⟩
    · rw [Machine.run_bind_of_ok _ hrun, hnone]
      exact ⟨trace, rfl⟩
    · exact absurd hendpoint (h response hdecode p hp)

/-- The verdict of a fan-out is exact, at every point of a story: its countdown says of each target
what has become of it, and a frame that nobody waits for changes neither that nor anything else.
The clock never runs over in a story. -/
theorem Story.verdict_exact {os rest before : List (Occasion κ η τ ν)} {countdown : Nat}
    {command : UInt8} {targets : List (Nat × Bytes)} (h : Story w self config m chores os)
    (hplace : os = rest ++ .did m₀ waiting (.scatter countdown command targets) :: before)
    (hfresh : m₀.world.tasks (m₀.world.arm countdown targets.length).1 waiting = 0)
    (hspared : ∀ o ∈ rest, o.Spares countdown) :
    let token := (m₀.world.arm countdown targets.length).1
    Exact token targets chores (fates (fun t => decide (t = token)) rest)
      (m.world.countdown countdown) ∧
    ∀ endpoint payload, Stray m.world endpoint payload →
      ∃ trace, m.run w (handle self (.data endpoint payload)) = (.ok (), { m with trace }) :=
  ⟨(h.upheld hplace hfresh hspared).exact, fun _ _ => run_stray⟩

/-- Two targets, of which the first responds after it was sent its frame again, and the second is
unknown.  The timer of the first fires while the scatter is at the second. -/
theorem Story.verdict_exact_resent :
    ∃ (m : Machine (Option Scenario.Destinations.Behaviour) (Option Unit) State (Table Nat) Empty)
      (token : Token) (chores : List Chore) (fs : List Fate),
      Exact token [(1, []), (2, [])] chores fs (m.world.countdown 7) ∧ chores = [] ∧
        m.world.countdown 7 = ⟨0, true, true, true, 1⟩ ∧
        fs.map (fun f => (f.retries, f.ending)) =
          [(1, some (.answered false)), (0, some .refused)] := by
  let w := Scenario.Destinations.stage.wiring
  let attached := ((Machine.start (.empty ⟨5, 1⟩) ∅).run w
    (Program.register (some ⟨none, none, 0⟩) (some ()))).2
  have hattached : Story w (some ()) ⟨5, 1⟩ attached [] [.others _ ∅] :=
    .others (.start ∅) ∅ rfl (Nat.le_refl _)
  have hcalled := hattached.called (.scatter 7 5 [(1, []), (2, [])]) trivial
  have harmed := hcalled.did (.refl _) trivial rfl
  have hsent := harmed.advance 6 (by decide +kernel)
  have hfired := hsent.called (.expire 1) trivial
  have hlost := hfired.advance 9 (by decide +kernel)
  have hanswered := hlost.called (.reply 1 (Wire.Response.mk 1 0 []).encode) trivial
  have hdone := hanswered.advance 7 (by decide +kernel)
  have hexact := hdone.verdict_exact
    ((List.append_assoc _ _ _).symm.trans (List.append_assoc _ _ _).symm)
    (by decide +kernel) (by decide +kernel)
  exact ⟨_, _, _, _, hexact.1, by decide +kernel, by decide +kernel, by decide +kernel⟩

/-- A timeout that nobody has noticed leaves a verdict without retries.  In the first run the timer
fires between its being scheduled and its sub-request being entered.  In the second the clock runs
over: a sub-request times out, and no deadline for the next attempt can be named. -/
theorem verdict_of_unnoticed :
    (∃ (m m₀ waited : Machine (Option Scenario.Destinations.Behaviour) (Option Unit) State
        (Table Nat) Empty) (chores : List Chore) (os rest before : List (Occasion
        (Option Scenario.Destinations.Behaviour) (Option Unit) (Table Nat) Empty)),
      Story Scenario.Destinations.stage.wiring (some ()) ⟨5, 2⟩ m chores os ∧
      os = rest ++ .did m₀ [] (.scatter 7 5 [(1, [])]) :: before ∧
      (∀ o ∈ rest, o.Spares 7) ∧ chores = [] ∧
      .others waited waited.world.countdowns ∈ rest ∧
      (waited.timers.popDue 5).1 = [(1, some ())] ∧
      (fates (fun t => decide (t = ⟨7, 1⟩)) rest).map (fun f => (f.timer, f.missed, f.ending)) =
        [(1, true, some (.answered false))] ∧
      m.world.countdown 7 = ⟨0, false, false, true, 1⟩ ∧ (m.world.countdown 7).verdict = .ok true) ∧
    let w := Scenario.Destinations.stage.wiring
    let config : Config := ⟨Time.ofSeconds 5000000000000000000, 2⟩
    let attached : Machine (Option Scenario.Destinations.Behaviour) (Option Unit) State (Table Nat)
      Empty := ((Machine.start (.empty config) ∅).run w
        (Program.register (some ⟨none, none, 0⟩) (some ()))).2
    let scattered := (attached.run w (scatter (some ()) 7 9 [(1, [])])).2
    let waited := (scattered.run w (Program.elapse config.timeout)).2
    let answered := ((waited.round w).run w
      (Program.deliver (.data 1 (Wire.Response.mk 1 0 []).encode))).2
    let ended := answered.round w
    (waited.timers.popDue waited.clock).1 = [(1, some ())] ∧
      (waited.world.pending.get? 1).map (·.retries) = some 0 ∧ 0 < config.maxRetries ∧
      ended.world.countdown 7 = ⟨0, false, false, true, 1⟩ ∧
      (ended.world.countdown 7).verdict = .ok true := by
  refine ⟨?_, by decide +kernel⟩
  let w := Scenario.Destinations.stage.wiring
  let attached := ((Machine.start (.empty ⟨5, 2⟩) ∅).run w
    (Program.register (some ⟨none, none, 0⟩) (some ()))).2
  have hattached : Story w (some ()) ⟨5, 2⟩ attached [] [.others _ ∅] :=
    .others (.start ∅) ∅ rfl (Nat.le_refl _)
  have hcalled := hattached.called (.scatter 7 5 [(1, [])]) trivial
  have harmed := hcalled.did (.refl _) trivial rfl
  have hscheduled := harmed.advance 3 (by decide +kernel)
  have hfired := (hscheduled.elapsed 5).called (.expire 1) trivial
  have hsent := hfired.advance 4 (by decide +kernel)
  have hanswered := hsent.called (.reply 1 (Wire.Response.mk 1 0 []).encode) trivial
  have hdone := hanswered.advance 4 (by decide +kernel)
  have hplace : ∀ {α : Type} (l₁ l₂ l₃ : List α) (a b c : α),
      l₁ ++ (l₂ ++ a :: (l₃ ++ [b, c])) = (l₁ ++ (l₂ ++ a :: l₃)) ++ b :: [c] := by
    intro α l₁ l₂ l₃ a b c
    simp only [List.append_assoc, List.cons_append]
  exact ⟨_, _, _, _, _, _, _, hdone, hplace _ _ _ _ _ _, by decide +kernel, by decide +kernel,
    List.mem_append_right _ (List.mem_append_right _ List.mem_cons_self), by decide +kernel,
    by decide +kernel, by decide +kernel, by decide +kernel⟩

end LeaseLock.Fanout
