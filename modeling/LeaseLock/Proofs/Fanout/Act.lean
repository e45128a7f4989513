import LeaseLock.Proofs.Fanout.Balance
import LeaseLock.Proofs.Fanout.Chore
import LeaseLock.Proofs.Reactor.Errands

/-
  LeaseLock: what the chores of a fan-out do.
  `Acts` says of each chore what it makes of the state, which errands it runs and what it leaves;
  everything that is kept by the fan-out follows from it.  A chore does so if the clock can name
  the deadlines that it needs, and crashes otherwise (`run_act`, `acts_of_run`).  Whichever chore is
  done next, the tables and the counts stay in step, and timers that wait to be entered stay
  unknown (`Sound.acts`).
-/

namespace LeaseLock.Fanout

open Reactor

variable {κ η τ ν : Type} {w : Wiring κ η State τ ν} {self : η} {m : Machine κ η State τ ν}
  {s s' : State} {c : Chore} {cs chores waiting : List Chore} {es : List (Errand η)} {n : Nat}

/-! ## Acts -/

/-- No sub-request that was sent to this endpoint waits for this frame. -/
def Stray (s : State) (endpoint : Nat) (payload : Bytes) : Prop :=
  ∀ response, Wire.Response.decode payload = .ok response →
    ∀ p, s.pending.get? response.id.toNat = some p → p.endpoint ≠ endpoint

/-- What a chore comes to in the loop `m`: the state of the fan-out afterwards, the errands that
are run, and the chores that are left. -/
inductive Acts (self : η) (m : Machine κ η State τ ν) :
    Chore → State → List (Errand η) → List Chore → Prop
  /-- The countdown is armed. -/
  | scatter (countdown : Nat) (command : UInt8) (targets : List (Nat × Bytes)) :
      Acts self m (.scatter countdown command targets) (m.world.arm countdown targets.length).2 []
        (unnamed command (m.world.arm countdown targets.length).1 targets)
  /-- An id is used up. -/
  | name (command : UInt8) (token : Token) (target : Nat × Bytes) (left : Nat) :
      Acts self m (.name command token target left) m.world.takeId.2 []
        [.time ⟨m.world.nextId.toNat, target.1,
          (Wire.Request.mk m.world.nextId command target.2).encode, token, left⟩
          m.world.config.timeout]
  /-- The deadline is named. -/
  | time (d : Draft) (timeout : Nat) :
      Acts self m (.time d timeout) m.world [] [.schedule d (m.clock + timeout)]
  /-- The timer gets the next id. -/
  | schedule (d : Draft) (deadline : Nat) :
      Acts self m (.schedule d deadline) m.world [.scheduled m.timers.nextId deadline self]
        [.enter d m.timers.nextId]
  /-- The sub-request is entered. -/
  | enter (d : Draft) (timer : Nat) (free : m.world.pending.get? d.id = none)
      (new : m.world.byTimer.get? timer = none) :
      Acts self m (.enter d timer) (m.world.entered d.id (d.pending timer)) []
        [.count d.id d.endpoint d.frame]
  /-- It is counted. -/
  | count (id endpoint : Nat) (frame : Bytes) :
      Acts self m (.count id endpoint frame) m.world.countSent [] [.send id endpoint frame]
  /-- The connection takes the frame. -/
  | sent (id endpoint : Nat) (frame : Bytes) :
      Acts self m (.send id endpoint frame) m.world [.sent endpoint frame] []
  /-- The connection does not take the frame. -/
  | refused (id endpoint : Nat) (frame : Bytes) :
      Acts self m (.send id endpoint frame) m.world [.sent endpoint frame] [.giveUp id]
  /-- The sub-request is taken out. -/
  | gaveUp {id : Nat} {p : Pending} (found : m.world.pending.get? id = some p) :
      Acts self m (.giveUp id) (m.world.without id p) [] (stopping id p .lost)
  /-- It has ended before. -/
  | gone {id : Nat} (missing : m.world.pending.get? id = none) :
      Acts self m (.giveUp id) m.world [] []
  /-- The timer is cancelled. -/
  | cancel (timer : Nat) : Acts self m (.cancel timer) m.world [.cancelled timer] []
  /-- The end of a sub-request is counted. -/
  | settle (id : Nat) (token : Token) (outcome : Outcome) :
      Acts self m (.settle id token outcome) (m.world.countEnd outcome) []
        [.complete id token outcome.isFailure]
  /-- The task is completed. -/
  | complete (id : Nat) (token : Token) (failed : Bool) :
      Acts self m (.complete id token failed) (m.world.complete token failed) [] []
  /-- The sub-request that the response is for is taken out. -/
  | answered {payload : Bytes} {response : Wire.Response} {p : Pending}
      (decoded : Wire.Response.decode payload = .ok response)
      (found : m.world.pending.get? response.id.toNat = some p) :
      Acts self m (.reply p.endpoint payload) (m.world.without response.id.toNat p) []
        (stopping response.id.toNat p (.answered response.isError))
  /-- Nobody waits for the frame. -/
  | stray {endpoint : Nat} {payload : Bytes} (stray : Stray m.world endpoint payload) :
      Acts self m (.reply endpoint payload) m.world [] []
  /-- Nobody waits for the timer. -/
  | unknown {timer : Nat} (unknown : m.world.byTimer.get? timer = none) :
      Acts self m (.expire timer) m.world [] []
  /-- The sub-request was sent as often as it may be, and is taken out. -/
  | exhausted {id : Nat} {p : Pending} (found : m.world.pending.get? id = some p)
      (enough : m.world.config.maxRetries ≤ p.retries) :
      Acts self m (.expire p.timer) (m.world.without id p) [] [.settle id p.token .lapsed]
  /-- The sub-request is to be sent again. -/
  | again {id : Nat} {p : Pending} (found : m.world.pending.get? id = some p)
      (more : p.retries < m.world.config.maxRetries)
      (new : m.world.byTimer.get? m.timers.nextId = none) :
      Acts self m (.expire p.timer) (m.world.resent id p m.timers.nextId)
        [.scheduled m.timers.nextId (m.clock + m.world.config.timeout) self]
        [.send id p.endpoint p.frame]
  /-- All sub-requests of the endpoint are taken out. -/
  | close (endpoint : Nat) :
      Acts self m (.close endpoint) (m.world.swept (m.world.sentTo endpoint)) []
        ((m.world.sentTo endpoint).flatMap fun e => stopping e.1 e.2 .lost)

theorem rank_stopping {id : Nat} {p : Pending} {outcome : Outcome} {c : Chore}
    (hc : c ∈ stopping id p outcome) : c.rank < 2 := by
  rcases List.mem_cons.1 hc with rfl | hc
  · exact Nat.zero_lt_succ 1
  · obtain rfl := List.mem_singleton.1 hc
    exact Nat.lt_succ_self 1

theorem mem_unnamed {command : UInt8} {token : Token} {targets : List (Nat × Bytes)} {c : Chore}
    (hc : c ∈ unnamed command token targets) :
    ∃ target left, c = .name command token target left := by
  induction targets with
  | nil => cases hc
  | cons target rest ih =>
    rcases List.mem_cons.1 hc with rfl | hc
    · exact ⟨target, rest.length, rfl⟩
    · exact ih hc

/-- Targets that are still to be given an id have nothing of that kind in hand. -/
theorem filterMap_unnamed {β : Type} {g : Chore → Option β}
    (hg : ∀ command token target left, g (.name command token target left) = none)
    (command : UInt8) (token : Token) (targets : List (Nat × Bytes)) :
    (unnamed command token targets).filterMap g = [] := by
  refine List.filterMap_eq_nil_iff.2 fun c hc => ?_
  obtain ⟨target, left, rfl⟩ := mem_unnamed hc
  exact hg _ _ _ _

/-- Nor have sub-requests that were taken out with their endpoint. -/
theorem filterMap_stopping {β : Type} {g : Chore → Option β}
    (hcancel : ∀ timer, g (.cancel timer) = none)
    (hsettle : ∀ id token outcome, g (.settle id token outcome) = none)
    (es : List (Nat × Pending)) :
    (es.flatMap fun e => stopping e.1 e.2 .lost).filterMap g = [] := by
  refine List.filterMap_eq_nil_iff.2 fun c hc => ?_
  obtain ⟨e, -, he⟩ := List.mem_flatMap.1 hc
  rcases List.mem_cons.1 he with rfl | he
  · exact hcancel _
  · obtain rfl := List.mem_singleton.1 he
    exact hsettle _ _ _

/-- What a chore leaves is of lower rank. -/
theorem Acts.rank (h : Acts self m c s' es cs) : ∀ c' ∈ cs, c'.rank < c.rank := by
  intro c' hc'
  cases h with
  | scatter countdown command targets =>
    obtain ⟨target, left, rfl⟩ := mem_unnamed hc'
    exact Nat.lt_succ_self 8
  | close endpoint =>
    obtain ⟨e, -, he⟩ := List.mem_flatMap.1 hc'
    exact rank_stopping he
  | gaveUp found => exact rank_stopping hc'
  | answered decoded found => exact rank_stopping hc'
  | sent | gone | cancel | complete | stray | unknown => cases hc'
  | name | time | schedule | enter | count | refused | settle | exhausted | again =>
    obtain rfl := List.mem_singleton.1 hc'
    simp only [Chore.rank]
    omega

/-! ## What stays in step -/

namespace Chore

/-- A sub-request is to be counted. -/
def counts : Chore → Bool
  | .count _ _ _ => true
  | _ => false

/-- The end of a sub-request is to be counted. -/
def settles : Chore → Bool
  | .settle _ _ _ => true
  | _ => false

/-- The timer of a sub-request that is to be entered. -/
def loose? : Chore → Option Nat
  | .enter _ timer => some timer
  | _ => none

end Chore

/-- The fan-out is in step with itself, with the chores that wait, and with the timers of the loop,
of which `next` is the next id. -/
structure Sound (s : State) (next : Nat) (chores : List Chore) : Prop where
  balanced : Balanced s (chores.countP Chore.counts) (chores.countP Chore.settles)
  /-- All known timers have been scheduled. -/
  below : ∀ timer id, s.byTimer.get? timer = some id → timer < next
  /-- A timer that waits to be entered has been scheduled, and is not known yet. -/
  loose : ∀ timer ∈ chores.filterMap Chore.loose?,
    timer < next ∧ s.byTimer.get? timer = none
  apart : (chores.filterMap Chore.loose?).Nodup

theorem sound_empty (config : Config) : Sound (.empty config) 1 [] :=
  ⟨balanced_empty config, nofun, nofun, .nil⟩

namespace Sound

/-- It does not matter in which order chores wait. -/
theorem perm (h : Sound s n chores) (hp : chores.Perm cs) : Sound s n cs where
  balanced := hp.countP_eq Chore.counts ▸ hp.countP_eq Chore.settles ▸ h.balanced
  below := h.below
  loose := fun timer ht => h.loose timer ((hp.filterMap Chore.loose?).mem_iff.2 ht)
  apart := (hp.filterMap Chore.loose?).nodup_iff.1 h.apart

/-- The next timer is not known yet. -/
theorem unknown (h : Sound s n chores) : s.byTimer.get? n = none := by
  refine Option.eq_none_iff_forall_not_mem.2 fun id hid => ?_
  exact Nat.lt_irrefl _ (h.below _ _ hid)

/-- More timers are scheduled. -/
theorem later {n' : Nat} (h : Sound s n chores) (hn : n ≤ n') : Sound s n' chores where
  balanced := h.balanced
  below := fun timer id ht => Nat.lt_of_lt_of_le (h.below timer id ht) hn
  loose := fun timer ht => ⟨Nat.lt_of_lt_of_le (h.loose timer ht).1 hn, (h.loose timer ht).2⟩
  apart := h.apart

end Sound

/-! ## Chores in the loop -/

/-- A sub-request is entered under an id that is free. -/
def Chore.Free (s : State) : Chore → Prop
  | .enter d _ => s.pending.get? d.id = none
  | _ => True

instance (s : State) : DecidablePred (Chore.Free s) := fun c => by
  cases c <;> unfold Chore.Free <;> infer_instance

/-- The clock can name the deadline that a chore needs. -/
def Chore.Timely (m : Machine κ η State τ ν) : Chore → Prop
  | .time _ timeout => m.clock + timeout < Time.limit
  | .expire timer => ∀ id, (m.world.expire timer).1 = .again id →
    m.clock + m.world.config.timeout < Time.limit
  | _ => True

/-- A chore has been done. -/
structure Does (me : η) (m : Machine κ η State τ ν) (c : Chore) (es : List (Errand η))
    (cs : List Chore) (m' : Machine κ η State τ ν) : Prop where
  acts : Acts me m c m'.world es cs
  clock : m'.clock = m.clock
  did : m.Did es m'

/-- What an update of the state comes to. -/
theorem does_update {α : Type} {f : State → α × State} {g : α → Activity κ η ν (List Chore)}
    (cs : List Chore) (hact : c.act self = Program.update f >>= g) (hdone : g (f m.world).1 = .done cs)
    (hacts : Acts self m c (f m.world).2 [] cs) :
    ∃ es cs m', m.run w (c.act self) = (.ok cs, m') ∧ Does self m c es cs m' := by
  obtain ⟨trace, hrun, hdid⟩ := Machine.did_update (w := w) f m
  refine ⟨_, _, { m with world := (f m.world).2, trace }, ?_, hacts, rfl, hdid⟩
  rw [hact, Machine.run_bind_of_ok _ hrun, hdone]
  rfl

theorem run_time (d : Draft) {timeout : Nat} (htimely : m.clock + timeout < Time.limit) :
    ∃ es cs m', m.run w (Chore.act self (.time d timeout)) = (.ok cs, m') ∧
      Does self m (.time d timeout) es cs m' := by
  refine ⟨_, _, m.record (.asked .now m.clock), ?_, .time d timeout, rfl,
    (List.append_nil _).symm, .nil⟩
  show (m.record _).run w (timed d (Time.add? m.clock timeout)) = _
  rw [Time.add?_eq_some_iff.2 ⟨rfl, htimely⟩]
  rfl

theorem run_giveUp (id : Nat) : ∃ es cs m', m.run w (Chore.act self (.giveUp id)) = (.ok cs, m') ∧
    Does self m (.giveUp id) es cs m' := by
  cases hp : m.world.pending.get? id with
  | none =>
    refine does_update [] rfl ?_ ?_
    · rw [take_of_none hp]
      rfl
    · rw [take_of_none hp]
      exact .gone hp
  | some p =>
    refine does_update (stopping id p .lost) rfl ?_ ?_
    · rw [take_of_some hp]
      rfl
    · rw [take_of_some hp]
      exact .gaveUp hp

/-- A response is only taken from the endpoint that its sub-request was sent to. -/
theorem takeFrom_cases (s : State) (endpoint id : Nat) :
    (s.takeFrom endpoint id = (none, s) ∧
        ∀ p, s.pending.get? id = some p → p.endpoint ≠ endpoint) ∨
      ∃ p, s.pending.get? id = some p ∧ p.endpoint = endpoint ∧
        s.takeFrom endpoint id = (some p, s.without id p) := by
  unfold State.takeFrom
  cases hp : s.pending.get? id with
  | none => exact .inl ⟨rfl, nofun⟩
  | some p =>
    dsimp only
    by_cases hendpoint : p.endpoint = endpoint
    · rw [if_pos hendpoint]
      exact .inr ⟨p, rfl, hendpoint, take_of_some hp⟩
    · rw [if_neg hendpoint]
      exact .inl ⟨rfl, fun q hq => Option.some.inj hq ▸ hendpoint⟩

theorem run_reply (endpoint : Nat) (payload : Bytes) :
    ∃ es cs m', m.run w (Chore.act self (.reply endpoint payload)) = (.ok cs, m') ∧
      Does self m (.reply endpoint payload) es cs m' := by
  cases hdecode : Wire.Response.decode payload with
  | error e =>
    refine ⟨[], [], m, ?_, .stray fun response h => ?_, rfl, .refl m⟩
    · show m.run w (answering endpoint payload) = _
      unfold answering
      rw [hdecode]
      rfl
    · cases hdecode.symm.trans h
  | ok response =>
    obtain ⟨g, hact, hnobody, hfound⟩ : ∃ g : Option Pending → Activity κ η ν (List Chore),
        Chore.act self (.reply endpoint payload) =
          Program.update (fun s => s.takeFrom endpoint response.id.toNat) >>= g ∧
        g none = .done [] ∧
        ∀ p, g (some p) = .done (stopping response.id.toNat p (.answered response.isError)) := by
      show ∃ g, answering endpoint payload = _ >>= g ∧ _
      unfold answering
      rw [hdecode]
      exact ⟨_, rfl, rfl, fun _ => rfl⟩
    rcases takeFrom_cases m.world endpoint response.id.toNat with
      ⟨hnone, hother⟩ | ⟨p, hp, rfl, hsome⟩
    · refine does_update [] hact ?_ ?_
      · rw [hnone, hnobody]
      · rw [hnone]
        refine .stray fun response' h => ?_
        obtain rfl : response = response' := Except.ok.inj (hdecode.symm.trans h)
        exact hother
    · refine does_update _ hact (by rw [hsome, hfound]) ?_
      rw [hsome]
      exact .answered hdecode hp

/-- A timer that is known belongs to a pending sub-request. -/
theorem expire_cases (hs : InStep s.byTimer s.pending) (timer : Nat) :
    (s.byTimer.get? timer = none ∧ s.expire timer = (.stray, s)) ∨
      ∃ id p, s.pending.get? id = some p ∧ p.timer = timer ∧ s.expire timer =
        (if s.config.maxRetries ≤ p.retries then .exhausted id else .again id,
          { s with byTimer := s.byTimer.erase p.timer }) := by
  unfold State.expire
  cases hid : s.byTimer.get? timer with
  | none => exact .inl ⟨rfl, rfl⟩
  | some id =>
    obtain ⟨p, hp, rfl⟩ := (hs timer id).1 hid
    dsimp only
    rw [hp]
    exact .inr ⟨id, p, hp, rfl, rfl⟩

theorem run_expire (hs : InStep m.world.byTimer m.world.pending)
    (hnew : m.world.byTimer.get? m.timers.nextId = none) {timer : Nat}
    (htimely : Chore.Timely m (.expire timer)) :
    ∃ es cs m', m.run w (Chore.act self (.expire timer)) = (.ok cs, m') ∧
      Does self m (.expire timer) es cs m' := by
  obtain ⟨trace, hexpire, hdid⟩ := Machine.did_update (w := w) (fun s : State => s.expire timer) m
  rcases expire_cases hs timer with ⟨hunknown, hstray⟩ | ⟨id, p, hp, rfl, hknown⟩
  · rw [hstray] at hexpire hdid
    exact ⟨_, _, _, (Machine.run_bind_of_ok _ hexpire).trans rfl, .unknown hunknown, rfl, hdid⟩
  · by_cases henough : m.world.config.maxRetries ≤ p.retries
    · rw [hknown, if_pos henough] at hexpire hdid
      obtain ⟨trace', htake, hdid'⟩ := Machine.did_update (w := w) (fun s : State => s.take id)
        { m with world := { m.world with byTimer := m.world.byTimer.erase p.timer }, trace }
      rw [take_of_forgotten hp] at htake hdid'
      exact ⟨_, _, _, (Machine.run_bind_of_ok _ hexpire).trans
        ((Machine.run_bind_of_ok _ htake).trans rfl), .exhausted hp henough, rfl, hdid.trans hdid'⟩
    · have hagain : (m.world.expire p.timer).1 = .again id := by rw [hknown, if_neg henough]
      rw [hknown, if_neg henough] at hexpire hdid
      obtain ⟨trace₁, hworld, hdid₁⟩ := Machine.did_world (w := w)
        { m with world := { m.world with byTimer := m.world.byTimer.erase p.timer }, trace }
      obtain ⟨timers, queue, trace₂, hschedule, hdid₂⟩ := Machine.did_scheduleAfter (w := w)
        (m := { m with
          world := { m.world with byTimer := m.world.byTimer.erase p.timer }, trace := trace₁ })
        (htimely id hagain) self
      obtain ⟨trace₃, hrearm, hdid₃⟩ := Machine.did_update (w := w)
        (fun s : State => s.rearm id m.timers.nextId)
        { m with
          world := { m.world with byTimer := m.world.byTimer.erase p.timer }
          timers, queue, trace := trace₂ }
      rw [rearm_of_some hp] at hrearm hdid₃
      exact ⟨_, _, _, (Machine.run_bind_of_ok _ hexpire).trans
        ((Machine.run_bind_of_ok _ hworld).trans ((Machine.run_bind_of_ok _ hschedule).trans
          ((Machine.run_bind_of_ok _ hrearm).trans rfl))),
        .again hp (Nat.lt_of_not_le henough) hnew, rfl,
        hdid.trans (hdid₁.trans (hdid₂.trans hdid₃))⟩

/-- A chore is done if the clock can name its deadline. -/
theorem run_act (hs : Sound m.world m.timers.nextId (c :: waiting)) (hfree : c.Free m.world)
    (htimely : c.Timely m) :
    ∃ es cs m', m.run w (c.act self) = (.ok cs, m') ∧ Does self m c es cs m' := by
  cases c with
  | scatter countdown command targets => exact does_update _ rfl rfl (.scatter _ _ _)
  | name command token target left =>
    obtain ⟨trace, hrun, hdid⟩ := Machine.did_update (w := w) State.takeId m
    obtain ⟨trace', hworld, hdid'⟩ := Machine.did_world (w := w)
      { m with world := m.world.takeId.2, trace }
    exact ⟨_, _, _, (Machine.run_bind_of_ok _ hrun).trans ((Machine.run_bind_of_ok _ hworld).trans
      rfl), .name _ _ _ _, rfl, hdid.trans hdid'⟩
  | time d timeout => exact run_time d htimely
  | schedule d deadline =>
    obtain ⟨timers, queue, trace, hrun, hdid⟩ :=
      Machine.did_schedule (w := w) deadline self m
    exact ⟨_, _, _, (Machine.run_bind_of_ok _ hrun).trans rfl, .schedule d deadline, rfl, hdid⟩
  | enter d timer =>
    refine does_update _ rfl rfl ?_
    have hnew := (hs.loose timer List.mem_cons_self).2
    show Acts self m _ (m.world.enter d.id (d.pending timer)) _ _
    rw [enter_of_none hfree]
    exact .enter d timer hfree hnew
  | count id endpoint frame => exact does_update _ rfl rfl (.count _ _ _)
  | send id endpoint frame =>
    obtain ⟨links, queue, trace, hrun, hdid⟩ := Machine.did_send (w := w) endpoint frame m
    have hall := Machine.run_bind_of_ok (fun fault : Option Fault =>
      Program.done (if fault.isSome then [Chore.giveUp id] else [])) hrun
    cases hfault : (m.send w endpoint frame).1.fault? with
    | none =>
      rw [hfault] at hall
      exact ⟨_, _, _, hall, .sent id endpoint frame, rfl, hdid⟩
    | some fault =>
      rw [hfault] at hall
      exact ⟨_, _, _, hall, .refused id endpoint frame, rfl, hdid⟩
  | giveUp id => exact run_giveUp id
  | cancel timer =>
    obtain ⟨cancelled, trace, hrun, hdid⟩ := Machine.did_cancel (w := w) timer m
    exact ⟨_, _, _, (Machine.run_bind_of_ok _ hrun).trans rfl, .cancel timer, rfl, hdid⟩
  | settle id token outcome => exact does_update _ rfl rfl (.settle _ _ _)
  | complete id token failed => exact does_update _ rfl rfl (.complete _ _ _)
  | reply endpoint payload => exact run_reply endpoint payload
  | expire timer => exact run_expire hs.balanced.timers hs.unknown htimely
  | close endpoint =>
    refine does_update _ rfl rfl ?_
    rw [takeAllFrom_eq]
    exact .close endpoint

/-- Without the deadline it crashes. -/
theorem timely_of_run (hok : (m.run w (c.act self)).1 = .ok cs) : c.Timely m := by
  cases c with
  | time d timeout =>
    refine Nat.lt_of_not_le fun hlate => ?_
    have hcrash : (m.run w (timing (η := η) d timeout)).1 = .error .instantOverflow := by
      show ((m.record (.asked .now m.clock)).run w (timed d (Time.add? m.clock timeout))).1 = _
      rw [Time.add?_eq_none_iff.2 hlate]
      rfl
    cases hok.symm.trans hcrash
  | expire timer =>
    intro id hagain
    refine Nat.lt_of_not_le fun hlate => ?_
    obtain ⟨trace, hexpire⟩ := Machine.run_update_eq (w := w) (fun s : State => s.expire timer) m
    obtain ⟨trace₁, hworld⟩ := Machine.run_world_eq (w := w)
      { m with world := (m.world.expire timer).2, trace }
    have hconfig : (m.world.expire timer).2.config = m.world.config := by
      unfold State.expire
      split
      · rfl
      · dsimp only
        split <;> rfl
    obtain ⟨trace₂, hschedule⟩ := Machine.run_scheduleAfter_of_late (w := w)
      (m := { m with world := (m.world.expire timer).2, trace := trace₁ })
      (hconfig.symm ▸ Nat.not_lt.2 hlate) self
    rw [hagain] at hexpire
    have hcrash : (m.run w (expiring self timer)).1 = .error .instantOverflow := by
      unfold expiring
      rw [Machine.run_bind_of_ok _ hexpire]
      dsimp only
      rw [Machine.run_bind_of_ok _ hworld, Machine.run_bind_of_error _ hschedule]
    cases hok.symm.trans hcrash
  | scatter | name | schedule | enter | count | send | giveUp | cancel | settle | complete | reply
  | close => trivial

/-- A chore that is done does what it should. -/
theorem acts_of_run (hs : Sound m.world m.timers.nextId (c :: waiting)) (hfree : c.Free m.world)
    (hok : (m.run w (c.act self)).1 = .ok cs) :
    ∃ es, Does self m c es cs (m.run w (c.act self)).2 := by
  obtain ⟨es, cs', m', hrun, hdoes⟩ : ∃ es cs' m', m.run w (c.act self) = (.ok cs', m') ∧
      Does self m c es cs' m' := run_act hs hfree (timely_of_run hok)
  rw [hrun] at hok ⊢
  obtain rfl : cs' = cs := Except.ok.inj hok
  exact ⟨es, hdoes⟩

/-! ## Steps -/

theorem countP_stopping (es : List (Nat × Pending)) :
    (es.flatMap fun e => stopping e.1 e.2 .lost).countP Chore.counts = 0 ∧
      (es.flatMap fun e => stopping e.1 e.2 .lost).countP Chore.settles = es.length := by
  induction es with
  | nil => exact ⟨rfl, rfl⟩
  | cons e rest ih =>
    obtain ⟨hcounts, hsettles⟩ := ih
    rw [List.flatMap_cons, List.countP_append, List.countP_append, hcounts, hsettles]
    exact ⟨rfl, Nat.add_comm 1 _⟩

namespace Sound

/-- No timer becomes known, and none is left to be entered that was not there before. -/
theorem shrink {n' : Nat} (h : Sound s n (c :: waiting)) (hn : n ≤ n')
    (hknown : ∀ timer id, s'.byTimer.get? timer = some id → s.byTimer.get? timer = some id)
    (hloose : cs.filterMap Chore.loose? = [])
    (hbalanced : Balanced s' ((cs ++ waiting).countP Chore.counts)
      ((cs ++ waiting).countP Chore.settles)) : Sound s' n' (cs ++ waiting) := by
  have hsame : (cs ++ waiting).filterMap Chore.loose? = waiting.filterMap Chore.loose? := by
    rw [List.filterMap_append, hloose, List.nil_append]
  have hsub : (waiting.filterMap Chore.loose?).Sublist ((c :: waiting).filterMap Chore.loose?) :=
    (List.sublist_cons_self c waiting).filterMap _
  refine ⟨hbalanced, ?_, ?_, hsame ▸ h.apart.sublist hsub⟩
  · exact fun timer id ht => Nat.lt_of_lt_of_le (h.below timer id (hknown timer id ht)) hn
  · intro timer ht
    obtain ⟨hlt, hnone⟩ := h.loose timer (hsub.subset (hsame ▸ ht))
    refine ⟨Nat.lt_of_lt_of_le hlt hn, Option.eq_none_iff_forall_not_mem.2 fun id hid => ?_⟩
    cases hnone.symm.trans (hknown timer id hid)

theorem known_without {p : Pending} {id : Nat} (timer j : Nat)
    (ht : (s.without id p).byTimer.get? timer = some j) : s.byTimer.get? timer = some j := by
  have hget : (s.byTimer.erase p.timer).get? timer = some j := ht
  rw [Table.get?_erase] at hget
  split at hget
  · cases hget
  · exact hget

/-- All sub-requests of an endpoint are taken out. -/
theorem close (h : Sound s n (c :: waiting)) (endpoint : Nat)
    (hcounts : c.counts = false) (hsettles : c.settles = false) :
    Sound (s.swept (s.sentTo endpoint)) n
      ((s.sentTo endpoint).flatMap (fun e => stopping e.1 e.2 .lost) ++ waiting) := by
  obtain ⟨hcount, hsettle⟩ := countP_stopping (s.sentTo endpoint)
  have hloose := filterMap_stopping (g := Chore.loose?) (fun _ => rfl) (fun _ _ _ => rfl)
    (s.sentTo endpoint)
  have hbalanced := h.balanced
  rw [List.countP_cons_of_neg (by rw [hcounts]; exact nofun),
    List.countP_cons_of_neg (by rw [hsettles]; exact nofun)] at hbalanced
  obtain ⟨hall, hknown⟩ := sweep_sentTo endpoint
    (P := fun es s' => Balanced s' (waiting.countP Chore.counts)
        (waiting.countP Chore.settles + es.length) ∧
      ∀ timer id, s'.byTimer.get? timer = some id → s.byTimer.get? timer = some id)
    ⟨hbalanced, fun _ _ => id⟩ fun swept id p s' ⟨hb, hk⟩ hp => by
      rw [List.length_append]
      exact ⟨hb.without hp, fun timer j ht => hk timer j (known_without timer j ht)⟩
  refine h.shrink (Nat.le_refl n) hknown hloose ?_
  rw [List.countP_append, List.countP_append, hcount, hsettle, Nat.zero_add, Nat.add_comm]
  exact hall

/-- Nothing is entered or taken out. -/
theorem still {n' : Nat} (h : Sound s n (c :: waiting)) (hn : n ≤ n')
    (hpending : s'.pending = s.pending) (hknown : s'.byTimer = s.byTimer)
    (hstats : s'.stats = s.stats) (hc : c.counts = false ∧ c.settles = false)
    (hcs : ∀ c ∈ cs, c.counts = false ∧ c.settles = false ∧ c.loose? = none) :
    Sound s' n' (cs ++ waiting) := by
  have hcounts : cs.countP Chore.counts = 0 :=
    List.countP_eq_zero.2 fun c hc => Bool.eq_false_iff.1 (hcs c hc).1
  have hsettles : cs.countP Chore.settles = 0 :=
    List.countP_eq_zero.2 fun c hc => Bool.eq_false_iff.1 (hcs c hc).2.1
  refine h.shrink hn (fun timer id ht => hknown ▸ ht)
    (List.filterMap_eq_nil_iff.2 fun c hc => (hcs c hc).2.2) ?_
  have hbalanced := h.balanced
  rw [List.countP_cons_of_neg (Bool.eq_false_iff.1 hc.1),
    List.countP_cons_of_neg (Bool.eq_false_iff.1 hc.2)] at hbalanced
  rw [List.countP_append, List.countP_append, hcounts, hsettles, Nat.zero_add, Nat.zero_add]
  obtain ⟨htimers, hsent, htimeouts⟩ := hbalanced
  refine ⟨?_, ?_, ?_⟩
  · rw [hpending, hknown]
    exact htimers
  · rw [hstats, State.inFlight, hpending]
    exact hsent
  · rw [hstats]
    exact htimeouts

/-- A sub-request is taken out, and its end is to be counted. -/
theorem without {id : Nat} {p : Pending} (h : Sound s n (c :: waiting))
    (hp : s.pending.get? id = some p) (hc : c.counts = false ∧ c.settles = false)
    (hcs : cs.countP Chore.counts = 0 ∧ cs.countP Chore.settles = 1 ∧
      cs.filterMap Chore.loose? = []) : Sound (s.without id p) n (cs ++ waiting) := by
  have hbalanced := h.balanced
  rw [List.countP_cons_of_neg (Bool.eq_false_iff.1 hc.1),
    List.countP_cons_of_neg (Bool.eq_false_iff.1 hc.2)] at hbalanced
  refine h.shrink (Nat.le_refl n) known_without hcs.2.2 ?_
  rw [List.countP_append, List.countP_append, hcs.1, hcs.2.1, Nat.zero_add, Nat.add_comm]
  exact hbalanced.without hp

/-- A timer is scheduled, and waits to be entered. -/
theorem schedule {n' : Nat} {d : Draft} {deadline : Nat}
    (h : Sound s n (.schedule d deadline :: waiting)) (hn : n' = n + 1) :
    Sound s n' (.enter d n :: waiting) := by
  subst hn
  refine ⟨h.balanced, fun timer id ht => Nat.lt_succ_of_lt (h.below timer id ht), ?_, ?_⟩
  · intro timer ht
    rcases List.mem_cons.1 ht with rfl | ht
    · exact ⟨Nat.lt_succ_self _, h.unknown⟩
    · exact ⟨Nat.lt_succ_of_lt (h.loose timer ht).1, (h.loose timer ht).2⟩
  · refine List.nodup_cons.2 ⟨fun hmem => ?_, h.apart⟩
    exact Nat.lt_irrefl _ (h.loose n hmem).1

/-- A sub-request is entered, and is to be counted. -/
theorem enter {d : Draft} {timer : Nat} (h : Sound s n (.enter d timer :: waiting))
    (hfree : s.pending.get? d.id = none) :
    Sound (s.entered d.id (d.pending timer)) n (.count d.id d.endpoint d.frame :: waiting) := by
  obtain ⟨hlt, hnew⟩ := h.loose timer List.mem_cons_self
  obtain ⟨hother, hapart⟩ := List.nodup_cons.1 h.apart
  refine ⟨?_, ?_, ?_, hapart⟩
  · rw [List.countP_cons_of_pos rfl]
    exact h.balanced.entered hfree hnew
  · intro t id ht
    have hget : (s.byTimer.insert timer d.id).get? t = some id := ht
    rw [Table.get?_insert] at hget
    split at hget
    · subst_vars
      exact hlt
    · exact h.below t id hget
  · intro t ht
    obtain ⟨hlt', hnone⟩ := h.loose t (List.mem_cons_of_mem _ ht)
    refine ⟨hlt', ?_⟩
    show (s.byTimer.insert timer d.id).get? t = none
    have hne : t ≠ timer := by
      rintro rfl
      exact hother ht
    rw [Table.get?_insert_of_ne _ _ hne]
    exact hnone

/-- A sub-request is to be sent again. -/
theorem again {n' id : Nat} {p : Pending} (h : Sound s n (.expire p.timer :: waiting))
    (hn : n' = n + 1) (hp : s.pending.get? id = some p) :
    Sound (s.resent id p n) n' (.send id p.endpoint p.frame :: waiting) := by
  subst hn
  refine ⟨h.balanced.resent hp h.unknown, ?_, ?_, h.apart⟩
  · intro t j ht
    have hget : ((s.byTimer.erase p.timer).insert n id).get? t = some j := ht
    rw [Table.get?_insert, Table.get?_erase] at hget
    split at hget
    · subst_vars
      exact Nat.lt_succ_self _
    · split at hget
      · cases hget
      · exact Nat.lt_succ_of_lt (h.below t j hget)
  · intro t ht
    obtain ⟨hlt, hnone⟩ := h.loose t ht
    refine ⟨Nat.lt_succ_of_lt hlt, ?_⟩
    show ((s.byTimer.erase p.timer).insert n id).get? t = none
    rw [Table.get?_insert_of_ne _ _ (Nat.ne_of_lt hlt), Table.get?_erase, hnone]
    split <;> rfl

/-- Whichever chore is done, everything stays in step. -/
theorem acts {m' : Machine κ η State τ ν} (h : Sound m.world m.timers.nextId (c :: waiting))
    (hd : Does self m c es cs m') : Sound m'.world m'.timers.nextId (cs ++ waiting) := by
  obtain ⟨hacts, -, hdid⟩ := hd
  have hnext := hdid.timers.nextId
  have hle : m.timers.nextId ≤ m'.timers.nextId := by omega
  generalize m'.world = s', m'.timers.nextId = n' at *
  cases hacts with
  | scatter countdown command targets =>
    refine h.still hle rfl rfl rfl ⟨rfl, rfl⟩ fun c hc => ?_
    obtain ⟨target, left, rfl⟩ := mem_unnamed hc
    exact ⟨rfl, rfl, rfl⟩
  | name | time | refused =>
    refine h.still hle rfl rfl rfl ⟨rfl, rfl⟩ fun c hc => ?_
    obtain rfl := List.mem_singleton.1 hc
    exact ⟨rfl, rfl, rfl⟩
  | sent | gone | cancel | complete | stray | unknown =>
    exact h.still hle rfl rfl rfl ⟨rfl, rfl⟩ nofun
  | schedule d deadline => exact h.schedule hnext
  | enter d timer free new => exact (h.enter free).later hle
  | count id endpoint frame =>
    have hbalanced := h.balanced
    rw [List.countP_cons_of_pos rfl] at hbalanced
    exact h.shrink hle (fun _ _ ht => ht) rfl hbalanced.countSent
  | gaveUp found => exact (h.without found ⟨rfl, rfl⟩ ⟨rfl, rfl, rfl⟩).later hle
  | settle id token outcome =>
    have hbalanced := h.balanced
    rw [List.countP_cons_of_pos (p := Chore.settles) rfl] at hbalanced
    refine h.shrink hle (fun timer id ht => ?_) rfl (hbalanced.countEnd outcome)
    cases outcome <;> exact ht
  | answered decoded found =>
    exact (h.without found ⟨rfl, rfl⟩ ⟨rfl, rfl, rfl⟩).later hle
  | exhausted found enough =>
    exact (h.without found ⟨rfl, rfl⟩ ⟨rfl, rfl, rfl⟩).later hle
  | again found more new => exact h.again hnext found
  | close endpoint => exact (h.close endpoint rfl rfl).later hle

end Sound

end LeaseLock.Fanout
