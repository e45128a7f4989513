import LeaseLock.Proofs.Fanout.Tracker
import LeaseLock.Scenario.Destinations

/-
  LeaseLock: runs of a fan-out beside the event loop.
  A `Story` is any sequence of what happens to a fan-out: somebody scatters a command, the loop hands
  over a response, a timer or a closure, and one of the chores that wait is done, whichever it is.
  Between two chores clocks, endpoints, connections and timers may change in any way, and others may
  use the countdowns.  So scatters run beside the loop and beside one another, and every step of
  one of them can fall between any two of another.  At every point of a story the tables are in
  step, and the counts, the tokens and the countdowns are but for what the waiting chores have in
  hand (`Story.completes_once`).  A story ends with the loop, which starts over with the ids of timers.
-/

namespace LeaseLock.Fanout

open Reactor

variable {κ η τ ν : Type} {w : Wiring κ η State τ ν} {self : η} {config : Config}
  {m m₀ : Machine κ η State τ ν} {s s' : State} {c : Chore} {cs chores waiting : List Chore}
  {es : List (Errand η)} {id n : Nat} {token : Token}

/-! ## Stories -/

/-- Something that happens to a fan-out. -/
inductive Occasion (κ η τ ν : Type) where
  /-- A chore is done in the loop `m`, and these wait beside it. -/
  | did (m : Machine κ η State τ ν) (waiting : List Chore) (c : Chore)
  /-- Others use the countdowns, which are these afterwards. -/
  | others (m : Machine κ η State τ ν) (countdowns : Table Countdown)

/-- Work that comes from outside; the rest follows from it. -/
def Chore.IsCall : Chore → Prop
  | .scatter _ _ _ | .reply _ _ | .expire _ | .close _ => True
  | _ => False

/-- A run of a fan-out, with the chores that wait and the occasions so far, newest first. -/
inductive Story (w : Wiring κ η State τ ν) (self : η) (config : Config) :
    Machine κ η State τ ν → List Chore → List (Occasion κ η τ ν) → Prop
  /-- Nothing has happened. -/
  | start (links : τ) : Story w self config (.start (.empty config) links) [] []
  /-- A command is to be scattered, or an event to be handled. -/
  | called {m : Machine κ η State τ ν} {chores : List Chore} {os : List (Occasion κ η τ ν)}
      (before : Story w self config m chores os) (c : Chore) (calls : c.IsCall) :
      Story w self config m (c :: chores) os
  /-- One of the waiting chores is done; the clock can name its deadline, and its id is free. -/
  | did {m : Machine κ η State τ ν} {chores waiting cs : List Chore} {c : Chore}
      {os : List (Occasion κ η τ ν)} (before : Story w self config m chores os)
      (next : chores.Perm (c :: waiting)) (free : c.Free m.world)
      (ok : (m.run w (c.act self)).1 = .ok cs) :
      Story w self config (m.run w (c.act self)).2 (cs ++ waiting) (.did m waiting c :: os)
  /-- Others use the countdowns, and change the loop in any way but that they take back ids of
  timers. -/
  | others {m m' : Machine κ η State τ ν} {chores : List Chore} {os : List (Occasion κ η τ ν)}
      (before : Story w self config m chores os) (countdowns : Table Countdown)
      (world : m'.world = { m.world with countdowns })
      (timers : m.timers.nextId ≤ m'.timers.nextId) :
      Story w self config m' chores (.others m countdowns :: os)

/-- A new call has nothing in hand. -/
theorem Sound.call {n : Nat} (h : Sound s n chores) (hc : c.IsCall) : Sound s n (c :: chores) := by
  obtain ⟨hbalanced, hbelow, hloose, hapart⟩ := h
  cases c <;> first | exact ⟨hbalanced, hbelow, hloose, hapart⟩ | exact hc.elim

theorem Sound.foreign {n n' : Nat} (h : Sound s n chores) (countdowns : Table Countdown)
    (hn : n ≤ n') : Sound { s with countdowns } n' chores := by
  obtain ⟨⟨htimers, hsent, htimeouts⟩, hbelow, hloose, hapart⟩ := h.later hn
  exact ⟨⟨htimers, hsent, htimeouts⟩, hbelow, hloose, hapart⟩

namespace Story

variable {os : List (Occasion κ η τ ν)}

theorem sound (h : Story w self config m chores os) :
    Sound m.world m.timers.nextId chores := by
  induction h with
  | start links => exact sound_empty config
  | called before c calls ih => exact ih.call calls
  | did before next free ok ih =>
    obtain ⟨es, hdoes⟩ := acts_of_run (ih.perm next) free ok
    exact (ih.perm next).acts hdoes
  | others before countdowns world timers ih =>
    rw [world]
    exact ih.foreign countdowns timers

/-- The chore that is done acts on what the story has come to. -/
theorem does (h : Story w self config m chores os) (next : chores.Perm (c :: waiting))
    (free : c.Free m.world) (ok : (m.run w (c.act self)).1 = .ok cs) :
    ∃ es, Does self m c es cs (m.run w (c.act self)).2 :=
  acts_of_run (h.sound.perm next) free ok

end Story

/-! ## Tokens -/

/-- A token is this one, and its sub-request has this id. -/
def isOf (id : Nat) (token : Token) (id' : Nat) (token' : Token) : Bool :=
  decide (id' = id ∧ token' = token)

namespace Chore

/-- A token is handed to a sub-request of this id. -/
def hands (id : Nat) (token : Token) : Chore → Bool
  | .enter d _ => isOf id token d.id d.token
  | _ => false

/-- The token of a sub-request of this id is used up. -/
def finishes (id : Nat) (token : Token) : Chore → Bool
  | .complete id' token' _ => isOf id token id' token'
  | _ => false

/-- The token of a sub-request of this id was taken back, and is to be used up. -/
def owes (id : Nat) (token : Token) : Chore → Bool
  | .settle id' token' _ | .complete id' token' _ => isOf id token id' token'
  | _ => false

end Chore

/-- A chore of this kind was done. -/
def Occasion.isDone (q : Chore → Bool) : Occasion κ η τ ν → Bool
  | .did _ _ c => q c
  | .others _ _ => false

/-- Whether the sub-request of this id is pending with this token. -/
def State.keeps (s : State) (id : Nat) (token : Token) : Bool :=
  (s.pending.get? id).any fun p => isOf id token id p.token

/-- A token that was handed to a sub-request is kept with it, or is in hand to be used up, or has
been used up. -/
def Kept (s : State) (chores : List Chore) (os : List (Occasion κ η τ ν)) (id : Nat)
    (token : Token) : Prop :=
  os.countP (Occasion.isDone (Chore.hands id token)) =
    os.countP (Occasion.isDone (Chore.finishes id token)) +
      chores.countP (Chore.owes id token) + (s.keeps id token).toNat

theorem countP_cons_toNat {α : Type} (q : α → Bool) (a : α) (l : List α) :
    (a :: l).countP q = (q a).toNat + l.countP q := by
  rw [List.countP_cons, Nat.add_comm]
  cases q a <;> rfl

theorem isOf_of_ne {id' : Nat} (h : id' ≠ id) (token' : Token) :
    isOf id token id' token' = false :=
  decide_eq_false fun heq => h heq.1

theorem keeps_without {j : Nat} {p : Pending} (id : Nat) (token : Token)
    (hp : s.pending.get? j = some p) :
    ((s.without j p).keeps id token).toNat + (isOf id token j p.token).toNat =
      (s.keeps id token).toNat := by
  unfold State.keeps State.without
  rw [Table.get?_erase]
  by_cases hid : id = j
  · subst hid
    rw [if_pos rfl, hp]
    exact Nat.zero_add _
  · rw [if_neg hid, isOf_of_ne (Ne.symm hid)]
    rfl

theorem keeps_entered {j : Nat} {p : Pending} (hfree : s.pending.get? j = none) :
    ((s.entered j p).keeps id token).toNat =
      (s.keeps id token).toNat + (isOf id token j p.token).toNat := by
  unfold State.keeps State.entered
  rw [Table.get?_insert]
  by_cases hid : id = j
  · subst hid
    rw [if_pos rfl, hfree]
    exact (Nat.zero_add _).symm
  · rw [if_neg hid, isOf_of_ne (Ne.symm hid)]
    rfl

theorem keeps_resent {j : Nat} {p : Pending} (hp : s.pending.get? j = some p) (timer : Nat) :
    (s.resent j p timer).keeps id token = s.keeps id token := by
  unfold State.keeps State.resent
  rw [Table.get?_insert]
  by_cases hid : id = j
  · subst hid
    rw [if_pos rfl, hp]
    rfl
  · rw [if_neg hid]

theorem countP_owes_stopping (j : Nat) (p : Pending) (outcome : Outcome) :
    (stopping j p outcome).countP (Chore.owes id token) = (isOf id token j p.token).toNat := by
  rw [stopping, countP_cons_toNat, countP_cons_toNat]
  exact Nat.zero_add _

namespace Kept

variable {os : List (Occasion κ η τ ν)}

theorem perm (h : Kept s chores os id token) (hp : chores.Perm cs) : Kept s cs os id token := by
  unfold Kept at *
  rw [← hp.countP_eq]
  exact h

/-- A chore is done, and what it hands over, uses up and leaves comes to the same. -/
theorem step (h : Kept s (c :: waiting) os id token)
    (hc : (c.hands id token).toNat + (c.owes id token).toNat + (s.keeps id token).toNat =
      (c.finishes id token).toNat + cs.countP (Chore.owes id token) +
        (s'.keeps id token).toNat) :
    Kept s' (cs ++ waiting) (.did m waiting c :: os) id token := by
  unfold Kept at *
  rw [countP_cons_toNat] at h
  rw [countP_cons_toNat, countP_cons_toNat, List.countP_append]
  simp only [Occasion.isDone]
  omega

/-- Nothing happens to tokens. -/
theorem still (h : Kept s (c :: waiting) os id token) (hpending : s'.pending = s.pending)
    (hc : c.hands id token = false ∧ c.finishes id token = false ∧ c.owes id token = false)
    (hcs : cs.countP (Chore.owes id token) = 0) :
    Kept s' (cs ++ waiting) (.did m waiting c :: os) id token := by
  refine h.step ?_
  unfold State.keeps
  rw [hpending, hc.1, hc.2.1, hc.2.2, hcs]
  rfl

/-- A sub-request is taken out, and its token is to be used up. -/
theorem without {j : Nat} {p : Pending} (h : Kept s (c :: waiting) os id token)
    (hp : s.pending.get? j = some p)
    (hc : c.hands id token = false ∧ c.finishes id token = false ∧ c.owes id token = false)
    (hcs : cs.countP (Chore.owes id token) = (isOf id token j p.token).toNat) :
    Kept (s.without j p) (cs ++ waiting) (.did m waiting c :: os) id token := by
  refine h.step ?_
  have hkeeps := keeps_without id token hp
  rw [hc.1, hc.2.1, hc.2.2, hcs, Bool.toNat_false]
  omega

theorem close (h : Kept s (.close n :: waiting) os id token) :
    Kept (s.swept (s.sentTo n)) ((s.sentTo n).flatMap (fun e => stopping e.1 e.2 .lost) ++ waiting)
      (.did m waiting (.close n) :: os) id token := by
  refine h.step ?_
  have hswept := sweep_sentTo n
    (P := fun es s' => (s'.keeps id token).toNat +
      (es.flatMap fun e => stopping e.1 e.2 .lost).countP (Chore.owes id token) =
        (s.keeps id token).toNat) rfl fun swept j p s' hkept hp => by
      have hkeeps := keeps_without id token hp
      rw [List.flatMap_append, List.flatMap_singleton, List.countP_append, countP_owes_stopping]
      dsimp only
      omega
  simp only [Chore.hands, Chore.owes, Chore.finishes, Bool.toNat_false]
  omega

/-- Whichever chore is done, no token is lost or used up twice. -/
theorem acts (h : Kept m.world (c :: waiting) os id token) (hacts : Acts self m c s' es cs) :
    Kept s' (cs ++ waiting) (.did m waiting c :: os) id token := by
  cases hacts with
  | scatter countdown command targets =>
    refine h.still rfl ⟨rfl, rfl, rfl⟩ (List.countP_eq_zero.2 fun c hc => ?_)
    obtain ⟨target, left, rfl⟩ := mem_unnamed hc
    exact Bool.false_ne_true
  | name | time | schedule | count | refused => exact h.still rfl ⟨rfl, rfl, rfl⟩ rfl
  | sent | gone | cancel | stray | unknown => exact h.still rfl ⟨rfl, rfl, rfl⟩ rfl
  | enter d timer free new =>
    refine h.step ?_
    rw [keeps_entered free]
    simp only [Chore.hands, Chore.owes, Chore.finishes, Bool.toNat_false, Draft.pending,
      countP_cons_toNat, List.countP_nil]
    omega
  | gaveUp found => exact h.without found ⟨rfl, rfl, rfl⟩ (countP_owes_stopping _ _ _)
  | settle j used outcome =>
    have hkeeps : (m.world.countEnd outcome).keeps id token = m.world.keeps id token := by
      cases outcome <;> rfl
    refine h.step ?_
    rw [hkeeps, countP_cons_toNat]
    simp only [Chore.hands, Chore.owes, Chore.finishes, List.countP_nil]
    omega
  | complete j used failed =>
    refine h.step ?_
    have hkeeps : (m.world.complete used failed).keeps id token = m.world.keeps id token := rfl
    rw [hkeeps]
    simp only [Chore.hands, Chore.owes, Chore.finishes, List.countP_nil, Bool.toNat_false]
    omega
  | answered decoded found => exact h.without found ⟨rfl, rfl, rfl⟩ (countP_owes_stopping _ _ _)
  | exhausted found enough =>
    exact h.without found ⟨rfl, rfl, rfl⟩ (countP_cons_toNat _ _ _)
  | @again j p found more new =>
    refine h.step ?_
    rw [keeps_resent found, countP_cons_toNat]
    rfl
  | close endpoint => exact h.close

theorem call (h : Kept s chores os id token) (hc : c.IsCall) : Kept s (c :: chores) os id token := by
  unfold Kept at *
  rw [h, countP_cons_toNat]
  cases c <;> first | exact hc.elim | simp only [Chore.owes, Bool.toNat_false, Nat.zero_add]

end Kept

theorem Story.kept {os : List (Occasion κ η τ ν)} (h : Story w self config m chores os) (id : Nat)
    (token : Token) : Kept m.world chores os id token := by
  induction h with
  | start links => rfl
  | called before c calls ih => exact ih.call calls
  | did before next free ok ih =>
    obtain ⟨es, hdoes⟩ := before.does next free ok
    exact (ih.perm next).acts hdoes.acts
  | others before countdowns world timers ih =>
    rw [world]
    exact ih

/-! ## Countdowns -/

/-- The countdown is not armed, and others do not complete its tasks. -/
def Occasion.Leaves (countdown : Nat) : Occasion κ η τ ν → Prop
  | .did _ _ c => c.arms? ≠ some countdown
  | .others m countdowns =>
    let c := (countdowns.get? countdown).getD .idle
    let before := m.world.countdown countdown
    c.epoch = before.epoch ∧ c.outstanding = before.outstanding ∧ c.done = before.done

theorem Tracked.call {old : Nat} (h : Tracked token s chores old) (hc : c.IsCall) :
    Tracked token s (c :: chores) old := by
  unfold Tracked State.tasks at *
  rw [countP_cons_toNat]
  cases c <;> first
    | exact hc.elim
    | simpa only [Chore.holds, Bool.toNat_false, Nat.zero_add] using h

/-- The countdown of a fan-out is at its tasks from when it was armed on. -/
theorem Story.tracked {os rest before : List (Occasion κ η τ ν)} {countdown : Nat}
    {command : UInt8} {targets : List (Nat × Bytes)} (h : Story w self config m chores os)
    (hplace : os = rest ++ .did m₀ waiting (.scatter countdown command targets) :: before)
    (hleft : ∀ o ∈ rest, o.Leaves countdown) :
    let token := (m₀.world.arm countdown targets.length).1
    Tracked token m.world chores (m₀.world.tasks token waiting) := by
  intro token
  induction h generalizing rest with
  | start links => cases List.append_ne_nil_of_right_ne_nil rest (List.cons_ne_nil _ _) hplace.symm
  | called _ c calls ih => exact (ih hplace hleft).call calls
  | @did m chores waiting' cs c os prior next free ok ih =>
    obtain ⟨es, hdoes⟩ := prior.does next free ok
    have hacts := hdoes.acts
    generalize (m.run w (c.act self)).2.world = s' at hacts ⊢
    cases rest with
    | nil =>
      obtain ⟨hnow, -⟩ := List.cons.inj hplace
      cases hnow
      cases hacts
      exact tracked_armed _ _ _ _ _
    | cons o rest =>
      obtain ⟨rfl, hprior⟩ := List.cons.inj hplace
      have hbefore := ih hprior fun o ho => hleft o (List.mem_cons_of_mem _ ho)
      exact (hbefore.perm next).acts hacts (hleft _ List.mem_cons_self)
  | @others m m' chores os prior countdowns world timers ih =>
    cases rest with
    | nil => cases (List.cons.inj hplace).1
    | cons o rest =>
      obtain ⟨rfl, hprior⟩ := List.cons.inj hplace
      have hbefore := ih hprior fun o ho => hleft o (List.mem_cons_of_mem _ ho)
      obtain ⟨hepoch, houtstanding, hdone⟩ := hleft _ List.mem_cons_self
      rw [world]
      exact ⟨hepoch.trans hbefore.epoch, houtstanding.trans hbefore.outstanding,
        hdone.trans hbefore.done⟩

/-! ## What a story leaves behind -/

/-- The state of the fan-out accounts for what has happened, but for what the waiting chores have in
hand; if none waits, it accounts for everything. -/
structure Accounted (m : Machine κ η State τ ν) (chores : List Chore)
    (os : List (Occasion κ η τ ν)) : Prop where
  /-- The two tables are in step, and so are the counts. -/
  balanced : Balanced m.world (chores.countP Chore.counts) (chores.countP Chore.settles)
  /-- A token that was handed to a sub-request is used up once, when its sub-request is no longer
  pending, and not before. -/
  tokens : ∀ id token, Kept m.world chores os id token
  /-- A countdown that others leave alone is at the number of tasks of its fan-out, so it is done
  if none is left.  Those with an equal token from long ago are not among them. -/
  countdowns : ∀ rest m₀ waiting countdown command targets before,
    os = rest ++ .did m₀ waiting (.scatter countdown command targets) :: before →
    (∀ o ∈ rest, o.Leaves countdown) →
    let token := (m₀.world.arm countdown targets.length).1
    (m.world.countdown countdown).Counts token.epoch
      (m.world.tasks token chores - m₀.world.tasks token waiting)

/-- Every story accounts for its state. -/
theorem Story.completes_once {os : List (Occasion κ η τ ν)}
    (h : Story w self config m chores os) : Accounted m chores os where
  balanced := h.sound.balanced
  tokens := h.kept
  countdowns := fun _ _ _ _ _ _ _ hplace hleft => h.tracked hplace hleft

/-! ## Stories that are carried on -/

/-- Do the first of the waiting chores, and then the first of those that wait then, so many
times; tells what happened on the way, newest first. -/
def advance (w : Wiring κ η State τ ν) (self : η) : Nat →
    Machine κ η State τ ν → List Chore →
      Option (Machine κ η State τ ν × List Chore × List (Occasion κ η τ ν))
  | 0, m, chores => some (m, chores, [])
  | _ + 1, _, [] => none
  | n + 1, m, c :: waiting =>
    if c.Free m.world then
      match m.run w (c.act self) with
      | (.ok cs, m') => (advance w self n m' (cs ++ waiting)).map fun r =>
        (r.1, r.2.1, r.2.2 ++ [.did m waiting c])
      | (.error _, _) => none
    else none

/-- What is kept when the first of the waiting chores is done holds after many. -/
theorem advance_induction
    {P : Machine κ η State τ ν → List Chore → List (Occasion κ η τ ν) → Prop}
    (hstep : ∀ m c waiting os cs, P m (c :: waiting) os → c.Free m.world →
      (m.run w (c.act self)).1 = .ok cs →
      P (m.run w (c.act self)).2 (cs ++ waiting) (.did m waiting c :: os))
    {os : List (Occasion κ η τ ν)} (h : P m chores os) (n : Nat)
    (hsome : (advance w self n m chores).isSome) :
    let r := (advance w self n m chores).get hsome
    P r.1 r.2.1 (r.2.2 ++ os) := by
  have hall : ∀ r, advance w self n m chores = some r → P r.1 r.2.1 (r.2.2 ++ os) := by
    clear hsome
    induction n generalizing m chores os with
    | zero =>
      rintro r hr
      cases hr
      exact h
    | succ n ih =>
      intro r hr
      cases chores with
      | nil => cases hr
      | cons c waiting =>
        unfold advance at hr
        split at hr
        · rename_i hfree
          cases hrun : m.run w (c.act self) with
          | mk result m' =>
            rw [hrun] at hr
            cases result with
            | error crash => cases hr
            | ok cs =>
              obtain ⟨r', hr', rfl⟩ := Option.map_eq_some_iff.1 hr
              have hdone := hstep m c waiting os cs h hfree (congrArg Prod.fst hrun)
              rw [hrun] at hdone
              rw [List.append_assoc]
              exact ih hdone r' hr'
        · cases hr
  exact hall _ (Option.some_get hsome).symm

/-- A story goes on with these chores. -/
theorem Story.advance {os : List (Occasion κ η τ ν)} (h : Story w self config m chores os) (n : Nat)
    (hsome : (advance w self n m chores).isSome) :
    let r := (Fanout.advance w self n m chores).get hsome
    Story w self config r.1 r.2.1 (r.2.2 ++ os) :=
  advance_induction (fun _ _ _ _ _ h free ok => h.did (.refl _) free ok) h n hsome

/-- The clock comes to an instant, and the timers that are due by then are taken out. -/
theorem Story.elapsed {os : List (Occasion κ η τ ν)} (h : Story w self config m chores os)
    (now : Nat) :
    Story w self config { m with clock := now, timers := (m.timers.popDue now).2 } chores
      (.others m m.world.countdowns :: os) :=
  h.others _ rfl (Nat.le_refl _)

/-- Two targets, of which the first is silent and the second unknown.  The first is sent its frame
again before the second is entered, and the second has been given up, but its task is still to be
completed. -/
theorem Story.completes_once_resent :
    ∃ (m : Machine (Option Scenario.Destinations.Behaviour) (Option Unit) State (Table Nat) Empty)
      (chores : List Chore) (os : List (Occasion (Option Scenario.Destinations.Behaviour)
        (Option Unit) (Table Nat) Empty)),
      Story Scenario.Destinations.stage.wiring (some ()) ⟨5, 1⟩ m chores os ∧
        Accounted m chores os ∧ m.world.pending.keys = [1] ∧
        chores = [.cancel 3, .settle 2 ⟨7, 1⟩ .lost] ∧
        m.world.countdown 7 = ⟨2, true, false, false, 1⟩ := by
  let w := Scenario.Destinations.stage.wiring
  let attached := ((Machine.start (.empty ⟨5, 1⟩) ∅).run w
    (Program.register (some ⟨none, none, 0⟩) (some ()))).2
  have hattached : Story w (some ()) ⟨5, 1⟩ attached [] [.others _ ∅] :=
    .others (.start ∅) ∅ rfl (Nat.le_refl _)
  have hcalled := hattached.called (.scatter 7 5 [(1, []), (2, [])]) trivial
  have hsent := hcalled.advance 7 (by decide +kernel)
  have hfired := hsent.called (.expire 1) trivial
  have hlost := hfired.advance 9 (by decide +kernel)
  exact ⟨_, _, _, hlost, hlost.completes_once, by decide +kernel, by decide +kernel,
    by decide +kernel⟩

/-- A countdown can be ahead of the sub-requests that are pending: a scatter that is under way has
its task in hand.  And after the loop has ended the two tables can fall out of step, for the ids of
timers start over: another scatter gets the timer of a sub-request that is still pending, and takes
it along when it fails. -/
theorem outstanding_ahead_of_pending :
    (∃ (m : Machine (Option Scenario.Destinations.Behaviour) (Option Unit) State (Table Nat) Empty)
      (chores : List Chore) (os : List (Occasion (Option Scenario.Destinations.Behaviour)
        (Option Unit) (Table Nat) Empty)),
      Story Scenario.Destinations.stage.wiring (some ()) ⟨5, 1⟩ m chores os ∧
        (m.world.countdown 7).outstanding = 1 ∧ m.world.inFlight = 0) ∧
    let w := Scenario.Destinations.stage.wiring
    let attached : Machine (Option Scenario.Destinations.Behaviour) (Option Unit) State (Table Nat)
      Empty := ((Machine.start (.empty ⟨5, 1⟩) ∅).run w
        (Program.register (some ⟨none, none, 0⟩) (some ()))).2
    let scattered := (attached.run w (scatter (some ()) 7 9 [(1, [])])).2
    let stopped := (scattered.run w Program.shutdown).2.settle w 1
    let late := (stopped.run w (scatter (some ()) 8 9 [(1, [])])).2
    (late.world.pending.get? 1).map (·.timer) = some 1 ∧ late.world.byTimer.get? 1 = none := by
  refine ⟨?_, by decide +kernel⟩
  have hstart : Story Scenario.Destinations.stage.wiring (some ()) ⟨5, 1⟩ _ _ _ := .start ∅
  have hcalled := hstart.called (.scatter 7 5 [(1, [])]) trivial
  exact ⟨_, _, _, hcalled.advance 1 (by decide +kernel), by decide +kernel, by decide +kernel⟩

end LeaseLock.Fanout
