import LeaseLock.Coordinator.Turn
import LeaseLock.Proofs.Coordinator.Strike
import LeaseLock.Proofs.Session

/-
  LeaseLock: what the steps of an operation do.
  One rule for each step: `Pumped` for serving a queue, `Detached` for taking a session out of a
  handle.  Each says what becomes of the one handle that is touched, of the registry, of the names,
  and which events and answers are added; all other proofs about operations rest on them.
-/

namespace LeaseLock.Coordinator.Turn

variable {ρ : Type} {t : Turn ρ} {handle session : Nat} {x : Handle ρ}

open Handle (Admission)

/-! ## Recording what left a queue -/

/-- It has been recorded how requests left the queue of a handle from its head. -/
structure Recorded (t : Turn ρ) (handle : Nat) (served : List (Admission ρ)) (t' : Turn ρ) :
    Prop where
  handles : t'.state.handles = t.state.handles
  names : t'.state.names = t.state.names
  nextHandle : t'.state.nextHandle = t.state.nextHandle
  sessions : t.state.sessions.SameButHeld t'.state.sessions
  held : ∀ sid j, t'.state.sessions.Held sid j ↔
    t.state.sessions.Held sid j ∨ j = handle ∧ served.any (·.gives sid) = true ∧
      t.state.sessions.contains sid = true
  events : t'.events = t.events ++ served.filterMap (Admission.event? handle)
  answers : t'.answers = t.answers ++ served.map fun a => (a.waiter.reply, a.answer)

theorem Recorded.refl (t : Turn ρ) (handle : Nat) : Recorded t handle [] t where
  handles := rfl
  names := rfl
  nextHandle := rfl
  sessions := .refl _
  held := fun sid j => by simp
  events := (List.append_nil _).symm
  answers := (List.append_nil _).symm

theorem Recorded.trans {first second : List (Admission ρ)} {t' t'' : Turn ρ}
    (h : Recorded t handle first t') (h' : Recorded t' handle second t'') :
    Recorded t handle (first ++ second) t'' where
  handles := h'.handles.trans h.handles
  names := h'.names.trans h.names
  nextHandle := h'.nextHandle.trans h.nextHandle
  sessions := h.sessions.trans h'.sessions
  held := by
    intro sid j
    rw [h'.held, h.held, h.sessions.contains, List.any_append, Bool.or_eq_true]
    constructor
    · rintro ((hh | ⟨hj, hg, hc⟩) | ⟨hj, hg, hc⟩)
      · exact .inl hh
      · exact .inr ⟨hj, .inl hg, hc⟩
      · exact .inr ⟨hj, .inr hg, hc⟩
    · rintro (hh | ⟨hj, hg | hg, hc⟩)
      · exact .inl (.inl hh)
      · exact .inl (.inr ⟨hj, hg, hc⟩)
      · exact .inr ⟨hj, hg, hc⟩
  events := by
    rw [h'.events, h.events, List.filterMap_append, List.append_assoc]
  answers := by
    rw [h'.answers, h.answers, List.map_append, List.append_assoc]

theorem recorded_recordAdmission (t : Turn ρ) (handle : Nat) (a : Admission ρ) :
    Recorded t handle [a] (recordAdmission handle t a) := by
  cases a with
  | granted w g =>
    refine ⟨rfl, rfl, rfl, Sessions.sameButHeld_hold, ?_, rfl, rfl⟩
    intro sid j
    refine Sessions.held_hold.trans ?_
    rw [List.any_cons, List.any_nil, Bool.or_false, Admission.gives, beq_iff_eq]
    constructor
    · rintro (hh | ⟨rfl, rfl, hc⟩)
      · exact .inl hh
      · exact .inr ⟨rfl, rfl, hc⟩
    · rintro (hh | ⟨rfl, rfl, hc⟩)
      · exact .inl hh
      · exact .inr ⟨rfl, rfl, hc⟩
  | lapsed w =>
    refine ⟨rfl, rfl, rfl, .refl _, ?_, (List.append_nil _).symm, rfl⟩
    intro sid j
    simp [recordAdmission, Admission.gives, count, answer]

theorem recorded_foldl (t : Turn ρ) (handle : Nat) (served : List (Admission ρ)) :
    Recorded t handle served (served.foldl (recordAdmission handle) t) := by
  induction served generalizing t with
  | nil => exact .refl t handle
  | cons a rest ih => exact (recorded_recordAdmission t handle a).trans (ih _)

/-! ## Serving the queue of a handle -/

/-- What becomes of a handle whose queue is served in this turn. -/
def served (t : Turn ρ) (x : Handle ρ) : List (Admission ρ) × Handle ρ :=
  x.pump t.state.sessions.contains

/-- The queue of a handle, which is `x`, has been served. -/
structure Pumped (t : Turn ρ) (handle : Nat) (x : Handle ρ) (t' : Turn ρ) : Prop where
  handles : t'.state.handles = t.state.handles.insert handle (t.served x).2
  names : t'.state.names = t.state.names
  nextHandle : t'.state.nextHandle = t.state.nextHandle
  sessions : t.state.sessions.SameButHeld t'.state.sessions
  held : ∀ sid j, t'.state.sessions.Held sid j ↔
    t.state.sessions.Held sid j ∨ j = handle ∧ (t.served x).1.any (·.gives sid) = true
  events : t'.events = t.events ++ (t.served x).1.filterMap (Admission.event? handle)
  answers : t'.answers = t.answers ++ (t.served x).1.map fun a => (a.waiter.reply, a.answer)

theorem pumped_pump (hx : t.state.handle? handle = some x) :
    Pumped t handle x (t.pump handle) := by
  have heq : t.pump handle =
      (t.served x).1.foldl (recordAdmission handle)
        (t.onHandles fun hs => hs.insert handle (t.served x).2) := by
    unfold pump
    rw [hx]
    rfl
  have hr := recorded_foldl (t.onHandles fun hs => hs.insert handle (t.served x).2) handle
    (t.served x).1
  rw [heq]
  refine {
    handles := hr.handles
    names := hr.names
    nextHandle := hr.nextHandle
    sessions := hr.sessions
    held := ?_
    events := hr.events
    answers := hr.answers }
  intro sid j
  rw [hr.held]
  constructor
  · rintro (hh | ⟨hj, hg, -⟩)
    · exact .inl hh
    · exact .inr ⟨hj, hg⟩
  · rintro (hh | ⟨hj, hg⟩)
    · exact .inl hh
    · exact .inr ⟨hj, hg, Handle.registered_of_gives hg⟩

theorem Pumped.handle? {t' : Turn ρ} (hp : Pumped t handle x t') :
    t'.state.handle? handle = some (t.served x).2 := by
  rw [State.handle?, hp.handles, Table.get?_insert_self]

theorem pump_of_none (hx : t.state.handle? handle = none) : t.pump handle = t := by
  rw [pump, hx]

theorem sessions_pump (t : Turn ρ) (h : Nat) :
    t.state.sessions.SameButHeld (t.pump h).state.sessions := by
  cases hx : t.state.handle? h with
  | none =>
    rw [pump_of_none hx]
    exact .refl _
  | some x => exact (pumped_pump hx).sessions

/-! ## Taking a session out of a handle -/

theorem eraseP_of_find?_eq_none {l : List (Waiter ρ)} {p : Waiter ρ → Bool}
    (hf : l.find? p = none) : l.eraseP p = l := by
  rw [List.find?_eq_none] at hf
  exact List.eraseP_of_forall_not hf

theorem erase_of_not_mem {β : Type} {s : Table β} (hs : s.contains session = false) :
    s.erase session = s := by
  ext1 j
  rw [Table.get?_erase]
  split
  · subst_vars
    rw [Table.contains, Option.isSome_eq_false_iff, Option.isNone_iff_eq_none] at hs
    exact hs.symm
  · rfl

/-- A session's request has been taken out of the queue of a handle, which is `x`. -/
structure Withdrawn (t : Turn ρ) (handle session : Nat) (a : Answer) (x : Handle ρ)
    (r : Bool × Turn ρ) : Prop where
  found : r.1 = (x.waiters.find? fun w => w.session == session).isSome
  handles : r.2.state.handles = t.state.handles.insert handle (x.withdraw session).2
  names : r.2.state.names = t.state.names
  nextHandle : r.2.state.nextHandle = t.state.nextHandle
  sessions : r.2.state.sessions = t.state.sessions
  events : r.2.events = t.events
  answers : r.2.answers = t.answers ++
    (x.waiters.find? fun w => w.session == session).toList.map fun w => (w.reply, a)

theorem withdrawn_withdraw (hx : t.state.handle? handle = some x) (session : Nat) (a : Answer) :
    Withdrawn t handle session a x (t.withdraw handle session a) := by
  unfold withdraw
  rw [hx]
  dsimp only [Handle.withdraw]
  cases hf : x.waiters.find? fun w => w.session == session with
  | none =>
    refine ⟨by rw [hf]; rfl, ?_, rfl, rfl, rfl, rfl, by rw [hf]; exact (List.append_nil _).symm⟩
    dsimp only [Handle.withdraw]
    rw [eraseP_of_find?_eq_none hf]
    exact (Table.insert_get? hx).symm
  | some w => exact ⟨by rw [hf]; rfl, rfl, rfl, rfl, rfl, rfl, by rw [hf]; rfl⟩

theorem Withdrawn.handle? {a : Answer} {r : Bool × Turn ρ}
    (hw : Withdrawn t handle session a x r) :
    r.2.state.handle? handle = some (x.withdraw session).2 := by
  rw [State.handle?, hw.handles, Table.get?_insert_self]

/-- Where there is no request, nothing happens. -/
theorem withdraw_eq_false {a : Answer} {t' : Turn ρ}
    (hw : t.withdraw handle session a = (false, t')) : t' = t := by
  unfold withdraw at hw
  split at hw
  · exact (Prod.mk.inj hw).2.symm
  · split at hw
    · exact (Prod.mk.inj hw).2.symm
    · cases (Prod.mk.inj hw).1

/-- The lock of a handle, which is `x`, has been taken from a session. -/
structure Unlocked (t : Turn ρ) (handle session : Nat) (reason : ReleaseReason) (x : Handle ρ)
    (r : Bool × Turn ρ) : Prop where
  found : r.1 = x.holders.contains session
  handles : r.2.state.handles =
    t.state.handles.insert handle { x with holders := x.holders.erase session }
  names : r.2.state.names = t.state.names
  nextHandle : r.2.state.nextHandle = t.state.nextHandle
  sessions : r.2.state.sessions = t.state.sessions
  events : r.2.events = t.events ++
    if x.holders.contains session then [.released handle session reason] else []
  answers : r.2.answers = t.answers

theorem unlocked_unlock (hx : t.state.handle? handle = some x) (session : Nat)
    (reason : ReleaseReason) :
    Unlocked t handle session reason x (t.unlock handle session reason) := by
  unfold unlock
  rw [hx]
  dsimp only
  cases hc : x.holders.contains session with
  | false =>
    refine ⟨hc.symm, ?_, rfl, rfl, rfl, by rw [hc]; exact (List.append_nil _).symm, rfl⟩
    rw [erase_of_not_mem hc]
    exact (Table.insert_get? hx).symm
  | true => exact ⟨hc.symm, rfl, rfl, rfl, rfl, by rw [hc]; rfl, rfl⟩

theorem Unlocked.handle? {reason : ReleaseReason} {r : Bool × Turn ρ}
    (hu : Unlocked t handle session reason x r) :
    r.2.state.handle? handle = some { x with holders := x.holders.erase session } := by
  rw [State.handle?, hu.handles, Table.get?_insert_self]

/-- Where there is no lock, nothing happens. -/
theorem unlock_eq_false {reason : ReleaseReason} {t' : Turn ρ}
    (hu : t.unlock handle session reason = (false, t')) : t' = t := by
  unfold unlock at hu
  split at hu
  · exact (Prod.mk.inj hu).2.symm
  · split at hu
    · cases (Prod.mk.inj hu).1
    · exact (Prod.mk.inj hu).2.symm

theorem shut_handles (hx : t.state.handle? handle = some x) :
    (t.shut handle session).state.handles =
      t.state.handles.insert handle { x with openers := x.openers.erase session } := by
  have hget : t.state.handles.get? handle = some x := hx
  unfold shut onHandles Table.modify
  dsimp only
  rw [hget]

/-- What becomes of a handle that a session is taken out of. -/
def expelled (t : Turn ρ) (x : Handle ρ) (session : Nat) : List (Admission ρ) × Handle ρ :=
  t.served (x.drop session)

theorem expelled_openers : (t.expelled x session).2.openers = x.openers.erase session :=
  Handle.serve_openers _

theorem expelled_name : (t.expelled x session).2.name = x.name := Handle.serve_name _

/-- A session has been taken out of a handle, which was `x`. -/
structure Detached (t : Turn ρ) (handle session : Nat) (reason : ReleaseReason) (x : Handle ρ)
    (r : Bool × Turn ρ) : Prop where
  released : r.1 = x.holders.contains session
  handles : r.2.state.handles =
    if (x.openers.erase session).isEmpty then t.state.handles.erase handle
    else t.state.handles.insert handle (t.expelled x session).2
  names : r.2.state.names =
    if (x.openers.erase session).isEmpty then t.state.names.filter fun entry => entry.1 != x.name
    else t.state.names
  nextHandle : r.2.state.nextHandle = t.state.nextHandle
  sessions : t.state.sessions.SameButHeld r.2.state.sessions
  held : ∀ sid j, r.2.state.sessions.Held sid j ↔
    t.state.sessions.Held sid j ∨
      j = handle ∧ (t.expelled x session).1.any (·.gives sid) = true
  events : r.2.events = t.events ++
    (if x.holders.contains session then [.released handle session reason] else []) ++
    (t.expelled x session).1.filterMap (Admission.event? handle)
  answers : r.2.answers = t.answers ++
    ((x.waiters.find? fun w => w.session == session).toList.map fun w =>
      (w.reply, farewell session reason)) ++
    ((t.expelled x session).1.map fun a => (a.waiter.reply, a.answer)) ++
    if (x.openers.erase session).isEmpty then
      (t.expelled x session).2.waiters.map fun w => (w.reply, .refused (.unknownHandle handle))
    else []

theorem foldl_answer (ws : List (Waiter ρ)) (a : Answer) :
    ws.foldl (fun t w => t.answer w.reply a) t =
      { t with answers := t.answers ++ ws.map fun w => (w.reply, a) } := by
  induction ws generalizing t with
  | nil => rw [List.foldl_nil, List.map_nil, List.append_nil]
  | cons w rest ih =>
    rw [List.foldl_cons, ih, answer, List.append_assoc]
    rfl

theorem destroyUnopened_eq (hx : t.state.handle? handle = some x) :
    t.destroyUnopened handle =
      if x.openers.isEmpty then
        { t with
          state := { t.state with
            handles := t.state.handles.erase handle
            names := t.state.names.filter fun entry => entry.1 != x.name }
          answers := t.answers ++
            x.waiters.map fun w => (w.reply, .refused (.unknownHandle handle)) }
      else t := by
  unfold destroyUnopened
  rw [hx]
  dsimp only
  rw [foldl_answer]

/-- A session has lost its request, its lock and its place among the openers of a handle, which
was `x`; the queue has not been served yet. -/
structure Dropped (t : Turn ρ) (handle session : Nat) (reason : ReleaseReason) (x : Handle ρ)
    (r : Bool × Turn ρ) : Prop where
  released : r.1 = x.holders.contains session
  handles : r.2.state.handles = t.state.handles.insert handle (x.drop session)
  names : r.2.state.names = t.state.names
  nextHandle : r.2.state.nextHandle = t.state.nextHandle
  sessions : r.2.state.sessions = t.state.sessions
  events : r.2.events = t.events ++
    if x.holders.contains session then [.released handle session reason] else []
  answers : r.2.answers = t.answers ++
    (x.waiters.find? fun w => w.session == session).toList.map fun w =>
      (w.reply, farewell session reason)

theorem Dropped.handle? {reason : ReleaseReason} {r : Bool × Turn ρ}
    (hd : Dropped t handle session reason x r) :
    r.2.state.handle? handle = some (x.drop session) := by
  rw [State.handle?, hd.handles, Table.get?_insert_self]

theorem dropped_shut (hx : t.state.handle? handle = some x) (session : Nat)
    (reason : ReleaseReason) :
    let u := (t.withdraw handle session (farewell session reason)).2.unlock handle session reason
    Dropped t handle session reason x (u.1, u.2.shut handle session) := by
  intro u
  have hw := withdrawn_withdraw hx session (farewell session reason)
  have hu : Unlocked _ handle session reason _ u := unlocked_unlock hw.handle? session reason
  refine {
    released := hu.found
    handles := ?_
    names := hu.names.trans hw.names
    nextHandle := hu.nextHandle.trans hw.nextHandle
    sessions := hu.sessions.trans hw.sessions
    events := ?_
    answers := hu.answers.trans hw.answers }
  · rw [shut_handles hu.handle?, hu.handles, hw.handles, Table.insert_insert, Table.insert_insert]
    rfl
  · show u.2.events = _
    rw [hu.events, hw.events]
    rfl

theorem detached_detach (hx : t.state.handle? handle = some x) (session : Nat)
    (reason : ReleaseReason) :
    Detached t handle session reason x (t.detach handle session reason) := by
  have hd := dropped_shut hx session reason
  unfold detach
  dsimp only at hd ⊢
  generalize (t.withdraw handle session (farewell session reason)).2.unlock handle session
    reason = u at hd
  generalize u.2.shut handle session = t3 at hd
  have hserved : t3.served (x.drop session) = t.expelled x session := by
    unfold expelled served
    rw [hd.sessions]
  have hp := pumped_pump hd.handle?
  have hx4 : (t3.pump handle).state.handle? handle = some (t.expelled x session).2 := by
    rw [hp.handle?, hserved]
  have hhandles : (t3.pump handle).state.handles =
      t.state.handles.insert handle (t.expelled x session).2 := by
    rw [hp.handles, hserved, hd.handles, Table.insert_insert]
  have hheld : ∀ sid j, (t3.pump handle).state.sessions.Held sid j ↔
      t.state.sessions.Held sid j ∨
        j = handle ∧ (t.expelled x session).1.any (·.gives sid) = true := by
    intro sid j
    rw [hp.held, hserved, hd.sessions]
  have hevents := hp.events
  have hanswers := hp.answers
  rw [hserved, hd.events] at hevents
  rw [hserved, hd.answers] at hanswers
  rw [destroyUnopened_eq hx4, expelled_openers, expelled_name]
  by_cases he : (x.openers.erase session).isEmpty = true
  · rw [if_pos he]
    refine ⟨hd.released, ?_, ?_, hp.nextHandle.trans hd.nextHandle, hd.sessions ▸ hp.sessions,
      hheld, hevents, ?_⟩
    · rw [if_pos he]
      show (t3.pump handle).state.handles.erase handle = _
      rw [hhandles, Table.erase_insert]
    · rw [if_pos he, ← hd.names, ← hp.names]
    · rw [if_pos he, ← hanswers]
  · rw [if_neg he]
    refine ⟨hd.released, ?_, ?_, hp.nextHandle.trans hd.nextHandle, hd.sessions ▸ hp.sessions,
      hheld, hevents, ?_⟩
    · rw [if_neg he, hhandles]
    · rw [if_neg he, hp.names, hd.names]
    · rw [if_neg he, List.append_nil, hanswers]

theorem Detached.handle? {reason : ReleaseReason} {r : Bool × Turn ρ}
    (hr : Detached t handle session reason x r) (j : Nat) :
    r.2.state.handle? j =
      if j = handle then
        if (x.openers.erase session).isEmpty then none else some (t.expelled x session).2
      else t.state.handle? j := by
  rw [State.handle?, hr.handles]
  by_cases he : (x.openers.erase session).isEmpty = true
  · rw [if_pos he, if_pos he, Table.get?_erase]
    rfl
  · rw [if_neg he, if_neg he, Table.get?_insert]
    rfl

/-- Where there is no handle, there is nothing to do. -/
theorem detach_of_none (hx : t.state.handle? handle = none) (reason : ReleaseReason) :
    t.detach handle session reason = (false, t) := by
  have hw : t.withdraw handle session (farewell session reason) = (false, t) := by
    rw [withdraw, hx]
  have hu : t.unlock handle session reason = (false, t) := by
    rw [unlock, hx]
  have hs : t.shut handle session = t := by
    have hget : t.state.handles.get? handle = none := hx
    unfold shut onHandles Table.modify
    dsimp only
    rw [hget]
  have hd : t.destroyUnopened handle = t := by
    rw [destroyUnopened, hx]
  unfold detach
  rw [hw]
  dsimp only
  rw [hu]
  dsimp only
  rw [hs, pump_of_none hx, hd]

theorem sessions_detach (t : Turn ρ) (session handle : Nat) (reason : ReleaseReason) :
    t.state.sessions.SameButHeld (t.detach handle session reason).2.state.sessions := by
  cases hx : t.state.handle? handle with
  | none =>
    rw [detach_of_none hx]
    exact .refl _
  | some x => exact (detached_detach hx session reason).sessions

/-! ## Many sessions, many handles -/

/-- What holds along a cascade: the pairs of a session and a handle that are still to be taken
apart come with the turn, and each step takes the first of them. -/
theorem detachAll_induction {P : List (Nat × Nat) → Turn ρ → Prop} {reason : ReleaseReason}
    (step : ∀ h owed t, P ((session, h) :: owed) t → P owed (t.detach h session reason).2)
    (handles : List Nat) (owed : List (Nat × Nat))
    (hp : P (handles.map (session, ·) ++ owed) t) :
    P owed (t.detachAll session reason handles).2 := by
  induction handles generalizing t with
  | nil => exact hp
  | cons h rest ih =>
    rw [List.map_cons, List.cons_append] at hp
    exact ih (step h _ t hp)

theorem sessions_detachAll (t : Turn ρ) (session : Nat) (reason : ReleaseReason)
    (handles : List Nat) :
    t.state.sessions.SameButHeld (t.detachAll session reason handles).2.state.sessions :=
  detachAll_induction (P := fun _ t' => t.state.sessions.SameButHeld t'.state.sessions)
    (fun h _ t' ht => ht.trans (t'.sessions_detach session h reason)) handles [] (.refl _)

/-- The pairs of a departed session and a handle that it had open. -/
def owes (gone : List (Nat × Session)) : List (Nat × Nat) :=
  gone.flatMap fun e => e.2.opened.keys.map (e.1, ·)

theorem mem_owes {gone : List (Nat × Session)} {sid h : Nat} :
    (sid, h) ∈ owes gone ↔ ∃ o, (sid, o) ∈ gone ∧ h ∈ o.opened := by
  unfold owes
  rw [List.mem_flatMap]
  constructor
  · rintro ⟨⟨i, o⟩, hm, hk⟩
    obtain ⟨j, hj, heq⟩ := List.mem_map.1 hk
    obtain ⟨rfl, rfl⟩ := Prod.mk.inj heq
    exact ⟨o, hm, Table.mem_keys_iff.1 hj⟩
  · rintro ⟨o, hm, hh⟩
    exact ⟨(sid, o), hm, List.mem_map.2 ⟨h, Table.mem_keys_iff.2 hh, rfl⟩⟩

theorem nodup_owes {gone : List (Nat × Session)} (hg : gone.Pairwise fun a b => a.1 ≠ b.1) :
    (owes gone).Nodup := by
  unfold owes List.Nodup
  rw [List.pairwise_flatMap]
  refine ⟨?_, ?_⟩
  · intro e _
    rw [List.pairwise_map]
    refine (Table.nodup_keys e.2.opened).imp ?_
    intro i j hij heq
    exact hij (Prod.mk.inj heq).2
  · refine hg.imp ?_
    intro a b hab p hp q hq heq
    obtain ⟨i, -, rfl⟩ := List.mem_map.1 hp
    obtain ⟨j, -, rfl⟩ := List.mem_map.1 hq
    exact hab (Prod.mk.inj heq).1

theorem expireAll_induction {P : List (Nat × Nat) → Turn ρ → Prop}
    (step : ∀ d h owed t, P ((d, h) :: owed) t → P owed (t.detach h d .sessionExpired).2)
    (emit : ∀ owed t d released, P owed t → P owed (t.emit (.expired d released)))
    (gone : List (Nat × Session)) (hp : P (owes gone) t) : P [] (t.expireAll gone) := by
  induction gone generalizing t with
  | nil => exact hp
  | cons e rest ih =>
    obtain ⟨d, o⟩ := e
    exact ih (emit _ _ d _ (detachAll_induction (step d) o.opened.keys _ hp))

theorem sessions_expireAll (t : Turn ρ) (gone : List (Nat × Session)) :
    t.state.sessions.SameButHeld (t.expireAll gone).state.sessions :=
  expireAll_induction (P := fun _ t' => t.state.sessions.SameButHeld t'.state.sessions)
    (fun d h _ t' ht => ht.trans (t'.sessions_detach d h _)) (fun _ _ _ _ ht => ht) gone (.refl _)

end LeaseLock.Coordinator.Turn
