import LeaseLock.Proofs.Coordinator.Consistency

/-
  LeaseLock: how requests enter and leave the queues.
  `State.queue` lists all requests that wait.  `Departed out t t'` says that between two turns
  exactly the requests `out` have left it, that they are the ones that were answered, and that
  those who were told of a grant hold the lock.  A cascade serves queues again and again while
  sessions are taken out of them; `Cascade` carries the account through it.
-/

namespace LeaseLock.Coordinator

variable {ρ : Type}

/-! ## All queues at once -/

/-- The requests in the queues of handles, each with the id of its handle. -/
def Handle.places (handles : Table (Handle ρ)) : List (Nat × Waiter ρ) :=
  handles.entries.flatMap fun e => e.2.waiters.map (e.1, ·)

/-- The requests that wait, each with the id of its handle. -/
def State.queue (s : State ρ) : List (Nat × Waiter ρ) := Handle.places s.handles

theorem State.mem_queue {s : State ρ} {h : Nat} {w : Waiter ρ} :
    (h, w) ∈ s.queue ↔ ∃ x, s.handle? h = some x ∧ w ∈ x.waiters := by
  unfold State.queue Handle.places
  rw [List.mem_flatMap]
  constructor
  · rintro ⟨⟨j, x⟩, hm, hw⟩
    obtain ⟨v, hv, heq⟩ := List.mem_map.1 hw
    obtain ⟨rfl, rfl⟩ := Prod.mk.inj heq
    exact ⟨x, Table.mem_entries_iff.1 hm, hv⟩
  · rintro ⟨x, hx, hw⟩
    exact ⟨(h, x), Table.mem_entries_iff.2 hx, List.mem_map.2 ⟨w, hw, rfl⟩⟩

/-- A session whose request waits is registered. -/
theorem Coherent.contains_of_mem_queue {lent : Nat → Nat → Prop} {s : State ρ}
    (hs : Coherent [] lent s) {p : Nat × Waiter ρ} (hp : p ∈ s.queue) :
    s.sessions.contains p.2.session = true := by
  obtain ⟨x, hx, hw⟩ := State.mem_queue.1 hp
  have hb := hs.booked_nil hx
  exact ((hb.opener_iff _).1 (hb.wf.waiter_opener _ hw)).contains

/-- The queues, split at one handle. -/
theorem Handle.places_perm {handles : Table (Handle ρ)} {h : Nat} {x : Handle ρ}
    (hx : handles.get? h = some x) :
    (places handles).Perm (x.waiters.map (h, ·) ++ places (handles.erase h)) :=
  (Table.entries_perm hx).flatMap_right _

theorem Handle.places_insert (handles : Table (Handle ρ)) (h : Nat) (y : Handle ρ) :
    (places (handles.insert h y)).Perm (y.waiters.map (h, ·) ++ places (handles.erase h)) := by
  have hy : (handles.insert h y).get? h = some y := Table.get?_insert_self _ _ _
  have hp := places_perm hy
  rw [Table.erase_insert] at hp
  exact hp

/-- One handle loses the front of its queue, up to the order. -/
theorem State.queue_insert {s s' : State ρ} {h : Nat} {x y : Handle ρ} {out : List (Waiter ρ)}
    (hx : s.handle? h = some x) (hhandles : s'.handles = s.handles.insert h y)
    (hw : x.waiters.Perm (out ++ y.waiters)) :
    s.queue.Perm (out.map (h, ·) ++ s'.queue) := by
  have h1 : s.queue.Perm (x.waiters.map (h, ·) ++ Handle.places (s.handles.erase h)) :=
    Handle.places_perm hx
  have h2 : s'.queue.Perm (y.waiters.map (h, ·) ++ Handle.places (s.handles.erase h)) := by
    rw [State.queue, hhandles]
    exact Handle.places_insert _ _ _
  refine h1.trans (((hw.map _).append_right _).trans ?_)
  rw [List.map_append, List.append_assoc]
  exact h2.symm.append_left _

/-- One handle changes, but not its queue. -/
theorem State.queue_insert_of_eq {s s' : State ρ} {h : Nat} {x y : Handle ρ}
    (hx : s.handle? h = some x) (hhandles : s'.handles = s.handles.insert h y)
    (hw : y.waiters = x.waiters) : s.queue.Perm s'.queue := by
  have hnone : x.waiters.Perm ([] ++ y.waiters) := .of_eq hw.symm
  exact queue_insert hx hhandles hnone

/-! ## Departures -/

/-- A request that has left the queue of a handle, and what its sender is told. -/
structure Departure (ρ : Type) where
  /-- The handle. -/
  handle : Nat
  /-- The request. -/
  waiter : Waiter ρ
  /-- What its sender is told. -/
  answer : Answer

namespace Departure

/-- Where the request waited. -/
def place (d : Departure ρ) : Nat × Waiter ρ := (d.handle, d.waiter)

/-- The answer with its address. -/
def message (d : Departure ρ) : ρ × Answer := (d.waiter.reply, d.answer)

/-- The request was served at the head of the queue: it got the lock if its session is
registered. -/
def Served (registered : Nat → Bool) (d : Departure ρ) : Prop :=
  registered d.waiter.session = true ∧ (∃ generation, d.answer = .granted generation) ∨
    registered d.waiter.session = false ∧ d.answer = .refused (.sessionExpired d.waiter.session)

/-- The request was answered in one of the three ways in which a queued request is answered. -/
def Proper (d : Departure ρ) : Prop :=
  (∃ generation, d.answer = .granted generation) ∨ d.answer = .cancelled ∨
    d.answer = .refused (.sessionExpired d.waiter.session)

theorem Served.proper {registered : Nat → Bool} {d : Departure ρ} (hd : d.Served registered) :
    d.Proper := by
  rcases hd with ⟨-, hg⟩ | ⟨-, ha⟩
  · exact .inl hg
  · exact .inr (.inr ha)

end Departure

/-- A lock has been given in this turn: observers are told, and the session holds it. -/
def Turn.Gave (t : Turn ρ) (handle session : Nat) (mode : Mode) (generation : Nat) : Prop :=
  .acquired handle session mode generation ∈ t.events ∧
    ∃ x, t.state.handle? handle = some x ∧ x.Grants session mode generation

/-- The requests `out` have left their queues, and have been answered. -/
structure Departed (out : List (Departure ρ)) (t t' : Turn ρ) : Prop where
  /-- Nothing else has left a queue, and nothing has joined one. -/
  queue : t.state.queue.Perm (out.map Departure.place ++ t'.state.queue)
  /-- Nobody else has been answered. -/
  answers : t'.answers = t.answers ++ out.map Departure.message
  /-- Whoever has been told of a grant has the lock. -/
  gave : ∀ d ∈ out, ∀ generation, d.answer = .granted generation →
    t'.Gave d.handle d.waiter.session d.waiter.mode generation

namespace Departed

variable {out out' : List (Departure ρ)} {t t' t'' : Turn ρ} {handle : Nat} {x y : Handle ρ}

theorem trans (hd : Departed out t t') (hd' : Departed out' t' t'')
    (keep : ∀ d ∈ out, ∀ generation, d.answer = .granted generation →
      t'.Gave d.handle d.waiter.session d.waiter.mode generation →
        t''.Gave d.handle d.waiter.session d.waiter.mode generation) :
    Departed (out ++ out') t t'' where
  queue := by
    rw [List.map_append, List.append_assoc]
    exact hd.queue.trans (hd'.queue.append_left _)
  answers := by
    rw [hd'.answers, hd.answers, List.map_append, List.append_assoc]
  gave := by
    intro d hm generation ha
    rcases List.mem_append.1 hm with hm | hm
    · exact keep d hm generation ha (hd.gave d hm generation ha)
    · exact hd'.gave d hm generation ha

theorem refl (t : Turn ρ) : Departed [] t t where
  queue := .refl _
  answers := (List.append_nil _).symm
  gave := fun _ hm => by cases hm

/-- One handle changes, but not its queue. -/
theorem of_insert (hx : t.state.handle? handle = some x)
    (hhandles : t'.state.handles = t.state.handles.insert handle y) (hw : y.waiters = x.waiters)
    (hanswers : t'.answers = t.answers) : Departed [] t t' where
  queue := State.queue_insert_of_eq hx hhandles hw
  answers := by rw [hanswers, List.map_nil, List.append_nil]
  gave := fun _ hm => by cases hm

end Departed

/-! ## One step -/

section Step

variable {t : Turn ρ} {handle session : Nat} {x : Handle ρ}

/-- The requests of a session and all others. -/
theorem perm_find?_eraseP (l : List (Waiter ρ)) (p : Waiter ρ → Bool) :
    l.Perm ((l.find? p).toList ++ l.eraseP p) := by
  induction l with
  | nil => exact .refl _
  | cons w rest ih =>
    cases hp : p w with
    | true =>
      rw [List.find?_cons_of_pos hp, List.eraseP_cons_of_pos hp]
      exact .refl _
    | false =>
      have hp' : ¬ p w = true := ne_true_of_eq_false hp
      rw [List.find?_cons_of_neg hp', List.eraseP_cons_of_neg hp']
      exact (ih.cons w).trans List.perm_middle.symm

/-- The request that `withdraw` takes out of a queue. -/
def withdrawn (handle session : Nat) (a : Answer) (x : Handle ρ) : List (Departure ρ) :=
  (x.waiters.find? fun w => w.session == session).toList.map fun w => ⟨handle, w, a⟩

theorem of_mem_withdrawn {a : Answer} {d : Departure ρ} (hd : d ∈ withdrawn handle session a x) :
    d.waiter.session = session ∧ d.answer = a := by
  obtain ⟨w, hw, rfl⟩ := List.mem_map.1 hd
  rw [Option.mem_toList] at hw
  have hs := List.find?_some hw
  exact ⟨beq_iff_eq.1 hs, rfl⟩

/-- The requests that leave a queue when it is served. -/
def admitted (handle : Nat) (served : List (Handle.Admission ρ)) : List (Departure ρ) :=
  served.map fun a => ⟨handle, a.waiter, a.answer⟩

theorem served_of_mem_admitted {registered : Nat → Bool} {d : Departure ρ}
    (hd : d ∈ admitted handle (x.pump registered).1) : d.Served registered := by
  obtain ⟨a, ha, rfl⟩ := List.mem_map.1 hd
  have hr := Handle.registered_of_serve ha
  cases a with
  | granted w g => exact .inl ⟨hr, g, rfl⟩
  | lapsed w => exact .inr ⟨hr, rfl⟩

/-- Whoever is told of a grant when a queue is served has the lock. -/
theorem gave_of_mem_admitted {registered : Nat → Bool} {t' : Turn ρ} {d : Departure ρ}
    {generation : Nat} (hnd : (x.waiters.map (·.session)).Nodup)
    (hd : d ∈ admitted handle (x.pump registered).1) (ha : d.answer = .granted generation)
    (hevents : ∀ e ∈ (x.pump registered).1.filterMap (Handle.Admission.event? handle),
      e ∈ t'.events)
    (hx : t'.state.handle? handle = some (x.pump registered).2) :
    t'.Gave d.handle d.waiter.session d.waiter.mode generation := by
  obtain ⟨a, hm, rfl⟩ := List.mem_map.1 hd
  cases a with
  | granted w g =>
    obtain rfl : g = generation := Answer.granted.inj ha
    refine ⟨hevents _ (List.mem_filterMap.2 ⟨_, hm, rfl⟩), _, hx, ?_⟩
    exact Handle.grants_of_serve hnd hm
  | lapsed w => cases ha

theorem departed_withdraw (hx : t.state.handle? handle = some x) {a : Answer}
    {r : Bool × Turn ρ} (hw : Turn.Withdrawn t handle session a x r)
    (ha : ∀ generation, a ≠ .granted generation) :
    Departed (withdrawn handle session a x) t r.2 where
  queue := by
    have hq := State.queue_insert hx hw.handles (perm_find?_eraseP x.waiters _)
    rw [withdrawn, List.map_map]
    exact hq
  answers := by
    rw [hw.answers, withdrawn, List.map_map]
    rfl
  gave := fun d hd generation hg => absurd ((of_mem_withdrawn hd).2.symm.trans hg) (ha generation)

theorem departed_pump (hx : t.state.handle? handle = some x)
    (hnd : (x.waiters.map (·.session)).Nodup) :
    Departed (admitted handle (t.served x).1) t (t.pump handle) := by
  have hp := Turn.pumped_pump hx
  refine {
    queue := ?_
    answers := ?_
    gave := fun d hd generation hg => gave_of_mem_admitted hnd hd hg ?_ hp.handle? }
  · have hserved : x.waiters = (t.served x).1.map Handle.Admission.waiter ++
        (t.served x).2.waiters := Handle.serve_queue x.waiters
    have hq := State.queue_insert hx hp.handles (.of_eq hserved)
    rw [admitted, List.map_map]
    rw [List.map_map] at hq
    exact hq
  · rw [hp.answers, admitted, List.map_map]
    rfl
  · intro e he
    rw [hp.events]
    exact List.mem_append_right _ he

/-- The requests that leave the queue of a handle when a session is taken out of it: its own, and
then those that are served. -/
def detached (t : Turn ρ) (handle session : Nat) (reason : ReleaseReason) (x : Handle ρ) :
    List (Departure ρ) :=
  withdrawn handle session (Turn.farewell session reason) x ++
    admitted handle (t.expelled x session).1

theorem map_place_detached (t : Turn ρ) (reason : ReleaseReason) (x : Handle ρ) :
    (detached t handle session reason x).map Departure.place =
      ((x.waiters.find? fun w => w.session == session).toList ++
        (t.expelled x session).1.map Handle.Admission.waiter).map (handle, ·) := by
  rw [detached, List.map_append, List.map_append, withdrawn, admitted, List.map_map, List.map_map,
    List.map_map]
  rfl

theorem map_message_detached (t : Turn ρ) (reason : ReleaseReason) (x : Handle ρ) :
    (detached t handle session reason x).map Departure.message =
      ((x.waiters.find? fun w => w.session == session).toList.map fun w =>
        (w.reply, Turn.farewell session reason)) ++
      (t.expelled x session).1.map fun a => (a.waiter.reply, a.answer) := by
  rw [detached, List.map_append, withdrawn, admitted, List.map_map, List.map_map]
  rfl

/-- Who waited has left the queue or still waits. -/
theorem waiters_expelled (t : Turn ρ) (session : Nat) (x : Handle ρ) :
    x.waiters.Perm ((x.waiters.find? fun w => w.session == session).toList ++
      (t.expelled x session).1.map Handle.Admission.waiter ++
      (t.expelled x session).2.waiters) := by
  rw [List.append_assoc]
  refine (perm_find?_eraseP x.waiters _).trans (List.Perm.append_left _ (.of_eq ?_))
  exact Handle.serve_queue (h := x.drop session) (x.drop session).waiters

/-- If nobody has the handle open any more, nobody is served and nobody is left in the queue. -/
theorem nobody_left (t : Turn ρ) (hwf : x.Wf) (he : (x.openers.erase session).isEmpty = true) :
    (t.expelled x session).1 = [] ∧ (t.expelled x session).2.waiters = [] := by
  have hempty : (x.drop session).waiters = [] := (hwf.drop session).waiters_eq_nil he
  unfold Turn.expelled Turn.served Handle.pump
  rw [hempty]
  exact ⟨rfl, rfl⟩

/-- Whoever is told of a grant when a session is taken out of a handle has the lock. -/
theorem gave_of_mem_detached (hx : t.state.handle? handle = some x) (hwf : x.Wf)
    {reason : ReleaseReason} {d : Departure ρ} {generation : Nat}
    (hd : d ∈ detached t handle session reason x) (ha : d.answer = .granted generation) :
    (t.detach handle session reason).2.Gave d.handle d.waiter.session d.waiter.mode generation := by
  have hr := Turn.detached_detach hx session reason
  rcases List.mem_append.1 hd with hd | hd
  · rw [(of_mem_withdrawn hd).2] at ha
    cases reason <;> cases ha
  · have he : ¬ (x.openers.erase session).isEmpty = true := by
      intro he
      rw [(nobody_left t hwf he).1] at hd
      cases hd
    refine gave_of_mem_admitted (hwf.drop session).waits_once hd ha ?_ ?_
    · intro e he
      rw [hr.events]
      exact List.mem_append_right _ he
    · rw [hr.handle?, if_pos rfl, if_neg he]
      rfl

/-- A session has been taken out of a handle: its own request has left the queue, and then the
queue has been served. -/
theorem departed_detach (hx : t.state.handle? handle = some x) (hwf : x.Wf) (session : Nat)
    (reason : ReleaseReason) :
    Departed (detached t handle session reason x) t (t.detach handle session reason).2 where
  queue := by
    have hr := Turn.detached_detach hx session reason
    rw [map_place_detached]
    by_cases he : (x.openers.erase session).isEmpty = true
    · rw [State.queue, State.queue, hr.handles, if_pos he]
      refine (Handle.places_perm hx).trans (List.Perm.append_right _ ?_)
      refine ((waiters_expelled t session x).map _).trans (.of_eq ?_)
      rw [(nobody_left t hwf he).2, List.append_nil]
    · have hhandles := hr.handles
      rw [if_neg he] at hhandles
      exact State.queue_insert hx hhandles (waiters_expelled t session x)
  answers := by
    have hr := Turn.detached_detach hx session reason
    rw [map_message_detached, hr.answers]
    by_cases he : (x.openers.erase session).isEmpty = true
    · rw [if_pos he, (nobody_left t hwf he).2, List.map_nil, List.append_nil, List.append_assoc]
    · rw [if_neg he, List.append_nil, List.append_assoc]
  gave := fun _ hd _ ha => gave_of_mem_detached hx hwf hd ha

/-- A lock that has been given stays given while others are taken out of handles. -/
theorem Turn.Gave.detach {h sid generation d : Nat} {mode : Mode}
    (hg : t.Gave h sid mode generation)
    (hwf : ∀ x, t.state.handle? handle = some x → x.Wf) (hne : sid ≠ d) (reason : ReleaseReason) :
    (t.detach handle d reason).2.Gave h sid mode generation := by
  cases hy : t.state.handle? handle with
  | none =>
    rw [detach_of_none hy]
    exact hg
  | some y =>
    have hr := detached_detach hy d reason
    obtain ⟨hevent, x, hx, hgrants⟩ := hg
    refine ⟨?_, ?_⟩
    · rw [hr.events, List.append_assoc]
      exact List.mem_append_left _ hevent
    · by_cases hj : h = handle
      · subst hj
        obtain rfl : y = x := Option.some.inj (hy.symm.trans hx)
        have hw := hwf y hy
        have hholder : sid ∈ y.holders := Table.mem_of_get? hgrants.1
        have hopener : sid ∈ y.openers.erase d :=
          Table.mem_erase.2 ⟨hne, hw.holder_opener sid hholder⟩
        have hused : ¬ (y.openers.erase d).isEmpty = true := fun he =>
          Table.isEmpty_iff.1 he sid hopener
        have hkept : (y.drop d).Grants sid mode generation := by
          refine ⟨?_, hgrants.2⟩
          show (y.holders.erase d).get? sid = some mode
          rw [Table.get?_erase, if_neg hne]
          exact hgrants.1
        have hwaits : ∀ w ∈ (y.drop d).waiters, w.session ≠ sid := by
          intro w hwm heq
          refine hw.waiter_not_holder w (List.mem_of_mem_eraseP hwm) ?_
          rw [heq]
          exact hholder
        refine ⟨(t.expelled y d).2, ?_, hkept.serve hwaits⟩
        rw [hr.handle?, if_pos rfl, if_neg hused]
      · refine ⟨x, ?_, hgrants⟩
        rw [hr.handle?, if_neg hj]
        exact hx

end Step

/-! ## Cascades -/

/-- A request has left its queue while sessions that have left the registry were taken out of their
handles: those that are registered got the lock. -/
def Departure.Swept (registered : Nat → Bool) (reason : ReleaseReason) (d : Departure ρ) : Prop :=
  d.Served registered ∨ registered d.waiter.session = false ∧
    d.answer = Turn.farewell d.waiter.session reason

theorem Departure.Swept.registered {registered : Nat → Bool} {reason : ReleaseReason}
    {d : Departure ρ} (hd : d.Swept registered reason) {generation : Nat}
    (ha : d.answer = .granted generation) : registered d.waiter.session = true := by
  rcases hd with (⟨hr, -⟩ | ⟨-, hd⟩) | ⟨-, hd⟩
  · exact hr
  · rw [hd] at ha
    cases ha
  · rw [hd] at ha
    cases reason <;> cases ha

theorem Departure.Swept.proper {registered : Nat → Bool} {reason : ReleaseReason}
    {d : Departure ρ} (hd : d.Swept registered reason) : d.Proper := by
  rcases hd with hd | ⟨-, hd⟩
  · exact hd.proper
  · cases reason with
    | sessionExpired => exact .inr (.inr hd)
    | explicit => exact .inr (.inl hd)
    | handleClosed => exact .inr (.inl hd)
    | sessionClosed => exact .inr (.inl hd)

/-- Sessions that have left the registry are being taken out of their handles; `owed` are the pairs
that are still to be taken apart. -/
structure Cascade (reason : ReleaseReason) (t₀ : Turn ρ) (lent : Nat → Nat → Prop)
    (owed : List (Nat × Nat)) (t : Turn ρ) : Prop where
  coherent : Coherent owed lent t.state
  gone : ∀ p ∈ owed, t₀.state.sessions.contains p.1 = false
  registered : t.state.sessions.contains = t₀.state.sessions.contains
  departed : ∃ out, Departed out t₀ t ∧ ∀ d ∈ out, d.Swept t₀.state.sessions.contains reason

namespace Cascade

variable {reason : ReleaseReason} {t₀ t : Turn ρ} {lent : Nat → Nat → Prop}
  {owed : List (Nat × Nat)}

theorem start (hs : Coherent owed lent t₀.state)
    (hgone : ∀ p ∈ owed, t₀.state.sessions.contains p.1 = false) :
    Cascade reason t₀ lent owed t₀ where
  coherent := hs
  gone := hgone
  registered := rfl
  departed := ⟨[], .refl t₀, fun _ hm => by cases hm⟩

theorem detach {d h : Nat} (hc : Cascade reason t₀ lent ((d, h) :: owed) t) :
    Cascade reason t₀ lent owed (t.detach h d reason).2 := by
  obtain ⟨x, hx⟩ := hc.coherent.exists_handle d h (.inr List.mem_cons_self)
  have hwf := fun y hy => (hc.coherent.booked h y hy).wf
  have hd : t₀.state.sessions.contains d = false := hc.gone (d, h) List.mem_cons_self
  have hr := Turn.detached_detach hx d reason
  obtain ⟨out, hout, hswept⟩ := hc.departed
  have hstep := departed_detach hx (hwf x hx) d reason
  refine {
    coherent := hc.coherent.detach reason
    gone := fun p hp => hc.gone p (List.mem_cons_of_mem _ hp)
    registered := ?_
    departed := ⟨_, hout.trans hstep ?_, ?_⟩ }
  · rw [← hc.registered]
    funext sid
    exact hr.sessions.contains sid
  · -- a session that has been given a lock is registered, so it is not the one taken out now
    intro e he generation ha hg
    refine hg.detach hwf ?_ reason
    intro heq
    have hreg := (hswept e he).registered ha
    rw [heq, hd] at hreg
    exact absurd hreg Bool.false_ne_true
  · intro e he
    rcases List.mem_append.1 he with he | he
    · exact hswept e he
    · rcases List.mem_append.1 he with he | he
      · obtain ⟨hs, ha⟩ := of_mem_withdrawn he
        right
        rw [hs]
        exact ⟨hd, ha⟩
      · left
        rw [← hc.registered]
        exact served_of_mem_admitted he

theorem detachAll {d : Nat} (handles : List Nat)
    (hc : Cascade reason t₀ lent (handles.map (d, ·) ++ owed) t) :
    Cascade reason t₀ lent owed (t.detachAll d reason handles).2 :=
  Turn.detachAll_induction (P := fun owed t => Cascade reason t₀ lent owed t)
    (fun _ _ _ h => h.detach) handles owed hc

theorem emit (hc : Cascade reason t₀ lent owed t) (e : LockEvent) :
    Cascade reason t₀ lent owed (t.emit e) := by
  obtain ⟨out, hout, hswept⟩ := hc.departed
  refine { hc with
    departed := ⟨out, { hout with gave := ?_ }, hswept⟩ }
  intro d hd generation ha
  obtain ⟨hevent, hx⟩ := hout.gave d hd generation ha
  exact ⟨List.mem_append_left _ hevent, hx⟩

theorem expireAll (gone : List (Nat × Session))
    (hc : Cascade .sessionExpired t₀ lent (Turn.owes gone) t) :
    Cascade .sessionExpired t₀ lent [] (t.expireAll gone) :=
  Turn.expireAll_induction (P := fun owed t => Cascade .sessionExpired t₀ lent owed t)
    (fun _ _ _ _ h => h.detach) (fun _ _ _ _ h => h.emit _) gone hc

end Cascade

end LeaseLock.Coordinator
