import LeaseLock.Proofs.Coordinator.Consistency

/-
  LeaseLock: operations, one deed at a time.
  Whatever an operation does, it does by changing one handle after another.  `Handle.Undergoes`
  lists everything that can happen to a handle, with what must hold before; `Deed` adds that a
  handle comes or goes, that a request is turned away and that the end of a lease is told.  A
  `Course` is a list of deeds that lead from one table of handles to another.  The events and the
  answers of a turn are read off its deeds, in their order (`Turn.Did`); the steps that operations
  are made of are taken apart here, and the operations themselves in `Carried`.
-/

namespace LeaseLock.Coordinator

variable {ρ : Type}

/-! ## What can happen to a handle -/

/-- Something that happens to one handle. -/
inductive Change (ρ : Type) where
  /-- A request that need not wait gets the lock. -/
  | given (w : Waiter ρ) (generation : Nat)
  /-- A request joins the end of the queue. -/
  | joined (w : Waiter ρ)
  /-- The request at the head of the queue gets the lock. -/
  | admitted (w : Waiter ρ) (generation : Nat)
  /-- The request at the head of the queue is turned away, as its session is gone. -/
  | lapsed (w : Waiter ρ)
  /-- A request is taken out of the queue. -/
  | withdrawn (w : Waiter ρ) (a : Answer)
  /-- A session loses the lock. -/
  | unlocked (session : Nat) (reason : ReleaseReason)
  /-- A session joins the openers. -/
  | opened (session : Nat)
  /-- A session leaves the openers. -/
  | shut (session : Nat)

namespace Change

/-- What observers are told. -/
def event? (handle : Nat) : Change ρ → Option LockEvent
  | given w generation => some (.acquired handle w.session w.mode generation)
  | admitted w generation => some (.acquired handle w.session w.mode generation)
  | unlocked session reason => some (.released handle session reason)
  | _ => none

/-- Who is answered, and how. -/
def message? : Change ρ → Option (ρ × Answer)
  | given w generation => some (w.reply, .granted generation)
  | admitted w generation => some (w.reply, .granted generation)
  | lapsed w => some (w.reply, .refused (.sessionExpired w.session))
  | withdrawn w a => some (w.reply, a)
  | _ => none

end Change

/-- A handle, which was `x`, undergoes a change. -/
inductive Handle.Undergoes (x : Handle ρ) : Change ρ → Handle ρ → Prop
  | given {w : Waiter ρ} (alone : x.waiters = []) (admits : x.admits w.mode = true)
      (opener : w.session ∈ x.openers) (new : x.involves w.session = false) :
      x.Undergoes (.given w (x.grant w.session w.mode).generation) (x.grant w.session w.mode)
  | joined {w : Waiter ρ} (blocked : x.waiters ≠ [] ∨ x.admits w.mode = false)
      (opener : w.session ∈ x.openers) (new : x.involves w.session = false) :
      x.Undergoes (.joined w) { x with waiters := x.waiters ++ [w] }
  | admitted {w : Waiter ρ} {rest : List (Waiter ρ)} (head : x.waiters = w :: rest)
      (admits : x.admits w.mode = true) :
      x.Undergoes (.admitted w (x.grant w.session w.mode).generation)
        { x.grant w.session w.mode with waiters := rest }
  | lapsed {w : Waiter ρ} {rest : List (Waiter ρ)} (head : x.waiters = w :: rest)
      (admits : x.admits w.mode = true) : x.Undergoes (.lapsed w) { x with waiters := rest }
  | withdrawn {w : Waiter ρ} {a : Answer}
      (found : x.waiters.find? (fun v => v.session == w.session) = some w)
      (proper : a = .cancelled ∨ a = .refused (.sessionExpired w.session)) :
      x.Undergoes (.withdrawn w a) (x.withdraw w.session).2
  | unlocked {session : Nat} {reason : ReleaseReason} (held : session ∈ x.holders) :
      x.Undergoes (.unlocked session reason) { x with holders := x.holders.erase session }
  | opened (session : Nat) :
      x.Undergoes (.opened session) { x with openers := IdSet.add x.openers session }
  | shut {session : Nat} (opener : session ∈ x.openers) (idle : session ∉ x.holders)
      (quiet : ∀ w ∈ x.waiters, w.session ≠ session) :
      x.Undergoes (.shut session) { x with openers := x.openers.erase session }

theorem Handle.Undergoes.wf {x y : Handle ρ} {c : Change ρ} (hu : x.Undergoes c y) (hwf : x.Wf) :
    y.Wf := by
  cases hu with
  | given alone admits opener new =>
    refine hwf.grant admits opener fun v hv => ?_
    rw [alone] at hv
    cases hv
  | joined blocked opener new => exact hwf.enqueue opener new
  | admitted head admits =>
    rename_i w rest
    obtain ⟨name, holders, openers, waiters, generation⟩ := x
    obtain rfl : waiters = w :: rest := head
    exact hwf.grant_head (h := ⟨name, holders, openers, w :: rest, generation⟩) admits
  | lapsed head admits =>
    rename_i w rest
    obtain ⟨name, holders, openers, waiters, generation⟩ := x
    obtain rfl : waiters = w :: rest := head
    exact hwf.skip (h := ⟨name, holders, openers, w :: rest, generation⟩)
  | withdrawn found proper => exact hwf.withdraw _
  | unlocked held => exact hwf.unlock _
  | opened session => exact hwf.add_opener session
  | shut opener idle quiet =>
    refine hwf.of_sub (fun _ _ hm => hm) (List.Sublist.refl _) ?_ ?_
    · intro sid hm
      refine Table.mem_erase.2 ⟨?_, hwf.holder_opener sid hm⟩
      rintro rfl
      exact idle hm
    · intro w hw
      exact Table.mem_erase.2 ⟨quiet w hw, hwf.waiter_opener w hw⟩

/-! ## Deeds and courses -/

/-- One thing that an operation does. -/
inductive Deed (ρ : Type) where
  /-- Something happens to a handle. -/
  | on (handle : Nat) (c : Change ρ)
  /-- A new handle is made. -/
  | created (handle : Nat)
  /-- A handle that nobody has open goes. -/
  | destroyed (handle : Nat)
  /-- A request is answered without the lock and without a wait. -/
  | turnedAway (reply : ρ) (a : Answer)
  /-- It is told that a lease has ended. -/
  | ended (session : Nat) (locks : List Nat)

namespace Deed

/-- What observers are told. -/
def event? : Deed ρ → Option LockEvent
  | on handle c => c.event? handle
  | ended session locks => some (.expired session locks)
  | _ => none

/-- Who is answered, and how. -/
def message? : Deed ρ → Option (ρ × Answer)
  | on _ c => c.message?
  | turnedAway reply a => some (reply, a)
  | _ => none

/-- The request that gets the lock at once or joins a queue, with the id of its handle. -/
def request? : Deed ρ → Option (Nat × Waiter ρ)
  | on handle (.given w _) => some (handle, w)
  | on handle (.joined w) => some (handle, w)
  | _ => none

/-- The answer to a request that does not wait. -/
def reply? : Deed ρ → Option (ρ × Answer)
  | on _ (.given w generation) => some (w.reply, .granted generation)
  | turnedAway reply a => some (reply, a)
  | _ => none

/-- Nobody comes in: no request is made, and nobody joins the openers of a handle. -/
def Quiet : Deed ρ → Prop
  | on _ (.given _ _) => False
  | on _ (.joined _) => False
  | on _ (.opened _) => False
  | turnedAway _ _ => False
  | _ => True

theorem Quiet.request? {d : Deed ρ} (hd : d.Quiet) : d.request? = none := by
  cases d with
  | on handle c => cases c <;> first | rfl | cases hd
  | created handle => rfl
  | destroyed handle => rfl
  | turnedAway reply a => rfl
  | ended session locks => rfl

theorem Quiet.reply? {d : Deed ρ} (hd : d.Quiet) : d.reply? = none := by
  cases d with
  | on handle c => cases c <;> first | rfl | cases hd
  | created handle => rfl
  | destroyed handle => rfl
  | turnedAway reply a => cases hd
  | ended session locks => rfl

/-- Who has a part in the deed: a handle gains requests and loses sessions by those who act on it,
and its queue is served according to who is registered. -/
def Fits (acts : Nat → Nat → Prop) (registered : Nat → Bool) : Deed ρ → Prop
  | on handle (.given w _) => acts w.session handle
  | on handle (.joined w) => acts w.session handle
  | on _ (.admitted w _) => registered w.session = true
  | on _ (.lapsed w) => registered w.session = false
  | on handle (.withdrawn w _) => acts w.session handle
  | on handle (.unlocked session _) => acts session handle
  | on handle (.shut session) => acts session handle
  | _ => True

end Deed

/-- The handles by their ids, and the id of the next handle. -/
structure Shelf (ρ : Type) where
  /-- The handles. -/
  handles : Table (Handle ρ)
  /-- The id of the next handle. -/
  next : Nat

/-- The handles of a state. -/
def State.shelf (s : State ρ) : Shelf ρ := ⟨s.handles, s.nextHandle⟩

/-- The handles, with another one in the place of one of them. -/
def Shelf.put (s : Shelf ρ) (handle : Nat) (x : Handle ρ) : Shelf ρ :=
  ⟨s.handles.insert handle x, s.next⟩

theorem Shelf.get?_put (s : Shelf ρ) (handle : Nat) (x : Handle ρ) (j : Nat) :
    (s.put handle x).handles.get? j = if j = handle then some x else s.handles.get? j :=
  Table.get?_insert _ _ _ _

theorem Shelf.put_put (s : Shelf ρ) (handle : Nat) (x y : Handle ρ) :
    (s.put handle x).put handle y = s.put handle y := by
  unfold put
  rw [Table.insert_insert]

theorem Shelf.put_get? {s : Shelf ρ} {handle : Nat} {x : Handle ρ}
    (hx : s.handles.get? handle = some x) : s.put handle x = s := by
  unfold put
  rw [Table.insert_get? hx]

/-- All handles are well formed, and their ids have been used. -/
def Shelf.Wf (s : Shelf ρ) : Prop :=
  ∀ h x, s.handles.get? h = some x → x.Wf ∧ h < s.next

theorem Coherent.wf_shelf {lent : Nat → Nat → Prop} {s : State ρ} (hs : Coherent [] lent s) :
    s.shelf.Wf :=
  fun h x hx => ⟨(hs.booked_nil hx).wf, hs.handle_lt h x hx⟩

/-- A deed leads from some handles to others. -/
inductive Deed.Leads (s : Shelf ρ) : Deed ρ → Shelf ρ → Prop
  | on {handle : Nat} {x y : Handle ρ} {c : Change ρ} (found : s.handles.get? handle = some x)
      (change : x.Undergoes c y) :
      Leads s (.on handle c) (s.put handle y)
  | created (name : String) :
      Leads s (.created s.next) ⟨s.handles.insert s.next (.fresh name), s.next + 1⟩
  | destroyed {handle : Nat} {x : Handle ρ} (found : s.handles.get? handle = some x)
      (unused : x.openers.isEmpty = true) :
      Leads s (.destroyed handle) ⟨s.handles.erase handle, s.next⟩
  | turnedAway {reply : ρ} {a : Answer} (bare : ∀ generation, a ≠ .granted generation) :
      Leads s (.turnedAway reply a) s
  | ended (session : Nat) (locks : List Nat) : Leads s (.ended session locks) s

/-- The handles after a deed on one of them. -/
theorem Deed.Leads.wf {s s' : Shelf ρ} {d : Deed ρ} (hd : d.Leads s s') (hs : s.Wf) : s'.Wf := by
  cases hd with
  | on found change =>
    rename_i handle x y c
    intro j z hz
    rw [Shelf.get?_put] at hz
    split at hz
    · rename_i hj
      obtain rfl := Option.some.inj hz
      exact ⟨change.wf (hs handle x found).1, hj ▸ (hs handle x found).2⟩
    · exact hs j z hz
  | created name =>
    intro j z hz
    rw [Table.get?_insert] at hz
    split at hz
    · rename_i hj
      obtain rfl := Option.some.inj hz
      exact ⟨Handle.wf_fresh name, hj ▸ Nat.lt_succ_self _⟩
    · exact ⟨(hs j z hz).1, Nat.lt_succ_of_lt (hs j z hz).2⟩
  | destroyed found unused =>
    intro j z hz
    rw [Table.get?_erase] at hz
    split at hz
    · cases hz
    · exact hs j z hz
  | turnedAway bare => exact hs
  | ended session locks => exact hs

theorem Deed.filterMap_cons {α : Type} (f : Deed ρ → Option α) (d : Deed ρ) (ds : List (Deed ρ)) :
    (d :: ds).filterMap f = (f d).toList ++ ds.filterMap f := by
  rw [List.filterMap_cons]
  cases f d <;> rfl

/-- Deeds lead from some handles to others, one after another. -/
inductive Course : Shelf ρ → List (Deed ρ) → Shelf ρ → Prop
  | nil (s : Shelf ρ) : Course s [] s
  | cons {s s' s'' : Shelf ρ} {d : Deed ρ} {ds : List (Deed ρ)} (first : d.Leads s s')
      (rest : Course s' ds s'') : Course s (d :: ds) s''

namespace Course

variable {s s' s'' : Shelf ρ} {ds ds' : List (Deed ρ)}

theorem single {d : Deed ρ} (hd : d.Leads s s') : Course s [d] s' := .cons hd (.nil s')

theorem wf (hc : Course s ds s') (hs : s.Wf) : s'.Wf := by
  induction hc with
  | nil => exact hs
  | cons first rest ih => exact ih (first.wf hs)

theorem append (hc : Course s ds s') (hc' : Course s' ds' s'') : Course s (ds ++ ds') s'' := by
  induction hc with
  | nil => exact hc'
  | cons first rest ih => exact .cons first (ih hc')

theorem split (hc : Course s (ds ++ ds') s'') : ∃ s', Course s ds s' ∧ Course s' ds' s'' := by
  induction ds generalizing s with
  | nil => exact ⟨s, .nil s, hc⟩
  | cons d rest ih =>
    cases hc with
    | cons first hrest =>
      obtain ⟨s', h1, h2⟩ := ih hrest
      exact ⟨s', .cons first h1, h2⟩

end Course

/-! ## Serving a queue -/

/-- What happens to a handle when a request leaves its queue from the head. -/
def Handle.Admission.change : Handle.Admission ρ → Change ρ
  | .granted w generation => .admitted w generation
  | .lapsed w => .lapsed w

/-- A queue is served one request at a time. -/
theorem course_serve {registered : Nat → Bool} {s : Shelf ρ} {handle : Nat} {x : Handle ρ}
    (ws : List (Waiter ρ)) (hx : s.handles.get? handle = some { x with waiters := ws }) :
    Course s ((x.serve registered ws).1.map fun a => .on handle a.change)
      (s.put handle (x.serve registered ws).2) := by
  induction ws generalizing x s with
  | nil =>
    rw [Handle.serve_nil, Shelf.put_get? hx]
    exact .nil s
  | cons w rest ih =>
    have hnext : ∀ y : Handle ρ, (s.put handle { y with waiters := rest }).handles.get? handle =
        some { y with waiters := rest } := fun y => (s.get?_put _ _ _).trans (if_pos rfl)
    rcases Handle.serve_cases x registered w with ⟨ha, hr⟩ | ⟨ha, hr⟩ | ha
    · have hrest := ih (hnext (x.grant w.session w.mode))
      rw [Shelf.put_put] at hrest
      rw [Handle.serve_granted ha hr]
      exact .cons (.on hx (.admitted rfl ha)) hrest
    · have hrest := ih (hnext x)
      rw [Shelf.put_put] at hrest
      rw [Handle.serve_lapsed ha hr]
      exact .cons (.on hx (.lapsed rfl ha)) hrest
    · rw [Handle.serve_stuck ha, Shelf.put_get? hx]
      exact .nil s

/-! ## Turns by way of deeds -/

namespace Turn

variable {acts : Nat → Nat → Prop} {registered : Nat → Bool} {t t' t'' : Turn ρ}
  {ds ds' : List (Deed ρ)} {handle session : Nat} {x : Handle ρ}

/-- An operation has got from one turn to another by way of deeds. -/
structure Did (acts : Nat → Nat → Prop) (registered : Nat → Bool) (t : Turn ρ) (ds : List (Deed ρ))
    (t' : Turn ρ) : Prop where
  /-- The deeds lead from the handles of the one to those of the other. -/
  course : Course t.state.shelf ds t'.state.shelf
  /-- Every event is told by a deed. -/
  events : t'.events = t.events ++ ds.filterMap Deed.event?
  /-- Every answer is given by a deed. -/
  answers : t'.answers = t.answers ++ ds.filterMap Deed.message?
  /-- The deeds are done by those who act. -/
  fits : ∀ d ∈ ds, d.Fits acts registered

theorem Did.append (hd : Did acts registered t ds t') (hd' : Did acts registered t' ds' t'') :
    Did acts registered t (ds ++ ds') t'' where
  course := hd.course.append hd'.course
  events := by rw [hd'.events, hd.events, List.filterMap_append, List.append_assoc]
  answers := by rw [hd'.answers, hd.answers, List.filterMap_append, List.append_assoc]
  fits := fun d hm => (List.mem_append.1 hm).elim (hd.fits d) (hd'.fits d)

theorem Did.mono {acts' : Nat → Nat → Prop} (hd : Did acts registered t ds t')
    (hacts : ∀ sid handle, acts sid handle → acts' sid handle) :
    Did acts' registered t ds t' := by
  refine { hd with fits := fun d hm => ?_ }
  have hf := hd.fits d hm
  cases d with
  | on handle c =>
    cases c with
    | given w generation => exact hacts _ _ hf
    | joined w => exact hacts _ _ hf
    | withdrawn w a => exact hacts _ _ hf
    | unlocked session reason => exact hacts _ _ hf
    | shut session => exact hacts _ _ hf
    | admitted w generation => exact hf
    | lapsed w => exact hf
    | opened session => trivial
  | created handle => trivial
  | destroyed handle => trivial
  | turnedAway reply a => trivial
  | ended session locks => trivial

/-- An operation gets from one turn to another by way of deeds with which nobody comes in. -/
def Goes (acts : Nat → Nat → Prop) (registered : Nat → Bool) (t t' : Turn ρ) : Prop :=
  ∃ ds, Did acts registered t ds t' ∧ ∀ d ∈ ds, d.Quiet

theorem Goes.trans (hg : Goes acts registered t t') (hg' : Goes acts registered t' t'') :
    Goes acts registered t t'' := by
  obtain ⟨ds, hd, hq⟩ := hg
  obtain ⟨ds', hd', hq'⟩ := hg'
  exact ⟨ds ++ ds', hd.append hd', fun d hm => (List.mem_append.1 hm).elim (hq d) (hq' d)⟩

/-- Nothing that concerns handles, events or answers is done. -/
theorem goes_of_same (hshelf : t'.state.shelf = t.state.shelf) (hevents : t'.events = t.events)
    (hanswers : t'.answers = t.answers) : Goes acts registered t t' := by
  refine ⟨[], ⟨?_, ?_, ?_, fun d hm => ?_⟩, fun d hm => ?_⟩
  · rw [hshelf]
    exact .nil _
  · rw [hevents]
    exact (List.append_nil _).symm
  · rw [hanswers]
    exact (List.append_nil _).symm
  · cases hm
  · cases hm

/-- One deed is done. -/
theorem goes_of_deed {d : Deed ρ} (hd : d.Leads t.state.shelf t'.state.shelf)
    (hevents : t'.events = t.events ++ d.event?.toList)
    (hanswers : t'.answers = t.answers ++ d.message?.toList) (hfits : d.Fits acts registered)
    (hquiet : d.Quiet) : Goes acts registered t t' := by
  have hsingle : ∀ {α : Type} (f : Deed ρ → Option α), [d].filterMap f = (f d).toList := by
    intro α f
    rw [Deed.filterMap_cons, List.filterMap_nil, List.append_nil]
  refine ⟨[d], ⟨.single hd, ?_, ?_, fun e hm => ?_⟩, fun e hm => ?_⟩
  · rw [hevents, hsingle]
  · rw [hanswers, hsingle]
  · rw [List.mem_singleton.1 hm]
    exact hfits
  · rw [List.mem_singleton.1 hm]
    exact hquiet

/-- One handle changes in one turn. -/
theorem goes_of_change {y : Handle ρ} {c : Change ρ} (hx : t.state.handle? handle = some x)
    (hc : x.Undergoes c y) (hhandles : t'.state.handles = t.state.handles.insert handle y)
    (hnext : t'.state.nextHandle = t.state.nextHandle)
    (hevents : t'.events = t.events ++ (c.event? handle).toList)
    (hanswers : t'.answers = t.answers ++ c.message?.toList)
    (hfits : (Deed.on handle c).Fits acts registered) (hquiet : (Deed.on handle c).Quiet) :
    Goes acts registered t t' := by
  have hd : (Deed.on handle c).Leads t.state.shelf t'.state.shelf := by
    rw [State.shelf, State.shelf, hhandles, hnext]
    exact .on (s := t.state.shelf) hx hc
  exact goes_of_deed hd hevents hanswers hfits hquiet

/-! ### The steps of an operation -/

theorem goes_withdraw {a : Answer} {r : Bool × Turn ρ} (hx : t.state.handle? handle = some x)
    (hw : Withdrawn t handle session a x r)
    (ha : a = .cancelled ∨ a = .refused (.sessionExpired session)) (hacts : acts session handle) :
    Goes acts registered t r.2 := by
  have hhandles := hw.handles
  have hanswers := hw.answers
  cases hf : x.waiters.find? fun w => w.session == session with
  | none =>
    rw [hf] at hanswers
    refine goes_of_same ?_ hw.events (hanswers.trans (List.append_nil _))
    have hsame : (x.withdraw session).2 = x := by
      unfold Handle.withdraw
      dsimp only
      rw [eraseP_of_find?_eq_none hf]
    rw [State.shelf, hhandles, hsame, hw.nextHandle, Table.insert_get? hx]
    rfl
  | some w =>
    have hsession : w.session = session := by
      have hs := List.find?_some hf
      exact beq_iff_eq.1 hs
    subst hsession
    rw [hf] at hanswers
    exact goes_of_change hx (.withdrawn hf ha) hhandles hw.nextHandle
      (hw.events.trans (List.append_nil _).symm) hanswers hacts trivial

theorem goes_unlock {reason : ReleaseReason} {r : Bool × Turn ρ}
    (hx : t.state.handle? handle = some x) (hu : Unlocked t handle session reason x r)
    (hacts : acts session handle) : Goes acts registered t r.2 := by
  have hhandles := hu.handles
  have hevents := hu.events
  cases hc : x.holders.contains session with
  | false =>
    rw [hc] at hevents
    refine goes_of_same ?_ (hevents.trans (List.append_nil _)) hu.answers
    rw [State.shelf, hhandles, erase_of_not_mem hc, hu.nextHandle]
    show Shelf.mk (t.state.handles.insert handle x) _ = _
    rw [Table.insert_get? hx]
    rfl
  | true =>
    rw [hc] at hevents
    have hchange : x.Undergoes (.unlocked session reason) _ := .unlocked hc
    exact goes_of_change hx hchange hhandles hu.nextHandle hevents
      (hu.answers.trans (List.append_nil _).symm) hacts trivial

theorem goes_shut (hx : t.state.handle? handle = some x) (hopener : session ∈ x.openers)
    (hidle : session ∉ x.holders) (hquiet : ∀ w ∈ x.waiters, w.session ≠ session)
    (hacts : acts session handle) : Goes acts registered t (t.shut handle session) :=
  goes_of_change hx (.shut hopener hidle hquiet) (shut_handles hx) rfl (List.append_nil _).symm
    (List.append_nil _).symm hacts trivial

theorem goes_pump (t : Turn ρ) (handle : Nat) :
    Goes acts t.state.sessions.contains t (t.pump handle) := by
  cases hx : t.state.handle? handle with
  | none =>
    rw [pump_of_none hx]
    exact goes_of_same rfl rfl rfl
  | some x =>
    have hp := pumped_pump hx
    refine ⟨(t.served x).1.map fun a => .on handle a.change, ⟨?_, ?_, ?_, ?_⟩, ?_⟩
    · rw [State.shelf, State.shelf, hp.handles, hp.nextHandle]
      exact course_serve (s := t.state.shelf) x.waiters hx
    · rw [hp.events, List.filterMap_map]
      congr 2
      funext a
      cases a <;> rfl
    · rw [hp.answers, List.filterMap_map, ← List.filterMap_eq_map]
      congr 2
      funext a
      cases a <;> rfl
    · intro d hd
      obtain ⟨a, ha, rfl⟩ := List.mem_map.1 hd
      have hr := Handle.registered_of_serve (h := x) ha
      cases a with
      | granted w generation => exact hr
      | lapsed w => exact hr
    · intro d hd
      obtain ⟨a, -, rfl⟩ := List.mem_map.1 hd
      cases a <;> trivial

theorem goes_destroyUnopened (hx : t.state.handle? handle = some x) (hwf : x.Wf) :
    Goes acts registered t (t.destroyUnopened handle) := by
  rw [destroyUnopened_eq hx]
  split
  · rename_i hunused
    refine goes_of_deed (d := .destroyed handle) (.destroyed (s := t.state.shelf) hx hunused)
      (List.append_nil _).symm ?_ trivial trivial
    show t.answers ++ x.waiters.map _ = t.answers ++ []
    rw [hwf.waiters_eq_nil hunused]
    rfl
  · exact goes_of_same rfl rfl rfl

theorem farewell_proper (session : Nat) (reason : ReleaseReason) :
    farewell session reason = .cancelled ∨
      farewell session reason = .refused (.sessionExpired session) := by
  cases reason with
  | sessionExpired => exact .inr rfl
  | explicit => exact .inl rfl
  | handleClosed => exact .inl rfl
  | sessionClosed => exact .inl rfl

/-- A session that acts is taken out of a handle that it has open. -/
theorem goes_detach (hx : t.state.handle? handle = some x) (hwf : x.Wf)
    (hopener : session ∈ x.openers) (reason : ReleaseReason) (hacts : acts session handle) :
    Goes acts t.state.sessions.contains t (t.detach handle session reason).2 := by
  have hw := withdrawn_withdraw hx session (farewell session reason)
  have h1 : Goes acts t.state.sessions.contains t _ :=
    goes_withdraw hx hw (farewell_proper session reason) hacts
  unfold detach
  dsimp only
  generalize t.withdraw handle session (farewell session reason) = r1 at hw h1 ⊢
  have hu := unlocked_unlock hw.handle? session reason
  have h2 : Goes acts t.state.sessions.contains r1.2 _ := goes_unlock hw.handle? hu hacts
  generalize r1.2.unlock handle session reason = r2 at hu h2 ⊢
  have hidle : session ∉ x.holders.erase session := fun hm => (Table.mem_erase.1 hm).1 rfl
  have hquiet : ∀ w ∈ (x.withdraw session).2.waiters, w.session ≠ session := by
    intro w hm
    have hfilter := Handle.eraseP_eq_filter hwf.waits_once session
    unfold Handle.withdraw at hm
    dsimp only at hm
    rw [hfilter, List.mem_filter, Bool.not_eq_true', beq_eq_false_iff_ne] at hm
    exact hm.2
  have h3 : Goes acts t.state.sessions.contains r2.2 _ :=
    goes_shut hu.handle? hopener hidle hquiet hacts
  have hx3 : (r2.2.shut handle session).state.handle? handle = some (x.drop session) := by
    rw [State.handle?, shut_handles hu.handle?, Table.get?_insert_self]
    rfl
  have hsessions : (r2.2.shut handle session).state.sessions = t.state.sessions :=
    hu.sessions.trans hw.sessions
  have h4 : Goes acts _ _ _ := goes_pump (r2.2.shut handle session) handle
  rw [hsessions] at h4
  have h5 : Goes acts t.state.sessions.contains ((r2.2.shut handle session).pump handle) _ :=
    goes_destroyUnopened (pumped_pump hx3).handle? (hwf.drop session).pump
  exact h1.trans (h2.trans (h3.trans (h4.trans h5)))

/-- Sessions are taken out of handles; `owed` are the pairs that are still to be taken apart. -/
structure Going (acts : Nat → Nat → Prop) (registered : Nat → Bool) (t₀ : Turn ρ)
    (lent : Nat → Nat → Prop) (owed : List (Nat × Nat)) (t : Turn ρ) : Prop where
  coherent : Coherent owed lent t.state
  acting : ∀ p ∈ owed, acts p.1 p.2
  registry : t.state.sessions.contains = registered
  goes : Goes acts registered t₀ t

namespace Going

variable {t₀ : Turn ρ} {lent : Nat → Nat → Prop} {owed : List (Nat × Nat)}

theorem detach {d h : Nat} (hg : Going acts registered t₀ lent ((d, h) :: owed) t)
    (reason : ReleaseReason) :
    Going acts registered t₀ lent owed (t.detach h d reason).2 := by
  have howed : t.state.Opens ((d, h) :: owed) d h := .inr List.mem_cons_self
  obtain ⟨x, hx⟩ := hg.coherent.exists_handle d h howed
  have hb := hg.coherent.booked h x hx
  have hopener : d ∈ x.openers := (hb.opener_iff d).2 howed
  have hstep : Goes acts _ _ _ :=
    goes_detach hx hb.wf hopener reason (hg.acting _ List.mem_cons_self)
  rw [hg.registry] at hstep
  exact {
    coherent := hg.coherent.detach reason
    acting := fun p hp => hg.acting p (List.mem_cons_of_mem _ hp)
    registry := (funext (t.sessions_detach d h reason).contains).trans hg.registry
    goes := hg.goes.trans hstep }

theorem detachAll {d : Nat} (reason : ReleaseReason) (handles : List Nat)
    (hg : Going acts registered t₀ lent (handles.map (d, ·) ++ owed) t) :
    Going acts registered t₀ lent owed (t.detachAll d reason handles).2 :=
  detachAll_induction (P := fun owed t => Going acts registered t₀ lent owed t)
    (fun _ _ _ h => h.detach reason) handles owed hg

theorem emit (hg : Going acts registered t₀ lent owed t) (d : Nat) (locks : List Nat) :
    Going acts registered t₀ lent owed (t.emit (.expired d locks)) := by
  have hstep : Goes acts registered t (t.emit (.expired d locks)) :=
    goes_of_deed (.ended d locks) rfl (List.append_nil _).symm trivial trivial
  exact { hg with goes := hg.goes.trans hstep }

theorem expireAll (gone : List (Nat × Session))
    (hg : Going acts registered t₀ lent (owes gone) t) :
    Going acts registered t₀ lent [] (t.expireAll gone) :=
  expireAll_induction (P := fun owed t => Going acts registered t₀ lent owed t)
    (fun _ _ _ _ h => h.detach _) (fun _ _ d locks h => h.emit d locks) gone hg

end Going

end Turn

end LeaseLock.Coordinator
