import LeaseLock.Proofs.Coordinator.Carried
import LeaseLock.Proofs.Coordinator.Line
import LeaseLock.Proofs.Coordinator.Traffic

/-
  LeaseLock: the deeds of a whole run.
  A `Chronicle` of a run lists everything that its calls have done, deed by deed: it leads from no
  handles at all to those of the present state, and the events and the answers of all calls are
  read off it in their order.  Every run has one (`exists_chronicle`), so what holds of courses of
  deeds holds of runs.
-/

namespace LeaseLock.Coordinator

/-- The address of a request that is made for a call is the number of the call. -/
theorem Operation.reply_of_request? {op : Operation Unit} {n : Nat} {p : Nat × Waiter Nat}
    (hp : (op.mapReply fun _ => n).request? = some p) : p.2.reply = n := by
  cases op with
  | acquire session handle mode tryOnly reply =>
    cases hp
    rfl
  | dispatch session payload reply =>
    rw [mapReply, request?] at hp
    split at hp
    · cases hp
      rfl
    · cases hp
  | createSession now => cases hp
  | renew session now => cases hp
  | closeSession session => cases hp
  | openHandle session name => cases hp
  | closeHandle session handle => cases hp
  | release session handle => cases hp
  | cancel session handle => cases hp
  | expire now => cases hp

namespace Traffic

/-- The events of all calls, in the order in which they are told. -/
def stream (t : Traffic) : List LockEvent := t.calls.flatMap (·.turn.events)

/-- The answers of all calls in the order in which they are given, each with the number of its
request. -/
def decided (t : Traffic) : List (Nat × Answer) := t.calls.flatMap (·.turn.answers)

/-- A lock request for a handle has been made by the call whose number is its address. -/
def Asked (t : Traffic) (handle : Nat) (w : Waiter Nat) : Prop :=
  ∃ c, t.calls[w.reply]? = some c ∧
    (c.op.mapReply fun _ => w.reply).request? = some (handle, w)

/-- What all calls of a run have done, deed by deed. -/
structure Chronicle (t : Traffic) (ds : List (Deed Nat)) : Prop where
  /-- The deeds lead from no handles to those of the present state. -/
  course : Course ⟨∅, 1⟩ ds t.state.shelf
  /-- The events are read off the deeds. -/
  events : t.stream = ds.filterMap Deed.event?
  /-- The answers are read off the deeds. -/
  answers : t.decided = ds.filterMap Deed.message?
  /-- The requests that have been taken up have been made by calls. -/
  asked : ∀ p ∈ ds.filterMap Deed.request?, t.Asked p.1 p.2
  /-- Requests are taken up in the order in which they are made. -/
  inOrder : InOrder ds
  /-- A request that has to wait has joined a line. -/
  parked : ∀ n c, t.calls[n]? = some c → c.result = .outcome .queued →
    ∃ handle w, t.Asked handle w ∧ w.reply = n ∧ .on handle (.joined w) ∈ ds

variable {t : Traffic} {ds new : List (Deed Nat)} {handle : Nat} {w : Waiter Nat}

theorem Asked.lt (ha : t.Asked handle w) : w.reply < t.calls.length := by
  obtain ⟨c, hc, -⟩ := ha
  exact (List.getElem?_eq_some_iff.1 hc).1

theorem Asked.call (ha : t.Asked handle w) (op : Operation Unit) :
    (t.next (.call op)).Asked handle w := by
  obtain ⟨c, hc, hr⟩ := ha
  exact ⟨c, Ledger.getElem?_call hc, hr⟩

/-- A call asks for one lock at most. -/
theorem Asked.unique (ha : t.Asked handle w) {handle' : Nat} {w' : Waiter Nat}
    (ha' : t.Asked handle' w') (heq : w.reply = w'.reply) : handle = handle' ∧ w = w' := by
  obtain ⟨c, hc, hr⟩ := ha
  obtain ⟨c', hc', hr'⟩ := ha'
  rw [← heq] at hc' hr'
  obtain rfl := Option.some.inj (hc.symm.trans hc')
  exact Prod.mk.inj (Option.some.inj (hr.symm.trans hr'))

namespace Chronicle

theorem start (lease : Nat) : Chronicle (Traffic.start lease) [] where
  course := .nil _
  events := rfl
  answers := rfl
  asked := fun p hp => by cases hp
  inOrder := List.Pairwise.nil
  parked := fun n c hc => by cases hc

/-- The request that a new call takes up is its own. -/
theorem asked_new {op : Operation Unit} {registered : Nat → Bool}
    (hnew : t.state.Carried (op.mapReply fun _ => t.calls.length) registered new)
    {p : Nat × Waiter Nat} (hp : p ∈ new.filterMap Deed.request?) :
    p.2.reply = t.calls.length ∧ (t.next (.call op)).Asked p.1 p.2 := by
  have hrequest := Option.mem_toList.1 (hnew.requests.subset hp)
  have hreply := Operation.reply_of_request? hrequest
  refine ⟨hreply, ?_⟩
  unfold Asked
  rw [hreply]
  exact ⟨_, Ledger.getElem?_call_last op, hrequest⟩

/-- A call is made. -/
theorem call {op : Operation Unit} {registered : Nat → Bool} (hc : Chronicle t ds)
    (hnew : t.state.Carried (op.mapReply fun _ => t.calls.length) registered new) :
    Chronicle (t.next (.call op)) (ds ++ new) where
  course := hc.course.append hnew.did.course
  events := by
    show (t.calls ++ [Call.make t.state op t.calls.length]).flatMap _ = _
    rw [List.flatMap_append, List.filterMap_append, ← hc.events, List.flatMap_singleton]
    exact congrArg (t.stream ++ ·) hnew.did.events
  answers := by
    show (t.calls ++ [Call.make t.state op t.calls.length]).flatMap _ = _
    rw [List.flatMap_append, List.filterMap_append, ← hc.answers, List.flatMap_singleton]
    exact congrArg (t.decided ++ ·) hnew.did.answers
  asked := by
    intro p hp
    rw [List.filterMap_append] at hp
    rcases List.mem_append.1 hp with hp | hp
    · exact (hc.asked p hp).call op
    · exact (asked_new hnew hp).2
  inOrder := by
    unfold InOrder
    rw [List.filterMap_append, List.pairwise_append]
    refine ⟨hc.inOrder, ?_, ?_⟩
    · refine List.Pairwise.sublist hnew.requests ?_
      cases (op.mapReply fun _ => t.calls.length).request? with
      | none => exact List.Pairwise.nil
      | some p => exact List.pairwise_singleton _ _
    · intro p hp q hq
      rw [(asked_new hnew hq).1]
      exact (hc.asked p hp).lt
  parked := by
    intro n c hn hq
    have hlen : (t.next (.call op)).calls.length = t.calls.length + 1 := List.length_append
    rcases Nat.lt_or_ge n t.calls.length with hlt | hge
    · have hold : t.calls[n]? = some c := (List.getElem?_append_left hlt).symm.trans hn
      obtain ⟨handle, w, hasked, hreply, hm⟩ := hc.parked n c hold hq
      exact ⟨handle, w, hasked.call op, hreply, List.mem_append_left _ hm⟩
    · have hlt := (List.getElem?_eq_some_iff.1 hn).1
      obtain rfl : n = t.calls.length := by omega
      rw [Ledger.getElem?_call_last] at hn
      obtain rfl := Option.some.inj hn
      obtain ⟨handle, w, -, hm⟩ := hnew.parked hq
      have hjoined : (handle, w) ∈ new.filterMap Deed.request? :=
        List.mem_filterMap.2 ⟨_, hm, rfl⟩
      exact ⟨handle, w, (asked_new hnew hjoined).2, (asked_new hnew hjoined).1,
        List.mem_append_right _ hm⟩

/-- Whoever has got a lock has asked for it. -/
theorem asked_of_grants (hc : Chronicle t ds) {d : Deed Nat} (hd : d ∈ ds) {generation : Nat}
    (hg : d.grants? = some (handle, w, generation)) : t.Asked handle w := by
  obtain ⟨pre, post, rfl⟩ := List.append_of_mem hd
  obtain ⟨s, hpre, hrest⟩ := hc.course.split
  cases hrest with
  | cons first rest =>
    refine hc.asked (handle, w) ?_
    rw [List.filterMap_append, Deed.filterMap_cons]
    rcases first.requested hg with hr | hline
    · exact List.mem_append_right _ (List.mem_append_left _ (Option.mem_toList.2 hr))
    · have hjoined := (hpre.line_sublist (fun _ _ hx => by cases hx) handle).subset hline
      obtain ⟨e, he, hj⟩ := List.mem_filterMap.1 hjoined
      exact List.mem_append_left _ (List.mem_filterMap.2 ⟨e, he, Deed.request?_of_joins? hj⟩)

/-- A reply is received. -/
theorem receive (hc : Chronicle t ds) (i : Nat) : Chronicle (t.next (.receive i)) ds := by
  unfold next
  dsimp only
  cases t.underWay[i]? with
  | none => exact hc
  | some d => exact { hc with }

theorem next (hc : Chronicle t ds) (hl : Ledger t) (move : Move) :
    ∃ ds, Chronicle (t.next move) ds := by
  cases move with
  | call op =>
    obtain ⟨registered, new, hnew⟩ :=
      State.carried_perform hl.coherent (op.mapReply fun _ => t.calls.length)
    exact ⟨ds ++ new, hc.call hnew⟩
  | receive i => exact ⟨ds, hc.receive i⟩

end Chronicle

/-- Every run has a chronicle. -/
theorem exists_chronicle (lease : Nat) (moves : List Move) :
    ∃ ds, Chronicle ((start lease).run moves) ds := by
  have key : ∀ t ds, Ledger t → Chronicle t ds → ∃ ds, Chronicle (t.run moves) ds := by
    induction moves with
    | nil => exact fun t ds _ hc => ⟨ds, hc⟩
    | cons move rest ih =>
      intro t ds hl hc
      obtain ⟨ds', hc'⟩ := hc.next hl move
      exact ih _ ds' (hl.next move) hc'
  exact key _ [] (.start lease) (.start lease)

end Traffic

end LeaseLock.Coordinator
