import LeaseLock.Proofs.Reactor.Execution
import Mathlib.Data.List.Induction

/-
  LeaseLock: the events of an endpoint.
  The queue is taken from its front, so the n-th event that is taken off is the n-th that joined
  (`Execution.queue`).  An endpoint is there from its registration until it is deregistered, the
  event of its end is handed over, or the loop ends; whether it is can be read off the history
  (`Execution.endpoint`).  Hence its handler gets every event that is taken off for it in this time
  and none afterwards, and what it gets is a prefix of what joined the queue
  (`Execution.events_in_order`).
-/

namespace LeaseLock.Reactor

variable {κ η σ τ ν : Type} {w : Wiring κ η σ τ ν} {m : Machine κ η σ τ ν} {duty : Duty η}
  {hs before after : List (Moment κ η σ ν)} {x : Moment κ η σ ν} {e : Nat}

/-! ## The queue -/

/-- The events that joined the queue. -/
def Moment.arrivals : Moment κ η σ ν → List Event
  | .asked _ _ arrivals => arrivals
  | _ => []

/-- The event that was taken off the queue, with the handler that it was handed to. -/
def Moment.taken? : Moment κ η σ ν → Option (Event × Option η)
  | .taken e handler => some (e, handler)
  | _ => none

/-- The events that joined the queue, in order. -/
def joined (hs : List (Moment κ η σ ν)) : List Event := hs.flatMap Moment.arrivals

/-- The events that were taken off the queue, in order, each with the handler that it was handed
to. -/
def takings (hs : List (Moment κ η σ ν)) : List (Event × Option η) := hs.filterMap Moment.taken?

theorem takings_append (hs hs' : List (Moment κ η σ ν)) :
    takings (hs ++ hs') = takings hs ++ takings hs' :=
  List.filterMap_append

@[simp] theorem takings_concat (hs : List (Moment κ η σ ν)) (x : Moment κ η σ ν) :
    takings (hs ++ [x]) = takings hs ++ x.taken?.toList :=
  filterMap_concat _ _ _

@[simp] theorem joined_concat (hs : List (Moment κ η σ ν)) (x : Moment κ η σ ν) :
    joined (hs ++ [x]) = joined hs ++ x.arrivals := by
  simp [joined]

/-- An event that joined the queue has been taken off, stands in it still, or was lost when the
loop ended. -/
theorem Execution.queue (h : Execution w hs duty m) : ∃ lost,
    joined hs = (takings hs).map (·.1) ++ m.queue.filterMap Signal.event? ++ lost ∧
      (m.phase ≠ .stopped → lost = []) := by
  induction h with
  | start world links => exact ⟨[], rfl, fun _ => rfl⟩
  | @ask hs duty m prior r ih =>
    obtain ⟨lost, heq, hlost⟩ := ih
    refine ⟨lost, ?_, fun hphase => hlost fun hs => hphase ((m.answered_answer w r).stopped.2 hs)⟩
    show joined _ = _ ++ (m.answer w r).2.queue.filterMap _ ++ _
    rw [joined_concat, takings_concat, m.events_answer, heq]
    by_cases hphase : m.phase = .stopped
    · have hnone : m.arrivals w r = [] :=
        m.arrivals_of_not_running w (by rw [hphase]; exact nofun) r
      simp [Moment.arrivals, Moment.taken?, hnone]
    · simp [Moment.arrivals, Moment.taken?, hlost hphase]
  | collect prior running read ih | fire prior ih =>
    simpa [Moment.arrivals, Moment.taken?, Machine.record] using ih
  | idle prior empty ih => exact ih
  | wake prior next ih =>
    rw [next] at ih
    exact ih
  | take prior next receiver ih | drop prior next nobody ih =>
    rw [next] at ih
    simpa [Moment.arrivals, Moment.taken?, Machine.handOver, Machine.record, Signal.event?] using ih
  | @finish hs m prior stopping ih =>
    obtain ⟨lost, heq, hlost⟩ := ih
    obtain ⟨trace, hfinish⟩ := m.finish_eq
    rw [hlost (by rw [stopping]; exact nofun), List.append_nil] at heq
    refine ⟨m.queue.filterMap Signal.event?, ?_, fun hphase => absurd (by rw [hfinish]) hphase⟩
    rw [joined_concat, takings_concat, hfinish]
    simpa [Moment.arrivals, Moment.taken?] using heq

/-! ## Endpoints in a history -/

/-- An endpoint is given up: it is deregistered, its handler is told of its end, or the loop
ends. -/
def Moment.ends (e : Nat) : Moment κ η σ ν → Bool
  | .asked (.deregister endpoint) answer _ => endpoint == e && (answer : Option κ).isSome
  | .taken event (some _) => event.closes? == some e
  | .ended => true
  | _ => false

/-- The id of the endpoint that was registered. -/
def Moment.registers? : Moment κ η σ ν → Option Nat
  | .asked (.register _ _) id _ => some id
  | _ => none

/-- What is registered under an id after a moment, if `y` is before it. -/
def Moment.rebinds (e : Nat) (y : Option (Endpoint κ η)) : Moment κ η σ ν → Option (Endpoint κ η)
  | .asked (.register link handler) (id : Nat) _ => if id = e then some ⟨link, handler⟩ else y
  | x => if x.ends e then none else y

/-- What is registered under an id at the end of a history. -/
def endpointAt? (e : Nat) (hs : List (Moment κ η σ ν)) : Option (Endpoint κ η) :=
  hs.foldl (fun y x => x.rebinds e y) none

theorem Moment.rebinds_of_ne {y : Option (Endpoint κ η)} (hx : x.registers? ≠ some e) :
    x.rebinds e y = if x.ends e then none else y := by
  unfold Moment.rebinds
  split
  · rename_i link handler id arrivals
    have hne : ¬ (id : Nat) = e := fun heq => hx (congrArg some heq)
    rw [if_neg hne]
    rfl
  · rfl

theorem endpointAt?_concat (e : Nat) (hs : List (Moment κ η σ ν)) (x : Moment κ η σ ν) :
    endpointAt? e (hs ++ [x]) = x.rebinds e (endpointAt? e hs) := by
  simp [endpointAt?]

theorem Machine.get?_endpointsAfter (w : Wiring κ η σ τ ν) (m : Machine κ η σ τ ν)
    (r : Request κ η σ ν) (arrivals : List Event) : (m.endpointsAfter r).get? e =
      Moment.rebinds e (m.endpoints.get? e) (.asked r (m.answer w r).1 arrivals) := by
  cases r with
  | register link handler =>
    show (m.endpoints.insert _ _).get? e = if m.nextEndpoint = e then _ else _
    rw [Table.get?_insert]
    simp only [eq_comm]
  | deregister endpoint =>
    show (m.endpoints.erase endpoint).get? e = if endpoint == e &&
      ((m.endpoints.get? endpoint).map (·.link)).isSome then none else m.endpoints.get? e
    rw [Table.get?_erase]
    by_cases he : e = endpoint
    · subst he
      cases m.endpoints.get? e <;> simp
    · simp [he, Ne.symm he]
  | _ => rfl

/-- The endpoints of the loop are those that the history tells of. -/
theorem Execution.endpoint (h : Execution w hs duty m) (e : Nat) :
    m.endpoints.get? e = endpointAt? e hs := by
  induction h with
  | start world links => rfl
  | @ask hs duty m prior r ih =>
    rw [endpointAt?_concat, ← ih, ← m.get?_endpointsAfter w r, ← (m.answered_answer w r).endpoints]
    rfl
  | collect prior running read ih | fire prior ih =>
    rw [endpointAt?_concat]
    exact ih
  | idle prior empty ih | wake prior next ih => exact ih
  | @take hs m event rest handler prior next receiver ih =>
    rw [endpointAt?_concat, ← ih]
    exact Machine.get?_handOver _ event handler e
  | drop prior next nobody ih =>
    rw [endpointAt?_concat]
    exact ih
  | @finish hs m prior stopping ih =>
    obtain ⟨trace, hfinish⟩ := m.finish_eq
    rw [endpointAt?_concat, hfinish]
    rfl

/-- Ids of endpoints are not used again. -/
theorem Execution.registered_lt (h : Execution w hs duty m) (hx : x ∈ hs)
    (he : x.registers? = some e) : e < m.nextEndpoint := by
  induction h with
  | start world links => cases hx
  | @ask hs duty m prior r ih =>
    have hle : m.nextEndpoint ≤ m.nextEndpointAfter r := by
      unfold Machine.nextEndpointAfter
      split <;> omega
    show e < (m.answer w r).2.nextEndpoint
    rw [(m.answered_answer w r).nextEndpoint]
    rcases List.mem_append.1 hx with hx | hx
    · exact Nat.lt_of_lt_of_le (ih hx) hle
    · obtain rfl := List.mem_singleton.1 hx
      cases r with
      | register link handler =>
        obtain rfl := Option.some.inj he
        exact Nat.lt_succ_self _
      | _ => cases he
  | idle prior empty ih | wake prior next ih => exact ih hx
  | collect prior running read ih | fire prior ih | take prior next receiver ih
  | drop prior next nobody ih =>
    rcases List.mem_append.1 hx with hx | hx
    · exact ih hx
    · obtain rfl := List.mem_singleton.1 hx
      cases he
  | @finish hs m prior stopping ih =>
    obtain ⟨trace, hfinish⟩ := m.finish_eq
    rw [hfinish]
    rcases List.mem_append.1 hx with hx | hx
    · exact ih hx
    · obtain rfl := List.mem_singleton.1 hx
      cases he

theorem Execution.fresh (h : Execution w hs duty m) (heq : hs = before ++ x :: after)
    (hx : x.registers? = some e) : ∀ y ∈ after, y.registers? ≠ some e := by
  intro y hy hid
  obtain ⟨mid, rest, rfl⟩ := List.append_of_mem hy
  rw [← List.cons_append, ← List.append_assoc] at heq
  obtain ⟨duty₀, m₀, h₀, hfits⟩ := h.split heq
  have hlt : e < m₀.nextEndpoint :=
    h₀.registered_lt (List.mem_append_right _ List.mem_cons_self) hx
  cases y with
  | asked r answer arrivals =>
    cases r with
    | register link handler =>
      obtain rfl := Option.some.inj hid
      obtain rfl : answer = m₀.nextEndpoint := hfits.1
      exact Nat.lt_irrefl _ hlt
    | _ => cases hid
  | _ => cases hid

theorem foldl_rebinds (y : Option (Endpoint κ η)) (h : ∀ x ∈ after, x.registers? ≠ some e) :
    after.foldl (fun y x => x.rebinds e y) y = if after.any (·.ends e) then none else y := by
  induction after generalizing y with
  | nil => rfl
  | cons x rest ih =>
    rw [List.foldl_cons, Moment.rebinds_of_ne (h x List.mem_cons_self),
      ih _ fun z hz => h z (List.mem_cons_of_mem _ hz), List.any_cons]
    cases x.ends e <;> simp

/-- An endpoint is there from its registration until it is given up. -/
theorem Execution.endpoint_of_registered (h : Execution w hs duty m) {link : κ} {handler : η}
    {arrivals : List Event}
    (heq : hs = before ++ .asked (.register link handler) e arrivals :: after) :
    m.endpoints.get? e = if after.any (·.ends e) then none else some ⟨link, handler⟩ := by
  have hbind : ∀ y, Moment.rebinds e y (.asked (.register link handler) e arrivals :
      Moment κ η σ ν) = some ⟨link, handler⟩ := fun y => if_pos rfl
  rw [h.endpoint, heq]
  unfold endpointAt?
  rw [List.foldl_append, List.foldl_cons, hbind, foldl_rebinds _ (h.fresh heq rfl)]

/-! ## Order -/

section

variable {β : Type} {l : List β}

theorem pairwise_of_split {R : β → β → Prop}
    (h : ∀ mid x rest, l = mid ++ x :: rest → ∀ y ∈ rest, R x y) : l.Pairwise R := by
  induction l with
  | nil => exact .nil
  | cons a l ih =>
    refine List.pairwise_cons.2 ⟨h [] a l rfl, ih fun mid x rest heq => h (a :: mid) x rest ?_⟩
    rw [heq, List.cons_append]

/-- If nothing satisfies `p` behind something that does not, what satisfies `p` stands in front. -/
theorem filter_stands_first {p : β → Bool} (h : l.Pairwise fun a b => p a = false → p b = false) :
    l.filter p <+: l := by
  induction l with
  | nil => exact List.prefix_refl _
  | cons a l ih =>
    rw [List.pairwise_cons] at h
    cases hp : p a with
    | true =>
      rw [List.filter_cons_of_pos hp, List.prefix_cons_inj]
      exact ih h.2
    | false =>
      have hnil : (a :: l).filter p = [] := by
        rw [List.filter_eq_nil_iff]
        intro b hb
        rcases List.mem_cons.1 hb with rfl | hb
        · simp [hp]
        · simp [h.1 b hb hp]
      rw [hnil]
      exact List.nil_prefix

end

/-- The events of an endpoint that joined the queue, but for the first `k` of all events. -/
def joinedFor (e k : Nat) (hs : List (Moment κ η σ ν)) : List Event :=
  ((joined hs).drop k).filter fun event => event.endpoint? == some e

/-- The events of an endpoint that were handed over, but for the first `k` of all events that
joined the queue. -/
def givenFor (e k : Nat) (hs : List (Moment κ η σ ν)) : List Event :=
  (((takings hs).drop k).filter fun t => t.2.isSome && t.1.endpoint? == some e).map (·.1)

/-- How an endpoint fares that is registered with a handler after `before`. -/
structure Attended (before : List (Moment κ η σ ν)) (e : Nat) (handler : η)
    (after : List (Moment κ η σ ν)) (hs : List (Moment κ η σ ν)) : Prop where
  /-- Its events go to its handler, each that is taken off the queue before the endpoint is given
  up, and none later. -/
  given : ∀ mid event receiver rest, after = mid ++ .taken event receiver :: rest →
    event.endpoint? = some e → receiver = if mid.any (·.ends e) then none else some handler
  /-- Of the events that joined the queue since, the handler gets a prefix. -/
  inOrder : givenFor e (joined before).length hs <+: joinedFor e (joined before).length hs
  /-- It gets none behind that of the end of the connection. -/
  terminal : (givenFor e (joined before).length hs).Pairwise fun event _ => event.closes? ≠ some e
  /-- The endpoint can be deregistered until it is given up, and not again. -/
  deregistered : ∀ mid answer arrivals rest,
    after = mid ++ .asked (.deregister e) answer arrivals :: rest →
      (answer : Option κ).isSome = !mid.any (·.ends e)
  /-- Once it is given up it has no connection. -/
  unlinked : ∀ mid answer arrivals rest, after = mid ++ .asked (.link e) answer arrivals :: rest →
    mid.any (·.ends e) → (answer : Option κ) = none
  /-- Nor can anything be sent. -/
  unsent : ∀ mid frame answer arrivals rest,
    after = mid ++ .asked (.send e frame) answer arrivals :: rest →
      mid.any (·.ends e) → (answer : Sending κ).fault? = some .connectionClosed

/-- Events are handed over in order, at most once, and to the handlers of their endpoints. -/
structure EventsInOrder (hs : List (Moment κ η σ ν)) (m : Machine κ η σ τ ν) : Prop where
  /-- The n-th event that is taken off the queue is the n-th that joined it. -/
  fifo : (takings hs).map (·.1) <+: joined hs
  /-- Those that were not taken off stand in the queue. -/
  queued : m.phase ≠ .stopped →
    joined hs = (takings hs).map (·.1) ++ m.queue.filterMap Signal.event?
  /-- Whoever is handed an event serves its endpoint. -/
  owner : ∀ before event handler rest, hs = before ++ .taken event (some handler) :: rest →
    ∃ e link arrivals, event.endpoint? = some e ∧
      .asked (.register link handler) e arrivals ∈ before
  attended : ∀ before link handler e arrivals after,
    hs = before ++ .asked (.register link handler) e arrivals :: after →
      Attended before e handler after hs

theorem mem_of_endpointAt? {y : Endpoint κ η} (h : endpointAt? e hs = some y) :
    ∃ arrivals, .asked (.register y.link y.handler) e arrivals ∈ hs := by
  induction hs using List.reverseRec with
  | nil => cases h
  | append_singleton hs x ih =>
    rw [endpointAt?_concat] at h
    by_cases hx : x.registers? = some e
    · cases x with
      | asked r id arrivals =>
        cases r with
        | register link handler =>
          obtain rfl : id = e := Option.some.inj hx
          have hbind : (some ⟨link, handler⟩ : Option (Endpoint κ η)) = some y := by
            rw [← h]
            exact (if_pos rfl).symm
          cases hbind
          exact ⟨arrivals, List.mem_append_right _ List.mem_cons_self⟩
        | _ => cases hx
      | _ => cases hx
    · rw [Moment.rebinds_of_ne hx] at h
      split at h
      · cases h
      · obtain ⟨arrivals, hmem⟩ := ih h
        exact ⟨arrivals, List.mem_append_left _ hmem⟩

namespace Execution

theorem fifo (h : Execution w hs duty m) : (takings hs).map (·.1) <+: joined hs := by
  obtain ⟨lost, heq, -⟩ := h.queue
  rw [heq, List.append_assoc]
  exact List.prefix_append _ _

theorem owner (h : Execution w hs duty m) {event : Event} {handler : η}
    (heq : hs = before ++ .taken event (some handler) :: after) :
    ∃ e link arrivals, event.endpoint? = some e ∧
      .asked (.register link handler) e arrivals ∈ before := by
  obtain ⟨duty₀, m₀, h₀, hfits⟩ := h.split heq
  obtain ⟨y, hy, rfl⟩ := Option.map_eq_some_iff.1 (Eq.symm hfits)
  obtain ⟨e, hendpoint, hget⟩ := Option.bind_eq_some_iff.1 hy
  obtain ⟨arrivals, hmem⟩ := mem_of_endpointAt? ((h₀.endpoint e).symm.trans hget)
  exact ⟨e, y.link, arrivals, hendpoint, hmem⟩

end Execution

/-- What has become of an event that was taken off the queue earlier decides about later ones. -/
def Precedes (e : Nat) (a b : Event × Option η) : Prop :=
  a.1.endpoint? = some e → b.1.endpoint? = some e →
    a.2.isSome = false ∨ a.1.closes? = some e → b.2.isSome = false

namespace Execution

/-- What is taken off behind the first events that joined since a registration was taken off after
it. -/
theorem takings_drop_sublist (h : Execution w hs duty m) (heq : hs = before ++ x :: after)
    (hx : x.taken? = none) :
    ((takings hs).drop (joined before).length).Sublist (takings after) := by
  obtain ⟨duty₀, m₀, h₀, -⟩ := h.split heq
  have hlen : (takings before).length ≤ (joined before).length := by
    rw [← List.length_map (·.1)]
    exact h₀.fifo.length_le
  have htakings : takings hs = takings before ++ takings after := by
    rw [heq, List.append_cons, takings_append, takings_concat, hx, Option.toList_none,
      List.append_nil]
  rw [htakings, List.drop_append, List.drop_of_length_le hlen]
  exact List.drop_sublist _ _

section

variable {link : κ} {handler : η} {arrivals : List Event} {mid rest : List (Moment κ η σ ν)}

/-- The loop just before a moment that comes after the registration. -/
theorem endpoint_before (h : Execution w hs duty m)
    (heq : hs = before ++ .asked (.register link handler) e arrivals :: after)
    (hafter : after = mid ++ x :: rest) : ∃ duty₀ m₀, x.Fits w duty₀ m₀ ∧
      m₀.endpoints.get? e = if mid.any (·.ends e) then none else some ⟨link, handler⟩ := by
  rw [hafter, ← List.cons_append, ← List.append_assoc] at heq
  obtain ⟨duty₀, m₀, h₀, hfits⟩ := h.split heq
  exact ⟨duty₀, m₀, hfits, h₀.endpoint_of_registered rfl⟩

theorem given (h : Execution w hs duty m)
    (heq : hs = before ++ .asked (.register link handler) e arrivals :: after) {event : Event}
    {receiver : Option η} (hafter : after = mid ++ .taken event receiver :: rest)
    (hevent : event.endpoint? = some e) :
    receiver = if mid.any (·.ends e) then none else some handler := by
  obtain ⟨duty₀, m₀, hfits, hget⟩ := h.endpoint_before heq hafter
  obtain rfl : receiver = m₀.receiver? event := hfits
  unfold Machine.receiver?
  rw [hevent, Option.bind_some, hget]
  split <;> rfl

theorem pairwise_takings (h : Execution w hs duty m)
    (heq : hs = before ++ .asked (.register link handler) e arrivals :: after) :
    (takings after).Pairwise (Precedes e) := by
  refine List.pairwise_filterMap.2 (pairwise_of_split ?_)
  rintro mid x rest hafter y hy ⟨a, ra⟩ ha ⟨b, rb⟩ hb hea heb hfate
  cases x with
  | taken a' ra' =>
    cases y with
    | taken b' rb' =>
      cases ha
      cases hb
      obtain ⟨rest₁, rest₂, rfl⟩ := List.append_of_mem hy
      have hra := h.given heq hafter hea
      rw [← List.cons_append, ← List.append_assoc] at hafter
      have hrb := h.given heq hafter heb
      have hends : (mid ++ .taken a ra :: rest₁).any (·.ends e) = true := by
        rw [List.any_append, List.any_cons]
        rcases Bool.eq_false_or_eq_true (mid.any (·.ends e)) with hmid | hmid
        · rw [hmid, Bool.true_or]
        · rw [hmid, if_neg Bool.false_ne_true] at hra
          rcases hfate with hfate | hcloses
          · rw [hra] at hfate
            cases hfate
          · rw [hra]
            simp [Moment.ends, hcloses]
      rw [hrb, if_pos hends]
      rfl
    | _ => cases hb
  | _ => cases ha

theorem pairwise_takings_drop (h : Execution w hs duty m)
    (heq : hs = before ++ .asked (.register link handler) e arrivals :: after) :
    ((takings hs).drop (joined before).length).Pairwise (Precedes e) :=
  (h.pairwise_takings heq).sublist (h.takings_drop_sublist heq rfl)

theorem inOrder (h : Execution w hs duty m)
    (heq : hs = before ++ .asked (.register link handler) e arrivals :: after) :
    givenFor e (joined before).length hs <+: joinedFor e (joined before).length hs := by
  obtain ⟨lost, hlost⟩ := h.fifo
  have htaken : ((((takings hs).drop (joined before).length).map (·.1)).filter
      fun event => event.endpoint? == some e) <+: joinedFor e (joined before).length hs := by
    unfold joinedFor
    rw [← hlost, List.drop_append, List.map_drop]
    exact (List.prefix_append _ _).filter _
  refine List.IsPrefix.trans ?_ htaken
  unfold givenFor
  rw [List.filter_map, ← List.filter_filter]
  refine (filter_stands_first (List.pairwise_filter.2 ((h.pairwise_takings_drop heq).imp ?_))).map _
  exact fun hab ha hb hfate => hab (beq_iff_eq.1 ha) (beq_iff_eq.1 hb) (.inl hfate)

theorem terminal (h : Execution w hs duty m)
    (heq : hs = before ++ .asked (.register link handler) e arrivals :: after) :
    (givenFor e (joined before).length hs).Pairwise fun event _ => event.closes? ≠ some e := by
  unfold givenFor
  refine List.pairwise_map.2 (List.pairwise_filter.2 ((h.pairwise_takings_drop heq).imp ?_))
  intro a b hab ha hb hcloses
  rw [Bool.and_eq_true, beq_iff_eq] at ha hb
  rw [hab ha.2 hb.2 (.inr hcloses)] at hb
  exact Bool.false_ne_true hb.1

theorem deregistered (h : Execution w hs duty m)
    (heq : hs = before ++ .asked (.register link handler) e arrivals :: after)
    {answer : Option κ} {arrivals' : List Event}
    (hafter : after = mid ++ .asked (.deregister e) answer arrivals' :: rest) :
    answer.isSome = !mid.any (·.ends e) := by
  obtain ⟨duty₀, m₀, ⟨rfl, -⟩, hget⟩ := h.endpoint_before heq hafter
  show ((m₀.endpoints.get? e).map _).isSome = _
  rw [hget]
  cases mid.any (·.ends e) <;> rfl

theorem unlinked (h : Execution w hs duty m)
    (heq : hs = before ++ .asked (.register link handler) e arrivals :: after)
    {answer : Option κ} {arrivals' : List Event}
    (hafter : after = mid ++ .asked (.link e) answer arrivals' :: rest)
    (hends : mid.any (·.ends e)) : answer = none := by
  obtain ⟨duty₀, m₀, ⟨rfl, -⟩, hget⟩ := h.endpoint_before heq hafter
  rw [if_pos hends] at hget
  exact congrArg (Option.map _) hget

theorem unsent (h : Execution w hs duty m)
    (heq : hs = before ++ .asked (.register link handler) e arrivals :: after) {frame : Bytes}
    {answer : Sending κ} {arrivals' : List Event}
    (hafter : after = mid ++ .asked (.send e frame) answer arrivals' :: rest)
    (hends : mid.any (·.ends e)) : answer.fault? = some .connectionClosed := by
  obtain ⟨duty₀, m₀, ⟨rfl, -⟩, hget⟩ := h.endpoint_before heq hafter
  rw [if_pos hends] at hget
  show (m₀.send w e frame).1.fault? = _
  unfold Machine.send
  rw [hget]
  rfl

end

/-- However handlers and others behave, every endpoint gets its events in order until it is given
up. -/
theorem events_in_order (h : Execution w hs duty m) : EventsInOrder hs m where
  fifo := h.fifo
  queued hphase := by
    obtain ⟨lost, heq, hlost⟩ := h.queue
    rw [heq, hlost hphase, List.append_nil]
  owner _ _ _ _ heq := h.owner heq
  attended _ _ _ _ _ _ heq :=
    { given := fun _ _ _ _ => h.given heq
      inOrder := h.inOrder heq
      terminal := h.terminal heq
      deregistered := fun _ _ _ _ => h.deregistered heq
      unlinked := fun _ _ _ _ => h.unlinked heq
      unsent := fun _ _ _ _ _ => h.unsent heq }

/-- A connection ends with a frame still queued behind the event of its end.  Its handler is told
of the end, finds nothing left to deregister, and never sees the frame. -/
theorem events_in_order_closed :
    ∃ (w : Wiring Unit Unit Unit Unit Unit) (hs : List (Moment Unit Unit Unit Unit))
      (m : Machine Unit Unit Unit Unit Unit), Execution w hs .head m ∧ EventsInOrder hs m ∧
        takings hs = [(.data 1 [], some ()), (.state 1 .closed, some ()),
          (.data 1 [], none)] := by
  let w : Wiring Unit Unit Unit Unit Unit :=
    ⟨fun _ _ => .done (), fun _ _ _ links => (true, [], links)⟩
  have hstart : Execution w [] .head (.start () ()) := .start () ()
  have hqueued := (((hstart.ask (.register () ())).ask (.deliver (.data 1 []))).ask
    (.deliver (.state 1 .closed))).ask (.deliver (.data 1 []))
  have hclosed := (((hqueued.collect rfl (Nat.le_refl _)).take rfl rfl).collect rfl
    (Nat.le_refl _)).take rfl rfl
  have h := ((hclosed.ask (.deregister 1)).collect rfl (Nat.le_refl _)).drop rfl rfl
  exact ⟨_, _, _, h, h.events_in_order, rfl⟩

end Execution

end LeaseLock.Reactor
