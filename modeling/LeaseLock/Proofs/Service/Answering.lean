import LeaseLock.Proofs.Service.Account
import Mathlib.Data.List.Induction

/-
  LeaseLock: the lock service answers every frame once.
  A frame is answered at once, unless it asks for a lock and joins a queue (`Answered`).  Whatever
  else the service is told of, requests leave their queues, and each that does is answered
  (`Leaves`).  So at any point of a run (`Reached`) the frames that have been handed to the service
  are those that it has answered and those that wait (`Balanced`).
-/

namespace LeaseLock

open Reactor Coordinator

namespace Service

variable {κ η τ α β : Type} {t : κ → Nat → Bytes → τ → Bool × List Event × τ}
  {m m' m'' : Loop κ η τ} {ops : List (Operation ReplyTo)}

/-- The addresses of the lock requests that wait. -/
def waiting (m : Loop κ η τ) : List ReplyTo := m.world.coordinator.queue.map (·.2.reply)

/-! ## Single events -/

/-- How a frame is answered. -/
inductive Answered (m : Loop κ η τ) (endpoint : Nat) (payload : Bytes) (m' : Loop κ η τ) :
    Prop where
  /-- At once, after the requests that leave their queues on its account. -/
  | now (leaving : List (ReplyTo × Answer)) (response : Wire.Response)
    (id : ⟨endpoint, response.id⟩ = origin endpoint payload)
    (sent : m'.sent = m.sent ++ (leaving.map posted ++ [(endpoint, response)]).map frame)
    (queue : (waiting m).Perm (leaving.map (·.1) ++ waiting m'))
  /-- When it leaves its queue; it asks for a lock. -/
  | later (body : Bytes) (lock : command? payload = some (.lock body)) (sent : m'.sent = m.sent)
    (queue : (waiting m').Perm (origin endpoint payload :: waiting m))

/-- Requests leave their queues, and each of them is answered. -/
def Leaves (m m' : Loop κ η τ) : Prop :=
  ∃ leaving : List (ReplyTo × Answer), m'.sent = m.sent ++ (leaving.map posted).map frame ∧
    (waiting m).Perm (leaving.map (·.1) ++ waiting m')

/-- The coordinator's state has come about by operations. -/
abbrev Orderly (m : Loop κ η τ) : Prop := Coherent [] (fun _ _ => False) m.world.coordinator

theorem Pays.orderly {own : List (Nat × Wire.Response)} (h : Pays m ops own m')
    (hm : Orderly m) : Orderly m' := by
  unfold Orderly
  rw [h.coordinator]
  exact hm.after ops

/-- Requests that are answered without a lock request being made leave their queues. -/
theorem Pays.leaves {own : List (Nat × Wire.Response)} (h : Pays m ops own m') (hm : Orderly m)
    (hops : ops.filterMap Operation.reply? = []) :
    (waiting m).Perm ((m.world.coordinator.told ops).map (·.1) ++ waiting m') := by
  have htold := Coordinator.State.told_perm hm ops
  rw [hops, List.append_nil, ← h.coordinator] at htold
  exact htold.symm

/-- Harmless operations answer nobody. -/
theorem told_of_harmless {s : Coordinator.State ReplyTo} (hops : ∀ op ∈ ops, op.Harmless) :
    s.told ops = [] := by
  induction ops generalizing s with
  | nil => rfl
  | cons op rest ih =>
    have hfirst : (s.perform op).2.answers = [] := by
      have hop := hops op List.mem_cons_self
      cases op <;> first | rfl | cases hop
    rw [Coordinator.State.told, hfirst, List.nil_append]
    exact ih fun op hm => hops op (List.mem_cons_of_mem _ hm)

/-- A lock request is answered when it is made, or joins a queue. -/
theorem Pays.placed {endpoint session : Nat} {payload body : Bytes}
    (h : Pays m [.dispatch session body (origin endpoint payload)] [] m')
    (hlock : command? payload = some (.lock body)) : Answered m endpoint payload m' := by
  have hplaced := placed_dispatch (s := m.world.coordinator) session body (origin endpoint payload)
  have hqueue : waiting m' = (m.world.coordinator.dispatch session body
      (origin endpoint payload)).2.state.queue.map (·.2.reply) :=
    congrArg (fun s => s.queue.map (·.2.reply)) h.coordinator
  have hsent : m'.sent = m.sent ++ ((m.world.coordinator.dispatch session body
      (origin endpoint payload)).2.answers.map posted).map frame := by
    rw [h.sent]
    simp [Coordinator.State.told, Coordinator.State.perform]
  generalize m.world.coordinator.dispatch session body (origin endpoint payload) = d at *
  obtain ⟨outcome, turn⟩ := d
  cases hplaced with
  | answered a agrees answers queue gave =>
    have hposted : posted (origin endpoint payload, a) =
        (endpoint, a.reply.response (origin endpoint payload).id) :=
      Prod.ext (endpoint_origin endpoint payload) rfl
    have hid := address_posted (origin endpoint payload, a)
    rw [hposted] at hid
    refine .now [] (a.reply.response (origin endpoint payload).id) hid ?_ ?_
    · rw [hsent, answers, List.map_singleton, hposted]
      rfl
    · rw [hqueue]
      exact queue.map _
  | queued handle mode answers queue =>
    refine .later body hlock ?_ ?_
    · rw [hsent, answers]
      exact List.append_nil _
    · rw [hqueue]
      exact (queue.map (·.2.reply)).symm

/-- What comes before makes no difference if it sends nothing and leaves the queues alone. -/
theorem Answered.of_same {endpoint : Nat} {payload : Bytes} (hsent : m'.sent = m.sent)
    (hqueue : (waiting m).Perm (waiting m')) (h : Answered m' endpoint payload m'') :
    Answered m endpoint payload m'' := by
  cases h with
  | now leaving response id sent queue =>
    exact .now leaving response id (hsent ▸ sent) (hqueue.trans queue)
  | later body lock sent queue =>
    exact .later body lock (sent.trans hsent) (queue.trans (hqueue.symm.cons _))

/-- However its sender is answered, the frame is. -/
theorem Replied.answered {endpoint : Nat} {payload : Bytes}
    (h : Replied (origin endpoint payload) (fun body => command? payload = some (.lock body)) m m')
    (hm : Orderly m) : Answered m endpoint payload m' := by
  cases h with
  | @response ops response silent id pays =>
    obtain ⟨e, response⟩ := response
    obtain rfl : e = endpoint :=
      (congrArg ReplyTo.endpoint id).trans (endpoint_origin endpoint payload)
    exact .now _ response id pays.sent (pays.leaves hm silent)
  | @lock m₁ ops session body harmless first asked pays =>
    have hsilent : ops.filterMap Operation.reply? = [] :=
      List.filterMap_eq_nil_iff.2 fun op hm => (harmless op hm).reply?
    have hsent : m₁.sent = m.sent := by simp [first.sent, told_of_harmless harmless]
    have hqueue := first.leaves hm hsilent
    rw [told_of_harmless harmless] at hqueue
    exact (pays.placed asked).of_same hsent hqueue

theorem Replied.orderly {dest : ReplyTo} {lock : Bytes → Prop} (h : Replied dest lock m m')
    (hm : Orderly m) : Orderly m' := by
  cases h with
  | response silent id pays => exact pays.orderly hm
  | lock harmless first asked pays => exact pays.orderly (first.orderly hm)

theorem Replied.arrived {dest : ReplyTo} {lock : Bytes → Prop} (h : Replied dest lock m m') :
    m'.arrived = m.arrived := by
  cases h with
  | response silent id pays => exact pays.arrived
  | lock harmless first asked pays => exact pays.arrived.trans first.arrived

/-! ## Events -/

/-- A frame is handed to the service while the clock can name the end of a lease. -/
theorem answered_invoke (handler : η) (endpoint : Nat) (payload : Bytes) (hm : Orderly m)
    (htime : Timely m) :
    Answered m endpoint payload (m.invoke (wiring t) handler (.data endpoint payload)) ∧
    Orderly (m.invoke (wiring t) handler (.data endpoint payload)) ∧
    (m.invoke (wiring t) handler (.data endpoint payload)).arrived =
      m.arrived ++ [(endpoint, payload)] := by
  obtain ⟨m', hrun, h⟩ := replies_onFrame (t := t) endpoint payload
    (m.record (.invoked handler (.data endpoint payload))) htime
  have heq : m.invoke (wiring t) handler (.data endpoint payload) = m' := congrArg Prod.snd hrun
  rw [heq]
  refine ⟨Answered.of_same ?_ ?_ (h.answered hm), h.orderly hm, ?_⟩
  · rfl
  · exact .refl _
  · rw [h.arrived, Machine.arrived_record]
    rfl

/-- Another event makes the service carry out operations that nobody asks for with a frame. -/
theorem leaves_invoke (handler : η) {e : Event}
    (he : ∀ endpoint payload, e ≠ .data endpoint payload) (hm : Orderly m) :
    Leaves m (m.invoke (wiring t) handler e) ∧ Orderly (m.invoke (wiring t) handler e) ∧
    (m.invoke (wiring t) handler e).arrived = m.arrived := by
  have hmade : ∃ ops r, Makes t (handle handler e) (m.record (.invoked handler e)) ops [] r ∧
      ops.filterMap Operation.reply? = [] := by
    cases e with
    | data endpoint payload => exact absurd rfl (he endpoint payload)
    | state endpoint state => exact ⟨[], _, makes_state handler endpoint state _, rfl⟩
    | timer id =>
      obtain ⟨ops, r, hmade, hops⟩ := makes_timer (t := t) handler id
        (m.record (.invoked handler (.timer id)))
      exact ⟨ops, r, hmade, by rcases hops with rfl | rfl <;> rfl⟩
  obtain ⟨ops, r, ⟨m', hrun, h⟩, hsilent⟩ := hmade
  have heq : m.invoke (wiring t) handler e = m' := congrArg Prod.snd hrun
  have harrived : (m.record (.invoked handler e)).arrived = m.arrived := by
    rw [Machine.arrived_record]
    cases e with
    | data endpoint payload => exact absurd rfl (he endpoint payload)
    | state | timer => exact List.append_nil _
  rw [heq]
  refine ⟨⟨m.world.coordinator.told ops, ?_, h.leaves hm hsilent⟩, h.orderly hm,
    h.arrived.trans harrived⟩
  rw [h.sent, List.append_nil]
  rfl

/-! ## The balance -/

/-- The frames that have come are those that have been answered, each under its own id, and the
lock requests that wait. -/
def Balanced (m : Loop κ η τ) : Prop :=
  ∃ responses : List (Nat × Wire.Response), m.sent = responses.map frame ∧
    (responses.map address ++ waiting m).Perm (m.arrived.map fun p => origin p.1 p.2)

theorem map_address_posted (leaving : List (ReplyTo × Answer)) :
    (leaving.map posted).map address = leaving.map (·.1) := by
  rw [List.map_map]
  exact List.map_congr_left fun p _ => address_posted p

namespace Balanced

theorem answered {endpoint : Nat} {payload : Bytes} (hb : Balanced m)
    (h : Answered m endpoint payload m')
    (harrived : m'.arrived = m.arrived ++ [(endpoint, payload)]) : Balanced m' := by
  obtain ⟨responses, hsent, hperm⟩ := hb
  cases h with
  | now leaving response id sent queue =>
    have hrest : (responses.map address ++ leaving.map (·.1) ++ waiting m').Perm
        (m.arrived.map fun p => origin p.1 p.2) := by
      rw [List.append_assoc]
      exact (queue.symm.append_left _).trans hperm
    refine ⟨responses ++ (leaving.map posted ++ [(endpoint, response)]), ?_, ?_⟩
    · rw [sent, hsent, ← List.map_append]
    · rw [harrived, List.map_append, List.map_append, List.map_append, map_address_posted,
        ← List.append_assoc, List.append_assoc]
      show (_ ++ (⟨endpoint, response.id⟩ :: waiting m')).Perm (_ ++ [origin endpoint payload])
      rw [id]
      exact List.perm_middle.trans ((hrest.cons _).trans (List.perm_append_singleton _ _).symm)
  | later body lock sent queue =>
    refine ⟨responses, sent.trans hsent, ?_⟩
    rw [harrived, List.map_append]
    refine (queue.append_left _).trans (List.perm_middle.trans ?_)
    exact (hperm.cons _).trans (List.perm_append_singleton _ _).symm

theorem leaves (hb : Balanced m) (h : Leaves m m') (harrived : m'.arrived = m.arrived) :
    Balanced m' := by
  obtain ⟨responses, hsent, hperm⟩ := hb
  obtain ⟨leaving, hleaving, hqueue⟩ := h
  refine ⟨responses ++ leaving.map posted, ?_, ?_⟩
  · rw [hleaving, hsent, ← List.map_append]
  · rw [harrived, List.map_append, map_address_posted, List.append_assoc]
    exact (hqueue.symm.append_left _).trans hperm

/-- As many frames have come over an endpoint as have been answered over it or wait. -/
theorem count (hb : Balanced m) (endpoint : Nat) :
    m.arrived.countP (·.1 == endpoint) =
      m.sent.countP (·.1 == endpoint) + (waiting m).countP (·.endpoint == endpoint) := by
  obtain ⟨responses, hsent, hperm⟩ := hb
  have hcount := hperm.countP_eq (·.endpoint == endpoint)
  simp only [List.countP_append, List.countP_map, Function.comp_def, endpoint_origin] at hcount
  rw [hsent, List.countP_map]
  exact hcount.symm

end Balanced

/-! ## Runs -/

/-- What happens elsewhere: the coordinator is left alone, and no frame comes or goes. -/
structure Elsewhere (m m' : Loop κ η τ) : Prop where
  coordinator : m'.world.coordinator = m.world.coordinator
  sent : m'.sent = m.sent
  arrived : m'.arrived = m.arrived

/-- A loop comes about from its start: the service is told of events, and other things happen. -/
inductive Reached (t : κ → Nat → Bytes → τ → Bool × List Event × τ) : Loop κ η τ → Prop where
  /-- The service has no sessions and nothing has happened. -/
  | start (config : Config) (links : τ) : Reached t (.start (.empty config) links)
  /-- The service is told of an event; when it is a frame, the clock can name the end of a lease. -/
  | event {m : Loop κ η τ} (h : Reached t m) (handler : η) (e : Event)
    (htime : (∃ endpoint payload, e = .data endpoint payload) → Timely m) :
    Reached t (m.invoke (wiring t) handler e)
  /-- Something else happens. -/
  | elsewhere {m m' : Loop κ η τ} (h : Reached t m) (he : Elsewhere m m') : Reached t m'

/-- An event is a frame or not. -/
theorem Event.frame_cases (e : Event) :
    (∃ endpoint payload, e = .data endpoint payload) ∨
      ∀ endpoint payload, e ≠ .data endpoint payload := by
  cases e <;> simp

theorem Reached.sound (h : Reached t m) : Orderly m ∧ Balanced m := by
  induction h with
  | start config links =>
    exact ⟨coherent_empty config.lease, [], rfl, .refl _⟩
  | @event m _ handler e htime ih =>
    rcases Event.frame_cases e with hframe | hother
    · have htimely := htime hframe
      obtain ⟨endpoint, payload, rfl⟩ := hframe
      obtain ⟨hanswered, horderly, harrived⟩ :=
        answered_invoke (t := t) handler endpoint payload ih.1 htimely
      exact ⟨horderly, ih.2.answered hanswered harrived⟩
    · obtain ⟨hleaves, horderly, harrived⟩ := leaves_invoke (t := t) handler hother ih.1
      exact ⟨horderly, ih.2.leaves hleaves harrived⟩
  | @elsewhere m m' _ he ih =>
    obtain ⟨responses, hsent, hperm⟩ := ih.2
    refine ⟨?_, responses, he.sent.trans hsent, ?_⟩
    · unfold Orderly
      rw [he.coordinator]
      exact ih.1
    · unfold waiting
      rw [he.coordinator, he.arrived]
      exact hperm

/-- The timers that are due fire, and then a signal is taken off the queue. -/
theorem Reached.round (h : Reached t m) (htime : Timely (m.fire (wiring t))) :
    Reached t (m.round (wiring t)) := by
  have htimers : ∀ (due : List (Nat × η)) (m : Loop κ η τ), Reached t m →
      Reached t (due.foldl (fun m p => m.invoke (wiring t) p.2 (.timer p.1)) m) := by
    intro due
    induction due with
    | nil => exact fun m h => h
    | cons p rest ih => exact fun m h => ih _ (h.event p.2 (.timer p.1) nofun)
  have hfire : Reached t (m.fire (wiring t)) :=
    htimers _ _ (h.elsewhere ⟨rfl, rfl, rfl⟩)
  unfold Machine.round
  generalize m.fire (wiring t) = m at hfire htime
  unfold Machine.takeSignal
  split
  · exact hfire
  · exact hfire.elsewhere ⟨rfl, rfl, rfl⟩
  · rename_i e rest _
    have htaken : Reached t { m with queue := rest } := hfire.elsewhere ⟨rfl, rfl, rfl⟩
    unfold Machine.dispatch
    split
    · exact htaken
    · split
      · exact htaken.event _ _ fun _ => htime
      · exact htaken
    · split
      · refine .event ?_ _ _ nofun
        split
        · exact htaken.elsewhere ⟨rfl, rfl, rfl⟩
        · exact htaken
      · exact htaken

/-! ## Frames without a header -/

/-- What is shorter than a header cannot be read. -/
theorem decode_of_short {payload : Bytes} (h : payload.length < Wire.Request.headerSize) :
    ∃ fault, Wire.Request.decode payload = .error fault ∧ fault.code = .protocol := by
  unfold Wire.Request.headerSize at h
  by_cases hid : payload.length < 4
  · refine ⟨.decode (.truncated "request id" 4 payload.length), ?_, rfl⟩
    simp only [Wire.Request.decode, Wire.takeU32, Wire.takeNat, Wire.takeBytes_of_lt hid,
      Except.map, bind, Except.bind]
  · refine ⟨.decode (.truncated "command" 1 0), ?_, rfl⟩
    have hlen : payload.length = 4 := by omega
    have hrest : payload.drop 4 = [] := List.drop_eq_nil_of_le (by omega)
    simp [Wire.Request.decode, Wire.takeU32, Wire.takeU8, Wire.takeNat, Wire.takeBytes, Except.map,
      bind, Except.bind, hlen, hrest]

/-- A frame without a header is refused under the id zero. -/
def Refused (m : Loop κ η τ) (endpoint : Nat) (m' : Loop κ η τ) : Prop :=
  ∃ message, m'.sent = m.sent ++
    [frame (endpoint, .error 0 FaultCode.protocol.toStatus message)] ∧ waiting m' = waiting m

theorem refused_invoke (handler : η) (endpoint : Nat) {payload : Bytes}
    (h : payload.length < Wire.Request.headerSize) :
    Refused m endpoint (m.invoke (wiring t) handler (.data endpoint payload)) := by
  obtain ⟨fault, hdecode, hcode⟩ := decode_of_short h
  have hprogram : (onFrame endpoint payload : Activity κ η Unit) =
      sendResponse endpoint (.error 0 FaultCode.protocol.toStatus fault.message) := by
    unfold onFrame
    rw [hdecode, ← hcode]
    rfl
  obtain ⟨m', hrun, hpays⟩ := makes_sendResponse (t := t) endpoint
    (.error 0 FaultCode.protocol.toStatus fault.message)
    (m.record (.invoked handler (.data endpoint payload)))
  rw [← hprogram] at hrun
  have heq : m.invoke (wiring t) handler (.data endpoint payload) = m' := congrArg Prod.snd hrun
  rw [heq]
  refine ⟨fault.message, hpays.sent, ?_⟩
  unfold waiting
  rw [hpays.coordinator]
  rfl

/-! ## Every frame is answered once -/

/-- At any point of a run the frames that have come are those that have been answered, each under
its own id, and the lock requests that wait, endpoint by endpoint.  The next frame is answered at
once, or when it leaves its queue, which only a lock request joins; a frame without a header is
refused under the id zero.  Any other event answers exactly the requests that leave their queues. -/
theorem answers_each_frame (h : Reached t m) :
    Balanced m ∧
    (∀ endpoint, m.arrived.countP (·.1 == endpoint) =
      m.sent.countP (·.1 == endpoint) + (waiting m).countP (·.endpoint == endpoint)) ∧
    (∀ handler endpoint payload, Timely m →
      Answered m endpoint payload (m.invoke (wiring t) handler (.data endpoint payload)) ∧
      (payload.length < Wire.Request.headerSize →
        Refused m endpoint (m.invoke (wiring t) handler (.data endpoint payload)))) ∧
    ∀ handler e, (∀ endpoint payload, e ≠ .data endpoint payload) →
      Leaves m (m.invoke (wiring t) handler e) := by
  obtain ⟨horderly, hbalanced⟩ := h.sound
  refine ⟨hbalanced, hbalanced.count, fun handler endpoint payload htime => ⟨?_, ?_⟩, ?_⟩
  · exact (answered_invoke handler endpoint payload horderly htime).1
  · exact refused_invoke handler endpoint
  · exact fun handler e he => (leaves_invoke handler he horderly).1

/-- Frames that come one after another. -/
def feed (m : Loop Unit Unit Unit) (frames : List (Nat × Bytes)) : Loop Unit Unit Unit :=
  frames.foldl (fun m p =>
    m.invoke (wiring fun _ _ _ links => (true, [], links)) () (.data p.1 p.2)) m

theorem reached_feed (config : Config) (frames : List (Nat × Bytes))
    (htime : ∀ i < frames.length, Timely (feed (.start (.empty config) ()) (frames.take i))) :
    Reached (fun _ _ _ links => (true, [], links)) (feed (.start (.empty config) ()) frames) := by
  induction frames using List.reverseRecOn with
  | nil => exact .start config ()
  | append_singleton frames p ih =>
    rw [feed, List.foldl_append]
    refine .event (ih fun i hi => ?_) _ _ fun _ => ?_
    · have hi' := htime i (by simp; omega)
      rwa [List.take_append_of_le_length (by omega)] at hi'
    · have hlast := htime frames.length (by simp)
      rwa [List.take_left'] at hlast
      rfl

/-- A frame without a header; then two connections open a handle, and the second waits for the
lock of the first. -/
def contention : List (Nat × Bytes) :=
  let request (command : Wire.Command) (id : UInt32) := (command.request id).encode
  let lock := Wire.LockRequest.encode ⟨1, Mode.exclusive.bits, false⟩
  [(1, []), (1, request .openSession 1), (2, request .openSession 1),
    (1, request (.open "a") 2), (2, request (.open "a") 2),
    (1, request (.lock lock) 3), (2, request (.lock lock) 3)]

theorem answers_each_frame_contention :
    let m := feed (.start (.empty .default) ()) contention
    waiting m = [⟨2, 3⟩] ∧ m.arrived.countP (·.1 == 2) = 3 ∧ m.sent.countP (·.1 == 2) = 2 ∧
      Timely m ∧ Balanced m ∧
      Refused m 1 (m.invoke (wiring fun _ _ _ links => (true, [], links)) () (.data 1 [])) ∧
      Leaves m (m.invoke (wiring fun _ _ _ links => (true, [], links)) () (.timer 1)) := by
  intro m
  have htime : Timely m := by decide +kernel
  have hreached : Reached (fun _ _ _ links => (true, [], links)) m :=
    reached_feed .default contention (by decide +kernel)
  obtain ⟨hbalanced, hcount, hframe, hother⟩ := answers_each_frame hreached
  exact ⟨by decide +kernel, by decide +kernel, by decide +kernel, htime, hbalanced,
    (hframe () 1 [] htime).2 (by decide), hother () (.timer 1) nofun⟩

end Service

end LeaseLock
