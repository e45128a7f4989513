import LeaseLock.Proofs.Coordinator.Renaming
import LeaseLock.Proofs.Service.Delivery

/-
  LeaseLock: two servers that differ in the names of their endpoints.
  A server is an image of another if the endpoints of the other can be renamed so that it becomes
  the one (`Image`); one endpoint of the other may share its name, if nothing comes over it any
  more.  What the service does for a frame over an endpoint, it does in the image over the endpoint
  of the new name: each program of the service has one rule (`Twin`), and so has each input
  (`Image.apply`).  The servers go on as images of each other, and the frames they send are the
  same but for the endpoints (`Image.foldl`).
-/

namespace LeaseLock.Server

open Reactor Coordinator Service

/-! ## Names -/

/-- What the endpoints of one server are called in another.  No two have the same name, except that
one of them, over which nothing comes any more, may share its name. -/
structure Naming where
  /-- The name of an endpoint. -/
  name : Nat → Nat
  /-- The endpoint that may share its name. -/
  gone : Nat
  name_inj : ∀ {d e : Nat}, d ≠ gone → e ≠ gone → name d = name e → d = e

namespace Naming

variable (r : Naming)

/-- Where the response to a request goes, under the new name. -/
def reply (dest : ReplyTo) : ReplyTo := ⟨r.name dest.endpoint, dest.id⟩

/-- A frame, under the new name of its endpoint. -/
def frame (p : Nat × Bytes) : Nat × Bytes := (r.name p.1, p.2)

/-- An event, under the new name of its endpoint. -/
def event : Event → Event
  | .data endpoint payload => .data (r.name endpoint) payload
  | .state endpoint state => .state (r.name endpoint) state
  | .timer id => .timer id

/-- What a server is told, under the new names. -/
def input : Input → Input
  | .accept => .accept
  | .tick instant => .tick instant
  | .event e => .event (r.event e)

theorem name_eq_iff {d e : Nat} (hd : d ≠ r.gone) (he : e ≠ r.gone) :
    r.name d = r.name e ↔ d = e := ⟨r.name_inj hd he, congrArg r.name⟩

end Naming

/-! ## Images -/

variable {r : Naming}

/-- What the service remembers, under the new names. -/
structure Copy (r : Naming) (s s' : Service.State) : Prop where
  config : s'.config = s.config
  coordinator : s'.coordinator = s.coordinator.mapReply r.reply
  bindings : ∀ e, e ≠ r.gone → s'.sessionFor (r.name e) = s.sessionFor e
  sweepTimer : s'.sweepTimer = s.sweepTimer

/-- A server, under the new names. -/
structure Image (r : Naming) (m m' : Loop) : Prop where
  world : Copy r m.world m'.world
  clock : m'.clock = m.clock
  timers : m'.timers = m.timers
  endpoints : ∀ e, e ≠ r.gone → m'.endpoints.get? (r.name e) = m.endpoints.get? e
  /-- The endpoints that are still to be made are made in the same order. -/
  fresh : ∀ k, r.name (m.nextEndpoint + k) = m'.nextEndpoint + k
  gone : r.gone < m.nextEndpoint

/-- Two servers have gone on as images, and have sent the same frames under the new names. -/
structure Onwards (r : Naming) (m m' n n' : Loop) : Prop where
  image : Image r n n'
  sent : ∃ out, n.sent = m.sent ++ out ∧ n'.sent = m'.sent ++ out.map r.frame

variable {m m' n n' : Loop}

theorem Image.refl_onwards (h : Image r m m') : Onwards r m m' m m' :=
  ⟨h, [], (List.append_nil _).symm, (List.append_nil _).symm⟩

theorem Onwards.trans {l l' : Loop} (h : Onwards r m m' n n') (h' : Onwards r n n' l l') :
    Onwards r m m' l l' := by
  obtain ⟨out, hsent, hsent'⟩ := h.sent
  obtain ⟨more, hmore, hmore'⟩ := h'.sent
  refine ⟨h'.image, out ++ more, ?_, ?_⟩
  · rw [hmore, hsent, List.append_assoc]
  · rw [hmore', hsent', List.map_append, List.append_assoc]

/-- Nothing is sent, and nothing changes that the image is about. -/
theorem Image.onwards_of_same (h : Image r n n') (hsent : n.sent = m.sent)
    (hsent' : n'.sent = m'.sent) : Onwards r m m' n n' :=
  ⟨h, [], by rw [hsent, List.append_nil], by rw [hsent', List.map_nil, List.append_nil]⟩

/-! ## What the service remembers -/

namespace Copy

variable {s s' : Service.State} {endpoint : Nat}

theorem with_coordinator (h : Copy r s s') {c : Coordinator.State ReplyTo}
    {c' : Coordinator.State ReplyTo} (hc : c' = c.mapReply r.reply) :
    Copy r { s with coordinator := c } { s' with coordinator := c' } :=
  ⟨h.config, hc, h.bindings, h.sweepTimer⟩

theorem bind (h : Copy r s s') (he : endpoint ≠ r.gone) (session : Nat) :
    Copy r (s.bind endpoint session) (s'.bind (r.name endpoint) session) := by
  refine ⟨h.config, h.coordinator, fun e hne => ?_, h.sweepTimer⟩
  show (s'.bindings.insert _ _).get? _ = (s.bindings.insert _ _).get? _
  rw [Table.get?_insert, Table.get?_insert, if_congr (r.name_eq_iff hne he) rfl rfl]
  exact congrArg (fun b => if e = endpoint then some session else b) (h.bindings e hne)

theorem unbind (h : Copy r s s') (he : endpoint ≠ r.gone) :
    Copy r (s.unbind endpoint) (s'.unbind (r.name endpoint)) := by
  refine ⟨h.config, h.coordinator, fun e hne => ?_, h.sweepTimer⟩
  show (s'.bindings.erase _).get? _ = (s.bindings.erase _).get? _
  rw [Table.get?_erase, Table.get?_erase, if_congr (r.name_eq_iff hne he) rfl rfl]
  exact congrArg (fun b => if e = endpoint then none else b) (h.bindings e hne)

theorem unbindAll (h : Copy r s s') (sessions : List Nat) :
    Copy r (s.unbindAll sessions) (s'.unbindAll sessions) := by
  refine ⟨h.config, h.coordinator, fun e hne => ?_, h.sweepTimer⟩
  show (s'.bindings.filter _).get? _ = (s.bindings.filter _).get? _
  rw [Table.get?_filter, Table.get?_filter]
  exact congrArg (Option.filter _) (h.bindings e hne)

theorem sweepInterval (h : Copy r s s') : s'.sweepInterval = s.sweepInterval := by
  unfold State.sweepInterval
  rw [h.config]

end Copy

namespace Image

theorem record (h : Image r m m') (e e' : Entry Unit Unit Service.State LockEvent) :
    Image r (m.record e) (m'.record e') :=
  ⟨h.world, h.clock, h.timers, h.endpoints, h.fresh, h.gone⟩

end Image

/-! ## Programs -/

variable {α β : Type}

/-- Two programs come to the same in a server and in its image. -/
structure Twin (r : Naming) (p p' : Activity Unit Unit α) (m m' : Loop) : Prop where
  result : (m'.run wiring p').1 = (m.run wiring p).1
  onwards : Onwards r m m' (m.run wiring p).2 (m'.run wiring p').2

namespace Twin

variable {p p' : Activity Unit Unit α}

theorem pure (h : Image r m m') (a : α) : Twin r (Pure.pure a) (Pure.pure a) m m' :=
  ⟨rfl, h.refl_onwards⟩

theorem crash (h : Image r m m') (c : Crash) :
    Twin r (.crash c : Activity Unit Unit α) (.crash c) m m' := ⟨rfl, h.refl_onwards⟩

/-- One program after another. -/
theorem bind {f f' : α → Activity Unit Unit β} (hp : Twin r p p' m m')
    (hf : ∀ a n n', Image r n n' → Twin r (f a) (f' a) n n') :
    Twin r (p >>= f) (p' >>= f') m m' := by
  obtain ⟨hresult, honwards⟩ := hp
  rcases hrun : m.run wiring p with ⟨result, n⟩
  rcases hrun' : m'.run wiring p' with ⟨result', n'⟩
  rw [hrun, hrun'] at hresult honwards
  obtain rfl : result' = result := hresult
  cases result' with
  | error c =>
    refine ⟨?_, ?_⟩
    · rw [Machine.run_bind_of_error _ hrun, Machine.run_bind_of_error _ hrun']
    · rw [Machine.run_bind_of_error _ hrun, Machine.run_bind_of_error _ hrun']
      exact honwards
  | ok a =>
    obtain ⟨hresult, hmore⟩ := hf a n n' honwards.image
    refine ⟨?_, ?_⟩
    · rw [Machine.run_bind_of_ok _ hrun, Machine.run_bind_of_ok _ hrun']
      exact hresult
    · rw [Machine.run_bind_of_ok _ hrun, Machine.run_bind_of_ok _ hrun']
      exact honwards.trans hmore

/-- What the service remembers is read. -/
theorem world {f f' : Service.State → Activity Unit Unit β} (h : Image r m m')
    (hf : ∀ n n', Image r n n' → Twin r (f m.world) (f' m'.world) n n') :
    Twin r (Program.world >>= f) (Program.world >>= f') m m' := by
  have hread := hf _ _ (h.record (.asked .world m.world) (.asked .world m'.world))
  refine ⟨hread.result, Onwards.trans ?_ hread.onwards⟩
  exact (h.record _ _).onwards_of_same (Machine.sent_record m _ |>.trans (List.append_nil _))
    (Machine.sent_record m' _ |>.trans (List.append_nil _))

theorem now (h : Image r m m') : Twin r Program.now Program.now m m' :=
  ⟨congrArg Except.ok h.clock, (h.record _ _).onwards_of_same rfl rfl⟩

/-- What the service remembers changes. -/
theorem change {f f' : Service.State → Service.State} (h : Image r m m')
    (hf : Copy r (f m.world) (f' m'.world)) :
    Twin r (Service.change f) (Service.change f') m m' :=
  ⟨rfl, Image.onwards_of_same ⟨hf, h.clock, h.timers, h.endpoints, h.fresh, h.gone⟩ rfl rfl⟩

/-- An operation of the coordinator is carried out that gives no answers. -/
theorem consult {f f' : Coordinator.State ReplyTo → α × Coordinator.State ReplyTo}
    (h : Image r m m') (hf : f' (m.world.coordinator.mapReply r.reply) =
      ((f m.world.coordinator).1, (f m.world.coordinator).2.mapReply r.reply)) :
    Twin r (Service.consult f) (Service.consult f') m m' := by
  rw [← h.world.coordinator] at hf
  have hresult : (f' m'.world.coordinator).1 = (f m.world.coordinator).1 := by rw [hf]
  have hworld := h.world.with_coordinator (congrArg Prod.snd hf)
  exact ⟨congrArg Except.ok hresult, Image.onwards_of_same
    ⟨hworld, h.clock, h.timers, h.endpoints, h.fresh, h.gone⟩ rfl rfl⟩

/-- A response is sent. -/
theorem sendResponse (h : Image r m m') (endpoint : Nat) (response : Wire.Response) :
    Twin r (Service.sendResponse endpoint response)
      (Service.sendResponse (r.name endpoint) response) m m' := by
  obtain ⟨links, queue, heq⟩ := m.send_eq (w := wiring) endpoint response.encode
  obtain ⟨links', queue', heq'⟩ := m'.send_eq (w := wiring) (r.name endpoint) response.encode
  have himage : Image r (m.send wiring endpoint response.encode).2
      (m'.send wiring (r.name endpoint) response.encode).2 := by
    rw [heq, heq']
    exact ⟨h.world, h.clock, h.timers, h.endpoints, h.fresh, h.gone⟩
  refine ⟨rfl, himage.record _ _, [(endpoint, response.encode)], ?_, ?_⟩
  · show ((m.send wiring endpoint response.encode).2.record
      (.asked (.send endpoint response.encode) _)).sent = _
    rw [Machine.sent_record, heq]
    rfl
  · show ((m'.send wiring (r.name endpoint) response.encode).2.record
      (.asked (.send (r.name endpoint) response.encode) _)).sent = _
    rw [Machine.sent_record, heq']
    rfl

theorem notes (h : Image r m m') (events : List LockEvent) :
    Twin r (Program.each Program.note events) (Program.each Program.note events) m m' := by
  induction events generalizing m m' with
  | nil => exact pure h ()
  | cons e rest ih =>
    have hnote : Twin r (Program.note e) (Program.note e) m m' :=
      ⟨rfl, (h.record _ _).onwards_of_same rfl rfl⟩
    exact hnote.bind fun _ n n' hn => ih hn

theorem answers (h : Image r m m') (answers : List (ReplyTo × Answer)) :
    Twin r (Program.each (fun (dest, answer) =>
        Service.sendResponse dest.endpoint (answer.reply.response dest.id)) answers)
      (Program.each (fun (dest, answer) =>
        Service.sendResponse dest.endpoint (answer.reply.response dest.id))
          (answers.map fun p => (r.reply p.1, p.2))) m m' := by
  induction answers generalizing m m' with
  | nil => exact pure h ()
  | cons p rest ih =>
    exact (sendResponse h p.1.endpoint (p.2.reply.response p.1.id)).bind fun _ n n' hn => ih hn

/-- An operation of the coordinator is carried out, and its answers are sent. -/
theorem operate {f f' : Coordinator.State ReplyTo → α × Turn ReplyTo} (h : Image r m m')
    (hf : f' (m.world.coordinator.mapReply r.reply) =
      ((f m.world.coordinator).1, (f m.world.coordinator).2.mapReply r.reply)) :
    Twin r (Service.operate f) (Service.operate f') m m' := by
  rw [← h.world.coordinator] at hf
  have hchange : Twin r
      (Service.change fun s => { s with coordinator := (f s.coordinator).2.state })
      (Service.change fun s => { s with coordinator := (f' s.coordinator).2.state }) m m' :=
    change h (h.world.with_coordinator (congrArg (fun x => (Prod.snd x).state) hf))
  have hrest : ∀ n n', Image r n n' →
      Twin r (do
        Program.each Program.note (f m.world.coordinator).2.events
        Program.each (fun (dest, answer) =>
          Service.sendResponse dest.endpoint (answer.reply.response dest.id))
            (f m.world.coordinator).2.answers
        return (f m.world.coordinator).1)
      (do
        Program.each Program.note (f' m'.world.coordinator).2.events
        Program.each (fun (dest, answer) =>
          Service.sendResponse dest.endpoint (answer.reply.response dest.id))
            (f' m'.world.coordinator).2.answers
        return (f' m'.world.coordinator).1) n n' := by
    intro n n' hn
    rw [hf]
    exact (notes hn _).bind fun _ l l' hl => (answers hl _).bind fun _ k k' hk => pure hk _
  obtain ⟨hresult, honwards⟩ := hrest _ _ hchange.onwards.image
  exact ⟨hresult, hchange.onwards.trans honwards⟩

/-- A timer is scheduled. -/
theorem schedule (h : Image r m m') (deadline : Nat) :
    Twin r (Program.schedule deadline ()) (Program.schedule deadline ()) m m' := by
  have hid : (m'.schedule deadline ()).1 = (m.schedule deadline ()).1 := by
    unfold Machine.schedule
    rw [h.timers]
  have hnext : Onwards r m m' (m.schedule deadline ()).2 (m'.schedule deadline ()).2 := by
    unfold Machine.schedule
    rw [h.timers]
    dsimp only
    split <;> exact ⟨⟨h.world, h.clock, rfl, h.endpoints, h.fresh, h.gone⟩, [],
      (List.append_nil _).symm, (List.append_nil _).symm⟩
  exact ⟨congrArg Except.ok hid,
    hnext.trans ((hnext.image.record _ _).onwards_of_same rfl rfl)⟩

theorem scheduleAfter (h : Image r m m') (delay : Nat) :
    Twin r (Program.scheduleAfter delay ()) (Program.scheduleAfter delay ()) m m' := by
  refine (now h).bind fun t n n' hn => ?_
  cases Time.add? t delay with
  | some deadline => exact schedule hn deadline
  | none => exact crash hn _

end Twin

/-! ## The service -/

namespace Image

theorem respond (h : Image r m m') (dest : ReplyTo) (body : Bytes) :
    Twin r (Service.respond dest body) (Service.respond (r.reply dest) body) m m' :=
  .sendResponse h _ _

theorem reject (h : Image r m m') (dest : ReplyTo) (code : FaultCode) (message : String) :
    Twin r (Service.reject dest code message) (Service.reject (r.reply dest) code message) m m' :=
  .sendResponse h _ _

theorem report (h : Image r m m') (dest : ReplyTo) (result : Except Fault Bytes) :
    Twin r (Service.report dest result) (Service.report (r.reply dest) result) m m' := by
  cases result with
  | ok body => exact h.respond dest body
  | error fault => exact h.reject dest _ _

theorem renew (h : Image r m m') (session : Nat) :
    Twin r (Service.renew session) (Service.renew session) m m' := by
  refine (Twin.now h).bind fun now n n' hn => ?_
  refine (Twin.consult hn rfl).bind fun result l l' hl => ?_
  match result with
  | .ok _ => exact .pure hl _
  | .error (.refused _) => exact .pure hl _
  | .error (.crashed _) => exact .crash hl _

theorem createSession (h : Image r m m') :
    Twin r Service.createSession Service.createSession m m' := by
  refine (Twin.now h).bind fun now n n' hn => ?_
  refine (Twin.consult hn rfl).bind fun result l l' hl => ?_
  cases result with
  | ok _ => exact .pure hl _
  | error _ => exact .crash hl _

theorem unbind (h : Image r m m') {endpoint : Nat} (he : endpoint ≠ r.gone) :
    Twin r (change fun s => s.unbind endpoint) (change fun s => s.unbind (r.name endpoint)) m m' :=
  .change h (h.world.unbind he)

theorem bind (h : Image r m m') {endpoint : Nat} (he : endpoint ≠ r.gone) (session : Nat) :
    Twin r (change fun s => s.bind endpoint session)
      (change fun s => s.bind (r.name endpoint) session) m m' := .change h (h.world.bind he session)

theorem executeFor (h : Image r m m') {dest : ReplyTo} (hd : dest.endpoint ≠ r.gone)
    (session : Nat) (command : Wire.Command) : Twin r (Service.executeFor dest session command)
      (Service.executeFor (r.reply dest) session command) m m' := by
  cases command with
  | «open» name =>
    exact (Twin.consult h (Coordinator.State.openHandle_mapReply _ _ session name)).bind
      fun result n n' hn => hn.report dest _
  | close handle =>
    exact (Twin.operate h (Coordinator.State.closeHandle_mapReply _ _ session _)).bind
      fun result n n' hn => hn.report dest _
  | lock payload =>
    exact (Twin.operate h (Coordinator.State.dispatch_mapReply _ _ session payload dest)).bind
      fun result n n' hn => .pure hn _
  | release handle =>
    exact (Twin.operate h (Coordinator.State.release_mapReply _ _ session _)).bind
      fun result n n' hn => hn.report dest _
  | cancelLock handle =>
    exact (Twin.operate h (Coordinator.State.cancel_mapReply _ _ session _)).bind
      fun result n n' hn => hn.respond dest _
  | closeSession =>
    refine (h.unbind hd).bind fun _ n n' hn => ?_
    exact (Twin.operate hn (Coordinator.State.closeSession_mapReply _ _ session)).bind
      fun result l l' hl => hl.report dest _
  | openSession | attachSession | keepAlive | stats => exact h.respond dest _

theorem execute (h : Image r m m') {dest : ReplyTo} (hd : dest.endpoint ≠ r.gone)
    (session : Option Nat) (command : Wire.Command) : Twin r (Service.execute dest session command)
      (Service.execute (r.reply dest) session command) m m' := by
  have hfor := fun session => h.executeFor hd session command
  cases command with
  | openSession =>
    refine h.createSession.bind fun id n n' hn => ?_
    refine (hn.bind hd id).bind fun _ l l' hl => Twin.world hl fun k k' hk => ?_
    rw [hl.world.config]
    exact hk.respond dest _
  | attachSession id =>
    refine (h.renew id.toNat).bind fun result n n' hn => ?_
    cases result with
    | ok _ => exact (hn.bind hd id.toNat).bind fun _ l l' hl => hl.respond dest _
    | error fault => exact hn.reject dest _ _
  | stats =>
    refine Twin.world h fun n n' hn => ?_
    rw [h.world.coordinator, Coordinator.State.snapshot_mapReply]
    exact hn.respond dest _
  | keepAlive | «open» | close | lock | release | cancelLock | closeSession =>
    cases session with
    | some session => exact hfor session
    | none => exact h.reject dest _ _

theorem onCommand (h : Image r m m') (dest : ReplyTo) (hd : dest.endpoint ≠ r.gone)
    (command : Wire.Command) :
    Twin r (Service.onCommand dest command) (Service.onCommand (r.reply dest) command) m m' := by
  refine Twin.world h fun n n' hn => ?_
  rw [show m'.world.sessionFor (r.reply dest).endpoint = m.world.sessionFor dest.endpoint from
    h.world.bindings _ hd]
  cases m.world.sessionFor dest.endpoint with
  | none => exact hn.execute hd none command
  | some session =>
    refine (hn.renew session).bind fun result l l' hl => ?_
    cases result with
    | ok _ => exact hl.execute hd (some session) command
    | error fault =>
      refine (hl.unbind hd).bind fun _ k k' hk => ?_
      split
      · exact hk.reject dest _ _
      · exact hk.execute hd none command

theorem onFrame (h : Image r m m') {endpoint : Nat} (he : endpoint ≠ r.gone) (payload : Bytes) :
    Twin r (Service.onFrame endpoint payload) (Service.onFrame (r.name endpoint) payload) m m' := by
  unfold Service.onFrame
  cases Wire.Request.decode payload with
  | error fault => exact h.reject ⟨endpoint, 0⟩ _ _
  | ok request =>
    dsimp only
    cases Wire.Command.decode request.command request.body with
    | error fault => exact h.reject ⟨endpoint, request.id⟩ _ _
    | ok command =>
      cases command with
      | none => exact h.reject ⟨endpoint, request.id⟩ _ _
      | some command => exact h.onCommand ⟨endpoint, request.id⟩ he command

theorem scheduleSweep (h : Image r m m') :
    Twin r (Service.scheduleSweep ()) (Service.scheduleSweep ()) m m' := by
  refine Twin.world h fun n n' hn => ?_
  rw [h.world.sweepInterval]
  refine (Twin.scheduleAfter hn _).bind fun timer l l' hl => ?_
  exact .change hl ⟨hl.world.config, hl.world.coordinator, hl.world.bindings, rfl⟩

theorem sweep (h : Image r m m') : Twin r (Service.sweep ()) (Service.sweep ()) m m' := by
  refine (Twin.now h).bind fun now n n' hn => ?_
  refine Twin.bind ?_ fun _ l l' hl => hl.scheduleSweep
  refine (Twin.operate hn (Coordinator.State.expire_mapReply _ _ now)).bind
    fun expired l l' hl => ?_
  exact (Twin.change hl (hl.world.unbindAll expired)).bind fun _ k k' hk => .pure hk expired

end Image

/-! ## Inputs -/

/-- The endpoint that a server is told something over. -/
def Input.endpoint? : Input → Option Nat
  | event (.data endpoint _) => some endpoint
  | event (.state endpoint _) => some endpoint
  | _ => none

/-- Nothing comes over an endpoint. -/
def Silent (endpoint : Nat) (inputs : List Input) : Prop :=
  ∀ i ∈ inputs, i.endpoint? ≠ some endpoint

instance (endpoint : Nat) (inputs : List Input) : Decidable (Silent endpoint inputs) :=
  inferInstanceAs (Decidable (∀ i ∈ inputs, i.endpoint? ≠ some endpoint))

namespace Image

theorem handle (h : Image r m m') {e : Event} (he : (Input.event e).endpoint? ≠ some r.gone) :
    Twin r (Service.handle () e) (Service.handle () (r.event e)) m m' := by
  cases e with
  | data endpoint payload => exact h.onFrame (fun heq => he (congrArg some heq)) payload
  | state endpoint state =>
    unfold Service.handle Naming.event
    dsimp only
    split
    · exact h.unbind fun heq => he (congrArg some heq)
    · exact .pure h ()
  | timer id =>
    refine Twin.world h fun n n' hn => ?_
    rw [h.world.sweepTimer]
    split
    · exact hn.sweep
    · exact .pure hn ()

theorem invoke (h : Image r m m') {e : Event} (he : (Input.event e).endpoint? ≠ some r.gone) :
    Onwards r m m' (m.invoke wiring () e) (m'.invoke wiring () (r.event e)) := by
  have hrecord := h.record (.invoked () e) (.invoked () (r.event e))
  exact (hrecord.onwards_of_same (sent_invoked m e) (sent_invoked m' _)).trans
    (hrecord.handle he).onwards

theorem dispatch_data (h : Image r m m') {endpoint : Nat} (he : endpoint ≠ r.gone)
    (payload : Bytes) : Onwards r m m' (m.dispatch wiring (.data endpoint payload))
      (m'.dispatch wiring (.data (r.name endpoint) payload)) := by
  unfold Machine.dispatch
  dsimp only
  rw [h.endpoints endpoint he]
  cases m.endpoints.get? endpoint with
  | none => exact h.refl_onwards
  | some x => exact h.invoke (e := .data endpoint payload) fun heq => he (Option.some.inj heq)

theorem dispatch_state (h : Image r m m') {endpoint : Nat} (he : endpoint ≠ r.gone)
    (state : LinkState) : Onwards r m m' (m.dispatch wiring (.state endpoint state))
      (m'.dispatch wiring (.state (r.name endpoint) state)) := by
  have hstate : (Input.event (.state endpoint state)).endpoint? ≠ some r.gone :=
    fun heq => he (Option.some.inj heq)
  unfold Machine.dispatch
  dsimp only
  rw [h.endpoints endpoint he]
  cases m.endpoints.get? endpoint with
  | none => exact h.refl_onwards
  | some x =>
    dsimp only
    split
    · have herased : Image r { m with endpoints := m.endpoints.erase endpoint }
          { m' with endpoints := m'.endpoints.erase (r.name endpoint) } := by
        refine ⟨h.world, h.clock, h.timers, fun e hne => ?_, h.fresh, h.gone⟩
        rw [Table.get?_erase, Table.get?_erase, if_congr (r.name_eq_iff hne he) rfl rfl,
          h.endpoints e hne]
      have hmoved : Onwards r m m' { m with endpoints := m.endpoints.erase endpoint }
          { m' with endpoints := m'.endpoints.erase (r.name endpoint) } :=
        herased.onwards_of_same rfl rfl
      exact hmoved.trans (herased.invoke hstate)
    · exact h.invoke hstate

/-- Whatever a server is told, its image does the same. -/
theorem apply (h : Image r m m') {i : Input} (hi : i.endpoint? ≠ some r.gone) :
    Onwards r m m' (i.apply m) ((r.input i).apply m') := by
  cases i with
  | tick instant =>
    refine Image.onwards_of_same ⟨h.world, ?_, h.timers, h.endpoints, h.fresh, h.gone⟩ rfl rfl
    exact congrArg (max · instant) h.clock
  | accept =>
    have hnext : r.name m.nextEndpoint = m'.nextEndpoint := h.fresh 0
    refine Image.onwards_of_same ⟨h.world, h.clock, h.timers, fun e hne => ?_, fun k => ?_,
      Nat.lt_succ_of_lt h.gone⟩ rfl rfl
    · show (m'.endpoints.insert _ _).get? _ = (m.endpoints.insert _ _).get? _
      rw [Table.get?_insert, Table.get?_insert, ← hnext,
        if_congr (r.name_eq_iff hne (Nat.ne_of_gt h.gone)) rfl rfl, h.endpoints e hne]
    · show r.name (m.nextEndpoint + 1 + k) = m'.nextEndpoint + 1 + k
      rw [Nat.add_assoc, h.fresh, Nat.add_assoc]
  | event e =>
    cases e with
    | data endpoint payload => exact h.dispatch_data (fun heq => hi (congrArg some heq)) payload
    | state endpoint state => exact h.dispatch_state (fun heq => hi (congrArg some heq)) state
    | timer id => exact h.invoke (e := .timer id) nofun

/-- Whatever a server is told from now on, except over the endpoint that is gone, its image does
the same. -/
theorem foldl (h : Image r m m') {inputs : List Input} (hs : Silent r.gone inputs) :
    Onwards r m m' (inputs.foldl Input.apply m) ((inputs.map r.input).foldl Input.apply m') := by
  induction inputs generalizing m m' with
  | nil => exact h.refl_onwards
  | cons i rest ih =>
    have hfirst := h.apply (hs i List.mem_cons_self)
    exact hfirst.trans (ih hfirst.image fun j hj => hs j (List.mem_cons_of_mem i hj))

end Image

end LeaseLock.Server
