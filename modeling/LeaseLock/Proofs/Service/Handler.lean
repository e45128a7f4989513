import LeaseLock.Proofs.Service.Work

/-
  LeaseLock: what the lock service does with an event.
  A frame renews the lease of the session that its connection is bound to, and asks for at most one
  operation (`State.asked?`) that can take locks or places in a queue from anybody.  Its sender is
  answered at most once, under the id of the frame (`Handles`).  `does_onFrame` says so of every
  frame; `does_onFrame_of_bound` says which operations a frame comes to whose session has its
  lease.  A timer looks for lapsed leases at most (`worked_timer`).
-/

namespace LeaseLock

open Reactor Coordinator

namespace Coordinator.Operation

variable {ρ : Type} {op : Operation ρ}

/-- An operation that takes nothing from anybody and asks for no lock. -/
def Harmless : Operation ρ → Prop
  | .createSession _ => True
  | .renew _ _ => True
  | .openHandle _ _ => True
  | _ => False

theorem Harmless.reply? (ho : op.Harmless) : op.reply? = none := by
  cases op <;> first | rfl | cases ho

theorem Harmless.request? (ho : op.Harmless) : op.request? = none := by
  cases op <;> first | rfl | cases ho

theorem harmless_renew (session now : Nat) :
    ∀ op ∈ [Operation.renew (ρ := ρ) session now], op.Harmless := by
  intro op hm
  rw [List.mem_singleton.1 hm]
  trivial

theorem Harmless.not_actsOn (ho : op.Harmless) (s : State ρ) (session handle : Nat) :
    ¬ s.ActsOn op session handle := by
  rintro (ht | ⟨now, o, rfl, -⟩)
  · cases op <;> first | exact ho | exact ht
  · exact ho

end Coordinator.Operation

namespace Service

variable {α : Type} {m m' : Server.Loop} {ops : List (Operation ReplyTo)}
  {own : List (Nat × Wire.Response)} {r : Except Crash α} {dest : ReplyTo} {session : Nat}

/-! ## What is asked for -/

/-- The operation that a command for a session comes to. -/
def operation? (dest : ReplyTo) (session : Nat) : Wire.Command → Option (Operation ReplyTo)
  | .open name => some (.openHandle session name)
  | .close handle => some (.closeHandle session handle.toNat)
  | .lock payload => some (.dispatch session payload dest)
  | .release handle => some (.release session handle.toNat)
  | .cancelLock handle => some (.cancel session handle.toNat)
  | .closeSession => some (.closeSession session)
  | _ => none

/-- Where the response to a frame goes; one that cannot be read is answered under the id zero. -/
def origin (endpoint : Nat) (payload : Bytes) : ReplyTo :=
  match Wire.Request.decode payload with
  | .ok request => ⟨endpoint, request.id⟩
  | .error _ => ⟨endpoint, 0⟩

theorem endpoint_origin (endpoint : Nat) (payload : Bytes) :
    (origin endpoint payload).endpoint = endpoint := by
  unfold origin
  cases Wire.Request.decode payload <;> rfl

theorem origin_encode (endpoint : Nat) (r : Wire.Request) :
    origin endpoint r.encode = ⟨endpoint, r.id⟩ := by
  unfold origin
  rw [Wire.Request.decode_encode]

/-- The command in a frame. -/
def command? (payload : Bytes) : Option Wire.Command :=
  match Wire.Request.decode payload with
  | .ok request => (Wire.Command.decode request.command request.body).toOption.join
  | .error _ => none

theorem command?_encode {r : Wire.Request} {c : Wire.Command}
    (hc : Wire.Command.decode r.command r.body = .ok (some c)) : command? r.encode = some c := by
  unfold command?
  rw [Wire.Request.decode_encode]
  exact congrArg (fun r : Except Fault (Option Wire.Command) => r.toOption.join) hc

/-- The operation that a frame asks for if its connection is bound to this session. -/
def asks (endpoint session : Nat) (payload : Bytes) : Option (Operation ReplyTo) :=
  (command? payload).bind fun command => operation? (origin endpoint payload) session command

/-- The operation that a frame asks for on behalf of the session that its connection is bound
to. -/
def State.asked? (s : State) (endpoint : Nat) (payload : Bytes) : Option (Operation ReplyTo) :=
  (s.sessionFor endpoint).bind fun session => asks endpoint session payload

/-- What is done in the name of the sender of a request: operations that are harmless, or the one
that is asked for.  There is at most one answer, and it is his. -/
structure Handles (dest : ReplyTo) (asked : Option (Operation ReplyTo))
    (ops : List (Operation ReplyTo)) (own : List (Nat × Wire.Response)) : Prop where
  licit : ∀ op ∈ ops, op.Harmless ∨ asked = some op
  addresses : (own.map address ++ ops.filterMap Operation.reply?).Sublist [dest]

/-- A program, started in the loop `m`, does something in the name of the sender of a request. -/
def Serves (dest : ReplyTo) (asked : Option (Operation ReplyTo)) (p : Activity Unit Unit α)
    (m : Server.Loop) : Prop :=
  ∃ ops own r, Does p m ops own r ∧ Handles dest asked ops own

namespace Serves

variable {β : Type} {asked : Option (Operation ReplyTo)} {p : Activity Unit Unit α}
  {f : α → Activity Unit Unit β}

/-- Nothing but a response is sent. -/
theorem of_response {response : Nat × Wire.Response} (hp : Does p m [] [response] r)
    (ha : address response = dest) : Serves dest asked p m := by
  refine ⟨_, _, r, hp, nofun, ?_⟩
  rw [List.map_singleton, ha]
  exact .refl _

/-- Harmless operations come first. -/
theorem bind {a : α} (hp : Does p m ops [] (.ok a)) (hops : ∀ op ∈ ops, op.Harmless)
    (hf : ∀ m', Work m ops [] m' → Serves dest asked (f a) m') :
    Serves dest asked (p >>= f) m := by
  obtain ⟨m₁, hrun, hw⟩ := hp
  obtain ⟨ops', own, r, ⟨m₂, hrun', hw'⟩, hlicit, haddresses⟩ := hf m₁ hw
  refine ⟨_, _, r, ⟨m₂, (Machine.run_bind_of_ok f hrun).trans hrun', hw.trans hw'⟩, ?_, ?_⟩
  · intro op hm
    rcases List.mem_append.1 hm with hm | hm
    · exact .inl (hops op hm)
    · exact hlicit op hm
  · rw [List.filterMap_append, List.filterMap_eq_nil_iff.2 fun op hm => (hops op hm).reply?]
    exact haddresses

/-- Harmless operations, and then a crash. -/
theorem bind_error {c : Crash} (hp : Does p m ops [] (.error c))
    (hops : ∀ op ∈ ops, op.Harmless) : Serves dest asked (p >>= f) m := by
  refine ⟨_, _, _, hp.bind_error, fun op hm => .inl (hops op hm), ?_⟩
  rw [List.filterMap_eq_nil_iff.2 fun op hm => (hops op hm).reply?]
  exact List.nil_sublist _

theorem of_none (hs : Serves dest none p m) : Serves dest asked p m := by
  obtain ⟨ops, own, r, hp, hh⟩ := hs
  exact ⟨ops, own, r, hp, fun op hm => (hh.licit op hm).imp_right nofun, hh.addresses⟩

end Serves

/-! ## Responses -/

theorem does_respond (dest : ReplyTo) (body : Bytes) (m : Server.Loop) :
    Does (respond dest body) m [] [(dest.endpoint, ⟨dest.id, Wire.Response.statusOk, body⟩)]
      (.ok ()) := does_sendResponse _ _ m

/-- However an operation went, its sender is told once. -/
theorem does_report (dest : ReplyTo) (result : Except Fault Bytes) (m : Server.Loop) :
    ∃ response, address response = dest ∧ Does (report dest result) m [] [response] (.ok ()) := by
  cases result with
  | ok body => exact ⟨_, rfl, does_respond dest body m⟩
  | error fault => exact ⟨_, rfl, does_sendResponse _ _ m⟩

theorem serves_reject (dest : ReplyTo) (asked : Option (Operation ReplyTo)) (code : FaultCode)
    (message : String) (m : Server.Loop) : Serves dest asked (reject dest code message) m :=
  .of_response (does_sendResponse _ _ m) rfl

/-- The operation that is asked for is carried out, and its sender is told how it went. -/
theorem does_operate_report (dest : ReplyTo) (op : Operation ReplyTo)
    {f : Coordinator.State ReplyTo → Except Fault Unit × Turn ReplyTo} (m : Server.Loop)
    (hf : (f m.world.coordinator).2 = (m.world.coordinator.perform op).2) :
    ∃ response, address response = dest ∧
      Does (operate f >>= fun r => report dest (r.map fun _ => [])) m [op] [response] (.ok ()) := by
  obtain ⟨m₁, hrun, hw⟩ := does_operate op m hf
  obtain ⟨response, ha, hreport⟩ :=
    does_report dest (((f m.world.coordinator).1).map fun _ => []) m₁
  obtain ⟨m₂, hrun', hw'⟩ := hreport
  exact ⟨response, ha, m₂, (Machine.run_bind_of_ok _ hrun).trans hrun', hw.trans hw'⟩

/-- An operation that is asked for, and a response. -/
theorem Serves.of_operation {op : Operation ReplyTo} {p : Activity Unit Unit α}
    (hop : op.reply? = none)
    (hp : ∃ response, address response = dest ∧ Does p m [op] [response] r) :
    Serves dest (some op) p m := by
  obtain ⟨response, ha, hp⟩ := hp
  refine ⟨_, _, r, hp, fun op' hm => .inr (congrArg some (List.mem_singleton.1 hm).symm), ?_⟩
  rw [List.map_singleton, ha, List.filterMap_cons, hop]
  exact .refl _

/-! ## Leases -/

/-- How a renewal goes on. -/
def renewal : Except Failure Nat → Except Crash (Except Fault Unit)
  | .ok _ => .ok (.ok ())
  | .error (.refused fault) => .ok (.error fault)
  | .error (.crashed c) => .error c

theorem does_renew (session : Nat) (m : Server.Loop) :
    Does (renew session) m [.renew session m.clock] []
      (renewal (m.world.coordinator.renew session m.clock).1) := by
  refine (does_now m).bind_first fun m₁ hw => ?_
  have hc := does_consult (.renew session m.clock) (f := fun s => s.renew session m.clock) m₁ rfl
  rw [hw.coordinator_eq] at hc
  refine hc.bind_last fun m₂ _ => ?_
  cases (m.world.coordinator.renew session m.clock).1 with
  | ok expiry => exact .pure _ m₂
  | error failure =>
    cases failure with
    | refused fault => exact .pure _ m₂
    | crashed c => exact .crash c m₂

theorem does_createSession (m : Server.Loop) :
    Does createSession m [.createSession m.clock] []
      (m.world.coordinator.createSession m.clock).1 := by
  refine (does_now m).bind_first fun m₁ hw => ?_
  have hc := does_consult (.createSession m.clock) (f := fun s => s.createSession m.clock) m₁ rfl
  rw [hw.coordinator_eq] at hc
  refine hc.bind_last fun m₂ _ => ?_
  cases (m.world.coordinator.createSession m.clock).1 with
  | ok id => exact .pure id m₂
  | error c => exact .crash c m₂

/-! ## Commands -/

theorem serves_openSession (dest : ReplyTo) (session : Option Nat) (m : Server.Loop) :
    Serves dest none (execute dest session .openSession) m := by
  have hharmless : ∀ op ∈ [Operation.createSession (ρ := ReplyTo) m.clock], op.Harmless := by
    intro op hm
    rw [List.mem_singleton.1 hm]
    trivial
  have hcreate := does_createSession m
  cases hr : (m.world.coordinator.createSession m.clock).1 with
  | error c =>
    rw [hr] at hcreate
    exact .bind_error hcreate hharmless
  | ok id =>
    rw [hr] at hcreate
    refine .bind hcreate hharmless fun m₁ _ => ?_
    refine .bind (does_change (fun s => s.bind dest.endpoint id) m₁ rfl) nofun fun m₂ _ => ?_
    refine .bind (does_world m₂) nofun fun m₃ _ => ?_
    exact .of_response (does_respond dest _ m₃) rfl

theorem serves_attachSession (dest : ReplyTo) (session : Option Nat) (id : UInt64)
    (m : Server.Loop) : Serves dest none (execute dest session (.attachSession id)) m := by
  have hharmless := Operation.harmless_renew (ρ := ReplyTo) id.toNat m.clock
  have hrenew := does_renew id.toNat m
  cases hr : renewal (m.world.coordinator.renew id.toNat m.clock).1 with
  | error c =>
    rw [hr] at hrenew
    exact .bind_error hrenew hharmless
  | ok result =>
    rw [hr] at hrenew
    refine .bind hrenew hharmless fun m₁ _ => ?_
    cases result with
    | ok _ =>
      refine .bind (does_change (fun s => s.bind dest.endpoint id.toNat) m₁ rfl) nofun
        fun m₂ _ => ?_
      exact .of_response (does_respond dest _ m₂) rfl
    | error fault => exact serves_reject dest none _ _ m₁

theorem does_executeFor_lock (dest : ReplyTo) (session : Nat) (payload : Bytes)
    (m : Server.Loop) :
    Does (executeFor dest session (.lock payload)) m [.dispatch session payload dest] []
      (.ok ()) :=
  (does_operate (.dispatch session payload dest)
    (f := fun s => s.dispatch session payload dest) m rfl).bind_last fun m' _ => .pure () m'

theorem does_executeFor_cancel (dest : ReplyTo) (session : Nat) (handle : UInt64)
    (m : Server.Loop) :
    Does (executeFor dest session (.cancelLock handle)) m [.cancel session handle.toNat]
      [(dest.endpoint, ⟨dest.id, Wire.Response.statusOk,
        [if (m.world.coordinator.cancel session handle.toNat).1 then 1 else 0]⟩)] (.ok ()) :=
  (does_operate (.cancel session handle.toNat)
    (f := fun s => s.cancel session handle.toNat) m rfl).bind fun m' _ => does_respond dest _ m'

theorem does_executeFor_release (dest : ReplyTo) (session : Nat) (handle : UInt64)
    (m : Server.Loop) :
    ∃ response, address response = dest ∧
      Does (executeFor dest session (.release handle)) m [.release session handle.toNat]
        [response] (.ok ()) :=
  does_operate_report dest (.release session handle.toNat) m rfl

theorem serves_executeFor (dest : ReplyTo) (session : Nat) (command : Wire.Command)
    (m : Server.Loop) :
    Serves dest (operation? dest session command) (executeFor dest session command) m := by
  have hrespond : Serves dest none (respond dest []) m := .of_response (does_respond dest [] m) rfl
  cases command with
  | «open» name =>
    have hconsult := does_consult (.openHandle session name)
      (f := fun s => s.openHandle session name) m rfl
    refine .bind hconsult ?_ fun m₁ _ => ?_
    · intro op hm
      rw [List.mem_singleton.1 hm]
      trivial
    · obtain ⟨response, ha, hreport⟩ := does_report dest
        ((m.world.coordinator.openHandle session name).1.map fun handle =>
          encodeU64 (UInt64.ofNat handle)) m₁
      exact .of_response hreport ha
  | close handle =>
    exact .of_operation rfl (does_operate_report dest (.closeHandle session handle.toNat) m rfl)
  | lock payload =>
    refine ⟨_, _, _, does_executeFor_lock dest session payload m, ?_, .refl _⟩
    exact fun op hm => .inr (congrArg some (List.mem_singleton.1 hm).symm)
  | release handle =>
    exact .of_operation rfl (does_executeFor_release dest session handle m)
  | cancelLock handle =>
    exact .of_operation rfl ⟨_, rfl, does_executeFor_cancel dest session handle m⟩
  | closeSession =>
    obtain ⟨m₁, hrun, hw⟩ := does_change (fun s => s.unbind dest.endpoint) m rfl
    obtain ⟨response, ha, m₂, hrun', hw'⟩ :=
      does_operate_report dest (.closeSession session) (f := fun s => s.closeSession session) m₁ rfl
    exact .of_operation rfl
      ⟨response, ha, m₂, (Machine.run_bind_of_ok _ hrun).trans hrun', hw.trans hw'⟩
  | openSession => exact hrespond
  | attachSession id => exact hrespond
  | keepAlive => exact hrespond
  | stats => exact hrespond

theorem serves_stats (dest : ReplyTo) (session : Option Nat) (m : Server.Loop) :
    Serves dest none (execute dest session .stats) m :=
  .bind (does_world m) nofun fun m₁ _ => .of_response (does_respond dest _ m₁) rfl

theorem serves_execute (dest : ReplyTo) (session : Option Nat) (command : Wire.Command)
    (m : Server.Loop) : Serves dest (session.bind fun session => operation? dest session command)
      (execute dest session command) m := by
  have hfor := fun session => serves_executeFor dest session command m
  cases command with
  | openSession => exact (serves_openSession dest session m).of_none
  | attachSession id => exact (serves_attachSession dest session id m).of_none
  | stats => exact (serves_stats dest session m).of_none
  | _ =>
    cases session with
    | none => exact serves_reject dest _ _ _ m
    | some session => exact hfor session

/-- What a command is served depends on what it is served for a session whose lease can be
renewed. -/
theorem serves_onCommand_of {asked : Option (Operation ReplyTo)} {command : Wire.Command}
    (hfor : ∀ session, m.world.sessionFor dest.endpoint = some session →
      renewal (m.world.coordinator.renew session m.clock).1 = .ok (.ok ()) →
        ∀ m', Serves dest asked (execute dest (some session) command) m') :
    Serves dest asked (onCommand dest command) m := by
  refine .bind (does_world m) nofun fun m₁ hw => ?_
  cases hs : m.world.sessionFor dest.endpoint with
  | none => exact (serves_execute dest none command m₁).of_none
  | some session =>
    have hharmless := Operation.harmless_renew (ρ := ReplyTo) session m.clock
    have hrenew := does_renew session m₁
    rw [hw.coordinator_eq, hw.clock] at hrenew
    cases hr : renewal (m.world.coordinator.renew session m.clock).1 with
    | error c =>
      rw [hr] at hrenew
      exact .bind_error hrenew hharmless
    | ok result =>
      rw [hr] at hrenew
      refine .bind hrenew hharmless fun m₂ _ => ?_
      cases result with
      | ok _ => exact hfor session hs hr m₂
      | error fault =>
        refine .bind (does_change (fun s => s.unbind dest.endpoint) m₂ rfl) nofun fun m₃ _ => ?_
        show Serves dest _ (if command.needsSession then _ else _) m₃
        split
        · exact serves_reject dest _ _ _ m₃
        · exact (serves_execute dest none command m₃).of_none

theorem serves_onCommand (dest : ReplyTo) (command : Wire.Command) (m : Server.Loop) :
    Serves dest ((m.world.sessionFor dest.endpoint).bind fun session =>
      operation? dest session command) (onCommand dest command) m :=
  serves_onCommand_of fun session hs _ m' => hs ▸ serves_execute dest (some session) command m'

/-! ## Frames -/

/-- What a frame is served is what its command is served. -/
theorem serves_onFrame_of {asked : Option (Operation ReplyTo)} {endpoint : Nat} {payload : Bytes}
    (hcommand : ∀ command, command? payload = some command →
      Serves (origin endpoint payload) asked (onCommand (origin endpoint payload) command) m) :
    Serves (origin endpoint payload) asked (onFrame endpoint payload) m := by
  unfold onFrame
  unfold origin command? at *
  cases hd : Wire.Request.decode payload with
  | error fault => exact serves_reject _ _ _ _ m
  | ok request =>
    rw [hd] at hcommand
    dsimp only at hcommand ⊢
    cases hc : Wire.Command.decode request.command request.body with
    | error fault => exact serves_reject _ _ _ _ m
    | ok command =>
      cases command with
      | none => exact serves_reject _ _ _ _ m
      | some command =>
        rw [hc] at hcommand
        exact hcommand command rfl

/-- A frame brings about what its sender asks for, at most. -/
theorem serves_onFrame (endpoint : Nat) (payload : Bytes) (m : Server.Loop) :
    Serves (origin endpoint payload) (m.world.asked? endpoint payload) (onFrame endpoint payload)
      m := by
  refine serves_onFrame_of fun command hc => ?_
  unfold State.asked? asks
  have hserves := serves_onCommand (origin endpoint payload) command m
  rw [endpoint_origin] at hserves
  rw [hc]
  exact hserves

/-- A session is registered, and its lease has not ended. -/
def Leased (s : Coordinator.State ReplyTo) (session now : Nat) : Prop :=
  ∃ o, s.sessions.get? session = some o ∧ o.lapsed now = false

instance (s : Coordinator.State ReplyTo) (session now : Nat) : Decidable (Leased s session now) :=
  inferInstanceAs (Decidable (∃ o ∈ s.sessions.get? session, o.lapsed now = false))

/-- The lease of such a session can be renewed, unless the clock cannot name its end. -/
theorem renewal_of_leased {s : Coordinator.State ReplyTo} {now : Nat} (hl : Leased s session now) :
    renewal (s.renew session now).1 = .ok (.ok ()) ∨
      ∃ c, renewal (s.renew session now).1 = .error c := by
  obtain ⟨o, ho, hlapsed⟩ := hl
  unfold Coordinator.State.renew Sessions.renew
  rw [ho]
  dsimp only
  rw [if_neg (ne_true_of_eq_false hlapsed)]
  cases Time.add? now s.sessions.lease with
  | some expiry => exact .inl rfl
  | none => exact .inr ⟨_, rfl⟩

theorem execute_of_needsSession {command : Wire.Command} (hc : command.needsSession = true) :
    (execute dest (some session) command : Activity Unit Unit Unit) =
      executeFor dest session command := by
  cases command <;> first | rfl | cases hc

/-- A frame comes over a connection that is bound to a session, which has its lease: the lease is
renewed, and unless that crashes the command is carried out. -/
theorem run_onFrame_of_bound {endpoint : Nat} {payload : Bytes} {request : Wire.Request}
    {command : Wire.Command} (hd : Wire.Request.decode payload = .ok request)
    (hc : Wire.Command.decode request.command request.body = .ok (some command))
    (hneeds : command.needsSession = true) (hs : m.world.sessionFor endpoint = some session)
    (hl : Leased m.world.coordinator session m.clock) :
    (∃ c, Does (onFrame endpoint payload) m [.renew session m.clock] [] (.error c)) ∨
      ∃ m₁, Work m [.renew session m.clock] [] m₁ ∧
        m.run Server.wiring (onFrame endpoint payload) =
          m₁.run Server.wiring (executeFor ⟨endpoint, request.id⟩ session command) := by
  have hframe : (onFrame endpoint payload : Activity Unit Unit Unit) =
      onCommand ⟨endpoint, request.id⟩ command := by
    unfold onFrame
    rw [hd]
    dsimp only
    rw [hc]
  rw [hframe]
  unfold onCommand
  obtain ⟨m₁, hrun₁, hw₁⟩ := does_world m
  have hrenew := does_renew session m₁
  have hl₁ : Leased m₁.world.coordinator session m₁.clock := by
    rw [hw₁.coordinator_eq, hw₁.clock]
    exact hl
  rw [Machine.run_bind_of_ok _ hrun₁, hs]
  rw [hw₁.clock] at hrenew hl₁
  rcases renewal_of_leased hl₁ with hok | ⟨c, herror⟩
  · rw [hok] at hrenew
    obtain ⟨m₂, hrun₂, hw₂⟩ := hrenew
    refine .inr ⟨m₂, hw₁.trans hw₂, ?_⟩
    rw [← execute_of_needsSession hneeds]
    exact Machine.run_bind_of_ok _ hrun₂
  · rw [herror] at hrenew
    obtain ⟨m₂, hrun₂, hw₂⟩ := hrenew
    refine .inl ⟨c, m₂, ?_, hw₁.trans hw₂⟩
    rw [Machine.run_bind_of_ok _ hrun₁, hs]
    exact Machine.run_bind_of_error _ hrun₂

/-! ## Timers and states -/

/-- A connection that has ended loses its binding: that is no concern of the coordinator. -/
theorem does_state (endpoint : Nat) (state : LinkState) (m : Server.Loop) :
    Does (handle () (.state endpoint state)) m [] [] (.ok ()) := by
  unfold handle
  dsimp only
  split
  · exact does_change (fun s => s.unbind endpoint) m rfl
  · exact .pure () m

theorem does_scheduleSweep (m : Server.Loop) : ∃ r, Does (scheduleSweep ()) m [] [] r := by
  refine Does.bind_any ⟨_, does_world m⟩ fun s m₁ _ => ?_
  refine Does.bind_any (Does.bind_any ⟨_, does_now m₁⟩ fun t m₂ _ => ?_) fun timer m₃ _ =>
    ⟨_, does_change _ m₃ rfl⟩
  cases Time.add? t s.sweepInterval with
  | some deadline =>
    obtain ⟨id, hs⟩ := m₂.run_schedule (w := Server.wiring) deadline ()
    exact ⟨.ok id, .of_traced hs⟩
  | none => exact ⟨_, .crash _ m₂⟩

theorem does_sweep (m : Server.Loop) : ∃ r, Does (sweep ()) m [.expire m.clock] [] r := by
  have hexpire : ∀ m₁ : Server.Loop, ∃ r, Does (expireSessions m.clock) m₁ [.expire m.clock] [] r :=
    fun m₁ => Does.bind_any
      ⟨_, does_operate (.expire m.clock) (f := fun s => s.expire m.clock) m₁ rfl⟩
      fun expired m₂ _ => Does.bind_any ⟨_, does_change _ m₂ rfl⟩
        fun _ m₃ _ => ⟨_, .pure expired m₃⟩
  obtain ⟨m₁, hrun, hw⟩ := does_now m
  obtain ⟨r, m₂, hrun', hw'⟩ : ∃ r, Does (expireSessions m.clock >>= fun _ => scheduleSweep ()) m₁
      [.expire m.clock] [] r := Does.bind_any (hexpire m₁) fun _ m₂ _ => does_scheduleSweep m₂
  exact ⟨r, m₂, (Machine.run_bind_of_ok _ hrun).trans hrun', hw.trans hw'⟩

/-- A timer looks for leases that have ended, unless it is an old one. -/
theorem does_timer (id : Nat) (m : Server.Loop) :
    ∃ ops r, Does (handle () (.timer id)) m ops [] r ∧ (ops = [] ∨ ops = [.expire m.clock]) := by
  obtain ⟨m₁, hrun, hw⟩ := does_world m
  cases ht : m.world.sweepTimer == some id with
  | true =>
    obtain ⟨r, m₂, hrun', hw'⟩ := does_sweep m₁
    rw [hw.clock] at hw'
    refine ⟨_, r, ⟨m₂, (Machine.run_bind_of_ok _ hrun).trans ?_, hw.trans hw'⟩, .inr rfl⟩
    rw [ht]
    exact hrun'
  | false =>
    refine ⟨_, .ok (), ⟨m₁, (Machine.run_bind_of_ok _ hrun).trans ?_, hw⟩, .inl rfl⟩
    rw [ht]
    rfl

/-! ## Events -/

theorem work_invoke {handler : Unit} {event : Event} {r : Except Crash Unit}
    (hp : Does (handle handler event) (m.record (.invoked handler event)) ops own r) :
    Work m ops own (m.invoke Server.wiring handler event) := by
  obtain ⟨m', hrun, hw⟩ := hp
  have hm : m.invoke Server.wiring handler event = m' := congrArg Prod.snd hrun
  have hrecord : Work m [] [] (m.record (.invoked handler event)) :=
    .of_same rfl (fun _ _ hx => hx) rfl rfl rfl
  rw [hm]
  exact hrecord.trans hw

/-- A frame is handed over, unless its endpoint is gone. -/
theorem worked_data (endpoint : Nat) (payload : Bytes) (m : Server.Loop) :
    ∃ ops own, Work m ops own (m.dispatch Server.wiring (.data endpoint payload)) ∧
      Handles (origin endpoint payload) (m.world.asked? endpoint payload) ops own := by
  unfold Machine.dispatch
  dsimp only
  cases m.endpoints.get? endpoint with
  | none => exact ⟨[], [], .of_same rfl (fun _ _ hx => hx) rfl rfl rfl, nofun, List.nil_sublist _⟩
  | some e =>
    obtain ⟨ops, own, r, hp, hh⟩ := serves_onFrame endpoint payload
      (m.record (.invoked e.handler (.data endpoint payload)))
    exact ⟨ops, own, work_invoke hp, hh⟩

/-- A frame comes over a connection that is bound to a session, which has its lease: unless the
frame is dropped or the renewal crashes, the command is carried out. -/
theorem worked_bound {endpoint : Nat} {request : Wire.Request} {command : Wire.Command}
    {op : Operation ReplyTo}
    (Own : Coordinator.State ReplyTo → List (Nat × Wire.Response) → Prop)
    (hc : Wire.Command.decode request.command request.body = .ok (some command))
    (hneeds : command.needsSession = true) (hs : m.world.sessionFor endpoint = some session)
    (hl : Leased m.world.coordinator session m.clock)
    (hdoes : ∀ m : Server.Loop, ∃ own r,
      Does (executeFor ⟨endpoint, request.id⟩ session command) m [op] own r ∧
        Own m.world.coordinator own) :
    (∃ ops : List (Operation ReplyTo), (∀ op ∈ ops, op.Harmless) ∧
      Work m ops [] (m.dispatch Server.wiring (.data endpoint request.encode))) ∨
    ∃ own, Own (m.world.coordinator.after [.renew session m.clock]) own ∧
      Work m [.renew session m.clock, op] own
        (m.dispatch Server.wiring (.data endpoint request.encode)) := by
  unfold Machine.dispatch
  dsimp only
  cases m.endpoints.get? endpoint with
  | none => exact .inl ⟨[], nofun, .of_same rfl (fun _ _ hx => hx) rfl rfl rfl⟩
  | some e =>
    dsimp only
    rcases run_onFrame_of_bound (m := m.record (.invoked e.handler (.data endpoint request.encode)))
      (Wire.Request.decode_encode request) hc hneeds hs hl with ⟨c, hcrash⟩ | ⟨m₁, hw, hrun⟩
    · exact .inl ⟨_, Operation.harmless_renew session _, work_invoke hcrash⟩
    · obtain ⟨own, r, ⟨m₂, hrun', hw'⟩, hown⟩ := hdoes m₁
      rw [hw.coordinator] at hown
      exact .inr ⟨own, hown, work_invoke ⟨m₂, hrun.trans hrun', hw.trans hw'⟩⟩

theorem worked_state (endpoint : Nat) (state : LinkState) (m : Server.Loop) :
    Work m [] [] (m.dispatch Server.wiring (.state endpoint state)) := by
  unfold Machine.dispatch
  dsimp only
  cases m.endpoints.get? endpoint with
  | none => exact .of_same rfl (fun _ _ hx => hx) rfl rfl rfl
  | some e =>
    have herased : Work m [] [] { m with endpoints := m.endpoints.erase endpoint } := by
      refine .of_same rfl (fun j x hx => ?_) rfl rfl rfl
      rw [Table.get?_erase] at hx
      split at hx
      · cases hx
      · exact hx
    dsimp only
    split
    · exact herased.trans (work_invoke (does_state endpoint state _))
    · exact work_invoke (does_state endpoint state _)

theorem worked_timer (id : Nat) (m : Server.Loop) :
    ∃ ops, Work m ops [] (m.invoke Server.wiring () (.timer id)) ∧
      (ops = [] ∨ ops = [.expire m.clock]) := by
  obtain ⟨ops, r, hp, hops⟩ := does_timer id (m.record (.invoked () (.timer id)))
  exact ⟨ops, work_invoke hp, hops⟩

end Service

end LeaseLock
