import LeaseLock.Proofs.Coordinator.Brevity
import LeaseLock.Proofs.Coordinator.Listing
import LeaseLock.Proofs.Service.Binding
import LeaseLock.Server
import Mathlib.Algebra.Group.Action.Defs
import Mathlib.Data.List.Nodup

/-
  LeaseLock: how long the frames are that the service sends.
  As long as ids have 64 bits, every response is short (`brief_responses`), except for the
  statistics.  So what the service hands over to be sent because of an event is short or the
  statistics (`Said`), and only statistics can be too long for a frame (`Said.oversized_iff`).  They
  are when enough long names are open: whatever different names fit into requests can be opened one
  after another (`Attended.open_names`), and the statistics list them all.
-/

namespace LeaseLock.Service

open Reactor Coordinator

variable {κ η τ : Type} {w : Wiring κ η State τ LockEvent} {m : Loop κ η τ}

/-! ## Responses -/

theorem brief_verdict_ok (dest : ReplyTo) {body : Bytes} (h : body.length ≤ 504) :
    (verdict dest (.ok body)).2.Brief := Wire.Response.brief_of_body h

theorem brief_verdict_error (dest : ReplyTo) {fault : Fault} (h : fault.Brief) :
    (verdict dest (.error fault)).2.Brief :=
  Wire.Response.brief_error _ _ (h.trans (by decide))

/-- The report on an operation is brief. -/
theorem brief_verdict {α : Type} (dest : ReplyTo) {result : Except Fault α} {body : α → Bytes}
    (hbody : ∀ a, (body a).length ≤ 504)
    (hfault : ∀ fault, result = .error fault → fault.Brief) :
    (verdict dest (result.map body)).2.Brief := by
  cases result with
  | ok a => exact brief_verdict_ok dest (hbody a)
  | error fault => exact brief_verdict_error dest (hfault fault rfl)

theorem brief_verdicts (dest : ReplyTo) {session : Nat} (hsession : session < 2 ^ 64)
    (s : Coordinator.State ReplyTo) (c : Wire.Command) :
    ∀ p ∈ verdicts dest session s c, p.2.Brief := by
  intro p hm
  cases c with
  | «open» name =>
    obtain rfl := List.mem_singleton.1 hm
    refine brief_verdict dest (fun handle => ?_) fun fault h => ?_
    · rw [length_encodeU64]
      decide
    · rw [State.refused_openHandle h]
      exact Fault.brief_sessionExpired hsession
  | close handle =>
    obtain rfl := List.mem_singleton.1 hm
    exact brief_verdict dest (fun _ => Nat.zero_le _) fun fault h =>
      (State.concerns_closeHandle h).brief hsession handle.toNat_lt
  | lock payload => cases hm
  | release handle =>
    obtain rfl := List.mem_singleton.1 hm
    exact brief_verdict dest (fun _ => Nat.zero_le _) fun fault h =>
      (State.concerns_release h).brief hsession handle.toNat_lt
  | cancelLock handle =>
    obtain rfl := List.mem_singleton.1 hm
    exact brief_verdict_ok dest (show 1 ≤ 504 by decide)
  | closeSession =>
    obtain rfl := List.mem_singleton.1 hm
    refine brief_verdict dest (fun _ => Nat.zero_le _) fun fault h => ?_
    rw [State.refused_closeSession h]
    exact Fault.brief_sessionExpired hsession
  | openSession | attachSession | keepAlive | stats =>
    obtain rfl := List.mem_singleton.1 hm
    exact brief_verdict_ok dest (Nat.zero_le _)

theorem brief_sessionless (dest : ReplyTo) : (sessionless dest).2.Brief :=
  Wire.Response.brief_error _ _ (by decide)

/-- All responses but the statistics are brief. -/
theorem brief_responses (s : State) (dest : ReplyTo) {session : Option Nat}
    (hsession : ∀ id, session = some id → id < 2 ^ 64) (now : Nat) {c : Wire.Command}
    (hc : c ≠ .stats) : ∀ p ∈ s.responses dest session now c, p.2.Brief := by
  intro p hm
  have hverdicts : ∀ id, session = some id → ∀ p ∈ verdicts dest id s.coordinator c, p.2.Brief :=
    fun id hid => brief_verdicts dest (hsession id hid) s.coordinator c
  cases c with
  | openSession =>
    obtain rfl := List.mem_singleton.1 hm
    refine brief_verdict_ok dest ?_
    rw [Wire.SessionGrant.encode, List.length_append, length_encodeU64, length_encodeU64]
    decide
  | attachSession id =>
    obtain rfl := List.mem_singleton.1 hm
    split
    · exact brief_verdict_ok dest (Nat.zero_le _)
    · exact brief_verdict_error dest (Fault.brief_sessionExpired id.toNat_lt)
  | stats => exact absurd rfl hc
  | keepAlive | «open» | close | lock | release | cancelLock | closeSession =>
    cases session with
    | some id => exact hverdicts id rfl p hm
    | none =>
      obtain rfl := List.mem_singleton.1 hm
      exact brief_sessionless dest

/-- The refusal of a frame that holds no command is brief. -/
theorem brief_refusal (payload : Bytes) : (refusal payload).Brief := by
  unfold refusal
  cases hr : Wire.Request.decode payload with
  | error fault =>
    exact Wire.Response.brief_error _ _ ((Wire.Request.brief_of_decode hr).trans (by decide))
  | ok request =>
    dsimp only
    cases hd : Wire.Command.decode request.command request.body with
    | error fault =>
      exact Wire.Response.brief_error _ _ ((Wire.Command.brief_of_decode hd).trans (by decide))
    | ok decoded =>
      have hlt : request.command.toNat < 2 ^ 64 := request.command.toNat_lt.trans (by decide)
      exact Wire.Response.brief_error _ _
        ((utf8ByteSize_behind "unknown command " hlt).trans (by decide))

/-! ## Answers -/

theorem brief_told {s : Coordinator.State ReplyTo} (hs : Coherent [] (fun _ _ => False) s)
    (hids : s.sessions.nextId ≤ 2 ^ 64) {op : Operation ReplyTo} (hop : op.Small) :
    ∀ p ∈ s.told [op], p.2.Brief := by
  intro p hm
  rw [Coordinator.State.told, Coordinator.State.told, List.append_nil] at hm
  exact Coordinator.State.brief_perform hs hids hop p hm

/-- The answers to the operations that a command comes to are brief. -/
theorem brief_steps {s : Coordinator.State ReplyTo} (hs : Coherent [] (fun _ _ => False) s)
    (hids : s.sessions.nextId ≤ 2 ^ 64) {session : Option Nat}
    (hsession : ∀ id, session = some id → id < 2 ^ 64) (now : Nat) (c : Wire.Command) :
    ∀ p ∈ s.told (steps dest session now c), p.2.Brief := by
  have hone : ∀ op : Operation ReplyTo, op.Small → ∀ p ∈ s.told [op], p.2.Brief :=
    fun op hop => brief_told hs hids hop
  cases c with
  | openSession => exact hone (.createSession now) trivial
  | attachSession id => exact hone (.renew id.toNat now) trivial
  | stats => nofun
  | keepAlive | «open» | close | lock | release | cancelLock | closeSession =>
    cases session with
    | none => nofun
    | some id => first | exact hone _ trivial | exact hone _ (hsession id rfl) | nofun

/-! ## Commands -/

/-- The response that reports the state of the coordinator. -/
def statistics (s : Coordinator.State ReplyTo) (dest : ReplyTo) : Nat × Wire.Response :=
  verdict dest (.ok (Utf8.encode s.snapshot.text))

/-- The longest frame of any other response. -/
def briefFrame : Nat := 512

/-- What is handed over to be sent because of a command. -/
structure Spoken (s : Coordinator.State ReplyTo) (dest : ReplyTo) (c : Wire.Command)
    (frames : List (Nat × Bytes)) : Prop where
  /-- Short frames. -/
  brief : c ≠ .stats → ∀ p ∈ frames, p.2.length ≤ briefFrame
  /-- The statistics. -/
  stats : c = .stats → frames = [frame (statistics s dest)]

theorem short_frames {answers : List (ReplyTo × Answer)} {own : List (Nat × Wire.Response)}
    (hanswers : ∀ p ∈ answers, p.2.Brief) (hown : ∀ p ∈ own, p.2.Brief) :
    ∀ p ∈ (answers.map posted ++ own).map frame, p.2.length ≤ briefFrame := by
  intro p hm
  obtain ⟨r, hr, rfl⟩ := List.mem_map.1 hm
  rcases List.mem_append.1 hr with hr | hr
  · obtain ⟨q, hq, rfl⟩ := List.mem_map.1 hr
    exact hanswers q hq q.1.id
  · exact hown r hr

/-- A new lease leaves no trace in the statistics. -/
theorem snapshot_renew (s : Coordinator.State ReplyTo) (session now : Nat) :
    (s.renew session now).2.snapshot = s.snapshot := by
  have hsize : (s.sessions.renew session now).2.size = s.sessions.size := by
    unfold Sessions.renew
    split
    · rfl
    · rename_i o ho
      split
      · rfl
      · split
        · exact Table.size_insert_of_some ho _
        · rfl
  unfold Coordinator.State.snapshot
  exact congrArg (Snapshot.mk · _ _) hsize

/-- A command is carried out in a state that reports the same. -/
theorem spoken {s : Coordinator.State ReplyTo} (st : State)
    (hsame : st.coordinator.snapshot = s.snapshot)
    (hst : Coherent [] (fun _ _ => False) st.coordinator)
    (hids : st.coordinator.sessions.nextId ≤ 2 ^ 64) (dest : ReplyTo) {session : Option Nat}
    (hsession : ∀ id, session = some id → id < 2 ^ 64) (now : Nat) (c : Wire.Command) :
    Spoken s dest c (((st.coordinator.told (steps dest session now c)).map posted ++
      st.responses dest session now c).map frame) where
  brief hc := short_frames (brief_steps hst hids hsession now c)
    (brief_responses st dest hsession now hc)
  stats hc := by
    subst hc
    show [frame (verdict dest (.ok (Utf8.encode st.coordinator.snapshot.text)))] = _
    rw [hsame]
    rfl

theorem spoken_onCommand {g : Ledger} (h : Sound m g) (hm : Timely m)
    (hids : m.world.coordinator.sessions.nextId ≤ 2 ^ 64) (dest : ReplyTo) (c : Wire.Command) :
    ∃ m' frames, m.run w (onCommand dest c) = (.ok (), m') ∧ m'.sent = m.sent ++ frames ∧
      Spoken m.world.coordinator dest c frames := by
  have hnone : ∀ id : Nat, none = some id → id < 2 ^ 64 := nofun
  cases hs : m.world.sessionFor dest.endpoint with
  | none =>
    obtain ⟨m', hrun, hexact⟩ := performs_onCommand_of_unbound (w := w) dest c hm hs
    exact ⟨m', _, hrun, hexact.sent, spoken m.world rfl h.coherent hids dest hnone m.clock c⟩
  | some session =>
    have hsession : ∀ id, some session = some id → id < 2 ^ 64 := by
      rintro _ ⟨⟩
      exact (h.known _ _ ((congrFun h.bound _).symm.trans hs)).trans_le hids
    by_cases hl : Leased m.world.coordinator session m.clock
    · obtain ⟨m', hrun, hexact⟩ := performs_onCommand_of_leased (w := w) dest c hm hs hl
      have hrenewed : (m.world.renewed session m.clock).coordinator.sessions.nextId ≤ 2 ^ 64 :=
        (Sessions.nextId_renew (r := m.world.coordinator.sessions) m.clock).trans_le hids
      exact ⟨m', _, hrun, hexact.sent, spoken (m.world.renewed session m.clock)
        (snapshot_renew _ _ _) (h.coherent.after [.renew session m.clock]) hrenewed dest hsession
        m.clock c⟩
    · obtain ⟨m', hrun, hexact⟩ := performs_onCommand_of_lapsed (w := w) dest c hm hs hl
      refine ⟨m', _, hrun, hexact.sent, ?_⟩
      split
      · rename_i hneeds
        refine ⟨fun _ => short_frames (brief_steps h.coherent hids hnone _ c) fun p hp => ?_,
          fun hc => ?_⟩
        · obtain rfl := List.mem_singleton.1 hp
          exact brief_verdict_error dest (Fault.brief_sessionExpired (hsession session rfl))
        · subst hc
          cases hneeds
      · exact spoken (m.world.unbind dest.endpoint) rfl h.coherent hids dest hnone m.clock c

/-! ## Events -/

/-- What is handed over to be sent because of an event. -/
inductive Said (s : Coordinator.State ReplyTo) (e : Event) : List (Nat × Bytes) → Prop
  /-- Nobody has asked for statistics, and there are short frames only. -/
  | brief {frames : List (Nat × Bytes)}
    (unasked : ∀ endpoint payload, e = .data endpoint payload → command? payload ≠ some .stats)
    (short : ∀ p ∈ frames, p.2.length ≤ briefFrame) : Said s e frames
  /-- The statistics are sent to whoever has asked for them, and nothing else. -/
  | statistics (endpoint : Nat) (payload : Bytes) (event : e = .data endpoint payload)
    (asked : command? payload = some .stats) :
    Said s e [frame (statistics s (origin endpoint payload))]

theorem said_data {g : Ledger} (h : Sound m g) (hm : Timely m)
    (hids : m.world.coordinator.sessions.nextId ≤ 2 ^ 64) (endpoint : Nat) (payload : Bytes) :
    ∃ frames, (m.run w (onFrame endpoint payload)).2.sent = m.sent ++ frames ∧
      Said m.world.coordinator (.data endpoint payload) frames := by
  cases hc : command? payload with
  | none =>
    obtain ⟨m', hrun, hexact⟩ := performs_refusal (w := w) endpoint m hc
    rw [hrun]
    refine ⟨_, hexact.sent, .brief ?_ ?_⟩
    · rintro _ _ ⟨⟩
      rw [hc]
      nofun
    · have hnobody : ∀ p ∈ ([] : List (ReplyTo × Answer)), p.2.Brief := nofun
      refine short_frames hnobody fun p hp => ?_
      obtain rfl := List.mem_singleton.1 hp
      exact brief_refusal payload
  | some c =>
    rw [onFrame_of_command hc]
    obtain ⟨m', frames, hrun, hsent, hspoken⟩ :=
      spoken_onCommand (w := w) h hm hids (origin endpoint payload) c
    rw [hrun]
    refine ⟨frames, hsent, ?_⟩
    by_cases hstats : c = .stats
    · subst hstats
      rw [hspoken.stats rfl]
      exact .statistics endpoint payload rfl hc
    · refine .brief ?_ (hspoken.brief hstats)
      rintro _ _ ⟨⟩
      rw [hc]
      exact fun h => hstats (Option.some.inj h)

/-- What a program does depends only on how connections send, not on who is served. -/
theorem run_wiring {α : Type} (w : Wiring κ η State τ LockEvent) (p : Activity κ η α)
    (m : Loop κ η τ) : m.run (wiring w.transmit) p = m.run w p := by
  induction p generalizing m with
  | done a => rfl
  | crash c => rfl
  | ask r next ih =>
    have hperform : m.perform (wiring w.transmit) r = m.perform w r := by cases r <;> rfl
    unfold Machine.run
    rw [hperform]
    exact ih _ _

/-- Whatever the service does with an event, it sends short frames or the statistics. -/
theorem said_handle {g : Ledger} (h : Sound m g)
    (hids : m.world.coordinator.sessions.nextId ≤ 2 ^ 64) (self : η) (e : Event)
    (htime : (∃ endpoint payload, e = .data endpoint payload) → Timely m) :
    ∃ frames, (m.run w (handle self e)).2.sent = m.sent ++ frames ∧
      Said m.world.coordinator e frames := by
  cases e with
  | data endpoint payload =>
    exact said_data h (htime ⟨endpoint, payload, rfl⟩) hids endpoint payload
  | state endpoint state =>
    obtain ⟨m', hrun, hpays⟩ := makes_state (t := w.transmit) self endpoint state m
    rw [run_wiring] at hrun
    rw [hrun]
    exact ⟨_, hpays.sent, .brief nofun (short_frames nofun nofun)⟩
  | timer id =>
    obtain ⟨ops, r, ⟨m', hrun, hpays⟩, hops⟩ := makes_timer (t := w.transmit) self id m
    rw [run_wiring] at hrun
    rw [hrun]
    refine ⟨_, hpays.sent, .brief nofun (short_frames ?_ nofun)⟩
    -- The requests of lapsed sessions are answered, and so are those that get their locks.
    rcases hops with rfl | rfl
    · nofun
    · exact brief_told h.coherent hids trivial

theorem said_invoke {g : Ledger} (h : Sound m g)
    (hids : m.world.coordinator.sessions.nextId ≤ 2 ^ 64) {self handler : η}
    (hserves : w.handle handler = handle self) (e : Event)
    (htime : (∃ endpoint payload, e = .data endpoint payload) → Timely m) :
    ∃ frames, (m.invoke w handler e).sent = m.sent ++ frames ∧
      Said m.world.coordinator e frames := by
  have hrecord : Sound (m.record (.invoked handler e)) g := ⟨h.bound, h.operated, h.known⟩
  have hsent : (m.record (.invoked handler e)).sent = m.sent :=
    (Machine.sent_record _ _).trans (List.append_nil _)
  obtain ⟨frames, hframes, hsaid⟩ := said_handle (w := w) hrecord hids self e htime
  unfold Machine.invoke
  rw [hserves, hframes, hsent]
  exact ⟨frames, rfl, hsaid⟩

/-! ## Frames -/

/-- What is too long has no frame. -/
theorem frame?_eq_none {payload : Bytes} :
    Net.frame? payload = none ↔ Net.maxPayload < payload.length := by
  unfold Net.frame?
  split <;> simp <;> omega

/-- The frame of the statistics. -/
theorem length_statistics (s : Coordinator.State ReplyTo) (dest : ReplyTo) :
    (frame (statistics s dest)).2.length =
      Wire.Response.headerSize + (Utf8.encode s.snapshot.text).length := by
  unfold frame statistics verdict
  rw [Wire.Response.length_encode]

/-- Only statistics can be too long for a frame, and they are if their text is. -/
theorem Said.oversized_iff {s : Coordinator.State ReplyTo} {e : Event}
    {frames : List (Nat × Bytes)} (h : Said s e frames) :
    (∃ p ∈ frames, Net.frame? p.2 = none) ↔
      (∃ endpoint payload, e = .data endpoint payload ∧ command? payload = some .stats) ∧
        Net.maxPayload < Wire.Response.headerSize + (Utf8.encode s.snapshot.text).length := by
  have hshort : briefFrame ≤ Net.maxPayload := by decide
  cases h with
  | brief unasked short =>
    constructor
    · rintro ⟨p, hp, hnone⟩
      have hlt := frame?_eq_none.1 hnone
      have hle := short p hp
      omega
    · rintro ⟨⟨endpoint, payload, he, hc⟩, -⟩
      exact absurd hc (unasked endpoint payload he)
  | statistics endpoint payload event asked =>
    rw [← length_statistics s (origin endpoint payload), ← frame?_eq_none]
    constructor
    · rintro ⟨p, hp, hnone⟩
      obtain rfl := List.mem_singleton.1 hp
      exact ⟨⟨endpoint, payload, event, asked⟩, hnone⟩
    · rintro ⟨-, hnone⟩
      exact ⟨_, List.mem_singleton_self _, hnone⟩

/-! ## Names that are opened -/

/-- A session that has its lease acts over an endpoint. -/
structure Attended (m : Loop κ η τ) (endpoint session : Nat) : Prop where
  timely : Timely m
  lease : 0 < m.world.coordinator.sessions.lease
  bound : m.world.sessionFor endpoint = some session
  leased : Leased m.world.coordinator session m.clock

/-- The names that are in use in one state, and these, are in use in another. -/
def Naming (m m' : Loop κ η τ) (names : List String) : Prop :=
  ∀ name, name ∈ names ∨ (m.world.coordinator.named? name).isSome = true →
    (m'.world.coordinator.named? name).isSome = true

/-- A request to open a name. -/
def opening (endpoint : Nat) (name : String) : Nat × Bytes :=
  (endpoint, ((Wire.Command.open name).request 2).encode)

theorem command?_opening {name : String} (hfits : (Wire.Command.open name).Fits) (endpoint : Nat) :
    command? (opening endpoint name).2 = some (.open name) :=
  command?_encode (Wire.Command.decode_body hfits)

theorem nextId_openHandle (s : Coordinator.State ReplyTo) (session : Nat) (name : String) :
    (s.openHandle session name).2.sessions.nextId = s.sessions.nextId := by
  obtain ⟨-, heq⟩ | ⟨-, heq⟩ := s.openHandle_cases session name <;> rw [heq]
  show (s.ensureHandle name).2.sessions.nextId = _
  rw [State.sessions_ensureHandle]

/-- What is recorded about open handles does not matter for a lease. -/
theorem Leased.openHandle {s : Coordinator.State ReplyTo} {session now : Nat}
    (h : Leased s session now) (name : String) :
    Leased (s.openHandle session name).2 session now := by
  obtain ⟨o, ho, hl⟩ := h
  obtain ⟨-, heq⟩ | ⟨-, heq⟩ := s.openHandle_cases session name <;> rw [heq]
  · exact ⟨o, ho, hl⟩
  · refine ⟨{ o with opened := IdSet.add o.opened (s.ensureHandle name).1 }, ?_, hl⟩
    refine (Sessions.get?_modify _).trans ?_
    rw [State.sessions_ensureHandle, if_pos rfl, ho]
    rfl

/-- A name that fits is opened: it is in use then, and nothing else has changed for the session. -/
theorem Attended.open_name {m : Loop Unit Unit Unit} {endpoint session : Nat}
    (h : Attended m endpoint session) {name : String} (hfits : (Wire.Command.open name).Fits) :
    Attended (feed m [opening endpoint name]) endpoint session ∧
      (feed m [opening endpoint name]).world.coordinator.sessions.nextId =
        m.world.coordinator.sessions.nextId ∧
      Naming m (feed m [opening endpoint name]) [name] := by
  have hcommand := command?_opening hfits endpoint
  generalize hpayload : (opening endpoint name).2 = payload at hcommand
  have hendpoint := endpoint_origin endpoint payload
  obtain ⟨m', hrun, hexact⟩ := performs_onCommand_of_leased
    (w := wiring fun _ _ _ links => (true, [], links))
    (m := m.record (.invoked () (.data endpoint payload))) (origin endpoint payload) (.open name)
    h.timely (by rw [hendpoint]; exact h.bound) h.leased
  rw [← onFrame_of_command hcommand] at hrun
  have hfeed : feed m [opening endpoint name] = m' := by
    show m.invoke _ () (.data endpoint (opening endpoint name).2) = m'
    rw [hpayload]
    exact congrArg Prod.snd hrun
  have hrenewed : Leased (m.world.coordinator.renew session m.clock).2 session m.clock :=
    Sessions.live_renew h.leased h.timely h.lease
  have hcoordinator : m'.world.coordinator =
      ((m.world.coordinator.renew session m.clock).2.openHandle session name).2 :=
    hexact.coordinator
  have hclock : m'.clock = m.clock := hexact.clock
  have hlease : m'.world.coordinator.sessions.lease = m.world.coordinator.sessions.lease := by
    rw [hexact.coordinator]
    exact Coordinator.State.lease_after _ _
  rw [hfeed]
  refine ⟨⟨?_, hlease ▸ h.lease, ?_, ?_⟩, ?_, fun other hother => ?_⟩
  · unfold Timely
    rw [hclock, hlease]
    exact h.timely
  · exact (congrArg (Table.get? · endpoint) hexact.bound).trans h.bound
  · rw [hclock, hcoordinator]
    exact hrenewed.openHandle name
  · rw [hcoordinator, nextId_openHandle]
    exact Sessions.nextId_renew m.clock
  · rw [hcoordinator]
    refine (Coordinator.State.named?_openHandle (Sessions.Live.contains hrenewed) name other).2 ?_
    exact hother.imp_left List.mem_singleton.1

/-- Names that fit are opened one after another. -/
theorem Attended.open_names {m : Loop Unit Unit Unit} {endpoint session : Nat}
    (h : Attended m endpoint session) {names : List String}
    (hfits : ∀ name ∈ names, (Wire.Command.open name).Fits) :
    Attended (feed m (names.map (opening endpoint))) endpoint session ∧
      (feed m (names.map (opening endpoint))).world.coordinator.sessions.nextId =
        m.world.coordinator.sessions.nextId ∧
      Naming m (feed m (names.map (opening endpoint))) names := by
  induction names generalizing m with
  | nil => exact ⟨h, rfl, fun name hname => hname.resolve_left List.not_mem_nil⟩
  | cons first rest ih =>
    obtain ⟨hfirst, hid, hnaming⟩ := h.open_name (hfits first List.mem_cons_self)
    obtain ⟨hrest, hid', hnaming'⟩ := ih hfirst fun name hm =>
      hfits name (List.mem_cons_of_mem _ hm)
    refine ⟨hrest, hid'.trans hid, fun name hname => hnaming' name ?_⟩
    rcases hname with hm | hname
    · rcases List.mem_cons.1 hm with rfl | hm
      · exact .inr (hnaming name (.inl List.mem_cons_self))
      · exact .inl hm
    · exact .inr (hnaming name (.inr hname))

/-! ## Names that are long -/

theorem length_le_size (cs : List Char) : cs.length ≤ Utf8.size cs := by
  induction cs with
  | nil => exact Nat.le_refl _
  | cons c cs ih =>
    have hpos := c.utf8Size_pos
    rw [Utf8.size, List.length_cons]
    omega

theorem size_replicate (n : Nat) (c : Char) : Utf8.size (List.replicate n c) = n * c.utf8Size := by
  induction n with
  | zero => exact (Nat.zero_mul _).symm
  | succ n ih => rw [List.replicate_succ, Utf8.size, ih, Nat.succ_mul, Nat.add_comm]

theorem utf8ByteSize_eq (s : String) : s.utf8ByteSize = Utf8.size s.toList := by
  rw [← Utf8.length_encode, Utf8.encode, Utf8.length_encodeChars]

/-- A name of a character and as many control characters as still fit. -/
def longName (c : Char) : String := .ofList (c :: List.replicate 65534 '\x01')

theorem fits_longName {c : Char} (hc : c.utf8Size = 1) :
    (Wire.Command.open (longName c)).Fits := by
  show (longName c).utf8ByteSize ≤ Wire.maxTextLength
  rw [utf8ByteSize_eq, longName, String.toList_ofList, Utf8.size, size_replicate, hc]
  decide

/-- A control character takes six in the statistics. -/
theorem quotedSize_longName (c : Char) : 6 * 65534 ≤ quotedSize (longName c) := by
  have hescape : (Quoted.escape '\x01').length = 6 := by decide
  have hlength : 6 * 65534 ≤ (Quoted.quote (longName c)).toList.length := by
    unfold Quoted.quote longName
    rw [String.toList_ofList, String.toList_ofList, List.flatMap_cons, List.flatMap_replicate,
      List.cons_append, List.length_cons, List.length_append, List.length_append,
      List.length_flatten, List.map_replicate, List.sum_replicate_nat, hescape]
    omega
  unfold quotedSize
  rw [utf8ByteSize_eq]
  exact hlength.trans (length_le_size _)

theorem longName_injective : Function.Injective longName := fun _ _ h =>
  (List.cons.inj (String.ofList_inj.1 h)).1

/-- Eleven characters of one byte. -/
def letters : List Char := ['a', 'b', 'c', 'd', 'e', 'f', 'g', 'h', 'i', 'j', 'k']

/-- Eleven long names. -/
def longNames : List String := letters.map longName

theorem length_longNames : longNames.length = 11 := List.length_map _

theorem nodup_longNames : longNames.Nodup :=
  List.Nodup.map longName_injective (by decide)

theorem fits_longNames : ∀ name ∈ longNames, (Wire.Command.open name).Fits := by
  have hsizes : ∀ c ∈ letters, c.utf8Size = 1 := by simp [letters, Char.utf8Size]
  intro name hm
  obtain ⟨c, hc, rfl⟩ := List.mem_map.1 hm
  exact fits_longName (hsizes c hc)

/-- Together they are longer in the statistics than a frame can be. -/
theorem maxPayload_lt_longNames : Net.maxPayload < (longNames.map quotedSize).sum := by
  have hsum : (longNames.map quotedSize).length • (6 * 65534) ≤ (longNames.map quotedSize).sum := by
    refine List.card_nsmul_le_sum _ _ fun size hm => ?_
    obtain ⟨name, hname, rfl⟩ := List.mem_map.1 hm
    obtain ⟨c, -, rfl⟩ := List.mem_map.1 hname
    exact quotedSize_longName c
  rw [List.length_map, length_longNames, smul_eq_mul] at hsum
  exact Nat.lt_of_lt_of_le (by decide) hsum

/-! ## Runs -/

/-- A session is opened over a connection, and then handles of these names. -/
def openings (names : List String) : List (Nat × Bytes) :=
  (1, (Wire.Command.openSession.request 1).encode) :: names.map (opening 1)

theorem attended_openings {names : List String}
    (hfits : ∀ name ∈ names, (Wire.Command.open name).Fits) :
    Attended (feed (.start (.empty .default) ()) (openings names)) 1 1 ∧
      (feed (.start (.empty .default) ()) (openings names)).world.coordinator.sessions.nextId = 2 ∧
      ∀ name ∈ names, ((feed (.start (.empty .default) ())
        (openings names)).world.coordinator.named? name).isSome = true := by
  have hsession : Attended (feed (.start (.empty .default) ()) (openings [])) 1 1 :=
    ⟨by decide +kernel, by decide +kernel, by decide +kernel, by decide +kernel⟩
  have hid : (feed (.start (.empty .default) ()) (openings [])).world.coordinator.sessions.nextId =
      2 := by decide +kernel
  obtain ⟨hattended, hnext, hnaming⟩ := hsession.open_names hfits
  exact ⟨hattended, hnext.trans hid, fun name hm => hnaming name (.inl hm)⟩

theorem run_openings {names : List String}
    (hfits : ∀ name ∈ names, (Wire.Command.open name).Fits) :
    ∃ g, Run (wiring fun _ _ _ links => (true, [], links)) (.start (.empty .default) ())
      (fun _ => none) (feed (.start (.empty .default) ()) (openings names)) g := by
  refine run_feed .default (openings names) fun i _ => ?_
  cases i with
  | zero =>
    show Timely (.start (.empty .default) () : Loop Unit Unit Unit)
    decide +kernel
  | succ i =>
    rw [openings, List.take_succ_cons, ← List.map_take]
    exact (attended_openings fun name hm => hfits name (List.mem_of_mem_take hm)).1.timely

/-- A frame that is too long ends its connection. -/
theorem flush_oversized (s : Server) {p : Nat × Bytes} (h : Net.frame? p.2 = none) :
    s.flush [p] = ([.ended p.1], s.cut p.1 Server.oversized) := by
  rw [Server.flush, if_neg (Nat.not_le.2 (frame?_eq_none.1 h))]
  rfl

/-- Different names that are together longer than a frame can all be open.  The statistics are then
handed over like any others, but their frame is too long, and they end their connection. -/
theorem oversized_openings {names : List String} (hnodup : names.Nodup)
    (hfits : ∀ name ∈ names, (Wire.Command.open name).Fits)
    (hlong : Net.maxPayload < (names.map quotedSize).sum) :
    let w : Wiring Unit Unit State Unit LockEvent := wiring fun _ _ _ links => (true, [], links)
    let m := feed (.start (.empty .default) ()) (openings names)
    let payload := (Wire.Command.stats.request 3).encode
    (∃ g, Run w (.start (.empty .default) ()) (fun _ => none) m g) ∧
      m.world.coordinator.sessions.nextId = 2 ∧ Timely m ∧
      ∃ p : Nat × Bytes, (m.invoke w () (.data 1 payload)).sent = m.sent ++ [p] ∧
        p.1 = 1 ∧ Net.maxPayload < p.2.length ∧
        ∀ s : Server, s.flush [p] = ([.ended 1], s.cut 1 Server.oversized) := by
  intro w m payload
  obtain ⟨hattended, hid, hnamed⟩ := attended_openings hfits
  obtain ⟨g, hrun⟩ := run_openings hfits
  obtain ⟨hsound, -⟩ := hrun.sound (sound_start .default ())
  have hm : Timely m := hattended.timely
  have hids : m.world.coordinator.sessions.nextId ≤ 2 ^ 64 := hid.trans_le (by decide)
  have hasked : command? payload = some .stats := by decide +kernel
  have htext : (names.map quotedSize).sum ≤ m.world.coordinator.snapshot.text.utf8ByteSize :=
    Coordinator.State.sum_names_le hsound.coherent hnodup hnamed
  have hframe : Net.maxPayload <
      (frame (statistics m.world.coordinator (origin 1 payload))).2.length := by
    rw [length_statistics, Utf8.length_encode]
    omega
  have hendpoint : (frame (statistics m.world.coordinator (origin 1 payload))).1 = 1 :=
    endpoint_origin 1 payload
  have hserves : w.handle () = handle () := rfl
  obtain ⟨frames, hsent, hsaid⟩ := said_invoke hsound hids hserves (.data 1 payload) fun _ => hm
  cases hsaid with
  | brief unasked => exact absurd hasked (unasked 1 payload rfl)
  | statistics endpoint payload' event asked =>
    cases event
    refine ⟨⟨g, hrun⟩, hid, hm, _, hsent, hendpoint, hframe, fun s => ?_⟩
    have hflush := flush_oversized s (frame?_eq_none.2 hframe)
    rwa [hendpoint] at hflush

/-- At any point of a run of the service, as long as ids have 64 bits: whatever the service is told
of, every frame that it hands over to be sent because of that is short, except for the statistics,
which go to whoever has asked for them.  So a connection can always write what it is given, unless
it is the statistics and their text is too long. -/
theorem only_statistics_oversized {config : Config} {links : τ} {g : Ledger}
    (h : Run w (.start (.empty config) links) (fun _ => none) m g)
    (hids : m.world.coordinator.sessions.nextId ≤ 2 ^ 64) (self handler : η)
    (hserves : w.handle handler = handle self) (e : Event)
    (htime : (∃ endpoint payload, e = .data endpoint payload) → Timely m) :
    ∃ frames, (m.invoke w handler e).sent = m.sent ++ frames ∧ Said m.world.coordinator e frames ∧
      ((∃ p ∈ frames, Net.frame? p.2 = none) ↔
        (∃ endpoint payload, e = .data endpoint payload ∧ command? payload = some .stats) ∧
          Net.maxPayload < Wire.Response.headerSize +
            (Utf8.encode m.world.coordinator.snapshot.text).length) := by
  obtain ⟨hsound, -⟩ := h.sound (sound_start config links)
  obtain ⟨frames, hsent, hsaid⟩ := said_invoke hsound hids hserves e htime
  exact ⟨frames, hsent, hsaid, hsaid.oversized_iff⟩

/-- Two sessions without handles make short statistics. -/
theorem only_statistics_oversized_leftover :
    let w : Wiring Unit Unit State Unit LockEvent := wiring fun _ _ _ links => (true, [], links)
    let m := feed (.start (.empty .default) ()) leftover
    let e := Event.data 3 (Wire.Command.stats.request 7).encode
    m.world.coordinator.sessions.nextId ≤ 2 ^ 64 ∧ Timely m ∧
      ∃ frames, (m.invoke w () e).sent = m.sent ++ frames ∧ Said m.world.coordinator e frames ∧
        ¬ ∃ p ∈ frames, Net.frame? p.2 = none := by
  intro w m e
  obtain ⟨g, hrun⟩ := run_feed .default leftover (by decide +kernel)
  have hids : m.world.coordinator.sessions.nextId ≤ 2 ^ 64 := by decide +kernel
  have hm : Timely m := by decide +kernel
  have hshort : Wire.Response.headerSize +
      (Utf8.encode m.world.coordinator.snapshot.text).length ≤ Net.maxPayload := by
    decide +kernel
  obtain ⟨frames, hsent, hsaid, hiff⟩ :=
    only_statistics_oversized hrun hids () () rfl e fun _ => hm
  exact ⟨hids, hm, frames, hsent, hsaid, fun h => absurd (hiff.1 h).2 (Nat.not_lt.2 hshort)⟩

/-- Eleven names of the greatest length are open.  The service hands the statistics over as for any
other names, but their frame is too long: whoever asks for them loses the connection. -/
theorem statistics_of_long_names :
    let w : Wiring Unit Unit State Unit LockEvent := wiring fun _ _ _ links => (true, [], links)
    let m := feed (.start (.empty .default) ()) (openings longNames)
    let payload := (Wire.Command.stats.request 3).encode
    (∃ g, Run w (.start (.empty .default) ()) (fun _ => none) m g) ∧
      m.world.coordinator.sessions.nextId = 2 ∧ Timely m ∧
      ∃ p : Nat × Bytes, (m.invoke w () (.data 1 payload)).sent = m.sent ++ [p] ∧
        p.1 = 1 ∧ Net.maxPayload < p.2.length ∧
        ∀ s : Server, s.flush [p] = ([.ended 1], s.cut 1 Server.oversized) :=
  oversized_openings nodup_longNames fits_longNames maxPayload_lt_longNames

end LeaseLock.Service
