import LeaseLock.Proofs.Client.Stranding
import LeaseLock.Proofs.Wire.Grammar

/-
  LeaseLock: replies find their calls.
  Calls start and frames arrive in any order.  As long as no call takes the id of one that is under
  way (`Connection.Spaced`), a call is under way until the first reply with its id comes or reading
  ends, and that event decides what becomes of it (`verdict?`, `outcome?_run_of_waiting`).  A frame
  that no call under way waits for changes nothing (`receive_of_not_awaited`), which includes every
  further reply to a call that has ended (`waiting_run_of_spent`).
-/

namespace LeaseLock.Client.Connection

variable {c : Connection} {id : UInt32} {ticket : Nat} {event : Event} {events : List Event}
  {frame : Bytes}

/-! ## What a call waits for -/

/-- What an event makes of the call that is under way with this id. -/
def Event.verdict? (id : UInt32) : Event → Option Outcome
  | .receive frame =>
    match Wire.Response.decode frame with
    | .ok r => if r.id = id then some (.replied r) else none
    | .error _ => none
  | .endReading => some .lost
  | .start _ _ => none
  | .endWriting => none

/-- What the first event of some that decides about a call with this id makes of it. -/
def verdict? (id : UInt32) (events : List Event) : Option Outcome :=
  events.findSome? (Event.verdict? id)

/-- Whether each call takes an id that no call under way has. -/
def Spaced (c : Connection) : List Event → Prop
  | [] => True
  | event :: events => (event.isStart = true → c.Free) ∧ (c.apply event).Spaced events

instance decidableSpaced : (c : Connection) → (events : List Event) → Decidable (c.Spaced events)
  | _, [] => inferInstanceAs (Decidable True)
  | c, event :: events =>
    have := decidableSpaced (c.apply event) events
    inferInstanceAs (Decidable ((event.isStart = true → c.Free) ∧ (c.apply event).Spaced events))

/-- The ids that the calls among these events take. -/
def taken (c : Connection) : List Event → List UInt32
  | [] => []
  | event :: events => (if event.isStart then [c.nextId] else []) ++ (c.apply event).taken events

/-- The frame is a reply to a call that is under way. -/
def Awaited (c : Connection) (frame : Bytes) : Prop :=
  ∃ r : Wire.Response, frame = r.encode ∧ c.waiting.get? r.id.toNat ≠ none

theorem spaced_append {before : List Event} :
    c.Spaced (before ++ events) ↔ c.Spaced before ∧ (c.run before).Spaced events := by
  induction before generalizing c with
  | nil => exact ⟨fun h => ⟨trivial, h⟩, And.right⟩
  | cons event before ih =>
    simp only [List.cons_append, Spaced, ih, and_assoc]
    rfl

theorem verdict?_cons (id : UInt32) (event : Event) (events : List Event) :
    verdict? id (event :: events) = (event.verdict? id).or (verdict? id events) := by
  unfold verdict?
  rw [List.findSome?_cons]
  cases event.verdict? id <;> rfl

/-! ## Frames -/

/-- A frame is a reply exactly if it is as long as the header of one. -/
theorem decode_eq_ok_iff {r : Wire.Response} :
    Wire.Response.decode frame = .ok r ↔ frame = r.encode :=
  Wire.Response.exact.accepts frame r

/-- A frame that no call under way waits for changes nothing. -/
theorem receive_of_not_awaited (h : ¬ c.Awaited frame) : c.receive frame = c := by
  cases hd : Wire.Response.decode frame with
  | error fault => exact receive_of_error hd
  | ok r =>
    refine receive_of_unknown hd (Decidable.byContradiction fun hw => ?_)
    exact h ⟨r, decode_eq_ok_iff.1 hd, hw⟩

theorem not_awaited_of_short (h : frame.length < Wire.Response.headerSize) : ¬ c.Awaited frame := by
  rintro ⟨r, rfl, -⟩
  rw [Wire.Response.length_encode] at h
  omega

/-- A reply is laid down for the call that is under way with its id; nothing else changes. -/
theorem receive_encode (hr : c.reading = true) {r : Wire.Response}
    (hw : c.waiting.get? r.id.toNat = some ticket) : c.receive r.encode =
      { c with
        waiting := c.waiting.erase r.id.toNat
        settled := c.settled.insert ticket (.replied r) } := by
  rw [receive_of_decode hr (Wire.Response.decode_encode r), settle_of_some hw]

/-! ## A call under way -/

/-- What is under way with an id after the next call has started. -/
theorem get?_waiting_start (hf : c.Free) (command : UInt8) (body : Bytes) (j : Nat) :
    (c.start command body).2.waiting.get? j =
      if j = c.nextId.toNat ∧ c.writing = true then some c.nextTicket
      else c.waiting.get? j := by
  cases hw : c.writing with
  | false => simp [start_of_closed hw, settle_of_none hf]
  | true => simp [start_of_free hf hw, Table.get?_insert]

/-- The next call to start disturbs none that is under way. -/
theorem get?_waiting_start_of_waiting (hf : c.Free) (hw : c.waiting.get? id.toNat = some ticket)
    (command : UInt8) (body : Bytes) :
    (c.start command body).2.waiting.get? id.toNat = some ticket := by
  have hne : id.toNat ≠ c.nextId.toNat := by
    intro heq
    rw [heq, hf] at hw
    cases hw
  rw [get?_waiting_start hf, if_neg fun h => hne h.1, hw]

/-- Whether a call is still under way after an event, as the event decides about it or not. -/
theorem get?_waiting_apply (hr : c.reading = true) (hw : c.waiting.get? id.toNat = some ticket)
    (hs : event.isStart = true → c.Free) :
    (c.apply event).waiting.get? id.toNat =
      if event.verdict? id = none then some ticket else none := by
  cases event with
  | start command body => exact get?_waiting_start_of_waiting (hs rfl) hw command body
  | receive frame =>
    show (c.receive frame).waiting.get? id.toNat = _
    cases hd : Wire.Response.decode frame with
    | error fault => simp [receive_of_error hd, Event.verdict?, hd, hw]
    | ok r =>
      rw [receive_of_decode hr hd, get?_waiting_settle, hw]
      by_cases hid : id = r.id
      · simp [Event.verdict?, hd, hid]
      · have hne : id.toNat ≠ r.id.toNat := fun heq => hid (UInt32.toNat_inj.1 heq)
        simp [Event.verdict?, hd, Ne.symm hid, hne]
  | endWriting => exact hw
  | endReading =>
    rw [apply, if_pos hr]
    rfl

/-- An event decides about a call under way as its id says. -/
theorem outcome?_apply (hc : c.Accounted) (hr : c.reading = true)
    (hw : c.waiting.get? id.toNat = some ticket) (hs : event.isStart = true → c.Free) :
    (c.apply event).outcome? ticket = event.verdict? id := by
  have hwaiting := get?_waiting_apply hr hw hs
  cases hv : event.verdict? id with
  | none =>
    rw [hv, if_pos rfl] at hwaiting
    exact (hc.apply event).unsettled _ _ hwaiting
  | some o =>
    cases event with
    | start command body => cases hv
    | receive frame =>
      show (c.receive frame).settled.get? ticket = some o
      cases hd : Wire.Response.decode frame with
      | error fault => simp [Event.verdict?, hd] at hv
      | ok r =>
        rw [receive_of_decode hr hd, get?_settled_settle hc.toWf hw]
        simpa [Event.verdict?, hd, eq_comm] using hv
    | endWriting => cases hv
    | endReading =>
      obtain rfl : Outcome.lost = o := Option.some.inj hv
      rw [apply, if_pos hr]
      exact outcome?_endReading_of_waiting hw

/-- Reading goes on after an event that decides nothing. -/
theorem reading_apply_of_undecided (hr : c.reading = true) (hv : event.verdict? id = none) :
    (c.apply event).reading = true := by
  refine reading_apply hr ?_
  rintro rfl
  cases hv

/-- The first event that decides about a call under way settles it for good; until then it stays
under way. -/
theorem outcome?_run_of_waiting (hc : c.Accounted) (hr : c.reading = true)
    (hw : c.waiting.get? id.toNat = some ticket) (hs : c.Spaced events) :
    (c.run events).outcome? ticket = verdict? id events ∧
      (verdict? id events = none → (c.run events).waiting.get? id.toNat = some ticket) := by
  induction events generalizing c with
  | nil => exact ⟨hc.unsettled _ _ hw, fun _ => hw⟩
  | cons event events ih =>
    have hwaiting := get?_waiting_apply hr hw hs.1
    have houtcome := outcome?_apply hc hr hw hs.1
    rw [verdict?_cons]
    cases hv : event.verdict? id with
    | none =>
      rw [hv, if_pos rfl] at hwaiting
      exact ih (hc.apply event) (reading_apply_of_undecided hr hv) hwaiting hs.2
    | some o =>
      rw [hv] at houtcome
      exact ⟨(hc.apply event).outcome?_run houtcome events, nofun⟩

/-- After the end of reading a call under way stays so. -/
theorem waiting_run_of_closed (hr : c.reading = false)
    (hw : c.waiting.get? id.toNat = some ticket) (hs : c.Spaced events) :
    (c.run events).waiting.get? id.toNat = some ticket := by
  induction events generalizing c with
  | nil => exact hw
  | cons event events ih =>
    refine ih ?_ ?_ hs.2
    · cases event with
      | start command body => exact (reading_start c command body).trans hr
      | receive frame => rw [apply, receive_of_closed hr, hr]
      | endWriting => exact hr
      | endReading => simp [apply, hr]
    · cases event with
      | start command body => exact get?_waiting_start_of_waiting (hs.1 rfl) hw command body
      | receive frame => rw [apply, receive_of_closed hr, hw]
      | endWriting => exact hw
      | endReading => simp [apply, hr, hw]

/-! ## A call that has ended -/

/-- No call is under way with an id again before one takes it. -/
theorem waiting_run_of_vacant (hw : c.waiting.get? id.toNat = none) (hs : c.Spaced events)
    (hid : id ∉ c.taken events) : (c.run events).waiting.get? id.toNat = none := by
  induction events generalizing c with
  | nil => exact hw
  | cons event events ih =>
    rw [taken, List.mem_append, not_or] at hid
    refine ih ?_ hs.2 hid.2
    cases event with
    | start command body =>
      have hne : id ≠ c.nextId := by simpa [Event.isStart] using hid.1
      have hne : id.toNat ≠ c.nextId.toNat := fun heq => hne (UInt32.toNat_inj.1 heq)
      rw [apply, get?_waiting_start (hs.1 rfl), if_neg fun h => hne h.1, hw]
    | receive frame =>
      show (c.receive frame).waiting.get? id.toNat = none
      unfold receive
      split
      · exact hw
      · split
        · rw [get?_waiting_settle, hw, ite_self]
        · exact hw
    | endWriting => exact hw
    | endReading =>
      rw [apply]
      split
      · rfl
      · exact hw

/-- When the first event has decided about a call, nothing is under way with its id, until a call
takes it again. -/
theorem waiting_run_of_spent (hr : c.reading = true)
    (hw : c.waiting.get? id.toNat = some ticket) (hs : c.Spaced events)
    (hv : verdict? id events ≠ none) (hid : id ∉ c.taken events) :
    (c.run events).waiting.get? id.toNat = none := by
  induction events generalizing c with
  | nil => exact absurd rfl hv
  | cons event events ih =>
    have hwaiting := get?_waiting_apply hr hw hs.1
    rw [taken, List.mem_append, not_or] at hid
    rw [verdict?_cons] at hv
    cases hfirst : event.verdict? id with
    | none =>
      rw [hfirst, if_pos rfl] at hwaiting
      rw [hfirst] at hv
      exact ih (reading_apply_of_undecided hr hfirst) hwaiting hs.2 hv hid.2
    | some o =>
      rw [hfirst, if_neg nofun] at hwaiting
      exact waiting_run_of_vacant (c := c.apply event) hwaiting hs.2 hid.2

/-! ## Calls -/

/-- The rest of a call ends with this result. -/
def Returns {α : Type} (c : Connection) (p : Conversation α) (result : α) : Prop :=
  (p.advance alone false c).1 = .finished (.ok result)

/-- How far a call is that waits for its reply. -/
theorem advance_await (c : Connection) (ticket : Nat) :
    (Conversation.await ticket).advance alone false c =
      (match c.outcome? ticket with
      | some (.replied r) => .finished (.ok r)
      | some .lost => .finished (.error (.unanswered false))
      | none => .stalled (.await ticket), c) := by
  have h : alone.outcome? c ticket = c.outcome? ticket := rfl
  rw [Conversation.await, Conversation.advance_ask_await, h]
  rcases c.outcome? ticket with - | ⟨r⟩ | - <;> rfl

theorem returns_await_iff {r : Wire.Response} :
    c.Returns (.await ticket) r ↔ c.outcome? ticket = some (.replied r) := by
  rw [Returns, advance_await]
  rcases c.outcome? ticket with - | ⟨r'⟩ | - <;> simp

theorem fails_await_iff : c.Fails (.await ticket) ↔ c.outcome? ticket = some .lost := by
  refine ⟨fun ⟨error, h, _⟩ => ?_, fails_await⟩
  rw [advance_await] at h
  rcases hoc : c.outcome? ticket with - | ⟨r'⟩ | -
  all_goals simp [hoc] at h ⊢

theorem waits_await_iff : c.Waits (.await ticket) ↔ c.outcome? ticket = none := by
  rw [Waits, advance_await]
  rcases c.outcome? ticket with - | ⟨r'⟩ | - <;> simp

/-- A call sends its request and waits for the reply to it. -/
theorem advance_exchange (hc : c.Accounted) (hf : c.Free) (hw : c.writing = true)
    (command : UInt8) (body : Bytes) :
    (Conversation.exchange command body).advance alone false c =
      (.stalled (.await c.nextTicket), (c.start command body).2) := by
  have hnone : (c.start command body).2.outcome? c.nextTicket = none := by
    cases ho : (c.start command body).2.outcome? c.nextTicket with
    | none => rfl
    | some o =>
      rw [start_of_free hf hw] at ho
      exact absurd (hc.settled_lt _ o ho) (Nat.lt_irrefl _)
  have hsend : alone.send c command body =
      (some c.nextTicket, (c.start command body).2) := by
    simp [alone, start_of_free hf hw]
  rw [Conversation.exchange, Conversation.send]
  show Conversation.advance alone false (.ask (.send command body) fun _ => _) c = _
  rw [Conversation.advance_ask_send, hsend]
  show (Conversation.await c.nextTicket).advance alone false (c.start command body).2 = _
  rw [advance_await, hnone]

/-! ## Replies and calls -/

/-- What has become of a call that started over `c`, after what has happened since. -/
def fate? (c : Connection) (after : List Event) : Option Outcome :=
  if c.reading then verdict? c.nextId after else none

/-- A call that started over `c`; `after` has happened since, and `e` is the connection now. -/
structure Answered (c : Connection) (command : UInt8) (body : Bytes) (after : List Event)
    (e : Connection) : Prop where
  /-- The call goes out and waits under a ticket of its own. -/
  asks : (Conversation.exchange command body).advance alone false c =
    (.stalled (.await c.nextTicket), (c.start command body).2)
  /-- It returns the first reply with its id, and no other. -/
  returns : ∀ r, e.Returns (.await c.nextTicket) r ↔ c.fate? after = some (.replied r)
  /-- It fails if reading ends first. -/
  fails : e.Fails (.await c.nextTicket) ↔ c.fate? after = some .lost
  /-- Until then it waits. -/
  waits : e.Waits (.await c.nextTicket) ↔ c.fate? after = none
  /-- As long as it waits, it is under way with its id. -/
  underWay : c.fate? after = none → e.waiting.get? c.nextId.toNat = some c.nextTicket
  /-- Afterwards no call waits for a reply with this id, until one takes the id again. -/
  spent : c.fate? after ≠ none → c.nextId ∉ (c.start command body).2.taken after →
    ∀ r : Wire.Response, r.id = c.nextId → ¬ e.Awaited r.encode

/-- What becomes of a call that goes out. -/
theorem answered_run (hc : c.Accounted) (hw : c.writing = true) {command : UInt8} {body : Bytes}
    {after : List Event} (hs : c.Spaced (.start command body :: after)) :
    Answered c command body after ((c.start command body).2.run after) := by
  have hf : c.Free := hs.1 rfl
  have hd : (c.start command body).2.Accounted := hc.start command body
  have hwaiting : (c.start command body).2.waiting.get? c.nextId.toNat = some c.nextTicket := by
    rw [get?_waiting_start hf, if_pos ⟨rfl, hw⟩]
  have hr : (c.start command body).2.reading = c.reading := reading_start c command body
  have hrun : ((c.start command body).2.run after).outcome? c.nextTicket = c.fate? after ∧
      (c.fate? after = none →
        ((c.start command body).2.run after).waiting.get? c.nextId.toNat = some c.nextTicket) := by
    unfold fate?
    split
    · rename_i hreading
      exact outcome?_run_of_waiting hd (hr.trans hreading) hwaiting hs.2
    · rename_i hreading
      have hclosed := hr.trans (Bool.eq_false_iff.2 hreading)
      have hstays := waiting_run_of_closed hclosed hwaiting hs.2
      exact ⟨(hd.run after).unsettled _ _ hstays, fun _ => hstays⟩
  refine ⟨advance_exchange hc hf hw command body, fun r => ?_, ?_, ?_, hrun.2,
    fun hfate hid r hsame => ?_⟩
  · rw [returns_await_iff, hrun.1]
  · rw [fails_await_iff, hrun.1]
  · rw [waits_await_iff, hrun.1]
  · rintro ⟨r', henc, hawaited⟩
    obtain rfl : r' = r := Except.ok.inj <| (Wire.Response.decode_encode r').symm.trans
      (henc ▸ Wire.Response.decode_encode r)
    unfold fate? at hfate
    split at hfate
    · rename_i hreading
      refine hawaited ?_
      rw [hsame]
      exact waiting_run_of_spent (hr.trans hreading) hwaiting hs.2 hfate hid
    · exact hfate rfl

/-- When reading ends, the calls that have had no reply fail, and the others keep theirs. -/
theorem await_endReading (hc : c.Accounted) (hlt : ticket < c.nextTicket) :
    (c.endReading.Fails (.await ticket) ↔ ∀ r, ¬ c.Returns (.await ticket) r) ∧
    ∀ r, c.endReading.Returns (.await ticket) r ↔ c.Returns (.await ticket) r := by
  simp only [fails_await_iff, returns_await_iff, hc.outcome?_endReading hlt]
  rcases c.outcome? ticket with - | ⟨r⟩ | - <;> simp

/-- Calls start and frames come in any order, and no call takes the id of one that is under way.
Each call returns the first reply with its id that comes after it has started; later ones with that
id change nothing, until another call takes the id.  A frame that is no reply to a call under way,
such as one that is too short, changes nothing at all, and one that is changes that call only.  When
reading ends, the calls without a reply fail, and only they. -/
theorem replies_reach_calls (hs : fresh.Spaced events) :
    let e := fresh.run events
    (∀ before command body after, events = before ++ .start command body :: after →
      (fresh.run before).writing = true →
      Answered (fresh.run before) command body after e) ∧
    (∀ frame, ¬ e.Awaited frame → e.receive frame = e) ∧
    (∀ frame : Bytes, frame.length < Wire.Response.headerSize → e.receive frame = e) ∧
    (∀ (r : Wire.Response) ticket, e.reading = true →
      e.waiting.get? r.id.toNat = some ticket →
      (∀ other, (e.receive r.encode).outcome? other =
        if other = ticket then some (.replied r) else e.outcome? other) ∧
      ∀ id, (e.receive r.encode).waiting.get? id =
        if id = r.id.toNat then none else e.waiting.get? id) ∧
    ∀ ticket, ticket < e.nextTicket →
      (e.endReading.Fails (.await ticket) ↔ ∀ r, ¬ e.Returns (.await ticket) r) ∧
      ∀ r, e.endReading.Returns (.await ticket) r ↔ e.Returns (.await ticket) r := by
  intro e
  refine ⟨fun before command body after hsplit hw => ?_, fun frame => receive_of_not_awaited,
    fun frame hshort => receive_of_not_awaited (not_awaited_of_short hshort),
    fun r ticket hr hw => ⟨fun other => ?_, fun id => ?_⟩,
    fun ticket hlt => await_endReading (accounted_fresh.run events) hlt⟩
  · rw [hsplit, spaced_append] at hs
    have hrun : e = ((fresh.run before).start command body).2.run after := by
      show fresh.run events = _
      rw [hsplit, run_append]
      rfl
    rw [hrun]
    exact answered_run (accounted_fresh.run before) hw hs.2
  · rw [receive_encode hr hw]
    exact Table.get?_insert _ _ _ _
  · rw [receive_encode hr hw]
    exact Table.get?_erase _ _ _

/-- Two calls are under way; the reply to the second comes first, then one with an id of no call,
one that is too short, and another with the second id; then reading ends. -/
theorem replies_reach_calls_reordered :
    let call := Event.start Wire.Command.keepAlive.code []
    let reply (id : UInt32) : Wire.Response := ⟨id, 0, []⟩
    let stray : List Event := [.receive (reply 0).encode, .receive [2, 0, 0]]
    let events := [call, call, .receive (reply 2).encode] ++ stray ++
      [.receive (Wire.Response.mk 2 1 []).encode, .endReading]
    fresh.Spaced events ∧ (fresh.run events).Fails (.await 0) ∧
      (fresh.run events).Returns (.await 1) (reply 2) := by
  intro call reply stray events
  have hs : fresh.Spaced events := by decide
  have h := (replies_reach_calls hs).1
  have hfirst := h [] _ _ _ rfl rfl
  have hsecond := h [call] _ _ _ rfl rfl
  exact ⟨hs, hfirst.fails.2 (by decide), (hsecond.returns _).2 (by decide)⟩

end LeaseLock.Client.Connection
