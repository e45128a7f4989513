import LeaseLock.Client.Calls
import LeaseLock.Proofs.Client.Connection
import Mathlib.Algebra.Group.Nat.Defs

/-
  LeaseLock: what becomes of calls when a connection ends.
  A connection takes calls, reads replies, and at some time stops to write and stops to read, in any
  order (`Connection.Event`).  Every call it has taken is under way or has an outcome
  (`Connection.Accounted`), so when reading ends every one has an outcome, and keeps it.  From then
  on nothing is laid down any more (`Connection.Silent`).  If writing had ended before, no call is
  taken and none waits; but as long as it has not, each call that is taken waits for good
  (`Connection.calls_after_close`).
-/

namespace LeaseLock.Client.Connection

/-! ## Events -/

/-- What can happen to a connection. -/
inductive Event where
  /-- A call starts. -/
  | start (command : UInt8) (body : Bytes)
  /-- A frame comes from the server. -/
  | receive (frame : Bytes)
  /-- Writing fails. -/
  | endWriting
  /-- Reading comes to its end. -/
  | endReading
deriving DecidableEq

/-- The connection after an event.  Reading ends once. -/
def apply (c : Connection) : Event → Connection
  | .start command body => (c.start command body).2
  | .receive frame => c.receive frame
  | .endWriting => c.endWriting
  | .endReading => if c.reading then c.endReading else c

/-- The connection after events, one after another. -/
def run (c : Connection) (events : List Event) : Connection := events.foldl apply c

/-- Whether an event is the start of a call. -/
def Event.isStart : Event → Bool
  | .start _ _ => true
  | _ => false

variable {c d e : Connection} {command : UInt8} {body : Bytes} {ticket : Nat}

theorem run_append (c : Connection) (before after : List Event) :
    c.run (before ++ after) = (c.run before).run after := List.foldl_append

/-! ## Single events -/

theorem nextId_settle (c : Connection) (id : UInt32) (o : Outcome) :
    (c.settle id o).nextId = c.nextId := by
  unfold settle
  split <;> rfl

/-- A call that still waits under the next id is lost first. -/
theorem free_settle_nextId (c : Connection) : (c.settle c.nextId .lost).Free := by
  rw [Free, nextId_settle, get?_waiting_settle, if_pos rfl]

theorem start_settle (c : Connection) (command : UInt8) (body : Bytes) :
    (c.settle c.nextId .lost).start command body = c.start command body := by
  have hfree := free_settle_nextId c
  unfold start
  dsimp only
  rw [settle_of_none hfree, nextId_settle]

/-- No call is taken once writing has ended. -/
theorem start_of_closed (hw : c.writing = false) (command : UInt8) (body : Bytes) :
    c.start command body = (none, { c.settle c.nextId .lost with nextId := c.nextId + 1 }) := by
  have hwriting := writing_settle c c.nextId .lost
  unfold start
  dsimp only
  rw [if_neg (by rw [hwriting, hw]; decide)]

theorem start_fst (c : Connection) (command : UInt8) (body : Bytes) :
    (c.start command body).1 =
      if c.writing then some (c.nextTicket, ⟨c.nextId, command, body⟩) else none := by
  cases hw : c.writing with
  | false => rw [start_of_closed hw]; rfl
  | true =>
    rw [← start_settle, start_of_free (free_settle_nextId c) (by rw [writing_settle, hw]),
      nextTicket_settle, nextId_settle]
    rfl

theorem get?_foldl_lost (tickets : List Nat) (t : Table Outcome) (ticket : Nat) :
    (tickets.foldl (fun settled ticket => settled.insert ticket .lost) t).get? ticket =
      if ticket ∈ tickets then some .lost else t.get? ticket := by
  induction tickets generalizing t with
  | nil => rfl
  | cons first tickets ih =>
    rw [List.foldl_cons, ih, Table.get?_insert]
    by_cases hfirst : ticket = first
    · simp [hfirst]
    · simp [hfirst]

theorem mem_values_iff {t : Table Nat} {ticket : Nat} :
    ticket ∈ t.values ↔ ∃ id, t.get? id = some ticket := by
  unfold Table.values
  rw [List.mem_map]
  constructor
  · rintro ⟨⟨id, _⟩, hmem, rfl⟩
    exact ⟨id, Table.mem_entries_iff.1 hmem⟩
  · rintro ⟨id, hid⟩
    exact ⟨(id, ticket), Table.mem_entries_iff.2 hid, rfl⟩

/-- When reading ends, what waits is lost. -/
theorem outcome?_endReading_of_waiting {id : Nat} (h : c.waiting.get? id = some ticket) :
    c.endReading.outcome? ticket = some .lost := by
  show (c.waiting.values.foldl _ c.settled).get? ticket = _
  rw [get?_foldl_lost, if_pos (mem_values_iff.2 ⟨id, h⟩)]

theorem outcome?_endReading_of_not_waiting (h : ∀ id, c.waiting.get? id ≠ some ticket) :
    c.endReading.outcome? ticket = c.outcome? ticket := by
  show (c.waiting.values.foldl _ c.settled).get? ticket = _
  rw [get?_foldl_lost, if_neg fun hmem => ?_]
  · rfl
  · obtain ⟨id, hid⟩ := mem_values_iff.1 hmem
    exact h id hid

/-! ## Every call is under way or has an outcome -/

/-- Every ticket that was given out belongs to a request that is under way, or has an outcome. -/
structure Accounted (c : Connection) : Prop extends c.Wf where
  covered : ∀ ticket, ticket < c.nextTicket →
    (∃ id, c.waiting.get? id = some ticket) ∨ ∃ o, c.outcome? ticket = some o

theorem accounted_fresh : fresh.Accounted := ⟨wf_fresh, fun _ h => absurd h (Nat.not_lt_zero _)⟩

namespace Accounted

theorem settle (hc : c.Accounted) (id : UInt32) (o : Outcome) : (c.settle id o).Accounted := by
  refine ⟨hc.toWf.settle id o, fun ticket hlt => ?_⟩
  rw [nextTicket_settle] at hlt
  rcases hc.covered ticket hlt with ⟨j, hj⟩ | ⟨o', ho'⟩
  · by_cases heq : j = id.toNat
    · subst heq
      refine .inr ⟨o, ?_⟩
      show (c.settle id o).settled.get? ticket = _
      rw [get?_settled_settle hc.toWf hj, if_pos rfl]
    · exact .inl ⟨j, by rw [get?_waiting_settle, if_neg heq, hj]⟩
  · exact .inr ⟨o', get?_settled_of_settled hc.toWf ho' id o⟩

theorem start (hc : c.Accounted) (command : UInt8) (body : Bytes) :
    (c.start command body).2.Accounted := by
  have hs := hc.settle c.nextId .lost
  cases hw : c.writing with
  | false =>
    rw [start_of_closed hw]
    exact ⟨⟨hs.waiting_lt, hs.settled_lt, hs.unsettled, hs.single⟩, hs.covered⟩
  | true =>
    have hfree := free_settle_nextId c
    have hwriting : (c.settle c.nextId .lost).writing = true := by rw [writing_settle, hw]
    rw [← start_settle]
    refine ⟨hs.toWf.start hfree hwriting command body, fun ticket hlt => ?_⟩
    rw [start_of_free hfree hwriting] at hlt ⊢
    by_cases hnew : ticket = (c.settle c.nextId .lost).nextTicket
    · subst hnew
      exact .inl ⟨_, Table.get?_insert_self ..⟩
    · have hlt : ticket < (c.settle c.nextId .lost).nextTicket + 1 := hlt
      rcases hs.covered ticket (by omega) with ⟨j, hj⟩ | ho
      · refine .inl ⟨j, ?_⟩
        show ((c.settle c.nextId .lost).waiting.insert _ _).get? j = _
        rw [Table.get?_insert, if_neg, hj]
        rintro rfl
        rw [hfree] at hj
        cases hj
      · exact .inr ho

theorem receive (hc : c.Accounted) (frame : Bytes) : (c.receive frame).Accounted := by
  unfold Connection.receive
  split
  · exact hc
  · split
    · exact hc.settle _ _
    · exact hc

/-- What has an outcome keeps it when reading ends. -/
theorem outcome?_endReading (hc : c.Accounted) (hlt : ticket < c.nextTicket) :
    c.endReading.outcome? ticket = some ((c.outcome? ticket).getD .lost) := by
  rcases hc.covered ticket hlt with ⟨id, hid⟩ | ⟨o, ho⟩
  · rw [outcome?_endReading_of_waiting hid, outcome?, hc.unsettled id ticket hid]
    rfl
  · rw [outcome?_endReading_of_not_waiting, ho]
    · rfl
    · intro id hid
      rw [outcome?, hc.unsettled id ticket hid] at ho
      cases ho

theorem endReading (hc : c.Accounted) : c.endReading.Accounted := by
  refine ⟨⟨nofun, fun ticket o ho => ?_, nofun, nofun⟩, fun ticket hlt =>
    .inr ⟨_, hc.outcome?_endReading hlt⟩⟩
  show ticket < c.nextTicket
  by_cases hw : ∃ id, c.waiting.get? id = some ticket
  · obtain ⟨id, hid⟩ := hw
    exact hc.waiting_lt id ticket hid
  · have heq := outcome?_endReading_of_not_waiting fun id hid => hw ⟨id, hid⟩
    exact hc.settled_lt ticket o (heq.symm.trans ho)

theorem apply (hc : c.Accounted) (event : Event) : (c.apply event).Accounted := by
  cases event with
  | start command body => exact hc.start command body
  | receive frame => exact hc.receive frame
  | endWriting => exact ⟨⟨hc.waiting_lt, hc.settled_lt, hc.unsettled, hc.single⟩, hc.covered⟩
  | endReading =>
    show (if c.reading then c.endReading else c).Accounted
    split
    · exact hc.endReading
    · exact hc

theorem run (hc : c.Accounted) (events : List Event) : (c.run events).Accounted := by
  induction events generalizing c with
  | nil => exact hc
  | cons event events ih => exact ih (hc.apply event)

/-! ## Outcomes are final -/

theorem outcome?_apply (hc : c.Accounted) {o : Outcome} (h : c.outcome? ticket = some o)
    (event : Event) : (c.apply event).outcome? ticket = some o := by
  have hsettle : ∀ id o', (c.settle id o').outcome? ticket = some o := fun id o' =>
    get?_settled_of_settled hc.toWf h id o'
  cases event with
  | start command body =>
    show (c.start command body).2.outcome? ticket = some o
    have hlost := hsettle c.nextId .lost
    rw [← start_settle]
    cases hw : c.writing with
    | false =>
      rw [start_settle, start_of_closed hw]
      exact hlost
    | true =>
      rw [start_of_free (free_settle_nextId c) (by rw [writing_settle, hw])]
      exact hlost
  | receive frame =>
    show (c.receive frame).outcome? ticket = some o
    unfold Connection.receive
    split
    · exact h
    · split
      · exact hsettle _ _
      · exact h
  | endWriting => exact h
  | endReading =>
    show (if c.reading then c.endReading else c).outcome? ticket = some o
    split
    · rw [hc.outcome?_endReading (hc.settled_lt ticket o h), h]
      rfl
    · exact h

theorem outcome?_run (hc : c.Accounted) {o : Outcome} (h : c.outcome? ticket = some o)
    (events : List Event) : (c.run events).outcome? ticket = some o := by
  induction events generalizing c with
  | nil => exact h
  | cons event events ih => exact ih (hc.apply event) (hc.outcome?_apply h event)

end Accounted

/-! ## Reading -/

theorem reading_start (c : Connection) (command : UInt8) (body : Bytes) :
    (c.start command body).2.reading = c.reading := by
  unfold start
  dsimp only
  split <;> exact reading_settle ..

/-- Nothing is read once reading has ended. -/
theorem receive_of_closed (h : c.reading = false) (frame : Bytes) : c.receive frame = c := by
  unfold receive
  split
  · rfl
  · rw [if_neg (by rw [h]; decide)]

theorem reading_apply (h : c.reading = true) {event : Event} (hopen : event ≠ .endReading) :
    (c.apply event).reading = true := by
  cases event with
  | start command body => exact (reading_start c command body).trans h
  | receive frame =>
    show (c.receive frame).reading = true
    cases hd : Wire.Response.decode frame with
    | error fault => rw [receive_of_error hd, h]
    | ok reply => rw [receive_of_decode h hd, reading_settle, h]
  | endWriting => exact h
  | endReading => exact absurd rfl hopen

theorem reading_run (h : c.reading = true) {events : List Event}
    (hopen : .endReading ∉ events) : (c.run events).reading = true := by
  induction events generalizing c with
  | nil => exact h
  | cons event events ih =>
    exact ih (reading_apply h fun heq => hopen (heq ▸ List.mem_cons_self))
      fun hmem => hopen (List.mem_cons_of_mem _ hmem)

theorem run_endReading (h : c.reading = true) : c.run [.endReading] = c.endReading :=
  if_pos h

/-! ## After the end of reading -/

/-- The connection `n` calls after reading has ended in `d`: nothing more is laid down, and what
waits are the calls taken since, under the ids that came since. -/
structure Silent (d : Connection) (n : Nat) (e : Connection) : Prop where
  reading : e.reading = false
  nextId : e.nextId = d.nextId + UInt32.ofNat n
  recent : ∀ id ticket, e.waiting.get? id = some ticket →
    ∃ k, k < n ∧ id = (d.nextId + UInt32.ofNat k).toNat
  settled : e.settled = d.settled
  grown : d.nextTicket ≤ e.nextTicket
  later : ∀ ticket, (∃ id, e.waiting.get? id = some ticket) ↔
    d.nextTicket ≤ ticket ∧ ticket < e.nextTicket

namespace Silent

variable {n : Nat}

theorem endReading (c : Connection) : Silent c.endReading 0 c.endReading where
  reading := rfl
  nextId := (UInt32.add_zero _).symm
  recent := nofun
  settled := rfl
  grown := Nat.le_refl _
  later _ := ⟨nofun, fun h => absurd h.2 (Nat.not_lt.2 h.1)⟩

/-- As long as the ids that came since are not used up, the next one is free. -/
theorem free (h : Silent d n e) (hn : n < 2 ^ 32) : e.Free := by
  unfold Free
  cases hw : e.waiting.get? e.nextId.toNat with
  | none => rfl
  | some ticket =>
    obtain ⟨k, hk, hid⟩ := h.recent _ _ hw
    have hsame : UInt32.ofNat n = UInt32.ofNat k := by
      rw [h.nextId] at hid
      exact (UInt32.add_right_inj _).1 (UInt32.toNat_inj.1 hid)
    have hnat := congrArg UInt32.toNat hsame
    rw [UInt32.toNat_ofNat_of_lt' hn, UInt32.toNat_ofNat_of_lt' (by
      show k < 2 ^ 32
      omega)] at hnat
    omega

/-- A call that is taken waits, and leaves everything else as it was. -/
theorem start (h : Silent d n e) (hn : n < 2 ^ 32) (command : UInt8) (body : Bytes) :
    Silent d (n + 1) (e.start command body).2 := by
  have hfree := h.free hn
  have hid : e.nextId + 1 = d.nextId + UInt32.ofNat (n + 1) := by
    rw [h.nextId, UInt32.ofNat_add, UInt32.add_assoc]
    rfl
  have hrecent : ∀ id ticket, e.waiting.get? id = some ticket →
      ∃ k, k < n + 1 ∧ id = (d.nextId + UInt32.ofNat k).toNat := fun id ticket hw => by
    obtain ⟨k, hk, hid⟩ := h.recent id ticket hw
    exact ⟨k, by omega, hid⟩
  cases hw : e.writing with
  | false =>
    rw [start_of_closed hw, settle_of_none hfree]
    exact ⟨h.reading, hid, hrecent, h.settled, h.grown, h.later⟩
  | true =>
    rw [start_of_free hfree hw]
    refine ⟨h.reading, hid, fun id ticket hget => ?_, h.settled, Nat.le_succ_of_le h.grown,
      fun ticket => ?_⟩
    · rw [Table.get?_insert] at hget
      split at hget
      · rename_i heq
        exact ⟨n, by omega, by rw [heq, h.nextId]⟩
      · exact hrecent id ticket hget
    · show (∃ id, (e.waiting.insert e.nextId.toNat e.nextTicket).get? id = some ticket) ↔
        d.nextTicket ≤ ticket ∧ ticket < e.nextTicket + 1
      have hgrown := h.grown
      constructor
      · rintro ⟨id, hid⟩
        rw [Table.get?_insert] at hid
        split at hid
        · obtain rfl := Option.some.inj hid
          omega
        · have hold := (h.later ticket).1 ⟨id, hid⟩
          omega
      · rintro ⟨hle, hlt⟩
        by_cases hnew : ticket = e.nextTicket
        · exact ⟨_, by rw [hnew, Table.get?_insert_self]⟩
        · obtain ⟨id, hid⟩ := (h.later ticket).2 ⟨hle, by omega⟩
          refine ⟨id, ?_⟩
          rw [Table.get?_insert_of_ne, hid]
          rintro rfl
          rw [hfree] at hid
          cases hid

theorem apply (h : Silent d n e) (event : Event) (hn : event.isStart = true → n < 2 ^ 32) :
    Silent d (n + if event.isStart then 1 else 0) (e.apply event) := by
  cases event with
  | start command body => exact h.start (hn rfl) command body
  | receive frame =>
    show Silent d n (e.receive frame)
    rw [receive_of_closed h.reading]
    exact h
  | endWriting => exact ⟨h.reading, h.nextId, h.recent, h.settled, h.grown, h.later⟩
  | endReading =>
    show Silent d n (if e.reading then e.endReading else e)
    rw [if_neg (by rw [h.reading]; decide)]
    exact h

theorem run (h : Silent d n e) (events : List Event)
    (hn : n + events.countP Event.isStart ≤ 2 ^ 32) :
    Silent d (n + events.countP Event.isStart) (e.run events) := by
  induction events generalizing n e with
  | nil => exact h
  | cons event events ih =>
    rw [List.countP_cons] at hn ⊢
    have hnext := h.apply event fun hstart => by
      rw [if_pos hstart] at hn
      omega
    have hrest := ih hnext (by omega)
    rwa [Nat.add_assoc, Nat.add_comm (if event.isStart then 1 else 0)] at hrest

end Silent

/-- Once writing has ended and nothing waits, it stays so. -/
theorem idle_run (hw : c.writing = false) (hwaiting : c.waiting = ∅) (hr : c.reading = false)
    (events : List Event) : (c.run events).writing = false ∧ (c.run events).waiting = ∅ := by
  induction events generalizing c with
  | nil => exact ⟨hw, hwaiting⟩
  | cons event events ih =>
    suffices h : (c.apply event).writing = false ∧ (c.apply event).waiting = ∅ ∧
        (c.apply event).reading = false from ih h.1 h.2.1 h.2.2
    cases event with
    | start command body =>
      have hnone : c.waiting.get? c.nextId.toNat = none := by rw [hwaiting]; rfl
      rw [apply, start_of_closed hw, settle_of_none hnone]
      exact ⟨hw, hwaiting, hr⟩
    | receive frame =>
      rw [apply, receive_of_closed hr]
      exact ⟨hw, hwaiting, hr⟩
    | endWriting => exact ⟨rfl, hwaiting, hr⟩
    | endReading =>
      rw [apply, if_neg (by rw [hr]; decide)]
      exact ⟨hw, hwaiting, hr⟩

/-! ## Calls -/

/-- A connection as a call sees it that has it for itself. -/
def alone : Conversation.Transport Connection where
  send c command body := ((c.start command body).1.map (·.1), (c.start command body).2)
  outcome? := outcome?
  adopt c session := { c with session }

/-- The rest of a call fails because the connection has ended. -/
def Fails {α : Type} (c : Connection) (p : Conversation α) : Prop :=
  ∃ error, (p.advance alone false c).1 = .finished (.error error) ∧
    error.fault? = some .connectionClosed

/-- The rest of a call waits for a reply. -/
def Waits {α : Type} (c : Connection) (p : Conversation α) : Prop :=
  (p.advance alone false c).1 = .stalled p

variable {limit : Nat}

theorem fails_await (h : c.outcome? ticket = some .lost) : c.Fails (.await ticket) := by
  refine ⟨.unanswered false, ?_, rfl⟩
  have h : alone.outcome? c ticket = some .lost := h
  rw [Conversation.await, Conversation.advance_ask_await, h]
  rfl

theorem fails_awaitWithin (h : c.outcome? ticket = some .lost) (limit : Nat) :
    c.Fails (.awaitWithin ticket limit) := by
  refine ⟨.unanswered true, ?_, rfl⟩
  have h : alone.outcome? c ticket = some .lost := h
  rw [Conversation.awaitWithin, Conversation.advance_ask_awaitWithin, h]
  rfl

theorem fails_send (hw : c.writing = false) (command : UInt8) (body : Bytes) :
    c.Fails (.send command body) := by
  refine ⟨.notSent, ?_, rfl⟩
  have h : (alone.send c command body).1 = none := by
    show (c.start command body).1.map _ = none
    rw [start_of_closed hw]
    rfl
  rw [Conversation.send, Conversation.advance_ask_send, h]
  rfl

theorem waits_await (h : c.outcome? ticket = none) : c.Waits (.await ticket) := by
  have h : alone.outcome? c ticket = none := h
  rw [Waits, Conversation.await, Conversation.advance_ask_await, h]

/-- What has no outcome when reading ends waits for good. -/
theorem Silent.waits {n : Nat} (h : Silent d n e) (hd : d.Accounted)
    (hle : d.nextTicket ≤ ticket) : e.Waits (.await ticket) := by
  refine waits_await ?_
  cases ho : e.outcome? ticket with
  | none => rfl
  | some o =>
    rw [outcome?, h.settled] at ho
    exact absurd (hd.settled_lt ticket o ho) (Nat.not_lt.2 hle)

/-- When reading ends nothing waits any more: a request that had its reply keeps it, and every other
fails.  If writing had ended before, every later call fails and none of them ever waits.  But while
it has not, a later call is taken, and waits for good unless its id comes again. -/
theorem calls_after_close {before : List Event} (hopen : .endReading ∉ before)
    (after : List Event) :
    let c := fresh.run before
    let d := fresh.run (before ++ [.endReading])
    let e := d.run after
    d.waiting = ∅ ∧
    (∀ ticket o, c.outcome? ticket = some o → e.outcome? ticket = some o) ∧
    (∀ ticket, ticket < c.nextTicket → c.outcome? ticket = none →
      e.Fails (.await ticket) ∧ ∀ limit, e.Fails (.awaitWithin ticket limit)) ∧
    (e.writing = false → ∀ command body, e.Fails (.send command body)) ∧
    (c.writing = false → e.writing = false ∧ e.waiting = ∅) ∧
    (e.writing = true → ∀ command body, (alone.send e command body).1 = some e.nextTicket) ∧
    (after.countP Event.isStart ≤ 2 ^ 32 → ∀ ticket, c.nextTicket ≤ ticket →
      ticket < e.nextTicket → (∃ id, e.waiting.get? id = some ticket) ∧
        e.Waits (.await ticket)) := by
  intro c d e
  have hc : c.Accounted := accounted_fresh.run before
  have hd : d = c.endReading := by
    show fresh.run (before ++ [.endReading]) = _
    rw [run_append]
    exact run_endReading (reading_run rfl hopen)
  have hclosed : d.Accounted := accounted_fresh.run _
  have houtcome : ∀ ticket, ticket < c.nextTicket →
      e.outcome? ticket = some ((c.outcome? ticket).getD .lost) := fun ticket hlt =>
    hclosed.outcome?_run (by rw [hd]; exact hc.outcome?_endReading hlt) after
  refine ⟨by rw [hd, waiting_endReading], fun ticket o ho => ?_, fun ticket hlt hnone => ?_,
    fun hw => fails_send hw, fun hw => ?_, fun hw command body => ?_, fun hfew ticket hle hlt => ?_⟩
  · rw [houtcome ticket (hc.settled_lt ticket o ho), ho]
    rfl
  · have hlost := houtcome ticket hlt
    rw [hnone] at hlost
    exact ⟨fails_await hlost, fails_awaitWithin hlost⟩
  · have hwriting : d.writing = false := by rw [hd]; exact hw
    exact idle_run hwriting (by rw [hd, waiting_endReading]) (by rw [hd]; rfl) after
  · show (e.start command body).1.map _ = _
    rw [start_fst, if_pos hw]
    rfl
  · have hstart := Silent.endReading c
    rw [← hd] at hstart
    have hsilent := hstart.run after (by omega)
    have hle : d.nextTicket ≤ ticket := by rw [hd]; exact hle
    exact ⟨(hsilent.later ticket).2 ⟨hle, hlt⟩, hsilent.waits hclosed hle⟩

/-- A call that is under way when reading ends, and one that starts then. -/
theorem calls_after_close_late :
    let command := Wire.Command.keepAlive
    let start := Event.start command.code command.body
    let e := fresh.run [start, .endReading, start]
    .endReading ∉ [start] ∧ e.Fails (.await 0) ∧ e.Waits (.await 1) := by
  intro command start e
  have hopen : Event.endReading ∉ [start] := by decide
  have h := calls_after_close hopen [start]
  exact ⟨hopen, (h.2.2.1 0 (by decide) rfl).1,
    (h.2.2.2.2.2.2 (by decide) 1 (by decide) (by decide)).2⟩

/-- Not every call that starts after the end of reading fails: this one is taken, and whatever the
server sends, it waits. -/
theorem keepAlive_waits_after_close :
    let command := Wire.Command.keepAlive
    let e := fresh.run [.endReading, .start command.code command.body]
    e.reading = false ∧ e.waiting.get? 1 = some 0 ∧
    ¬ (∀ before after : List Event, .endReading ∉ before →
      ((fresh.run (before ++ [.endReading])).run after).waiting = ∅) ∧
    ∀ frames : List Bytes, (e.run (frames.map .receive)).Waits (.await 0) := by
  intro command e
  refine ⟨rfl, rfl, fun h => ?_, fun frames => ?_⟩
  · have hempty : e.waiting = ∅ := h [] [.start command.code command.body] nofun
    have hget : e.waiting.get? 1 = some 0 := rfl
    rw [hempty] at hget
    cases hget
  · have hsame : e.run (frames.map .receive) = e := by
      induction frames with
      | nil => rfl
      | cons frame frames ih =>
        show (e.receive frame).run (frames.map .receive) = e
        rw [receive_of_closed rfl, ih]
    rw [hsame]
    exact waits_await rfl

end LeaseLock.Client.Connection
