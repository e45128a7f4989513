import LeaseLock.Proofs.Coordinator.Chronicle
import LeaseLock.Proofs.Coordinator.Ending
import LeaseLock.Proofs.Coordinator.Replay

/-
  LeaseLock: the events are a faithful history.
  The log of a run shows what can be seen of it, in order: the events of every call when it is
  made, and every reply when it is received (`Traffic.log`).  `faithful_log` says of every run that
  whoever reads the events of its log knows all locks at every moment, that the end of a session
  lists the locks that have been released for this reason, and that every grant that is received
  belongs to one acquisition that has been told before.
-/

namespace LeaseLock.Coordinator

/-! ## The log of a run -/

/-- Something that can be seen of a run. -/
inductive Entry where
  /-- An event is told. -/
  | event (e : LockEvent)
  /-- A reply is received. -/
  | reply (d : Notice)

namespace Entry

/-- The event that is told, if any. -/
def event? : Entry → Option LockEvent
  | event e => some e
  | reply _ => none

/-- The reply that is received, if any. -/
def reply? : Entry → Option Notice
  | event _ => none
  | reply d => some d

end Entry

/-- A reply tells of a grant. -/
def Reply.Grants (r : Reply) : Prop := ∃ body, r = .respond .granted body

theorem Answer.grants_reply {a : Answer} (ha : a.reply.Grants) :
    ∃ generation, a = .granted generation := by
  obtain ⟨body, hb⟩ := ha
  cases a with
  | granted generation => exact ⟨generation, rfl⟩
  | busy => cases hb
  | cancelled => cases hb
  | refused fault => cases hb
  | malformed fault => cases hb

namespace Traffic

/-- What is seen of a step: the events of a call, or the reply that is received. -/
def shown (t : Traffic) : Move → List Entry
  | .call op => (Call.make t.state op t.calls.length).turn.events.map .event
  | .receive i => (t.underWay[i]?).toList.map .reply

/-- What is seen of a run. -/
def log (t : Traffic) : List Move → List Entry
  | [] => []
  | move :: rest => t.shown move ++ (t.next move).log rest

variable {t : Traffic} {ds new : List (Deed Nat)} {log : List Entry} {spot : Nat → Nat}

/-! ## Ends of leases -/

/-- All that has been told of ended leases comes in blocks, one for each session that has ended. -/
structure Endings (t : Traffic) (blocks : List (Nat × List Nat)) : Prop where
  told : t.stream.filter LockEvent.ofEnding = blocks.flatMap ending
  once : (blocks.map (·.1)).Nodup
  distinct : ∀ b ∈ blocks, b.2.Nodup
  gone : ∀ b ∈ blocks, t.state.sessions.contains b.1 = false ∧ b.1 < t.state.sessions.nextId

theorem Endings.start (lease : Nat) : Endings (Traffic.start lease) [] where
  told := rfl
  once := List.nodup_nil
  distinct := fun b hb => by cases hb
  gone := fun b hb => by cases hb

theorem Endings.call {blocks : List (Nat × List Nat)} (he : Endings t blocks) (hl : Ledger t)
    (op : Operation Unit) : ∃ blocks, Endings (t.next (.call op)) blocks := by
  obtain ⟨more, htold, honce, hdistinct, hgone⟩ :=
    t.state.endings_perform (op.mapReply fun _ => t.calls.length)
  have hkept := t.state.kept_perform (op.mapReply fun _ => t.calls.length)
  refine ⟨blocks ++ more, ?_, ?_, ?_, ?_⟩
  · show ((t.calls ++ [Call.make t.state op t.calls.length]).flatMap _).filter _ = _
    rw [List.flatMap_append, List.filter_append, List.flatMap_append, List.flatMap_singleton]
    exact congrArg₂ (· ++ ·) he.told htold
  · rw [List.map_append, List.nodup_append]
    refine ⟨he.once, honce, fun i hi j hj heq => ?_⟩
    -- a session that ends now was registered, and one that has ended is not
    obtain ⟨b, hb, rfl⟩ := List.mem_map.1 hi
    obtain ⟨c, hc, rfl⟩ := List.mem_map.1 hj
    have hbefore := (hgone c hc).1
    rw [← heq, (he.gone b hb).1] at hbefore
    cases hbefore
  · intro b hb
    rcases List.mem_append.1 hb with hb | hb
    · exact he.distinct b hb
    · exact hdistinct b hb
  · intro b hb
    rcases List.mem_append.1 hb with hb | hb
    · obtain ⟨hout, hlt⟩ := he.gone b hb
      refine ⟨?_, Nat.lt_of_lt_of_le hlt hkept.nextId⟩
      rw [← Bool.not_eq_true]
      intro hc
      rcases hkept.fresh b.1 hc with hc | ⟨heq, -⟩
      · rw [hout] at hc
        cases hc
      · omega
    · obtain ⟨hin, hout⟩ := hgone b hb
      exact ⟨hout, Nat.lt_of_lt_of_le (hl.coherent.session_lt b.1 hin) hkept.nextId⟩

theorem Endings.next {blocks : List (Nat × List Nat)} (he : Endings t blocks) (hl : Ledger t)
    (move : Move) : ∃ blocks, Endings (t.next move) blocks := by
  cases move with
  | call op => exact he.call hl op
  | receive i =>
    refine ⟨blocks, ?_⟩
    unfold Traffic.next
    dsimp only
    cases t.underWay[i]? with
    | none => exact he
    | some d => exact { he with }

/-- The end of a session lists the locks that have been released for this reason, all of them
before. -/
theorem Endings.lapses {blocks : List (Nat × List Nat)} (he : Endings t blocks) {sid : Nat}
    {locks : List Nat} {pre post : List LockEvent}
    (hs : t.stream = pre ++ .expired sid locks :: post) :
    locks.Nodup ∧ lapses sid pre = locks ∧ lapses sid post = [] := by
  have hkeep : LockEvent.ofEnding (.expired sid locks) = true := rfl
  have htold := he.told
  rw [hs, List.filter_append, List.filter_cons_of_pos hkeep] at htold
  obtain ⟨hm, h1, h2⟩ := lapses_of_endings he.once htold.symm
  rw [lapses_filter] at h1 h2
  exact ⟨he.distinct _ hm, h1, h2⟩

/-! ## Grants and acquisitions -/

/-- A reply tells of the acquisition at some place of the log. -/
structure Tells (t : Traffic) (log : List Entry) (i : Nat) (d : Notice) (handle : Nat)
    (w : Waiter Nat) (generation : Nat) : Prop where
  /-- The request was made for this handle. -/
  asked : t.Asked handle w
  /-- The reply answers this request. -/
  address : w.reply = d.request
  /-- It carries the generation. -/
  reply : d.reply = (Answer.granted generation).reply
  /-- The acquisition tells of the same session, handle and generation. -/
  told : log[i]? = some (.event (.acquired handle w.session w.mode generation))

/-- Every grant belongs to an acquisition: that of request `n` is at the place `spot n` of the
log. -/
structure Paired (t : Traffic) (log : List Entry) (spot : Nat → Nat) : Prop where
  events : log.filterMap Entry.event? = t.stream
  replies : log.filterMap Entry.reply? = t.received
  tells : ∀ d ∈ t.received ++ t.underWay, d.reply.Grants →
    ∃ handle w generation, Tells t log (spot d.request) d handle w generation
  apart : ∀ d ∈ t.received ++ t.underWay, ∀ d' ∈ t.received ++ t.underWay, d.reply.Grants →
    d'.reply.Grants → spot d.request = spot d'.request → d.request = d'.request
  earlier : ∀ (i : Nat) d, log[i]? = some (.reply d) → d.reply.Grants → spot d.request < i
  once : ∀ (i j : Nat) d d', log[i]? = some (.reply d) → log[j]? = some (.reply d') →
    d.request = d'.request → i = j
  owed : ∀ (i : Nat) handle session mode generation,
    log[i]? = some (.event (.acquired handle session mode generation)) →
      ∃ d ∈ t.received ++ t.underWay, d.reply.Grants ∧ spot d.request = i

/-- The places of the acquisitions among the events of some deeds, by the numbers of the requests
that get the lock. -/
structure Spots (ds : List (Deed Nat)) (spot : Nat → Nat) : Prop where
  told : ∀ handle w generation, (handle, w, generation) ∈ ds.filterMap Deed.grants? →
    (ds.filterMap Deed.event?)[spot w.reply]? =
      some (.acquired handle w.session w.mode generation)
  apart : ∀ p ∈ ds.filterMap Deed.grants?, ∀ q ∈ ds.filterMap Deed.grants?,
    spot p.2.1.reply = spot q.2.1.reply → p.2.1.reply = q.2.1.reply
  owed : ∀ (i : Nat) handle session mode generation,
    (ds.filterMap Deed.event?)[i]? = some (.acquired handle session mode generation) →
      ∃ p ∈ ds.filterMap Deed.grants?, spot p.2.1.reply = i

/-- A deed comes before all others and gives no lock. -/
theorem Spots.cons_other {d : Deed Nat} (hs : Spots ds spot) (hd : d.grants? = none) :
    Spots (d :: ds) fun n => spot n + d.event?.toList.length := by
  have hgrants : (d :: ds).filterMap Deed.grants? = ds.filterMap Deed.grants? := by
    rw [Deed.filterMap_cons, hd]
    rfl
  have hlater : ∀ i, ((d :: ds).filterMap Deed.event?)[i + d.event?.toList.length]? =
      (ds.filterMap Deed.event?)[i]? := by
    intro i
    rw [Deed.filterMap_cons, List.getElem?_append_right (Nat.le_add_left _ _),
      Nat.add_sub_cancel]
  refine ⟨?_, ?_, ?_⟩
  · intro handle w generation hm
    rw [hgrants] at hm
    rw [hlater]
    exact hs.told handle w generation hm
  · intro p hp q hq heq
    rw [hgrants] at hp hq
    exact hs.apart p hp q hq (by omega)
  · intro i handle session mode generation hi
    rw [hgrants]
    rcases Nat.lt_or_ge i d.event?.toList.length with hlt | hge
    · exfalso
      rw [Deed.filterMap_cons, List.getElem?_append_left hlt] at hi
      have hm := Option.mem_toList.1 (List.mem_of_getElem? hi)
      obtain ⟨w, hw, -⟩ := Deed.grants_of_event hm
      rw [hd] at hw
      cases hw
    · have hi' : (ds.filterMap Deed.event?)[i - d.event?.toList.length]? =
          some (.acquired handle session mode generation) := by
        rw [← hlater, Nat.sub_add_cancel hge]
        exact hi
      obtain ⟨p, hp, hspot⟩ := hs.owed _ handle session mode generation hi'
      exact ⟨p, hp, by omega⟩

/-- A deed comes before all others and gives a lock. -/
theorem Spots.cons_grant {d : Deed Nat} {handle generation : Nat} {w : Waiter Nat}
    (hs : Spots ds spot) (hd : d.grants? = some (handle, w, generation))
    (hnew : ∀ p ∈ ds.filterMap Deed.grants?, p.2.1.reply ≠ w.reply) :
    Spots (d :: ds) fun n => if n = w.reply then 0 else spot n + 1 := by
  have hgrants : (d :: ds).filterMap Deed.grants? =
      (handle, w, generation) :: ds.filterMap Deed.grants? := by
    rw [Deed.filterMap_cons, hd]
    rfl
  have hevents : (d :: ds).filterMap Deed.event? =
      .acquired handle w.session w.mode generation :: ds.filterMap Deed.event? := by
    rw [Deed.filterMap_cons, Deed.event?_of_grants hd]
    rfl
  have hold : ∀ p ∈ ds.filterMap Deed.grants?,
      (if p.2.1.reply = w.reply then 0 else spot p.2.1.reply + 1) = spot p.2.1.reply + 1 :=
    fun p hp => if_neg (hnew p hp)
  refine ⟨?_, ?_, ?_⟩
  · intro j v g hm
    rw [hgrants] at hm
    rw [hevents]
    rcases List.mem_cons.1 hm with heq | hm
    · cases heq
      rw [if_pos rfl]
      rfl
    · have hspot := hold _ hm
      dsimp only at hspot ⊢
      rw [hspot, List.getElem?_cons_succ]
      exact hs.told j v g hm
  · intro p hp q hq heq
    rw [hgrants] at hp hq
    rcases List.mem_cons.1 hp with rfl | hp
    · rcases List.mem_cons.1 hq with rfl | hq
      · rfl
      · rw [hold q hq, if_pos rfl] at heq
        omega
    · rcases List.mem_cons.1 hq with rfl | hq
      · rw [hold p hp, if_pos rfl] at heq
        omega
      · rw [hold p hp, hold q hq] at heq
        exact hs.apart p hp q hq (by omega)
  · intro i j session mode g hi
    rw [hevents] at hi
    rw [hgrants]
    cases i with
    | zero => exact ⟨_, List.mem_cons_self, if_pos rfl⟩
    | succ i =>
      rw [List.getElem?_cons_succ] at hi
      obtain ⟨p, hp, hspot⟩ := hs.owed i j session mode g hi
      refine ⟨p, List.mem_cons_of_mem _ hp, ?_⟩
      rw [hold p hp, hspot]

theorem exists_spots (ds : List (Deed Nat))
    (hnd : ((ds.filterMap Deed.grants?).map (·.2.1.reply)).Nodup) : ∃ spot, Spots ds spot := by
  induction ds with
  | nil =>
    refine ⟨fun _ => 0, fun _ _ _ hm => ?_, fun _ hp => ?_, fun _ _ _ _ _ hi => ?_⟩
    · cases hm
    · cases hp
    · cases hi
  | cons d rest ih =>
    rw [Deed.filterMap_cons, List.map_append, List.nodup_append] at hnd
    obtain ⟨spot, hs⟩ := ih hnd.2.1
    cases hd : d.grants? with
    | none => exact ⟨_, hs.cons_other hd⟩
    | some p =>
      obtain ⟨handle, w, generation⟩ := p
      refine ⟨_, hs.cons_grant hd fun p hp heq => ?_⟩
      rw [hd] at hnd
      exact hnd.2.2 _ List.mem_cons_self _ (List.mem_map.2 ⟨p, hp, rfl⟩) heq.symm

/-! ## Grants along a run -/

theorem Tells.mono {i : Nat} {d : Notice} {handle generation : Nat} {w : Waiter Nat}
    (ht : Tells t log i d handle w generation) (more : List Entry) {t' : Traffic}
    (hasked : t'.Asked handle w) : Tells t' (log ++ more) i d handle w generation where
  asked := hasked
  address := ht.address
  reply := ht.reply
  told := by
    rw [List.getElem?_append_left (List.getElem?_eq_some_iff.1 ht.told).1]
    exact ht.told

theorem Paired.start (lease : Nat) : Paired (Traffic.start lease) [] fun _ => 0 where
  events := rfl
  replies := rfl
  tells := fun d hd => by cases hd
  apart := fun d hd => by cases hd
  earlier := fun i d hi => by cases hi
  once := fun i j d d' hi => by cases hi
  owed := fun i handle session mode generation hi => by cases hi

/-- The replies of the log have been received. -/
theorem Paired.heard (hp : Paired t log spot) {i : Nat} {d : Notice}
    (hi : log[i]? = some (.reply d)) : d ∈ t.received := by
  rw [← hp.replies]
  exact List.mem_filterMap.2 ⟨_, List.mem_of_getElem? hi, rfl⟩

/-- The acquisition of a grant has been told. -/
theorem Paired.spot_lt (hp : Paired t log spot) {d : Notice} (hd : d ∈ t.received ++ t.underWay)
    (hg : d.reply.Grants) : spot d.request < log.length := by
  obtain ⟨handle, w, generation, ht⟩ := hp.tells d hd hg
  exact (List.getElem?_eq_some_iff.1 ht.told).1

/-- Nobody has received a reply yet to a request whose reply is on its way. -/
theorem Paired.unheard (hp : Paired t log spot) (hl : Ledger t) {j : Nat} {d e : Notice}
    (hd : d ∈ t.underWay) (hj : log[j]? = some (.reply e)) : e.request ≠ d.request := by
  intro heq
  have hnd := (List.nodup_append.1 (hl.balance.nodup_iff.2 nodup_requests)).1
  exact (List.nodup_append.1 hnd).2.2 _ (List.mem_map.2 ⟨e, hp.heard hj, rfl⟩) _
    (List.mem_map.2 ⟨d, hd, rfl⟩) heq

theorem getElem?_concat {e last : Entry} {j : Nat} (hj : (log ++ [last])[j]? = some e) :
    log[j]? = some e ∨ j = log.length ∧ e = last := by
  rcases Nat.lt_or_ge j log.length with hlt | hge
  · rw [List.getElem?_append_left hlt] at hj
    exact .inl hj
  · rw [List.getElem?_append_right hge] at hj
    obtain ⟨hlt, heq⟩ := List.getElem?_eq_some_iff.1 hj
    rw [List.length_singleton] at hlt
    rw [List.getElem_singleton] at heq
    exact .inr ⟨by omega, heq.symm⟩

/-- A reply is received. -/
theorem Paired.receive (hp : Paired t log spot) (hl : Ledger t) (i : Nat) :
    Paired (t.next (.receive i)) (log ++ t.shown (.receive i)) spot := by
  unfold Traffic.next shown
  dsimp only
  cases hd : t.underWay[i]? with
  | none =>
    rw [Option.toList_none, List.map_nil, List.append_nil]
    exact hp
  | some d =>
    obtain ⟨hi, rfl⟩ := List.getElem?_eq_some_iff.1 hd
    rw [Option.toList_some, List.map_singleton]
    dsimp only
    have hperm : (t.received ++ [t.underWay[i]] ++ t.underWay.eraseIdx i).Perm
        (t.received ++ t.underWay) := by
      rw [List.append_assoc]
      exact (List.getElem_cons_eraseIdx_perm hi).append_left _
    have hway : t.underWay[i] ∈ t.underWay := List.getElem_mem hi
    refine {
      events := ?_
      replies := ?_
      tells := ?_
      apart := ?_
      earlier := ?_
      once := ?_
      owed := ?_ }
    · rw [List.filterMap_append, hp.events]
      exact List.append_nil _
    · rw [List.filterMap_append, hp.replies]
      rfl
    · intro e he hg
      obtain ⟨handle, w, generation, ht⟩ := hp.tells e (hperm.mem_iff.1 he) hg
      exact ⟨handle, w, generation, ht.mono _ ht.asked⟩
    · intro e he e' he'
      exact hp.apart e (hperm.mem_iff.1 he) e' (hperm.mem_iff.1 he')
    · intro j e hj hg
      rcases getElem?_concat hj with hj | ⟨rfl, heq⟩
      · exact hp.earlier j e hj hg
      · cases heq
        exact hp.spot_lt (List.mem_append_right _ hway) hg
    · intro j k e e' hj hk heq
      rcases getElem?_concat hj with hj | ⟨rfl, hfirst⟩
      · rcases getElem?_concat hk with hk | ⟨-, hlast⟩
        · exact hp.once j k e e' hj hk heq
        · cases hlast
          exact absurd heq (hp.unheard hl hway hj)
      · rcases getElem?_concat hk with hk | ⟨rfl, -⟩
        · cases hfirst
          exact absurd heq.symm (hp.unheard hl hway hk)
        · rfl
    · intro j handle session mode generation hj
      rcases getElem?_concat hj with hj | ⟨-, heq⟩
      · obtain ⟨e, he, hrest⟩ := hp.owed j handle session mode generation hj
        exact ⟨e, hperm.mem_iff.2 he, hrest⟩
      · cases heq

section

variable {op : Operation Unit} {registered : Nat → Bool} {d : Notice} {place : Nat → Nat}

/-- The requests that get a lock by some deeds. -/
def grantees (ds : List (Deed Nat)) : List Nat := (ds.filterMap Deed.grants?).map (·.2.1.reply)

theorem reply_mem_grantees {p : Nat × Waiter Nat × Nat} (hp : p ∈ new.filterMap Deed.grants?) :
    p.2.1.reply ∈ grantees new := List.mem_map.2 ⟨p, hp, rfl⟩

/-- A call tells the events of its deeds. -/
theorem events_make
    (hnew : t.state.Carried (op.mapReply fun _ => t.calls.length) registered new) :
    (Call.make t.state op t.calls.length).turn.events = new.filterMap Deed.event? :=
  hnew.did.events

/-- A call gives the answers of its deeds. -/
theorem answers_make
    (hnew : t.state.Carried (op.mapReply fun _ => t.calls.length) registered new) :
    (Call.make t.state op t.calls.length).turn.answers = new.filterMap Deed.message? :=
  hnew.did.answers

/-- The grants that a call tells are those of its deeds. -/
theorem mem_notices_grants
    (hnew : t.state.Carried (op.mapReply fun _ => t.calls.length) registered new)
    (hd : d ∈ (Call.make t.state op t.calls.length).notices t.calls.length)
    (hg : d.reply.Grants) : ∃ p ∈ new.filterMap Deed.grants?, p.2.1.reply = d.request ∧
      d.reply = (Answer.granted p.2.2).reply := by
  obtain ⟨⟨r, a⟩, hm, rfl⟩ := List.mem_map.1 hd
  rw [answers_make hnew] at hm
  obtain ⟨e, he, hmessage⟩ := List.mem_filterMap.1 hm
  obtain ⟨generation, rfl⟩ := Answer.grants_reply hg
  obtain ⟨_, _, hleads⟩ := hnew.did.course.leads_of_mem he
  obtain ⟨handle, w, hgrants, hreply⟩ := hleads.grants hmessage
  exact ⟨_, List.mem_filterMap.2 ⟨e, he, hgrants⟩, hreply, rfl⟩

/-- Every grant of the deeds of a call is told. -/
theorem exists_notice
    (hnew : t.state.Carried (op.mapReply fun _ => t.calls.length) registered new)
    {p : Nat × Waiter Nat × Nat} (hp : p ∈ new.filterMap Deed.grants?) :
    ∃ d ∈ (Call.make t.state op t.calls.length).notices t.calls.length,
      d.reply.Grants ∧ d.request = p.2.1.reply := by
  obtain ⟨handle, w, generation⟩ := p
  obtain ⟨e, he, hgrants⟩ := List.mem_filterMap.1 hp
  have hm : (w.reply, Answer.granted generation) ∈
      (Call.make t.state op t.calls.length).turn.answers := by
    rw [answers_make hnew]
    exact List.mem_filterMap.2 ⟨e, he, Deed.message?_of_grants hgrants⟩
  exact ⟨_, List.mem_map.2 ⟨_, hm, rfl⟩, ⟨_, rfl⟩, rfl⟩

/-- New places for some requests, behind those that a log has already. -/
def respot (fresh : List Nat) (base : Nat) (place spot : Nat → Nat) (n : Nat) : Nat :=
  if n ∈ fresh then base + place n else spot n

theorem respot_of_mem {fresh : List Nat} {n : Nat} (hn : n ∈ fresh) (base : Nat)
    (place spot : Nat → Nat) : respot fresh base place spot n = base + place n := if_pos hn

theorem respot_of_not_mem {fresh : List Nat} {n : Nat} (hn : n ∉ fresh) (base : Nat)
    (place spot : Nat → Nat) : respot fresh base place spot n = spot n := if_neg hn

theorem getElem?_events {events : List LockEvent} {i : Nat} {e : Entry}
    (hi : (log ++ events.map .event)[i]? = some e) : log[i]? = some e ∨
      log.length ≤ i ∧ ∃ x, e = .event x ∧ events[i - log.length]? = some x := by
  rcases Nat.lt_or_ge i log.length with hlt | hge
  · rw [List.getElem?_append_left hlt] at hi
    exact .inl hi
  · rw [List.getElem?_append_right hge, List.getElem?_map, Option.map_eq_some_iff] at hi
    obtain ⟨x, hx, rfl⟩ := hi
    exact .inr ⟨hge, x, rfl, hx⟩

/-- A call adds no replies to the log. -/
theorem reply_of_shown_call {i : Nat} (hi : (log ++ t.shown (.call op))[i]? = some (.reply d)) :
    log[i]? = some (.reply d) := by
  rcases getElem?_events hi with hi | ⟨-, x, hx, -⟩
  · exact hi
  · cases hx

/-- The replies of a call go to requests that have not been answered before, each to another. -/
theorem Ledger.nodup_notices (hl : Ledger (t.next (.call op))) :
    ((t.received ++ t.underWay).map (·.request) ++
      ((Call.make t.state op t.calls.length).notices t.calls.length).map (·.request)).Nodup := by
  have hall : (t.received.map (·.request) ++ (t.underWay ++
      (Call.make t.state op t.calls.length).notices t.calls.length).map (·.request)).Nodup :=
    (List.nodup_append.1 (hl.balance.nodup_iff.2 nodup_requests)).1
  rw [List.map_append, ← List.append_assoc, ← List.map_append] at hall
  exact hall

/-- The requests that get a lock by a call have not been answered before. -/
theorem Ledger.not_mem_grantees (hl : Ledger (t.next (.call op)))
    (hnew : t.state.Carried (op.mapReply fun _ => t.calls.length) registered new)
    (hd : d ∈ t.received ++ t.underWay) : d.request ∉ grantees new := by
  intro hm
  obtain ⟨p, hgrant, heq⟩ := List.mem_map.1 hm
  obtain ⟨e, he, -, hrequest⟩ := exists_notice hnew hgrant
  exact (List.nodup_append.1 hl.nodup_notices).2.2 _ (List.mem_map.2 ⟨d, hd, rfl⟩) _
    (List.mem_map.2 ⟨e, he, rfl⟩) (heq.symm.trans hrequest.symm)

/-- They are different, so that each has a place of its own. -/
theorem Ledger.exists_spots (hl : Ledger (t.next (.call op)))
    (hnew : t.state.Carried (op.mapReply fun _ => t.calls.length) registered new) :
    ∃ place, Spots new place := by
  have hnotices : ((Call.make t.state op t.calls.length).notices t.calls.length).map
      (·.request) = (new.filterMap Deed.message?).map (·.1) := by
    rw [Call.notices, List.map_map, answers_make hnew]
    rfl
  have hnd := (List.nodup_append.1 hl.nodup_notices).2.1
  rw [hnotices] at hnd
  exact Traffic.exists_spots new (hnd.sublist (Deed.grants_sublist new))

/-- After a call there are the replies from before and those of the call. -/
theorem mem_next_call : d ∈ (t.next (.call op)).received ++ (t.next (.call op)).underWay ↔
    d ∈ t.received ++ t.underWay ∨
      d ∈ (Call.make t.state op t.calls.length).notices t.calls.length := by
  show d ∈ t.received ++ (t.underWay ++ _) ↔ _
  rw [← List.append_assoc, List.mem_append]

/-- The grants of a call get the places of their deeds, behind the log. -/
theorem respot_notice
    (hnew : t.state.Carried (op.mapReply fun _ => t.calls.length) registered new)
    (hd : d ∈ (Call.make t.state op t.calls.length).notices t.calls.length)
    (hg : d.reply.Grants) (base : Nat) (place spot : Nat → Nat) :
    ∃ p ∈ new.filterMap Deed.grants?,
      p.2.1.reply = d.request ∧ d.reply = (Answer.granted p.2.2).reply ∧
        respot (grantees new) base place spot d.request = base + place p.2.1.reply := by
  obtain ⟨p, hm, haddress, hreply⟩ := mem_notices_grants hnew hd hg
  refine ⟨p, hm, haddress, hreply, ?_⟩
  rw [← haddress, respot_of_mem (reply_mem_grantees hm)]

theorem Paired.tells_call (hp : Paired t log spot) (hl : Ledger (t.next (.call op)))
    (hc : Chronicle t ds)
    (hnew : t.state.Carried (op.mapReply fun _ => t.calls.length) registered new)
    (hs : Spots new place)
    (hd : d ∈ (t.next (.call op)).received ++ (t.next (.call op)).underWay)
    (hg : d.reply.Grants) : ∃ handle w generation,
      Tells (t.next (.call op)) (log ++ t.shown (.call op))
        (respot (grantees new) log.length place spot d.request) d handle w generation := by
  rcases mem_next_call.1 hd with hd | hd
  · obtain ⟨handle, w, generation, ht⟩ := hp.tells d hd hg
    rw [respot_of_not_mem (hl.not_mem_grantees hnew hd)]
    exact ⟨handle, w, generation, ht.mono _ (ht.asked.call op)⟩
  · obtain ⟨⟨handle, w, generation⟩, hm, haddress, hreply, hspot⟩ :=
      respot_notice hnew hd hg log.length place spot
    obtain ⟨e, he, hgrants⟩ := List.mem_filterMap.1 hm
    have hasked : (t.next (.call op)).Asked handle w :=
      (hc.call hnew).asked_of_grants (List.mem_append_right _ he) hgrants
    refine ⟨handle, w, generation, hasked, haddress, hreply, ?_⟩
    rw [hspot, List.getElem?_append_right (Nat.le_add_right _ _), Nat.add_sub_cancel_left, shown,
      List.getElem?_map, events_make hnew, hs.told handle w generation hm]
    rfl

/-- The grants of a call have other places than those before. -/
theorem Paired.apart_notice (hp : Paired t log spot) (hl : Ledger (t.next (.call op)))
    (hnew : t.state.Carried (op.mapReply fun _ => t.calls.length) registered new) {e : Notice}
    (hd : d ∈ t.received ++ t.underWay)
    (he : e ∈ (Call.make t.state op t.calls.length).notices t.calls.length)
    (hg : d.reply.Grants) (hg' : e.reply.Grants) :
    respot (grantees new) log.length place spot d.request <
      respot (grantees new) log.length place spot e.request := by
  have hlt := hp.spot_lt hd hg
  obtain ⟨p, -, -, -, hspot⟩ := respot_notice hnew he hg' log.length place spot
  rw [respot_of_not_mem (hl.not_mem_grantees hnew hd), hspot]
  omega

theorem Paired.apart_call (hp : Paired t log spot) (hl : Ledger (t.next (.call op)))
    (hnew : t.state.Carried (op.mapReply fun _ => t.calls.length) registered new)
    (hs : Spots new place) {e : Notice}
    (hd : d ∈ (t.next (.call op)).received ++ (t.next (.call op)).underWay)
    (he : e ∈ (t.next (.call op)).received ++ (t.next (.call op)).underWay)
    (hg : d.reply.Grants) (hg' : e.reply.Grants)
    (heq : respot (grantees new) log.length place spot d.request =
      respot (grantees new) log.length place spot e.request) : d.request = e.request := by
  rcases mem_next_call.1 hd with hd | hd
  · rcases mem_next_call.1 he with he | he
    · rw [respot_of_not_mem (hl.not_mem_grantees hnew hd),
        respot_of_not_mem (hl.not_mem_grantees hnew he)] at heq
      exact hp.apart d hd e he hg hg' heq
    · exact absurd heq (Nat.ne_of_lt (hp.apart_notice hl hnew hd he hg hg'))
  · rcases mem_next_call.1 he with he | he
    · exact absurd heq.symm (Nat.ne_of_lt (hp.apart_notice hl hnew he hd hg' hg))
    · obtain ⟨p, hm, haddress, -, hspot⟩ := respot_notice hnew hd hg log.length place spot
      obtain ⟨q, hm', haddress', -, hspot'⟩ := respot_notice hnew he hg' log.length place spot
      rw [← haddress, ← haddress']
      exact hs.apart p hm q hm' (by omega)

theorem Paired.owed_call (hp : Paired t log spot) (hl : Ledger (t.next (.call op)))
    (hnew : t.state.Carried (op.mapReply fun _ => t.calls.length) registered new)
    (hs : Spots new place) {i handle session generation : Nat} {mode : Mode}
    (hi : (log ++ t.shown (.call op))[i]? =
      some (.event (.acquired handle session mode generation))) :
    ∃ d ∈ (t.next (.call op)).received ++ (t.next (.call op)).underWay,
      d.reply.Grants ∧ respot (grantees new) log.length place spot d.request = i := by
  rcases getElem?_events hi with hi | ⟨hle, x, hx, hi⟩
  · obtain ⟨d, hd, hg, hspot⟩ := hp.owed i handle session mode generation hi
    refine ⟨d, mem_next_call.2 (.inl hd), hg, ?_⟩
    rw [respot_of_not_mem (hl.not_mem_grantees hnew hd), hspot]
  · cases hx
    rw [events_make hnew] at hi
    obtain ⟨p, hm, hplace⟩ := hs.owed _ handle session mode generation hi
    obtain ⟨d, hd, hg, hrequest⟩ := exists_notice hnew hm
    refine ⟨d, mem_next_call.2 (.inr hd), hg, ?_⟩
    rw [hrequest, respot_of_mem (reply_mem_grantees hm), hplace]
    omega

/-- A call is made. -/
theorem Paired.call (hp : Paired t log spot) (hl : Ledger (t.next (.call op)))
    (hc : Chronicle t ds)
    (hnew : t.state.Carried (op.mapReply fun _ => t.calls.length) registered new) :
    ∃ spot, Paired (t.next (.call op)) (log ++ t.shown (.call op)) spot := by
  obtain ⟨place, hs⟩ := hl.exists_spots hnew
  refine ⟨respot (grantees new) log.length place spot, ?_⟩
  refine {
    events := ?_
    replies := ?_
    tells := fun d hd hg => hp.tells_call hl hc hnew hs hd hg
    apart := fun d hd e he hg hg' heq => hp.apart_call hl hnew hs hd he hg hg' heq
    earlier := ?_
    once := ?_
    owed := fun i handle session mode generation hi => hp.owed_call hl hnew hs hi }
  · show _ = (t.calls ++ [Call.make t.state op t.calls.length]).flatMap _
    rw [List.flatMap_append, List.flatMap_singleton, List.filterMap_append, hp.events, shown,
      List.filterMap_map]
    exact congrArg (t.stream ++ ·) List.filterMap_some
  · rw [List.filterMap_append, hp.replies, shown, List.filterMap_map]
    refine (congrArg (t.received ++ ·) ?_).trans (List.append_nil _)
    exact List.filterMap_eq_nil_iff.2 fun _ _ => rfl
  · intro i d hi hg
    have hbefore := reply_of_shown_call hi
    have hheard := List.mem_append_left t.underWay (hp.heard hbefore)
    rw [respot_of_not_mem (hl.not_mem_grantees hnew hheard)]
    exact hp.earlier i d hbefore hg
  · intro i j d d' hi hj
    exact hp.once i j d d' (reply_of_shown_call hi) (reply_of_shown_call hj)

end

/-! ## Faithful logs -/

/-- The log of a run is a faithful history of its locks. -/
structure Faithful (t : Traffic) (log : List Entry) : Prop where
  /-- Whoever reads the events one after another, beginning with no locks, finds that every one
  fits what has been read before: a lock is given to a session that does not hold it, beside
  holders that admit it and in the generation that is due, and it is taken from a session that
  holds it.  In the end this leads to the present holders and generations of all handles. -/
  replay : ∃ b, Board.blank.replay? (log.filterMap Entry.event?) = some b ∧
    (∀ handle, b.holders handle = ((t.state.handle? handle).map (·.holders)).getD ∅) ∧
    ∀ handle x, t.state.handle? handle = some x → b.generation handle = x.generation
  /-- The end of a session lists, once each, the locks that have been released because the lease
  of this session has ended, and all of them have been released before. -/
  ends : ∀ pre sid locks post,
    log.filterMap Entry.event? = pre ++ .expired sid locks :: post →
      locks.Nodup ∧ lapses sid pre = locks ∧ lapses sid post = []
  /-- The grants that have been received belong to acquisitions: each to one that has been told
  before, with the session, the handle and the generation of the grant, and no two to the same
  one.  Where an acquisition has been told and its grant has not been received, it is on its
  way. -/
  matched : ∃ mate : Nat → Nat,
    (∀ (i : Nat) d, log[i]? = some (.reply d) → d.reply.Grants → mate i < i ∧
      ∃ handle w generation, Tells t log (mate i) d handle w generation) ∧
    (∀ (i j : Nat) d d', log[i]? = some (.reply d) → log[j]? = some (.reply d') →
      d.reply.Grants → d'.reply.Grants → mate i = mate j → i = j) ∧
    ∀ (k : Nat) handle session mode generation,
      log[k]? = some (.event (.acquired handle session mode generation)) →
        (∃ (i : Nat) (d : Notice), log[i]? = some (.reply d) ∧ d.reply.Grants ∧ mate i = k) ∨
          ∃ d ∈ t.underWay, ∃ w, Tells t log k d handle w generation

/-- The place of the acquisition to which the reply at a place of the log belongs. -/
def mate (log : List Entry) (spot : Nat → Nat) (i : Nat) : Nat :=
  match log[i]? with
  | some (.reply d) => spot d.request
  | _ => 0

theorem mate_of_reply {i : Nat} {d : Notice} (hi : log[i]? = some (.reply d)) :
    mate log spot i = spot d.request := by
  unfold mate
  rw [hi]

theorem Paired.faithful {blocks : List (Nat × List Nat)} (hp : Paired t log spot)
    (hc : Chronicle t ds) (he : Endings t blocks) : Faithful t log where
  replay := by
    obtain ⟨b, hb, hshows⟩ := hc.course.replay? (fun _ _ hx => by cases hx) Board.shows_blank
    refine ⟨b, ?_, hshows.holders, hshows.generation⟩
    rw [hp.events, hc.events]
    exact hb
  ends := by
    intro pre sid locks post hsplit
    exact he.lapses (hp.events.symm.trans hsplit)
  matched := by
    have hheard : ∀ (i : Nat) d, log[i]? = some (.reply d) → d ∈ t.received ++ t.underWay :=
      fun i d hi => List.mem_append_left _ (hp.heard hi)
    refine ⟨mate log spot, fun i d hi hg => ⟨?_, ?_⟩, fun i j d d' hi hj hg hg' heq => ?_,
      fun k handle session mode generation hk => ?_⟩
    · rw [mate_of_reply hi]
      exact hp.earlier i d hi hg
    · rw [mate_of_reply hi]
      exact hp.tells d (hheard i d hi) hg
    · rw [mate_of_reply hi, mate_of_reply hj] at heq
      exact hp.once i j d d' hi hj (hp.apart d (hheard i d hi) d' (hheard j d' hj) hg hg' heq)
    · obtain ⟨d, hd, hg, hspot⟩ := hp.owed k handle session mode generation hk
      rcases List.mem_append.1 hd with hreceived | hway
      · left
        rw [← hp.replies] at hreceived
        obtain ⟨e, hm, he⟩ := List.mem_filterMap.1 hreceived
        obtain ⟨i, hi⟩ := List.getElem?_of_mem hm
        cases e with
        | event e => cases he
        | reply d' =>
          cases he
          exact ⟨i, d, hi, hg, (mate_of_reply hi).trans hspot⟩
      · right
        obtain ⟨handle', w, generation', ht⟩ := hp.tells d hd hg
        rw [hspot] at ht
        have heq := ht.told.symm.trans hk
        cases heq
        exact ⟨d, hway, w, ht⟩

/-- In every run, however calls and the delivery of their replies follow each other, what can be
seen is a faithful history of the locks. -/
theorem faithful_log (lease : Nat) (moves : List Move) :
    Faithful ((start lease).run moves) ((start lease).log moves) := by
  have key : ∀ t ds blocks log spot, Ledger t → Chronicle t ds → Endings t blocks →
      Paired t log spot → Faithful (t.run moves) (log ++ t.log moves) := by
    induction moves with
    | nil =>
      intro t ds blocks log spot _ hc he hp
      have hlog : log ++ t.log [] = log := List.append_nil _
      rw [hlog]
      exact hp.faithful hc he
    | cons move rest ih =>
      intro t ds blocks log spot hl hc he hp
      have hl' := hl.next move
      obtain ⟨blocks', he'⟩ := he.next hl move
      have hlog : log ++ t.log (move :: rest) =
          (log ++ t.shown move) ++ (t.next move).log rest := (List.append_assoc _ _ _).symm
      rw [hlog]
      cases move with
      | call op =>
        obtain ⟨registered, new, hnew⟩ :=
          State.carried_perform hl.coherent (op.mapReply fun _ => t.calls.length)
        obtain ⟨spot', hp'⟩ := hp.call hl' hc hnew
        exact ih _ _ _ _ _ hl' (hc.call hnew) he' hp'
      | receive i => exact ih _ _ _ _ _ hl' (hc.receive i) he' (hp.receive hl i)
  exact key _ _ _ _ _ (.start lease) (.start lease) (.start lease) (.start lease)

end Traffic

end LeaseLock.Coordinator
