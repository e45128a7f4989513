import LeaseLock.Proofs.Coordinator.Registry
import LeaseLock.Proofs.Coordinator.Traffic

/-
  LeaseLock: what is told when leases end.
  The events that tell of ended leases come in blocks, one for each session: the locks that the
  session held are released, and then its end is told (`ending`).  No other operation tells of an
  ended lease, and no session ends twice, because ids are not used again (`Traffic.Endings`).
  Hence the locks that the end of a session lists are exactly those that have been released for
  this reason, all of them before (`lapses_of_endings`).
-/

namespace LeaseLock.Coordinator

namespace LockEvent

/-- Whether an event tells of an ended lease. -/
def ofEnding : LockEvent → Bool
  | .released _ _ .sessionExpired => true
  | .expired _ _ => true
  | _ => false

/-- The handle whose lock has been released because the lease of this session has ended. -/
def lapse? (sid : Nat) : LockEvent → Option Nat
  | .released handle session .sessionExpired => if session = sid then some handle else none
  | _ => none

end LockEvent

/-- The handles whose locks have been released because the lease of this session has ended. -/
def lapses (sid : Nat) (events : List LockEvent) : List Nat :=
  events.filterMap (LockEvent.lapse? sid)

/-- What is told of a session whose lease has ended, and of the locks that it held. -/
def ending (e : Nat × List Nat) : List LockEvent :=
  (e.2.map fun handle => .released handle e.1 .sessionExpired) ++ [.expired e.1 e.2]

/-! ## Blocks of events -/

theorem lapses_append (sid : Nat) (first rest : List LockEvent) :
    lapses sid (first ++ rest) = lapses sid first ++ lapses sid rest := List.filterMap_append

/-- Other events do not matter. -/
theorem lapses_filter (sid : Nat) (events : List LockEvent) :
    lapses sid (events.filter LockEvent.ofEnding) = lapses sid events := by
  unfold lapses
  rw [List.filterMap_filter]
  congr 1
  funext e
  cases e with
  | released handle session reason => cases reason <;> rfl
  | acquired handle session mode generation => rfl
  | expired session released => rfl

theorem lapses_released (sid session : Nat) (locks : List Nat) :
    lapses sid (locks.map fun handle => .released handle session .sessionExpired) =
      if session = sid then locks else [] := by
  unfold lapses
  rw [List.filterMap_map]
  split
  · rename_i heq
    subst heq
    induction locks with
    | nil => rfl
    | cons handle rest ih =>
      have hlapse : LockEvent.lapse? session (.released handle session .sessionExpired) =
          some handle := if_pos rfl
      rw [List.filterMap_cons, Function.comp_apply, hlapse, ih]
  · rename_i hne
    rw [List.filterMap_eq_nil_iff]
    intro handle _
    exact if_neg hne

theorem lapses_ending (sid : Nat) (e : Nat × List Nat) :
    lapses sid (ending e) = if e.1 = sid then e.2 else [] := by
  unfold ending
  rw [lapses_append, lapses_released]
  exact List.append_nil _

theorem lapses_endings_eq_nil {sid : Nat} {blocks : List (Nat × List Nat)}
    (hs : sid ∉ blocks.map (·.1)) : lapses sid (blocks.flatMap ending) = [] := by
  induction blocks with
  | nil => rfl
  | cons e rest ih =>
    rw [List.map_cons, List.mem_cons, not_or] at hs
    rw [List.flatMap_cons, lapses_append, lapses_ending, if_neg (Ne.symm hs.1), ih hs.2]
    rfl

/-- The end of a session is told at the end of its block. -/
theorem ending_split {e : Nat × List Nat} {sid : Nat} {locks : List Nat}
    {pre post : List LockEvent} (he : ending e = pre ++ .expired sid locks :: post) :
    e = (sid, locks) ∧ post = [] ∧
      pre = e.2.map fun handle => .released handle e.1 .sessionExpired := by
  unfold ending at he
  rcases List.eq_nil_or_concat post with rfl | ⟨init, last, rfl⟩
  · obtain ⟨hpre, hlast⟩ := List.append_inj' he rfl
    obtain ⟨h1, h2⟩ := LockEvent.expired.inj (List.cons.inj hlast).1
    exact ⟨Prod.ext h1 h2, rfl, hpre.symm⟩
  · -- otherwise it would stand among the releases
    exfalso
    rw [List.concat_eq_append, ← List.cons_append, ← List.append_assoc] at he
    obtain ⟨hpre, -⟩ := List.append_inj' he rfl
    have hm : LockEvent.expired sid locks ∈
        e.2.map fun handle => LockEvent.released handle e.1 .sessionExpired := by
      rw [hpre]
      exact List.mem_append_right _ List.mem_cons_self
    obtain ⟨handle, -, heq⟩ := List.mem_map.1 hm
    cases heq

/-- The locks that the end of a session lists are those that have been released for this reason,
all of them before. -/
theorem lapses_of_endings {blocks : List (Nat × List Nat)} (hnd : (blocks.map (·.1)).Nodup)
    {sid : Nat} {locks : List Nat} {pre post : List LockEvent}
    (he : blocks.flatMap ending = pre ++ .expired sid locks :: post) :
    (sid, locks) ∈ blocks ∧ lapses sid pre = locks ∧ lapses sid post = [] := by
  induction blocks generalizing pre with
  | nil =>
    rw [List.flatMap_nil] at he
    exact absurd he.symm (by simp)
  | cons e rest ih =>
    rw [List.map_cons, List.nodup_cons] at hnd
    -- the end of the session is told in a later block
    have hlater : ∀ mid, pre = ending e ++ mid →
        rest.flatMap ending = mid ++ .expired sid locks :: post →
        (sid, locks) ∈ e :: rest ∧ lapses sid pre = locks ∧ lapses sid post = [] := by
      intro mid hpre hmid
      obtain ⟨hm, h1, h2⟩ := ih hnd.2 hmid
      have hne : e.1 ≠ sid := fun heq => hnd.1 (List.mem_map.2 ⟨_, hm, heq.symm⟩)
      refine ⟨List.mem_cons_of_mem _ hm, ?_, h2⟩
      rw [hpre, lapses_append, lapses_ending, if_neg hne, h1]
      rfl
    rw [List.flatMap_cons, List.append_eq_append_iff] at he
    rcases he with ⟨mid, hpre, hmid⟩ | ⟨tail, hblock, htail⟩
    · exact hlater mid hpre hmid
    · cases tail with
      | nil =>
        rw [List.append_nil] at hblock
        exact hlater [] (by rw [List.append_nil, hblock]) htail.symm
      | cons x tail =>
        obtain ⟨rfl, hpost⟩ := List.cons.inj htail
        obtain ⟨rfl, rfl, rfl⟩ := ending_split hblock
        refine ⟨List.mem_cons_self, ?_, ?_⟩
        · rw [lapses_released, if_pos rfl]
        · rw [hpost]
          exact lapses_endings_eq_nil hnd.1

/-! ## What turns tell -/

namespace Turn

variable {ρ : Type}

/-- What an operation has told of ended leases so far. -/
def endings (t : Turn ρ) : List LockEvent := t.events.filter LockEvent.ofEnding

theorem filter_grants_eq_nil (served : List (Handle.Admission ρ)) (handle : Nat) :
    (served.filterMap (Handle.Admission.event? handle)).filter LockEvent.ofEnding = [] := by
  rw [List.filter_eq_nil_iff]
  intro e he
  obtain ⟨a, -, ha⟩ := List.mem_filterMap.1 he
  cases a with
  | granted w generation =>
    cases ha
    exact Bool.false_ne_true
  | lapsed w => cases ha

theorem endings_pump (t : Turn ρ) (handle : Nat) : (t.pump handle).endings = t.endings := by
  unfold endings
  cases hx : t.state.handle? handle with
  | none => rw [pump_of_none hx]
  | some x =>
    rw [(pumped_pump hx).events, List.filter_append, filter_grants_eq_nil, List.append_nil]

theorem endings_detach (t : Turn ρ) (handle session : Nat) (reason : ReleaseReason) :
    (t.detach handle session reason).2.endings = t.endings ++
      if (t.detach handle session reason).1 then
        [LockEvent.released handle session reason].filter LockEvent.ofEnding else [] := by
  unfold endings
  cases hx : t.state.handle? handle with
  | none =>
    rw [detach_of_none hx]
    exact (List.append_nil _).symm
  | some x =>
    have hr := detached_detach hx session reason
    rw [hr.events, hr.released, List.filter_append, List.filter_append, filter_grants_eq_nil,
      List.append_nil]
    split <;> rfl

/-- Sessions that leave their handles for another reason tell nothing of ended leases. -/
theorem endings_detach_of_ne (t : Turn ρ) (handle session : Nat) {reason : ReleaseReason}
    (hr : reason ≠ .sessionExpired) :
    (t.detach handle session reason).2.endings = t.endings := by
  have hnone : [LockEvent.released handle session reason].filter LockEvent.ofEnding = [] := by
    cases reason with
    | sessionExpired => exact absurd rfl hr
    | explicit => rfl
    | handleClosed => rfl
    | sessionClosed => rfl
  rw [endings_detach, hnone, ite_self, List.append_nil]

theorem endings_detachAll_of_ne (t : Turn ρ) (session : Nat) {reason : ReleaseReason}
    (hr : reason ≠ .sessionExpired) (handles : List Nat) :
    (t.detachAll session reason handles).2.endings = t.endings :=
  detachAll_induction (P := fun _ t' => t'.endings = t.endings)
    (fun h _ t' ht => (t'.endings_detach_of_ne h session hr).trans ht) handles [] rfl

/-- Of a session that leaves its handles because its lease has ended it is told which locks are
released. -/
theorem endings_detachAll (t : Turn ρ) (session : Nat) (handles : List Nat) :
    (t.detachAll session .sessionExpired handles).2.endings = t.endings ++
      (t.detachAll session .sessionExpired handles).1.map
        fun handle => .released handle session .sessionExpired := by
  induction handles generalizing t with
  | nil => exact (List.append_nil _).symm
  | cons handle rest ih =>
    have hfirst := t.endings_detach handle session .sessionExpired
    unfold detachAll
    dsimp only
    rw [ih, hfirst]
    split
    · rw [List.append_assoc]
      rfl
    · rw [List.append_nil]

/-- Only locks of handles that the session had open are released. -/
theorem released_sublist (t : Turn ρ) (session : Nat) (reason : ReleaseReason)
    (handles : List Nat) : (t.detachAll session reason handles).1.Sublist handles := by
  induction handles generalizing t with
  | nil => exact List.Sublist.refl _
  | cons handle rest ih =>
    unfold detachAll
    dsimp only
    split
    · exact (ih _).cons_cons handle
    · exact (ih _).cons handle

theorem endings_expireAll (t : Turn ρ) (gone : List (Nat × Session)) :
    ∃ blocks : List (Nat × List Nat),
      (t.expireAll gone).endings = t.endings ++ blocks.flatMap ending ∧
      blocks.map (·.1) = gone.map (·.1) ∧ ∀ b ∈ blocks, b.2.Nodup := by
  induction gone generalizing t with
  | nil => exact ⟨[], (List.append_nil _).symm, rfl, fun b hb => by cases hb⟩
  | cons e rest ih =>
    obtain ⟨session, o⟩ := e
    have hreleased := t.released_sublist session .sessionExpired o.opened.keys
    have htold := t.endings_detachAll session o.opened.keys
    unfold expireAll
    dsimp only
    generalize t.detachAll session .sessionExpired o.opened.keys = r at hreleased htold ⊢
    obtain ⟨blocks, hevents, hids, hnodup⟩ := ih (r.2.emit (.expired session r.1))
    refine ⟨(session, r.1) :: blocks, ?_, ?_, ?_⟩
    · have hemit : (r.2.emit (.expired session r.1)).endings =
          r.2.endings ++ [.expired session r.1] := List.filter_append _ _
      rw [hevents, hemit, htold, List.flatMap_cons, ending]
      simp only [List.append_assoc]
    · rw [List.map_cons, List.map_cons, hids]
    · intro b hb
      rcases List.mem_cons.1 hb with rfl | hb
      · exact (Table.nodup_keys o.opened).sublist hreleased
      · exact hnodup b hb

end Turn

/-! ## What operations tell -/

namespace State

variable {ρ : Type}

theorem endings_release (s : State ρ) (session handle : Nat) :
    (s.release session handle).2.endings = [] := by
  rcases s.release_cases session handle with ⟨-, fault, heq⟩ | ⟨x, t, hx, hu, heq⟩
  · rw [heq]
    rfl
  · rw [heq, Turn.endings_pump]
    show t.events.filter _ = []
    rw [hu.events]
    split <;> rfl

theorem endings_cancel (s : State ρ) (session handle : Nat) :
    (s.cancel session handle).2.endings = [] := by
  rcases s.cancel_cases session handle with ⟨-, heq⟩ | ⟨x, t, hx, hw, heq⟩
  · rw [heq]
    rfl
  · rw [heq, Turn.endings_pump]
    show t.events.filter _ = []
    rw [hw.events]
    rfl

theorem endings_acquire (s : State ρ) (session handle : Nat) (mode : Mode) (tryOnly : Bool)
    (reply : ρ) : (s.acquire session handle mode tryOnly reply).2.endings = [] := by
  have hr := s.requested_acquire session handle mode tryOnly reply
  generalize s.acquire session handle mode tryOnly reply = r at hr ⊢
  cases hr <;> rfl

theorem endings_dispatch (s : State ρ) (session : Nat) (payload : Bytes) (reply : ρ) :
    (s.dispatch session payload reply).2.endings = [] := by
  rcases s.dispatch_cases session payload reply with ⟨request, mode, -, heq⟩ | ⟨fault, -, heq⟩
  · rw [heq]
    exact s.endings_acquire _ _ _ _ _
  · rw [heq]
    rfl

theorem endings_closeSession (s : State ρ) (session : Nat) :
    (s.closeSession session).2.endings = [] := by
  rcases s.closeSession_cases session with ⟨-, heq⟩ | ⟨gone, -, heq⟩
  · rw [heq]
    rfl
  · rw [heq]
    refine (Turn.endings_detachAll_of_ne _ session ?_ _).trans rfl
    decide

theorem endings_closeHandle (s : State ρ) (session handle : Nat) :
    (s.closeHandle session handle).2.endings = [] := by
  rcases s.closeHandle_cases session handle with ⟨fault, heq⟩ | ⟨-, heq⟩
  · rw [heq]
    rfl
  · rw [heq]
    refine (Turn.endings_detach_of_ne _ handle session ?_).trans rfl
    decide

/-- Whose lease has ended is registered before the sweep and not afterwards. -/
theorem not_contains_expire (s : State ρ) {now : Nat} {e : Nat × Session}
    (he : e ∈ s.lapsed now) : s.sessions.contains e.1 = true ∧
      (s.expire now).2.state.sessions.contains e.1 = false := by
  obtain ⟨ho, hl⟩ := mem_lapsed.1 he
  have hsame := Turn.sessions_expireAll
    (.start (s.unregister ((s.lapsed now).map (·.1)))) (s.lapsed now)
  refine ⟨Sessions.contains_iff.2 ⟨e.2, ho⟩, (hsame.contains e.1).trans ?_⟩
  show (s.unregister _).sessions.contains e.1 = false
  rw [contains_unregister, contains_lapsed.2 ⟨e.2, ho, hl⟩]
  rfl

/-- An operation tells of ended leases in blocks, one for each session that leaves the registry
with it. -/
theorem endings_perform (s : State ρ) (op : Operation ρ) :
    ∃ blocks : List (Nat × List Nat),
      (s.perform op).2.endings = blocks.flatMap ending ∧ (blocks.map (·.1)).Nodup ∧
      (∀ b ∈ blocks, b.2.Nodup) ∧ ∀ b ∈ blocks, s.sessions.contains b.1 = true ∧
        (s.perform op).2.state.sessions.contains b.1 = false := by
  have hnone : (s.perform op).2.endings = [] →
      ∃ blocks : List (Nat × List Nat),
      (s.perform op).2.endings = blocks.flatMap ending ∧ (blocks.map (·.1)).Nodup ∧
        (∀ b ∈ blocks, b.2.Nodup) ∧ ∀ b ∈ blocks, s.sessions.contains b.1 = true ∧
          (s.perform op).2.state.sessions.contains b.1 = false := by
    intro he
    exact ⟨[], he, List.nodup_nil, fun b hb => (by cases hb), fun b hb => (by cases hb)⟩
  cases op with
  | createSession now => exact hnone rfl
  | renew session now => exact hnone rfl
  | closeSession session => exact hnone (s.endings_closeSession session)
  | openHandle session name => exact hnone rfl
  | closeHandle session handle => exact hnone (s.endings_closeHandle session handle)
  | acquire session handle mode tryOnly reply =>
    exact hnone (s.endings_acquire session handle mode tryOnly reply)
  | dispatch session payload reply => exact hnone (s.endings_dispatch session payload reply)
  | release session handle => exact hnone (s.endings_release session handle)
  | cancel session handle => exact hnone (s.endings_cancel session handle)
  | expire now =>
    obtain ⟨blocks, hevents, hids, hnodup⟩ := Turn.endings_expireAll
      (.start (s.unregister ((s.lapsed now).map (·.1)))) (s.lapsed now)
    refine ⟨blocks, hevents, ?_, hnodup, fun b hb => ?_⟩
    · rw [hids]
      unfold List.Nodup
      rw [List.pairwise_map]
      exact (s.pairwise_lapsed now).imp fun h => Nat.ne_of_lt h
    · have hm : b.1 ∈ (s.lapsed now).map (·.1) := by
        rw [← hids]
        exact List.mem_map.2 ⟨b, hb, rfl⟩
      obtain ⟨e, he, heq⟩ := List.mem_map.1 hm
      rw [← heq]
      exact s.not_contains_expire he

end State

end LeaseLock.Coordinator
