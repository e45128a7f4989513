import LeaseLock.Fanout
import LeaseLock.Proofs.Table

/-
  LeaseLock: the tables and the counts of a fan-out.
  A sub-request is entered, taken out or sent again, and nothing else touches the tables.  Each of
  these keeps the two tables in step, and the counts but for the sub-requests that were entered or
  taken out and are still to be counted (`Balanced`).  What is kept when one sub-request is taken
  out is kept when all those of an endpoint are (`sweep_induction`).
-/

namespace LeaseLock.Fanout

variable {s : State} {id timer : Nat} {p : Pending}

/-! ## Changes of the tables -/

/-- A sub-request is taken out. -/
def State.without (s : State) (id : Nat) (p : Pending) : State :=
  { s with pending := s.pending.erase id, byTimer := s.byTimer.erase p.timer }

/-- A sub-request is entered under an id that is free. -/
def State.entered (s : State) (id : Nat) (p : Pending) : State :=
  { s with pending := s.pending.insert id p, byTimer := s.byTimer.insert p.timer id }

/-- A sub-request whose timer has fired is to be sent again, and gets another timer. -/
def State.resent (s : State) (id : Nat) (p : Pending) (timer : Nat) : State :=
  { s with
    byTimer := (s.byTimer.erase p.timer).insert timer id
    pending := s.pending.insert id { p with timer, retries := p.retries + 1 }
    stats := { s.stats with retries := s.stats.retries + 1 }
    countdowns := s.countdowns.modify p.token.countdown fun c => c.retried p.token.epoch }

theorem take_of_some (hp : s.pending.get? id = some p) :
    s.take id = (some p, s.without id p) := by
  unfold State.take
  rw [hp]
  rfl

theorem take_of_none (hp : s.pending.get? id = none) : s.take id = (none, s) := by
  unfold State.take
  rw [hp]

theorem enter_of_none (hfree : s.pending.get? id = none) : s.enter id p = s.entered id p := by
  unfold State.enter
  dsimp only
  rw [hfree]
  rfl

/-- The timer that has fired is forgotten before the sub-request gets another one. -/
theorem rearm_of_some (hp : s.pending.get? id = some p) (timer : Nat) :
    { s with byTimer := s.byTimer.erase p.timer }.rearm id timer =
      (some { p with timer, retries := p.retries + 1 }, s.resent id p timer) := by
  unfold State.rearm
  dsimp only
  rw [hp]
  rfl

/-- A sub-request whose timer was forgotten is taken out as if that had not happened. -/
theorem take_of_forgotten (hp : s.pending.get? id = some p) :
    { s with byTimer := s.byTimer.erase p.timer }.take id = (some p, s.without id p) := by
  rw [take_of_some (s := { s with byTimer := s.byTimer.erase p.timer }) hp]
  unfold State.without
  rw [Table.erase_of_none (Table.get?_erase_self _ _)]

/-! ## Tables in step -/

/-- Each pending sub-request has its own timer, and no other timer is known. -/
def InStep (byTimer : Table Nat) (pending : Table Pending) : Prop :=
  ∀ timer id, byTimer.get? timer = some id ↔ ∃ p, pending.get? id = some p ∧ p.timer = timer

namespace InStep

variable {byTimer : Table Nat} {pending : Table Pending}

theorem erase (h : InStep byTimer pending) (hp : pending.get? id = some p) :
    InStep (byTimer.erase p.timer) (pending.erase id) := by
  have hold : byTimer.get? p.timer = some id := (h p.timer id).2 ⟨p, hp, rfl⟩
  intro timer j
  rw [Table.get?_erase, Table.get?_erase]
  by_cases hj : j = id
  · subst hj
    rw [if_pos rfl]
    refine ⟨fun ht => ?_, nofun⟩
    split at ht
    · cases ht
    · rename_i hne
      obtain ⟨q, hq, hsame⟩ := (h timer j).1 ht
      obtain rfl : p = q := Option.some.inj (hp.symm.trans hq)
      exact absurd hsame.symm hne
  · rw [if_neg hj, ← h]
    split
    · subst_vars
      rw [hold]
      exact ⟨nofun, fun heq => absurd (Option.some.inj heq).symm hj⟩
    · rfl

theorem insert (h : InStep byTimer pending) (hfree : pending.get? id = none)
    (hnew : byTimer.get? p.timer = none) :
    InStep (byTimer.insert p.timer id) (pending.insert id p) := by
  intro timer j
  rw [Table.get?_insert, Table.get?_insert]
  by_cases hj : j = id
  · subst hj
    rw [if_pos rfl]
    constructor
    · intro ht
      split at ht
      · rename_i htimer
        exact ⟨p, rfl, htimer.symm⟩
      · obtain ⟨q, hq, -⟩ := (h timer j).1 ht
        cases hfree.symm.trans hq
    · rintro ⟨q, hq, htimer⟩
      cases hq
      rw [if_pos htimer.symm]
  · rw [if_neg hj, ← h]
    split
    · subst_vars
      rw [hnew]
      exact ⟨fun heq => absurd (Option.some.inj heq).symm hj, nofun⟩
    · rfl

theorem resend (h : InStep byTimer pending) (hp : pending.get? id = some p)
    (hnew : byTimer.get? timer = none) : InStep ((byTimer.erase p.timer).insert timer id)
      (pending.insert id { p with timer, retries := p.retries + 1 }) := by
  have hfree : (byTimer.erase p.timer).get? timer = none := by
    rw [Table.get?_erase, hnew]
    split <;> rfl
  rw [← Table.insert_erase pending]
  exact (h.erase hp).insert (p := { p with timer, retries := p.retries + 1 })
    (Table.get?_erase_self _ _) hfree

end InStep

/-! ## Counts -/

/-- The two tables are in step, and so are the counts, when so many sub-requests that were entered
and so many that were taken out are still to be counted. -/
structure Balanced (s : State) (fresh owed : Nat) : Prop where
  timers : InStep s.byTimer s.pending
  /-- Whatever was sent has been answered, has failed or is pending. -/
  sent : s.stats.sent + fresh = s.stats.replies + s.stats.failures + s.inFlight + owed
  timeouts : s.stats.timeouts ≤ s.stats.failures

theorem balanced_empty (config : Config) : Balanced (.empty config) 0 0 where
  timers := fun _ _ => ⟨nofun, fun ⟨_, hp, _⟩ => by cases hp⟩
  sent := rfl
  timeouts := Nat.le_refl 0

namespace Balanced

variable {fresh owed : Nat}

theorem without (h : Balanced s fresh owed) (hp : s.pending.get? id = some p) :
    Balanced (s.without id p) fresh (owed + 1) := by
  refine ⟨h.timers.erase hp, ?_, h.timeouts⟩
  show s.stats.sent + fresh =
    s.stats.replies + s.stats.failures + (s.pending.erase id).size + (owed + 1)
  have hsize := Table.size_erase_of_some hp
  have hbefore := h.sent
  unfold State.inFlight at hbefore
  omega

theorem entered (h : Balanced s fresh owed) (hfree : s.pending.get? id = none)
    (hnew : s.byTimer.get? p.timer = none) : Balanced (s.entered id p) (fresh + 1) owed := by
  refine ⟨h.timers.insert hfree hnew, ?_, h.timeouts⟩
  show s.stats.sent + (fresh + 1) =
    s.stats.replies + s.stats.failures + (s.pending.insert id p).size + owed
  have hbefore := h.sent
  unfold State.inFlight at hbefore
  rw [Table.size_insert_of_none hfree]
  omega

theorem resent (h : Balanced s fresh owed) (hp : s.pending.get? id = some p)
    (hnew : s.byTimer.get? timer = none) : Balanced (s.resent id p timer) fresh owed := by
  refine ⟨h.timers.resend hp hnew, ?_, h.timeouts⟩
  show s.stats.sent + fresh =
    s.stats.replies + s.stats.failures + (s.pending.insert id _).size + owed
  rw [Table.size_insert_of_some hp]
  exact h.sent

theorem countSent (h : Balanced s (fresh + 1) owed) : Balanced s.countSent fresh owed := by
  refine ⟨h.timers, ?_, h.timeouts⟩
  show s.stats.sent + 1 + fresh = s.stats.replies + s.stats.failures + s.inFlight + owed
  have hbefore := h.sent
  omega

theorem countEnd (h : Balanced s fresh (owed + 1)) (outcome : Outcome) :
    Balanced (s.countEnd outcome) fresh owed := by
  have hbefore := h.sent
  cases outcome with
  | answered failed =>
    refine ⟨h.timers, ?_, h.timeouts⟩
    show s.stats.sent + fresh = s.stats.replies + 1 + s.stats.failures + s.inFlight + owed
    omega
  | lapsed =>
    refine ⟨h.timers, ?_, Nat.succ_le_succ h.timeouts⟩
    show s.stats.sent + fresh = s.stats.replies + (s.stats.failures + 1) + s.inFlight + owed
    omega
  | lost =>
    refine ⟨h.timers, ?_, Nat.le_succ_of_le h.timeouts⟩
    show s.stats.sent + fresh = s.stats.replies + (s.stats.failures + 1) + s.inFlight + owed
    omega

end Balanced

/-! ## Sweeps -/

/-- The sub-requests that were sent to an endpoint. -/
def State.sentTo (s : State) (endpoint : Nat) : List (Nat × Pending) :=
  (s.pending.filter fun _ p => p.endpoint == endpoint).entries

/-- Several sub-requests are taken out. -/
def State.swept (s : State) (es : List (Nat × Pending)) : State :=
  es.foldl (fun s e => s.without e.1 e.2) s

theorem mem_sentTo {endpoint : Nat} {e : Nat × Pending} :
    e ∈ s.sentTo endpoint ↔ s.pending.get? e.1 = some e.2 ∧ e.2.endpoint = endpoint := by
  rw [State.sentTo, Table.mem_entries_iff, Table.get?_filter, Option.filter_eq_some_iff, beq_iff_eq]

/-- What is kept when each of several sub-requests is taken out holds when all of them are. -/
theorem sweep_induction {P : List (Nat × Pending) → State → Prop} {es : List (Nat × Pending)}
    (hids : (es.map (·.1)).Nodup) (hes : ∀ e ∈ es, s.pending.get? e.1 = some e.2)
    (hnil : P [] s) (hstep : ∀ swept id p s, P swept s → s.pending.get? id = some p →
      P (swept ++ [(id, p)]) (s.without id p)) : P es (s.swept es) := by
  have hall : ∀ swept, P swept s → P (swept ++ es) (s.swept es) := by
    clear hnil
    induction es generalizing s with
    | nil => exact fun swept h => (List.append_nil swept).symm ▸ h
    | cons e rest ih =>
      intro swept h
      rw [List.map_cons, List.nodup_cons] at hids
      have hrest : ∀ e' ∈ rest, (s.without e.1 e.2).pending.get? e'.1 = some e'.2 := by
        intro e' he'
        have hne : e'.1 ≠ e.1 := fun heq => hids.1 (heq ▸ List.mem_map.2 ⟨e', he', rfl⟩)
        exact (Table.get?_erase_of_ne _ hne).trans (hes e' (List.mem_cons_of_mem e he'))
      have hafter := ih hids.2 hrest (swept ++ [e])
        (hstep swept e.1 e.2 s h (hes e List.mem_cons_self))
      rw [List.append_assoc] at hafter
      exact hafter
  exact hall [] hnil

/-- The same for all sub-requests of an endpoint. -/
theorem sweep_sentTo {P : List (Nat × Pending) → State → Prop} (endpoint : Nat) (hnil : P [] s)
    (hstep : ∀ swept id p s, P swept s → s.pending.get? id = some p →
      P (swept ++ [(id, p)]) (s.without id p)) :
    P (s.sentTo endpoint) (s.swept (s.sentTo endpoint)) :=
  sweep_induction (Table.nodup_keys _) (fun _ he => (mem_sentTo.1 he).1) hnil hstep

/-- To take out all sub-requests of an endpoint is to take out one after another. -/
theorem takeAllFrom_eq (s : State) (endpoint : Nat) :
    s.takeAllFrom endpoint = (s.sentTo endpoint, s.swept (s.sentTo endpoint)) := by
  refine congrArg (Prod.mk _) (sweep_sentTo endpoint (P := fun es s' =>
    (es.map (·.1)).foldl (fun s id => (s.take id).2) s = s') rfl fun swept id p s' h hp => ?_)
  rw [List.map_append, List.foldl_append, h]
  exact congrArg Prod.snd (take_of_some hp)

end LeaseLock.Fanout
