import LeaseLock.Proofs.TimerQueue
import Mathlib.Data.List.Sort

/-
  LeaseLock: a timer queue answers like a plain map.
  An `Agenda` maps the id of a timer to its deadline and to what it carries; a timer that is
  cancelled or taken out leaves it at once, and nothing is kept in order.  A queue shows an agenda
  (`Shows`) if the timers in it are those that are pending.  Each call on both gets the same reply
  and leads to a queue that shows the agenda again, whatever dead entries the queue still has and
  wherever it drops them.  So every sequence of calls gets the same replies (`replies_as_agenda`).
-/

namespace LeaseLock

variable {η : Type}

/-! ## Timers as a plain map -/

/-- The timers that have been scheduled and not been cancelled or taken out. -/
structure Agenda (η : Type) where
  /-- The deadlines, with what the timers carry, by the ids of the timers. -/
  timers : Table (Nat × η)
  /-- The id of the next timer. -/
  nextId : Nat

namespace Agenda

/-- No timers; ids start at 1. -/
def empty : Agenda η := ⟨∅, 1⟩

/-- Note a timer; returns its id. -/
def schedule (a : Agenda η) (deadline : Nat) (x : η) : Nat × Agenda η :=
  (a.nextId, ⟨a.timers.insert a.nextId (deadline, x), a.nextId + 1⟩)

/-- Forget a timer; returns whether it was there. -/
def cancel (a : Agenda η) (id : Nat) : Bool × Agenda η :=
  (a.timers.contains id, { a with timers := a.timers.erase id })

/-- The least deadline. -/
def nextDeadline (a : Agenda η) : Option Nat := (a.timers.values.map (·.1)).min?

/-- Take out the timers whose deadline is not past `now`, ordered by deadline and id. -/
def popDue (a : Agenda η) (now : Nat) : List (Nat × η) × Agenda η :=
  (((a.timers.filter fun _ t => t.1 ≤ now).entries.mergeSort TimerQueue.sooner).map
      fun t => (t.1, t.2.2),
    { a with timers := a.timers.filter fun _ t => now < t.1 })

end Agenda

/-! ## Calls -/

namespace TimerQueue

/-- A call on a collection of timers. -/
inductive Call (η : Type) where
  /-- Schedule a timer. -/
  | schedule (deadline : Nat) (x : η)
  /-- Cancel a timer. -/
  | cancel (id : Nat)
  /-- Ask for the next deadline. -/
  | nextDeadline
  /-- Take out what is due. -/
  | popDue (now : Nat)
  /-- Ask for the number of timers. -/
  | size
  /-- Ask whether there are no timers. -/
  | isEmpty

/-- What a call returns. -/
inductive Reply (η : Type) where
  /-- The id of a new timer. -/
  | scheduled (id : Nat)
  /-- Whether the timer was there. -/
  | cancelled (found : Bool)
  /-- The next deadline. -/
  | deadline (d : Option Nat)
  /-- The timers that were taken out. -/
  | popped (timers : List (Nat × η))
  /-- The number of timers. -/
  | size (n : Nat)
  /-- Whether there are no timers. -/
  | isEmpty (b : Bool)

/-- The id of the timer that has been scheduled. -/
def Reply.scheduled? : Reply η → Option Nat
  | .scheduled id => some id
  | _ => none

/-- Carry out a call. -/
def perform (q : TimerQueue η) : Call η → Reply η × TimerQueue η
  | .schedule deadline x => ((.scheduled (q.schedule deadline x).1), (q.schedule deadline x).2)
  | .cancel id => (.cancelled (q.cancel id).1, (q.cancel id).2)
  | .nextDeadline => (.deadline q.nextDeadline.1, q.nextDeadline.2)
  | .popDue now => (.popped (q.popDue now).1, (q.popDue now).2)
  | .size => (.size q.size, q)
  | .isEmpty => (.isEmpty q.isEmpty, q)

/-- The replies to calls, one after another. -/
def replies (q : TimerQueue η) : List (Call η) → List (Reply η)
  | [] => []
  | c :: rest => (q.perform c).1 :: (q.perform c).2.replies rest

end TimerQueue

namespace Agenda

open TimerQueue

/-- Carry out a call. -/
def perform (a : Agenda η) : Call η → Reply η × Agenda η
  | .schedule deadline x => (.scheduled (a.schedule deadline x).1, (a.schedule deadline x).2)
  | .cancel id => (.cancelled (a.cancel id).1, (a.cancel id).2)
  | .nextDeadline => (.deadline a.nextDeadline, a)
  | .popDue now => (.popped (a.popDue now).1, (a.popDue now).2)
  | .size => (.size a.timers.size, a)
  | .isEmpty => (.isEmpty a.timers.isEmpty, a)

/-- The replies to calls, one after another. -/
def replies (a : Agenda η) : List (Call η) → List (Reply η)
  | [] => []
  | c :: rest => (a.perform c).1 :: (a.perform c).2.replies rest

/-- The ids of new timers are past all ids in use, and ascend. -/
theorem scheduled_replies (a : Agenda η) (calls : List (Call η)) :
    (∀ id ∈ (a.replies calls).filterMap Reply.scheduled?, a.nextId ≤ id) ∧
      ((a.replies calls).filterMap Reply.scheduled?).Pairwise (· < ·) := by
  induction calls generalizing a with
  | nil => exact ⟨nofun, .nil⟩
  | cons c rest ih =>
    obtain ⟨hle, hasc⟩ := ih (a.perform c).2
    cases c with
    | schedule deadline x =>
      have hlt : ∀ id ∈ (((a.perform (.schedule deadline x)).2.replies rest).filterMap
          Reply.scheduled?), a.nextId < id := hle
      refine ⟨fun id hm => ?_, List.pairwise_cons.2 ⟨hlt, hasc⟩⟩
      rcases List.mem_cons.1 hm with rfl | hm
      · exact Nat.le_refl _
      · exact Nat.le_of_lt (hlt id hm)
    | _ => exact ⟨hle, hasc⟩

end Agenda

/-! ## A queue that shows an agenda -/

namespace TimerQueue

variable {q : TimerQueue η} {a : Agenda η}

/-- The agenda lists the timers that are pending in the queue. -/
structure Shows (q : TimerQueue η) (a : Agenda η) : Prop where
  wf : q.Wf
  nextId : q.nextId = a.nextId
  timers : ∀ id deadline x, a.timers.get? id = some (deadline, x) ↔ q.Pending id deadline x

theorem shows_empty : (empty : TimerQueue η).Shows .empty where
  wf := wf_empty
  nextId := rfl
  timers := fun id deadline x => ⟨nofun, fun hp => (not_pending_empty id deadline x hp).elim⟩

namespace Shows

/-- What is live is what the agenda lists, without the deadlines. -/
theorem live (h : q.Shows a) : q.live = a.timers.map fun _ t => t.2 := by
  ext1 id
  rw [Table.get?_map]
  cases hx : q.live.get? id with
  | some x =>
    obtain ⟨deadline, he⟩ := h.wf.entry id x hx
    rw [(h.timers id deadline x).2 ⟨hx, he⟩]
    rfl
  | none =>
    cases ht : a.timers.get? id with
    | none => rfl
    | some t =>
      have hp := (h.timers id t.1 t.2).1 ht
      cases hx.symm.trans hp.1

theorem contains (h : q.Shows a) (id : Nat) : q.live.contains id = a.timers.contains id := by
  unfold Table.contains
  rw [h.live, Table.get?_map, Option.isSome_map]

theorem size (h : q.Shows a) : q.size = a.timers.size := by
  unfold TimerQueue.size Table.size
  rw [h.live]
  simp [Table.map]

theorem isEmpty (h : q.Shows a) : q.isEmpty = a.timers.isEmpty := by
  unfold TimerQueue.isEmpty Table.isEmpty
  rw [h.live]
  simp [Table.map]

/-- A queue that has lost nothing but dead entries shows the same agenda. -/
theorem trimmed {q' : TimerQueue η} (h : q.Shows a) (ht : Trimmed q q') : q'.Shows a where
  wf := ht.wf h.wf
  nextId := ht.nextId.trans h.nextId
  timers := fun id deadline x => (h.timers id deadline x).trans ht.pending.symm

/-! ## The next deadline -/

theorem mem_deadlines (h : q.Shows a) {d : Nat} :
    d ∈ a.timers.values.map (·.1) ↔ ∃ id x, q.Pending id d x := by
  unfold Table.values
  simp only [List.map_map, List.mem_map, Function.comp_apply]
  constructor
  · rintro ⟨⟨id, d, x⟩, hm, rfl⟩
    exact ⟨id, x, (h.timers id d x).1 (Table.mem_entries_iff.1 hm)⟩
  · rintro ⟨id, x, hp⟩
    exact ⟨(id, d, x), Table.mem_entries_iff.2 ((h.timers id d x).2 hp), rfl⟩

/-- The entry at the front of a pruned queue is live, so it has the least deadline. -/
theorem nextDeadline (h : q.Shows a) : q.nextDeadline.1 = a.nextDeadline := by
  have hpruned := h.trimmed (trimmed_prune q)
  show q.prune.entries.head?.map (·.deadline) = (a.timers.values.map (·.1)).min?
  cases he : q.prune.entries with
  | nil =>
    refine (List.min?_eq_none_iff.2 (List.eq_nil_iff_forall_not_mem.2 fun d hd => ?_)).symm
    obtain ⟨id, x, hp⟩ := hpruned.mem_deadlines.1 hd
    rw [Pending, he] at hp
    cases hp.2
  | cons e rest =>
    refine (List.min?_eq_some_iff.2 ⟨?_, fun d hd => ?_⟩).symm
    · have hlive : q.live.contains e.id = true := by
        have hhead := List.head?_dropWhile_not (fun e => !q.live.contains e.id) q.entries
        have he : q.entries.dropWhile (fun e => !q.live.contains e.id) = e :: rest := he
        rw [he] at hhead
        simpa using hhead
      obtain ⟨x, hx⟩ := Table.mem_iff_get?.1 hlive
      exact hpruned.mem_deadlines.2 ⟨e.id, x, hx, he ▸ List.mem_cons_self⟩
    · obtain ⟨id, x, -, hm⟩ := hpruned.mem_deadlines.1 hd
      rw [he] at hm
      rcases List.mem_cons.1 hm with rfl | hm
      · exact Nat.le_refl _
      · have hordered := q.prune.ordered
        rw [he, List.pairwise_cons] at hordered
        have hle := TimerEntry.le_iff.1 (hordered.1 _ hm)
        show e.deadline ≤ d
        simp only at hle
        omega

/-! ## What is due -/

/-- The queue takes out in its order what the agenda has to sort. -/
theorem dueTimers (h : q.Shows a) (now : Nat) : q.dueTimers now =
    (a.timers.filter fun _ t => t.1 ≤ now).entries.mergeSort sooner := by
  have htrans : ∀ s t u : Nat × Nat × η, sooner s t = true → sooner t u = true →
      sooner s u = true := by
    intro s t u hst htu
    rw [sooner_iff] at *
    omega
  have htotal : ∀ s t : Nat × Nat × η, (sooner s t || sooner t s) = true := by
    intro s t
    rw [Bool.or_eq_true, sooner_iff, sooner_iff]
    omega
  have hmem : ∀ t, t ∈ q.dueTimers now ↔
      t ∈ (a.timers.filter fun _ t => decide (t.1 ≤ now)).entries := by
    rintro ⟨id, d, x⟩
    rw [mem_dueTimers, Table.mem_entries_iff, Table.get?_filter, Option.filter_eq_some_iff,
      h.timers, decide_eq_true_iff, and_comm]
  have hperm : (q.dueTimers now).Perm
      ((a.timers.filter fun _ t => decide (t.1 ≤ now)).entries.mergeSort sooner) := by
    refine List.Perm.trans ?_ (List.mergeSort_perm _ _).symm
    rw [List.perm_ext_iff_of_nodup (nodup_dueTimers h.wf now).of_map
      (Table.nodup_keys _).of_map]
    exact hmem
  refine hperm.eq_of_pairwise ?_ (pairwise_dueTimers q now)
    (List.pairwise_mergeSort htrans htotal _)
  -- timers of the same deadline and id are the same, because an id stands for one timer
  rintro ⟨i, d, x⟩ ⟨j, e, y⟩ hi hj hij hji
  rw [sooner_iff] at hij hji
  obtain ⟨rfl, rfl⟩ : i = j ∧ d = e := by
    simp only at hij hji
    omega
  have hx := (mem_dueTimers.1 hi).2.1
  have hy := (mem_dueTimers.1 (hperm.mem_iff.2 hj)).2.1
  rw [Option.some.inj (hx.symm.trans hy)]

/-! ## Calls -/

theorem schedule (h : q.Shows a) (deadline : Nat) (x : η) :
    (q.schedule deadline x).2.Shows (a.schedule deadline x).2 where
  wf := wf_schedule h.wf deadline x
  nextId := congrArg (· + 1) h.nextId
  timers := by
    intro id d y
    rw [pending_schedule h.wf, ← h.timers]
    show (a.timers.insert a.nextId (deadline, x)).get? id = _ ↔ _
    rw [Table.get?_insert, h.nextId]
    split
    · rename_i hid
      have hnone : a.timers.get? id = none := by
        cases ht : a.timers.get? id with
        | none => rfl
        | some t =>
          have hlt := h.wf.lt_nextId ((h.timers id t.1 t.2).1 ht).1
          rw [h.nextId, hid] at hlt
          exact absurd hlt (Nat.lt_irrefl _)
      simp [hid, hid ▸ hnone, eq_comm]
    · rename_i hid
      simp [hid]

theorem cancel (h : q.Shows a) (id : Nat) : (q.cancel id).2.Shows (a.cancel id).2 where
  wf := wf_cancel h.wf id
  nextId := (trimmed_compact _).nextId.trans h.nextId
  timers := by
    intro j d y
    rw [pending_cancel, ← h.timers]
    show (a.timers.erase id).get? j = _ ↔ _
    rw [Table.get?_erase]
    by_cases hj : j = id <;> simp [hj]

theorem popDue (h : q.Shows a) (now : Nat) : (q.popDue now).2.Shows (a.popDue now).2 where
  wf := wf_popDue h.wf now
  nextId := h.nextId
  timers := by
    intro id d x
    rw [pending_popDue h.wf, ← h.timers]
    show (a.timers.filter _).get? id = _ ↔ _
    rw [Table.get?_filter, Option.filter_eq_some_iff, decide_eq_true_iff, and_comm]

/-- A call gets the same reply from both, and the queue shows the agenda afterwards. -/
theorem perform (h : q.Shows a) (c : Call η) :
    (q.perform c).1 = (a.perform c).1 ∧ (q.perform c).2.Shows (a.perform c).2 := by
  cases c with
  | schedule deadline x => exact ⟨congrArg Reply.scheduled h.nextId, h.schedule deadline x⟩
  | cancel id => exact ⟨congrArg Reply.cancelled (h.contains id), h.cancel id⟩
  | nextDeadline => exact ⟨congrArg Reply.deadline h.nextDeadline, h.trimmed (trimmed_prune q)⟩
  | popDue now =>
    refine ⟨congrArg Reply.popped ?_, h.popDue now⟩
    rw [popDue_fst, h.dueTimers]
    rfl
  | size => exact ⟨congrArg Reply.size h.size, h⟩
  | isEmpty => exact ⟨congrArg Reply.isEmpty h.isEmpty, h⟩

theorem replies (h : q.Shows a) (calls : List (Call η)) : q.replies calls = a.replies calls := by
  induction calls generalizing q a with
  | nil => rfl
  | cons c rest ih =>
    obtain ⟨hreply, hnext⟩ := h.perform c
    show _ :: _ = _ :: _
    rw [hreply, ih hnext]

end Shows

/-- Every sequence of calls on a new queue gets the replies that a plain map gives, and the ids of
its timers ascend. -/
theorem replies_as_agenda (calls : List (Call η)) :
    (empty : TimerQueue η).replies calls = Agenda.empty.replies calls ∧
      (((empty : TimerQueue η).replies calls).filterMap Reply.scheduled?).Pairwise (· < ·) := by
  have heq : (empty : TimerQueue η).replies calls = Agenda.empty.replies calls :=
    shows_empty.replies calls
  refine ⟨heq, ?_⟩
  rw [heq]
  exact (Agenda.scheduled_replies .empty calls).2

end TimerQueue

end LeaseLock
