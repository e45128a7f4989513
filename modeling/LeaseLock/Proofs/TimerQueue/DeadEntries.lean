import LeaseLock.Proofs.TimerQueue.Agenda

/-
  LeaseLock: timers that are cancelled do not pile up.
  The entries of a queue are those of its live timers, one for each, and dead ones
  (`Wf.entryCount_eq`).  Only a cancel adds a dead entry, and only a cancel looks how many there
  are: it leaves at most `slack` more than there are live timers.  The other calls move both
  numbers without looking, and once timers are taken out the dead entries may well outnumber the
  live ones.  What every call keeps is a bound by the largest number of live timers so far
  (`Tidy.perform`), because that number never falls.
-/

namespace LeaseLock.TimerQueue

variable {η : Type} {q q' : TimerQueue η} {n : Nat}

/-! ## Dead entries -/

/-- The entries of timers that can no longer fire. -/
def dead (q : TimerQueue η) : List TimerEntry := q.entries.filter fun e => !q.live.contains e.id

/-- Every live timer has one entry, and the other entries are dead. -/
theorem Wf.entryCount_eq (hq : q.Wf) : q.entryCount = q.size + q.dead.length := by
  have halive : ((q.entries.filter fun e => q.live.contains e.id).map (·.id)).Perm
      q.live.keys := by
    rw [List.perm_ext_iff_of_nodup (hq.once.sublist (List.filter_sublist.map _))
      (Table.nodup_keys _)]
    intro id
    rw [Table.mem_keys_iff, List.mem_map]
    constructor
    · rintro ⟨e, he, rfl⟩
      exact (List.mem_filter.1 he).2
    · intro hid
      obtain ⟨x, hx⟩ := Table.mem_iff_get?.1 hid
      obtain ⟨deadline, he⟩ := hq.entry id x hx
      exact ⟨_, List.mem_filter.2 ⟨he, hid⟩, rfl⟩
  have hlength := halive.length_eq
  rw [List.length_map, Table.keys, List.length_map] at hlength
  unfold entryCount size dead Table.size
  rw [← hlength]
  exact List.length_eq_length_filter_add _

theorem Trimmed.dead_le (ht : Trimmed q q') : q'.dead.length ≤ q.dead.length := by
  unfold dead
  rw [ht.live]
  exact (ht.entries.filter _).length_le

theorem Trimmed.size (ht : Trimmed q q') : q'.size = q.size := congrArg Table.size ht.live

/-! ## What each call does to them -/

theorem size_schedule (hq : q.Wf) (deadline : Nat) (x : η) :
    (q.schedule deadline x).2.size = q.size + 1 := by
  refine Table.size_insert_of_none ?_ x
  cases hlive : q.live.get? q.nextId with
  | none => rfl
  | some y => exact absurd (hq.lt_nextId hlive) (Nat.lt_irrefl _)

theorem dead_schedule (hq : q.Wf) (deadline : Nat) (x : η) :
    (q.schedule deadline x).2.dead.length = q.dead.length := by
  have hafter := (wf_schedule hq deadline x).entryCount_eq
  have hcount : (q.schedule deadline x).2.entryCount = q.entryCount + 1 :=
    TimerEntry.length_place _ _
  rw [hcount, hq.entryCount_eq, size_schedule hq] at hafter
  omega

/-- A timer that is taken out takes its entry with it, so no entry dies. -/
theorem dead_popDue (hq : q.Wf) (now : Nat) : (q.popDue now).2.dead.length ≤ q.dead.length := by
  have hlive : ∀ e ∈ (q.popDue now).2.entries,
      (q.popDue now).2.live.contains e.id = q.live.contains e.id := by
    intro e he
    obtain ⟨hold, hlate⟩ := (mem_dropWhile_isDue q.ordered).1 he
    rw [Bool.eq_iff_iff, ← Table.mem_iff, ← Table.mem_iff, Table.mem_iff_get?, Table.mem_iff_get?]
    exact exists_congr fun x => ⟨fun hx => ((pending_popDue hq).1 ⟨hx, he⟩).2.1,
      fun hx => ((pending_popDue hq).2 ⟨hlate, hx, hold⟩).1⟩
  have hdead : (q.popDue now).2.dead =
      (q.popDue now).2.entries.filter fun e => !q.live.contains e.id :=
    List.filter_congr fun e he => congrArg _ (hlive e he)
  rw [hdead]
  exact ((List.dropWhile_sublist _).filter _).length_le

/-- What compaction leaves: little more than the live entries, and nothing if there are none. -/
theorem entryCount_compact (hq : q.Wf) : q.compact.entryCount ≤ 2 * q.size + slack ∧
    (q.size = 0 → q.compact.entryCount = 0) := by
  unfold compact
  split
  · have hnone : (q.keepEntries fun _ => false).entryCount = 0 :=
      congrArg List.length (List.filter_false q.entries)
    rw [hnone]
    exact ⟨Nat.zero_le _, fun _ => rfl⟩
  · rename_i hlive
    have hsome : q.size ≠ 0 := fun hzero =>
      hlive (List.isEmpty_iff.2 (List.length_eq_zero_iff.1 hzero))
    refine ⟨?_, fun hzero => absurd hzero hsome⟩
    split
    · -- all dead entries have gone
      have hkept := ((trimmed_keepEntries fun e _ he => he).wf hq).entryCount_eq
      have hdead : (q.keepEntries fun e => q.live.contains e.id).dead = [] := by
        rw [dead, List.filter_eq_nil_iff]
        intro e he
        rw [Bool.not_eq_true, Bool.not_eq_false']
        exact (List.mem_filter.1 he).2
      rw [hkept, hdead]
      show q.size + 0 ≤ _
      omega
    · rename_i hfew
      exact Nat.le_of_not_lt hfew

/-- After a cancel, whether it found the timer or not, few entries are dead. -/
theorem entryCount_cancel (hq : q.Wf) (id : Nat) :
    (q.cancel id).2.entryCount ≤ 2 * (q.cancel id).2.size + slack ∧
      ((q.cancel id).2.size = 0 → (q.cancel id).2.entryCount = 0) := by
  have hcompact := entryCount_compact (wf_erase hq id)
  unfold cancel
  rw [(trimmed_compact _).size]
  exact hcompact

/-! ## Runs -/

/-- The queue after calls, carried out one after another. -/
def after (q : TimerQueue η) (calls : List (Call η)) : TimerQueue η :=
  calls.foldl (fun q c => (q.perform c).2) q

/-- The largest number of live timers that the queue has from the first call to the last. -/
def peak (q : TimerQueue η) : List (Call η) → Nat
  | [] => q.size
  | c :: rest => max q.size ((q.perform c).2.peak rest)

theorem size_le_peak (q : TimerQueue η) (calls : List (Call η)) : q.size ≤ q.peak calls := by
  cases calls with
  | nil => exact Nat.le_refl _
  | cons c rest => exact Nat.le_max_left _ _

/-- There have been at most `n` live timers at a time, and so few dead entries. -/
structure Tidy (q : TimerQueue η) (n : Nat) : Prop where
  wf : q.Wf
  size_le : q.size ≤ n
  dead_le : q.dead.length ≤ slack + n

theorem tidy_empty : (empty : TimerQueue η).Tidy 0 where
  wf := wf_empty
  size_le := Nat.le_refl _
  dead_le := Nat.zero_le _

namespace Tidy

theorem mono (h : q.Tidy n) {m : Nat} (hm : n ≤ m) : q.Tidy m where
  wf := h.wf
  size_le := Nat.le_trans h.size_le hm
  dead_le := Nat.le_trans h.dead_le (Nat.add_le_add_left hm _)

/-- No entry dies, and the number of live timers is taken note of. -/
theorem of_dead_le (h : q.Tidy n) (hwf : q'.Wf) (hdead : q'.dead.length ≤ q.dead.length) :
    q'.Tidy (max n q'.size) where
  wf := hwf
  size_le := Nat.le_max_right _ _
  dead_le := Nat.le_trans hdead
    (Nat.le_trans h.dead_le (Nat.add_le_add_left (Nat.le_max_left _ _) _))

theorem cancel (h : q.Tidy n) (id : Nat) :
    (q.cancel id).2.Tidy (max n (q.cancel id).2.size) where
  wf := wf_cancel h.wf id
  size_le := Nat.le_max_right _ _
  dead_le := by
    have hfew := (entryCount_cancel h.wf id).1
    rw [(wf_cancel h.wf id).entryCount_eq] at hfew
    omega

theorem perform (h : q.Tidy n) (c : Call η) :
    (q.perform c).2.Tidy (max n (q.perform c).2.size) := by
  cases c with
  | schedule deadline x =>
    exact h.of_dead_le (wf_schedule h.wf deadline x) (Nat.le_of_eq (dead_schedule h.wf deadline x))
  | cancel id => exact h.cancel id
  | nextDeadline => exact h.of_dead_le ((trimmed_prune q).wf h.wf) (trimmed_prune q).dead_le
  | popDue now => exact h.of_dead_le (wf_popDue h.wf now) (dead_popDue h.wf now)
  | size | isEmpty => exact h.mono (Nat.le_max_left _ _)

theorem after (h : q.Tidy n) (calls : List (Call η)) :
    (q.after calls).Tidy (max n (q.peak calls)) := by
  induction calls generalizing q n with
  | nil => exact h.mono (Nat.le_max_left _ _)
  | cons c rest ih =>
    refine (ih (h.perform c)).mono ?_
    have hnext := size_le_peak (q.perform c).2 rest
    show _ ≤ max n (max q.size ((q.perform c).2.peak rest))
    omega

end Tidy

/-- Whatever calls are made, in whatever order: right after a cancel at most twice as many entries
as live timers are left, with some slack, and none if no timer is live; and at any time the entries
that are not those of live timers are no more than the slack and the largest number of live timers
so far. -/
theorem cancelled_do_not_pile_up (calls : List (Call η)) :
    (∀ id, let q := (empty : TimerQueue η).after (calls ++ [.cancel id])
      q.entryCount ≤ 2 * q.size + 64 ∧ (q.size = 0 → q.entryCount = 0)) ∧
    let q := (empty : TimerQueue η).after calls
    q.entryCount = q.size + q.dead.length ∧
      q.entryCount - q.size ≤ 64 + (empty : TimerQueue η).peak calls := by
  have htidy := tidy_empty.after (η := η) calls
  refine ⟨fun id => ?_, htidy.wf.entryCount_eq, ?_⟩
  · intro q
    have hq : q = (((empty : TimerQueue η).after calls).cancel id).2 :=
      List.foldl_append
    rw [hq]
    exact entryCount_cancel htidy.wf id
  · have hdead := htidy.dead_le
    rw [Nat.zero_max] at hdead
    rw [htidy.wf.entryCount_eq, Nat.add_sub_cancel_left]
    exact hdead

-- Once the last live timer is taken out a dead entry may be left: that there is none if no timer is
-- live is true right after a cancel only.
example :
    let calls := [Call.schedule 2 (), .schedule 1 (), .cancel 1, .popDue 1]
    let q := (empty : TimerQueue Unit).after calls
    (q.entryCount, q.size, empty.peak calls) = (1, 0, 2) := by decide

end LeaseLock.TimerQueue
