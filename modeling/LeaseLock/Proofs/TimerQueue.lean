import LeaseLock.TimerQueue
import LeaseLock.Proofs.Table
import Mathlib.Data.List.Nodup

/-
  LeaseLock: which timers are pending.
  A timer is pending if it is live and has an entry; its deadline stands in the entry.  Each
  operation has one rule that says which timers are pending after it.  Cancelling is lazy, so a
  queue has entries of timers that are not pending; in a well-formed queue (`Wf`) no two entries
  have the same id, and ids are not used again, so that such an entry cannot stand for a later
  timer.
-/

namespace LeaseLock.TimerQueue

variable {η : Type} {q : TimerQueue η} {now : Nat}

/-- A timer can still fire: this is its id, its deadline and what it carries. -/
def Pending (q : TimerQueue η) (id deadline : Nat) (x : η) : Prop :=
  q.live.get? id = some x ∧ ⟨deadline, id⟩ ∈ q.entries

/-- Every live timer has one entry, and ids are not used again. -/
structure Wf (q : TimerQueue η) : Prop where
  /-- No two entries have the same id. -/
  once : (q.entries.map (·.id)).Nodup
  /-- The ids of all entries have been given. -/
  below : ∀ e ∈ q.entries, e.id < q.nextId
  /-- A live timer has an entry. -/
  entry : ∀ id x, q.live.get? id = some x → ∃ deadline, ⟨deadline, id⟩ ∈ q.entries

theorem wf_empty : (empty : TimerQueue η).Wf where
  once := List.nodup_nil
  below := fun e he => by cases he
  entry := fun id x hx => by cases hx

theorem not_pending_empty (id deadline : Nat) (x : η) :
    ¬ (empty : TimerQueue η).Pending id deadline x := fun hp => by cases hp.2

namespace Wf

theorem lt_nextId (hq : q.Wf) {id : Nat} {x : η} (hx : q.live.get? id = some x) :
    id < q.nextId := by
  obtain ⟨deadline, he⟩ := hq.entry id x hx
  exact hq.below _ he

end Wf

/-! ## Scheduling and cancelling -/

theorem place_perm (e : TimerEntry) (l : List TimerEntry) : (e.place l).Perm (e :: l) := by
  induction l with
  | nil => exact .refl _
  | cons f l ih =>
    unfold TimerEntry.place
    split
    · exact .refl _
    · exact (ih.cons f).trans (.swap e f l)

theorem wf_schedule (hq : q.Wf) (deadline : Nat) (x : η) : (q.schedule deadline x).2.Wf where
  once := by
    show ((TimerEntry.place _ q.entries).map _).Nodup
    rw [((place_perm _ _).map _).nodup_iff, List.map_cons, List.nodup_cons]
    refine ⟨fun hm => ?_, hq.once⟩
    obtain ⟨e, he, heq⟩ := List.mem_map.1 hm
    exact Nat.ne_of_lt (hq.below e he) heq
  below := by
    intro e he
    rcases TimerEntry.mem_place.1 he with rfl | he
    · exact Nat.lt_succ_self _
    · exact Nat.lt_succ_of_lt (hq.below e he)
  entry := by
    intro id y hy
    have hy : (q.live.insert q.nextId x).get? id = some y := hy
    rw [Table.get?_insert] at hy
    split at hy
    · rename_i hid
      exact ⟨deadline, TimerEntry.mem_place.2 (.inl (hid ▸ rfl))⟩
    · obtain ⟨d, he⟩ := hq.entry id y hy
      exact ⟨d, TimerEntry.mem_place.2 (.inr he)⟩

/-- A new timer is pending, and those that were before. -/
theorem pending_schedule (hq : q.Wf) {deadline id d : Nat} {x y : η} :
    (q.schedule deadline x).2.Pending id d y ↔
      id = q.nextId ∧ d = deadline ∧ y = x ∨ q.Pending id d y := by
  show (q.live.insert q.nextId x).get? id = some y ∧ _ ∈ TimerEntry.place _ _ ↔ _
  rw [Table.get?_insert, TimerEntry.mem_place, TimerEntry.mk.injEq]
  by_cases hid : id = q.nextId
  · have hnot : ¬ q.Pending id d y := fun hp => Nat.ne_of_lt (hq.lt_nextId hp.1) hid
    have hentry : (⟨d, id⟩ : TimerEntry) ∉ q.entries := fun he => Nat.ne_of_lt (hq.below _ he) hid
    rw [if_pos hid, or_iff_left hentry, or_iff_left hnot, Option.some.injEq]
    exact ⟨fun ⟨hx, hd, _⟩ => ⟨hid, hd, hx.symm⟩, fun ⟨_, hd, hx⟩ => ⟨hx.symm, hd, hid⟩⟩
  · rw [if_neg hid, or_iff_right fun h => hid h.2, or_iff_right fun h => hid h.1]
    exact .rfl

/-- Some entries have gone, of timers that are not live. -/
structure Trimmed (q q' : TimerQueue η) : Prop where
  live : q'.live = q.live
  nextId : q'.nextId = q.nextId
  entries : q'.entries.Sublist q.entries
  kept : ∀ e ∈ q.entries, q.live.contains e.id = true → e ∈ q'.entries

namespace Trimmed

variable {q' : TimerQueue η}

theorem refl (q : TimerQueue η) : Trimmed q q := ⟨rfl, rfl, .refl _, fun _ he _ => he⟩

theorem wf (ht : Trimmed q q') (hq : q.Wf) : q'.Wf where
  once := hq.once.sublist (ht.entries.map _)
  below := fun e he => by
    rw [ht.nextId]
    exact hq.below e (ht.entries.subset he)
  entry := fun id x hx => by
    rw [ht.live] at hx
    obtain ⟨d, he⟩ := hq.entry id x hx
    exact ⟨d, ht.kept _ he (Table.mem_of_get? hx)⟩

theorem pending (ht : Trimmed q q') {id d : Nat} {x : η} :
    q'.Pending id d x ↔ q.Pending id d x := by
  unfold Pending
  rw [ht.live]
  exact and_congr_right fun hx =>
    ⟨fun he => ht.entries.subset he, fun he => ht.kept _ he (Table.mem_of_get? hx)⟩

end Trimmed

theorem trimmed_keepEntries {p : TimerEntry → Bool}
    (hp : ∀ e ∈ q.entries, q.live.contains e.id = true → p e = true) :
    Trimmed q (q.keepEntries p) :=
  ⟨rfl, rfl, List.filter_sublist, fun e he hlive => List.mem_filter.2 ⟨he, hp e he hlive⟩⟩

theorem trimmed_compact (q : TimerQueue η) : Trimmed q q.compact := by
  unfold compact
  split
  · rename_i hempty
    exact trimmed_keepEntries fun e _ he => absurd he (Table.isEmpty_iff.1 hempty e.id)
  · split
    · exact trimmed_keepEntries fun e _ he => he
    · exact .refl q

theorem trimmed_prune (q : TimerQueue η) : Trimmed q q.prune := by
  refine ⟨rfl, rfl, List.dropWhile_sublist _, fun e he hlive => ?_⟩
  rw [← List.takeWhile_append_dropWhile (p := fun e => !q.live.contains e.id) (l := q.entries)]
    at he
  refine (List.mem_append.1 he).resolve_left fun hdead => ?_
  have hnot := List.all_eq_true.1 List.all_takeWhile e hdead
  rw [hlive] at hnot
  cases hnot

/-- A timer is live no more; its entry stays. -/
theorem wf_erase (hq : q.Wf) (timer : Nat) : Wf { q with live := q.live.erase timer } := by
  refine ⟨hq.once, hq.below, fun id x hx => ?_⟩
  have hx : (q.live.erase timer).get? id = some x := hx
  rw [Table.get?_erase] at hx
  split at hx
  · cases hx
  · exact hq.entry id x hx

theorem wf_cancel (hq : q.Wf) (timer : Nat) : (q.cancel timer).2.Wf :=
  (trimmed_compact _).wf (wf_erase hq timer)

/-- A timer that is cancelled is no longer pending; all others are. -/
theorem pending_cancel {timer id d : Nat} {x : η} :
    (q.cancel timer).2.Pending id d x ↔ id ≠ timer ∧ q.Pending id d x := by
  have herased : Pending { q with live := q.live.erase timer } id d x ↔
      id ≠ timer ∧ q.Pending id d x := by
    show (q.live.erase timer).get? id = some x ∧ _ ↔ _
    rw [Table.get?_erase]
    by_cases hid : id = timer
    · rw [if_pos hid]
      exact ⟨fun h => (by cases h.1), fun h => absurd hid h.1⟩
    · rw [if_neg hid]
      exact ⟨fun h => ⟨hid, h⟩, fun h => h.2⟩
  exact (trimmed_compact _).pending.trans herased

/-! ## Taking out what is due -/

/-- In entries that stand in order those that are due stand first. -/
theorem mem_takeWhile_isDue {l : List TimerEntry} (hl : l.Pairwise fun a b => a.le b = true)
    {e : TimerEntry} : e ∈ l.takeWhile (isDue now) ↔ e ∈ l ∧ e.deadline ≤ now := by
  induction l with
  | nil => simp
  | cons f l ih =>
    rw [List.pairwise_cons] at hl
    rw [List.takeWhile_cons]
    cases hf : isDue now f with
    | true =>
      have hf : f.deadline ≤ now := of_decide_eq_true hf
      rw [if_pos rfl, List.mem_cons, List.mem_cons, ih hl.2]
      constructor
      · rintro (rfl | h)
        · exact ⟨.inl rfl, hf⟩
        · exact ⟨.inr h.1, h.2⟩
      · rintro ⟨rfl | h, hd⟩
        · exact .inl rfl
        · exact .inr ⟨h, hd⟩
    | false =>
      have hf : ¬ f.deadline ≤ now := of_decide_eq_false hf
      refine iff_of_false (by simp) ?_
      rintro ⟨he, hd⟩
      rcases List.mem_cons.1 he with rfl | he
      · exact hf hd
      · have hle := TimerEntry.le_iff.1 (hl.1 e he)
        omega

theorem mem_dropWhile_isDue {l : List TimerEntry} (hl : l.Pairwise fun a b => a.le b = true)
    {e : TimerEntry} : e ∈ l.dropWhile (isDue now) ↔ e ∈ l ∧ now < e.deadline := by
  induction l with
  | nil => simp
  | cons f l ih =>
    rw [List.pairwise_cons] at hl
    rw [List.dropWhile_cons]
    cases hf : isDue now f with
    | true =>
      have hf : f.deadline ≤ now := of_decide_eq_true hf
      rw [if_pos rfl, ih hl.2, List.mem_cons]
      constructor
      · exact fun h => ⟨.inr h.1, h.2⟩
      · rintro ⟨rfl | h, hd⟩
        · omega
        · exact ⟨h, hd⟩
    | false =>
      have hf : ¬ f.deadline ≤ now := of_decide_eq_false hf
      rw [if_neg Bool.false_ne_true, iff_self_and]
      intro he
      rcases List.mem_cons.1 he with rfl | he
      · omega
      · have hle := TimerEntry.le_iff.1 (hl.1 e he)
        omega

/-- The timers that are taken out are those that are pending and due. -/
theorem mem_popDue {id : Nat} {x : η} :
    (id, x) ∈ (q.popDue now).1 ↔ ∃ d ≤ now, q.Pending id d x := by
  show (id, x) ∈ (q.entries.takeWhile (isDue now)).filterMap _ ↔ _
  rw [List.mem_filterMap]
  constructor
  · rintro ⟨⟨d, j⟩, he, hlive⟩
    obtain ⟨he, hd⟩ := (mem_takeWhile_isDue q.ordered).1 he
    obtain ⟨y, hy, heq⟩ := Option.map_eq_some_iff.1 hlive
    obtain ⟨rfl, rfl⟩ := Prod.mk.inj heq
    exact ⟨d, hd, hy, he⟩
  · rintro ⟨d, hd, hx, he⟩
    refine ⟨⟨d, id⟩, (mem_takeWhile_isDue q.ordered).2 ⟨he, hd⟩, ?_⟩
    rw [hx]
    rfl

/-- Each timer is taken out once. -/
theorem nodup_popDue (hq : q.Wf) (now : Nat) : ((q.popDue now).1.map (·.1)).Nodup := by
  have hsub : ((q.popDue now).1.map (·.1)).Sublist (q.entries.map (·.id)) := by
    show (((q.entries.takeWhile (isDue now)).filterMap _).map _).Sublist _
    refine List.Sublist.trans ?_ ((List.takeWhile_sublist (isDue now)).map _)
    generalize q.entries.takeWhile (isDue now) = due
    induction due with
    | nil => exact .refl _
    | cons e rest ih =>
      rw [List.filterMap_cons, List.map_cons]
      cases q.live.get? e.id with
      | none => exact ih.cons _
      | some x => exact ih.cons_cons _
  exact hq.once.sublist hsub

theorem live_popDue {id : Nat} {x : η} :
    (q.popDue now).2.live.get? id = some x ↔
      q.live.get? id = some x ∧ ∀ e ∈ q.entries.takeWhile (isDue now), e.id ≠ id := by
  show (q.live.filterKeys _).get? id = some x ↔ _
  rw [Table.get?_filterKeys]
  cases hany : (q.entries.takeWhile (isDue now)).any fun e => e.id == id with
  | true =>
    obtain ⟨e, he, heq⟩ := List.any_eq_true.1 hany
    exact ⟨fun h => (by cases h), fun h => absurd (beq_iff_eq.1 heq) (h.2 e he)⟩
  | false =>
    rw [Bool.not_false, if_pos rfl, iff_self_and]
    exact fun _ e he heq => List.any_eq_false.1 hany e he (beq_iff_eq.2 heq)

theorem wf_popDue (hq : q.Wf) (now : Nat) : (q.popDue now).2.Wf where
  once := hq.once.sublist ((List.dropWhile_sublist _).map _)
  below := fun e he => hq.below e ((List.dropWhile_sublist _).subset he)
  entry := by
    intro id x hx
    obtain ⟨hx, hnot⟩ := live_popDue.1 hx
    obtain ⟨d, he⟩ := hq.entry id x hx
    refine ⟨d, (mem_dropWhile_isDue q.ordered).2 ⟨he, ?_⟩⟩
    by_contra hdue
    exact hnot _ ((mem_takeWhile_isDue q.ordered).2 ⟨he, Nat.le_of_not_lt hdue⟩) rfl

/-- The timers that are not due stay. -/
theorem pending_popDue (hq : q.Wf) {id d : Nat} {x : η} :
    (q.popDue now).2.Pending id d x ↔ now < d ∧ q.Pending id d x := by
  constructor
  · rintro ⟨hx, he⟩
    obtain ⟨he, hd⟩ := (mem_dropWhile_isDue q.ordered).1 he
    exact ⟨hd, (live_popDue.1 hx).1, he⟩
  · rintro ⟨hd, hx, he⟩
    refine ⟨live_popDue.2 ⟨hx, fun f hf heq => ?_⟩, (mem_dropWhile_isDue q.ordered).2 ⟨he, hd⟩⟩
    obtain ⟨hf, hdue⟩ := (mem_takeWhile_isDue q.ordered).1 hf
    obtain rfl := List.inj_on_of_nodup_map hq.once he hf heq.symm
    exact Nat.lt_irrefl _ (Nat.lt_of_lt_of_le hd hdue)

/-! ## The order in which timers are taken out -/

/-- The timers that are taken out at `now`, each with its id and its deadline. -/
def dueTimers (q : TimerQueue η) (now : Nat) : List (Nat × Nat × η) :=
  (q.entries.takeWhile (isDue now)).filterMap fun e =>
    (q.live.get? e.id).map fun x => (e.id, e.deadline, x)

/-- Whether a timer comes no later than another: the earlier deadline, then the smaller id. -/
def sooner (a b : Nat × Nat × η) : Bool := a.2.1 < b.2.1 || (a.2.1 == b.2.1 && a.1 ≤ b.1)

theorem sooner_iff {a b : Nat × Nat × η} :
    sooner a b = true ↔ a.2.1 < b.2.1 ∨ a.2.1 = b.2.1 ∧ a.1 ≤ b.1 := by
  simp [sooner]

theorem popDue_fst (q : TimerQueue η) (now : Nat) :
    (q.popDue now).1 = (q.dueTimers now).map fun t => (t.1, t.2.2) := by
  unfold popDue dueTimers
  rw [List.map_filterMap]
  simp [Function.comp_def]

theorem mem_dueTimers {id d : Nat} {x : η} :
    (id, d, x) ∈ q.dueTimers now ↔ d ≤ now ∧ q.Pending id d x := by
  unfold dueTimers
  rw [List.mem_filterMap]
  constructor
  · rintro ⟨e, he, hlive⟩
    obtain ⟨he, hd⟩ := (mem_takeWhile_isDue q.ordered).1 he
    obtain ⟨y, hy, heq⟩ := Option.map_eq_some_iff.1 hlive
    cases heq
    exact ⟨hd, hy, he⟩
  · rintro ⟨hd, hx, he⟩
    refine ⟨⟨d, id⟩, (mem_takeWhile_isDue q.ordered).2 ⟨he, hd⟩, ?_⟩
    rw [hx]
    rfl

theorem pairwise_dueTimers (q : TimerQueue η) (now : Nat) :
    (q.dueTimers now).Pairwise fun a b => sooner a b = true := by
  unfold dueTimers
  rw [List.pairwise_filterMap]
  refine (q.ordered.sublist (List.takeWhile_sublist _)).imp fun hle a ha b hb => ?_
  obtain ⟨x, -, rfl⟩ := Option.map_eq_some_iff.1 ha
  obtain ⟨y, -, rfl⟩ := Option.map_eq_some_iff.1 hb
  exact sooner_iff.2 (TimerEntry.le_iff.1 hle)

theorem nodup_dueTimers (hq : q.Wf) (now : Nat) : ((q.dueTimers now).map (·.1)).Nodup := by
  have hnodup := nodup_popDue hq now
  rw [popDue_fst, List.map_map] at hnodup
  exact hnodup

/-! ## Looking for what is due -/

theorem anyDue_iff (q : TimerQueue η) (now : Nat) :
    q.anyDue now = true ↔ ∃ id d x, d ≤ now ∧ q.Pending id d x := by
  unfold anyDue
  rw [List.any_eq_true]
  constructor
  · rintro ⟨⟨d, id⟩, he, hdue⟩
    obtain ⟨hd, hlive⟩ := Bool.and_eq_true_iff.1 hdue
    obtain ⟨x, hx⟩ := Table.mem_iff_get?.1 hlive
    exact ⟨id, d, x, of_decide_eq_true hd, hx, he⟩
  · rintro ⟨id, d, x, hd, hx, he⟩
    exact ⟨⟨d, id⟩, he, Bool.and_eq_true_iff.2 ⟨decide_eq_true hd, Table.mem_of_get? hx⟩⟩

end LeaseLock.TimerQueue
