import LeaseLock.Proofs.TimerQueue

/-
  LeaseLock: what has become of every timer.
  A ledger lists the timers that have been scheduled, cancelled and taken out since the queue was
  empty.  Those that are scheduled and neither cancelled nor taken out are the pending ones; no
  timer is cancelled or taken out twice, or both.  Scheduling, cancelling and taking out each write
  one entry.
-/

namespace LeaseLock.TimerQueue

variable {η : Type} {q q' : TimerQueue η} {now instant : Nat} {scheduled : List (Nat × Nat × η)}
  {cancelled : List Nat} {popped : List (Nat × η)}

/-- These timers have been scheduled, each with its id and its deadline, these have been cancelled,
and these have been taken out, none of them later than `now`. -/
structure Ledger (q : TimerQueue η) (now : Nat) (scheduled : List (Nat × Nat × η))
    (cancelled : List Nat) (popped : List (Nat × η)) : Prop where
  wf : q.Wf
  /-- All ids have been given. -/
  below : ∀ id ∈ scheduled.map (·.1), id < q.nextId
  /-- No id was given twice. -/
  fresh : (scheduled.map (·.1)).Nodup
  pending : ∀ id d x, q.Pending id d x ↔
    (id, d, x) ∈ scheduled ∧ id ∉ cancelled ∧ id ∉ popped.map (·.1)
  /-- What was taken out was due. -/
  due : ∀ id x, (id, x) ∈ popped → ∃ d ≤ now, (id, d, x) ∈ scheduled
  poppedOnce : (popped.map (·.1)).Nodup
  known : ∀ id ∈ cancelled, id ∈ scheduled.map (·.1)
  cancelledOnce : cancelled.Nodup
  apart : ∀ id ∈ cancelled, id ∉ popped.map (·.1)

theorem ledger_empty (now : Nat) : (empty : TimerQueue η).Ledger now [] [] [] where
  wf := wf_empty
  below := nofun
  fresh := .nil
  pending id d x := iff_of_false (not_pending_empty id d x) nofun
  due := nofun
  poppedOnce := .nil
  known := nofun
  cancelledOnce := .nil
  apart := nofun

namespace Ledger

/-- A timer has one deadline and carries one value. -/
theorem unique (h : q.Ledger now scheduled cancelled popped) {id d d' : Nat} {x x' : η}
    (hx : (id, d, x) ∈ scheduled) (hx' : (id, d', x') ∈ scheduled) : d = d' ∧ x = x' := by
  obtain ⟨-, heq⟩ := Prod.mk.inj (List.inj_on_of_nodup_map h.fresh hx hx' rfl)
  exact Prod.mk.inj heq

theorem popped_known (h : q.Ledger now scheduled cancelled popped) {id : Nat}
    (hid : id ∈ popped.map (·.1)) : id ∈ scheduled.map (·.1) := by
  obtain ⟨⟨id, x⟩, hx, rfl⟩ := List.mem_map.1 hid
  obtain ⟨d, -, hscheduled⟩ := h.due id x hx
  exact List.mem_map_of_mem hscheduled

/-- A timer that is due is taken out, unless it was cancelled or taken out before. -/
theorem mem_popDue (h : q.Ledger now scheduled cancelled popped) {id d : Nat} {x : η}
    (hx : (id, d, x) ∈ scheduled) (hdue : d ≤ instant) :
    id ∈ cancelled ∨ id ∈ popped.map (·.1) ∨ (id, x) ∈ (q.popDue instant).1 := by
  by_cases hcancelled : id ∈ cancelled
  · exact .inl hcancelled
  · by_cases hpopped : id ∈ popped.map (·.1)
    · exact .inr (.inl hpopped)
    · exact .inr (.inr (TimerQueue.mem_popDue.2
        ⟨d, hdue, (h.pending id d x).2 ⟨hx, hcancelled, hpopped⟩⟩))

/-- An earlier timer is taken out first, unless it was cancelled or taken out before. -/
theorem popDue_sooner (h : q.Ledger now scheduled cancelled popped) {a d b d' : Nat} {x y : η}
    {earlier later : List (Nat × η)} (hx : (a, d, x) ∈ scheduled) (hy : (b, d', y) ∈ scheduled)
    (hlt : d < d' ∨ d = d' ∧ a < b) (heq : (q.popDue instant).1 = earlier ++ (b, y) :: later) :
    a ∈ cancelled ∨ a ∈ popped.map (·.1) ∨ a ∈ earlier.map (·.1) := by
  rw [popDue_fst] at heq
  obtain ⟨before, after, hdue, rfl, hafter⟩ := List.map_eq_append_iff.1 heq
  obtain ⟨⟨b, e, y⟩, after, rfl, hb, rfl⟩ := List.map_eq_cons_iff.1 hafter
  cases hb
  have hmem : (b, e, y) ∈ q.dueTimers instant := by
    rw [hdue]
    exact List.mem_append_right _ List.mem_cons_self
  obtain ⟨hinstant, hp⟩ := mem_dueTimers.1 hmem
  obtain ⟨rfl, -⟩ := h.unique ((h.pending b e y).1 hp).1 hy
  by_cases hcancelled : a ∈ cancelled
  · exact .inl hcancelled
  by_cases hpopped : a ∈ popped.map (·.1)
  · exact .inr (.inl hpopped)
  have ha : (a, d, x) ∈ q.dueTimers instant :=
    mem_dueTimers.2 ⟨by omega, (h.pending a d x).2 ⟨hx, hcancelled, hpopped⟩⟩
  have hsorted := pairwise_dueTimers q instant
  rw [hdue] at ha hsorted
  rcases List.mem_append.1 ha with ha | ha
  · rw [List.map_map]
    exact .inr (.inr (List.mem_map_of_mem ha))
  · have hle : sooner (b, e, y) (a, d, x) = true := by
      rcases List.mem_cons.1 ha with heq | ha
      · rw [heq]
        exact sooner_iff.2 (.inr ⟨rfl, Nat.le_refl _⟩)
      · exact List.rel_of_pairwise_cons (List.pairwise_append.1 hsorted).2.1 ha
    have hle := sooner_iff.1 hle
    dsimp only at hle
    omega

/-! ## Entries -/

/-- Time passes, and dead entries go. -/
theorem mono (h : q.Ledger now scheduled cancelled popped) (ht : Trimmed q q') {now' : Nat}
    (hnow : now ≤ now') : q'.Ledger now' scheduled cancelled popped :=
  { h with
    wf := ht.wf h.wf
    below := by
      rw [ht.nextId]
      exact h.below
    pending := fun id d x => ht.pending.trans (h.pending id d x)
    due := fun id x hx => by
      obtain ⟨d, hd, hscheduled⟩ := h.due id x hx
      exact ⟨d, Nat.le_trans hd hnow, hscheduled⟩ }

theorem schedule (h : q.Ledger now scheduled cancelled popped) (deadline : Nat) (x : η) :
    (q.schedule deadline x).2.Ledger now (scheduled ++ [(q.nextId, deadline, x)]) cancelled
      popped := by
  have hnew : q.nextId ∉ scheduled.map (·.1) := fun hid => Nat.lt_irrefl _ (h.below _ hid)
  exact
  { wf := wf_schedule h.wf deadline x
    below := by
      intro id hid
      rw [List.map_append, List.mem_append, List.map_singleton, List.mem_singleton] at hid
      rcases hid with hid | rfl
      · exact Nat.lt_succ_of_lt (h.below id hid)
      · exact Nat.lt_succ_self _
    fresh := by
      rw [List.map_append, List.nodup_append_comm]
      exact List.nodup_cons.2 ⟨hnew, h.fresh⟩
    pending := by
      intro id d y
      rw [pending_schedule h.wf, h.pending, List.mem_append, List.mem_singleton]
      constructor
      · rintro (⟨rfl, rfl, rfl⟩ | ⟨hy, hrest⟩)
        · exact ⟨.inr rfl, fun hid => hnew (h.known _ hid), fun hid => hnew (h.popped_known hid)⟩
        · exact ⟨.inl hy, hrest⟩
      · rintro ⟨hy | hy, hrest⟩
        · exact .inr ⟨hy, hrest⟩
        · cases hy
          exact .inl ⟨rfl, rfl, rfl⟩
    due := by
      intro id y hy
      obtain ⟨d, hd, hscheduled⟩ := h.due id y hy
      exact ⟨d, hd, List.mem_append_left _ hscheduled⟩
    poppedOnce := h.poppedOnce
    known := by
      intro id hid
      rw [List.map_append]
      exact List.mem_append_left _ (h.known id hid)
    cancelledOnce := h.cancelledOnce
    apart := h.apart }

theorem cancel_fst (h : q.Ledger now scheduled cancelled popped) (timer : Nat) :
    (q.cancel timer).1 = true ↔
      timer ∈ scheduled.map (·.1) ∧ timer ∉ cancelled ∧ timer ∉ popped.map (·.1) := by
  show timer ∈ q.live ↔ _
  rw [Table.mem_iff_get?]
  constructor
  · rintro ⟨x, hx⟩
    obtain ⟨d, he⟩ := h.wf.entry timer x hx
    obtain ⟨hscheduled, hrest⟩ := (h.pending timer d x).1 ⟨hx, he⟩
    exact ⟨List.mem_map_of_mem hscheduled, hrest⟩
  · rintro ⟨hscheduled, hrest⟩
    obtain ⟨⟨id, d, x⟩, hx, rfl⟩ := List.mem_map.1 hscheduled
    exact ⟨x, ((h.pending id d x).2 ⟨hx, hrest⟩).1⟩

theorem cancel (h : q.Ledger now scheduled cancelled popped) (timer : Nat) :
    (q.cancel timer).2.Ledger now scheduled
      (cancelled ++ if (q.cancel timer).1 then [timer] else []) popped := by
  have hanswer := h.cancel_fst timer
  have hpending : ∀ id d x, (q.cancel timer).2.Pending id d x ↔ id ≠ timer ∧
      (id, d, x) ∈ scheduled ∧ id ∉ cancelled ∧ id ∉ popped.map (·.1) := by
    intro id d x
    rw [pending_cancel, h.pending]
  have hbelow : ∀ id ∈ scheduled.map (·.1), id < (q.cancel timer).2.nextId := by
    unfold TimerQueue.cancel
    rw [(trimmed_compact _).nextId]
    exact h.below
  cases hcancel : (q.cancel timer).1 with
  | false =>
    rw [if_neg Bool.false_ne_true, List.append_nil]
    refine { h with wf := wf_cancel h.wf timer, below := hbelow, pending := ?_ }
    intro id d x
    rw [hpending, and_iff_right_iff_imp]
    rintro ⟨hx, hrest⟩ rfl
    have htrue := hanswer.2 ⟨List.mem_map_of_mem hx, hrest⟩
    rw [hcancel] at htrue
    cases htrue
  | true =>
    obtain ⟨hscheduled, hcancelled, hpopped⟩ := hanswer.1 hcancel
    rw [if_pos rfl]
    exact
    { h with
      wf := wf_cancel h.wf timer
      below := hbelow
      pending := by
        intro id d x
        rw [hpending, List.mem_append, List.mem_singleton]
        tauto
      known := by
        intro id hid
        rcases List.mem_append.1 hid with hid | hid
        · exact h.known id hid
        · exact List.mem_singleton.1 hid ▸ hscheduled
      cancelledOnce := by
        rw [List.nodup_append_comm]
        exact List.nodup_cons.2 ⟨hcancelled, h.cancelledOnce⟩
      apart := by
        intro id hid
        rcases List.mem_append.1 hid with hid | hid
        · exact h.apart id hid
        · exact List.mem_singleton.1 hid ▸ hpopped }

/-- The instant at which timers are taken out may have been read some time ago. -/
theorem popDue (h : q.Ledger now scheduled cancelled popped) (hread : instant ≤ now) :
    (q.popDue instant).2.Ledger now scheduled cancelled (popped ++ (q.popDue instant).1) := by
  have hbatch : ∀ id ∈ (q.popDue instant).1.map (·.1), ∃ d x, d ≤ instant ∧
      (id, d, x) ∈ scheduled ∧ id ∉ cancelled ∧ id ∉ popped.map (·.1) := by
    intro id hid
    obtain ⟨⟨id, x⟩, hx, rfl⟩ := List.mem_map.1 hid
    obtain ⟨d, hd, hp⟩ := TimerQueue.mem_popDue.1 hx
    exact ⟨d, x, hd, (h.pending id d x).1 hp⟩
  exact
  { h with
    wf := wf_popDue h.wf instant
    pending := by
      intro id d x
      rw [pending_popDue h.wf, h.pending, List.map_append, List.mem_append]
      constructor
      · rintro ⟨hlate, hx, hcancelled, hpopped⟩
        refine ⟨hx, hcancelled, not_or.2 ⟨hpopped, fun hid => ?_⟩⟩
        obtain ⟨d', x', hd', hx', -⟩ := hbatch id hid
        obtain ⟨rfl, -⟩ := h.unique hx hx'
        exact Nat.lt_irrefl _ (Nat.lt_of_lt_of_le hlate hd')
      · rintro ⟨hx, hcancelled, hout⟩
        obtain ⟨hpopped, hnot⟩ := not_or.1 hout
        refine ⟨Nat.lt_of_not_le fun hd => ?_, hx, hcancelled, hpopped⟩
        rcases h.mem_popDue hx hd with hc | hp | hb
        · exact hcancelled hc
        · exact hpopped hp
        · exact hnot (List.mem_map_of_mem hb)
    due := by
      intro id x hx
      rcases List.mem_append.1 hx with hx | hx
      · exact h.due id x hx
      · obtain ⟨d, hd, hp⟩ := TimerQueue.mem_popDue.1 hx
        exact ⟨d, Nat.le_trans hd hread, ((h.pending id d x).1 hp).1⟩
    poppedOnce := by
      rw [List.map_append, List.nodup_append']
      refine ⟨h.poppedOnce, nodup_popDue h.wf instant, fun id hpopped hid => ?_⟩
      obtain ⟨d, x, -, -, -, hnot⟩ := hbatch id hid
      exact hnot hpopped
    apart := by
      intro id hcancelled hid
      rw [List.map_append, List.mem_append] at hid
      rcases hid with hid | hid
      · exact h.apart id hcancelled hid
      · obtain ⟨d, x, -, -, hnot, -⟩ := hbatch id hid
        exact hnot hcancelled }

end Ledger

end LeaseLock.TimerQueue
