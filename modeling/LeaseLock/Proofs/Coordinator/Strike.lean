import LeaseLock.Proofs.Coordinator.Handle

/-
  LeaseLock: striking sessions off one handle.
  `Handle.without` takes a set of sessions off the holders, the openers and the queue at once;
  `Handle.drop` does so for one session, the way an operation does it.

  `pump_without`: if a queue is served, then unregistered sessions are struck off and the queue is
  served again, the handle is as if they had been struck off before it was served at all.  Hence
  the order in which unregistered sessions leave a handle does not matter.
-/

namespace LeaseLock.Coordinator.Handle

variable {ρ : Type} {registered : Nat → Bool} {h : Handle ρ} {gone : Nat → Bool}

/-- The handle without a set of sessions. -/
def without (h : Handle ρ) (gone : Nat → Bool) : Handle ρ :=
  { h with
    holders := h.holders.filterKeys fun sid => !gone sid
    openers := h.openers.filterKeys fun sid => !gone sid
    waiters := h.waiters.filter fun w => !gone w.session }

/-- The handle without one session: its first request, its lock and itself as an opener. -/
def drop (h : Handle ρ) (sid : Nat) : Handle ρ :=
  { h with
    holders := h.holders.erase sid
    openers := h.openers.erase sid
    waiters := h.waiters.eraseP fun w => w.session == sid }

/-! ## Members -/

theorem get?_holders_without {sid : Nat} {mode : Mode} :
    (h.without gone).holders.get? sid = some mode ↔
      gone sid = false ∧ h.holders.get? sid = some mode := by
  unfold without
  rw [Table.get?_filterKeys]
  cases gone sid <;> simp

theorem mem_holders_without {sid : Nat} :
    sid ∈ (h.without gone).holders ↔ gone sid = false ∧ sid ∈ h.holders := by
  unfold without
  rw [Table.mem_filterKeys, Bool.not_eq_true']

theorem mem_openers_without {sid : Nat} :
    sid ∈ (h.without gone).openers ↔ gone sid = false ∧ sid ∈ h.openers := by
  unfold without
  rw [Table.mem_filterKeys, Bool.not_eq_true']

theorem mem_waiters_without {w : Waiter ρ} :
    w ∈ (h.without gone).waiters ↔ w ∈ h.waiters ∧ gone w.session = false := by
  unfold without
  rw [List.mem_filter, Bool.not_eq_true']

theorem Wf.without (hwf : h.Wf) (gone : Nat → Bool) : (h.without gone).Wf := by
  refine hwf.of_sub ?_ List.filter_sublist ?_ ?_
  · intro sid mode hm
    exact (get?_holders_without.1 hm).2
  · intro sid hm
    rw [mem_holders_without] at hm
    exact mem_openers_without.2 ⟨hm.1, hwf.holder_opener sid hm.2⟩
  · intro w hw
    rw [mem_waiters_without] at hw
    exact mem_openers_without.2 ⟨hw.2, hwf.waiter_opener w hw.1⟩

/-- Only the sessions that have the handle open matter. -/
theorem Wf.without_congr (hwf : h.Wf) {gone' : Nat → Bool}
    (heq : ∀ sid, sid ∈ h.openers → gone sid = gone' sid) : h.without gone = h.without gone' := by
  have hholders : h.holders.filterKeys (fun sid => !gone sid) =
      h.holders.filterKeys fun sid => !gone' sid := by
    ext1 sid
    rw [Table.get?_filterKeys, Table.get?_filterKeys]
    by_cases hm : sid ∈ h.holders
    · rw [heq sid (hwf.holder_opener sid hm)]
    · rw [Table.not_mem_iff.1 hm, ite_self, ite_self]
  have hopeners : h.openers.filterKeys (fun sid => !gone sid) =
      h.openers.filterKeys fun sid => !gone' sid := by
    ext1 sid
    rw [Table.get?_filterKeys, Table.get?_filterKeys]
    by_cases hm : sid ∈ h.openers
    · rw [heq sid hm]
    · rw [Table.not_mem_iff.1 hm, ite_self, ite_self]
  have hwaiters : h.waiters.filter (fun w => !gone w.session) =
      h.waiters.filter fun w => !gone' w.session :=
    List.filter_congr fun w hw => by rw [heq w.session (hwf.waiter_opener w hw)]
  unfold Handle.without
  rw [hholders, hopeners, hwaiters]

/-- Nobody is struck off. -/
theorem without_none (hnone : ∀ sid, gone sid = false) : h.without gone = h := by
  have hkeep : ∀ {β : Type} (t : Table β), t.filterKeys (fun sid => !gone sid) = t := by
    intro β t
    ext1 sid
    rw [Table.get?_filterKeys, hnone sid]
    rfl
  unfold without
  rw [hkeep, hkeep, List.filter_eq_self.2 fun w _ => by rw [hnone]; rfl]

theorem without_without (gone' : Nat → Bool) :
    (h.without gone).without gone' = h.without fun sid => gone sid || gone' sid := by
  unfold without
  simp only [Table.filterKeys_filterKeys, List.filter_filter, Bool.not_or, Bool.and_comm]

theorem eraseP_eq_filter {l : List (Waiter ρ)} (hnd : (l.map (·.session)).Nodup) (sid : Nat) :
    l.eraseP (fun w => w.session == sid) = l.filter fun w => !(w.session == sid) := by
  induction l with
  | nil => rfl
  | cons w rest ih =>
    rw [List.map_cons, List.nodup_cons] at hnd
    by_cases hw : w.session = sid
    · have hrest : ∀ v ∈ rest, (!(v.session == sid)) = true := by
        intro v hv
        rw [Bool.not_eq_true', beq_eq_false_iff_ne]
        intro heq
        exact hnd.1 (List.mem_map.2 ⟨v, hv, heq.trans hw.symm⟩)
      have heq : (w.session == sid) = true := beq_iff_eq.2 hw
      have hout : ¬ (!(w.session == sid)) = true := by
        rw [heq]
        exact Bool.false_ne_true
      have herase : (w :: rest).eraseP (fun v => v.session == sid) = rest :=
        List.eraseP_cons_of_pos heq
      have hfilter : (w :: rest).filter (fun v => !(v.session == sid)) =
          rest.filter fun v => !(v.session == sid) := List.filter_cons_of_neg hout
      rw [herase, hfilter, List.filter_eq_self.2 hrest]
    · have hne : ¬ (w.session == sid) = true := fun heq => hw (beq_iff_eq.1 heq)
      have hin : (!(w.session == sid)) = true := by
        rw [Bool.not_eq_true']
        exact eq_false_of_ne_true hne
      have herase : (w :: rest).eraseP (fun v => v.session == sid) =
          w :: rest.eraseP fun v => v.session == sid := List.eraseP_cons_of_neg hne
      have hfilter : (w :: rest).filter (fun v => !(v.session == sid)) =
          w :: rest.filter fun v => !(v.session == sid) := List.filter_cons_of_pos hin
      rw [herase, hfilter, ih hnd.2]

/-- Dropping one session is striking it off. -/
theorem Wf.drop_eq (hwf : h.Wf) (sid : Nat) : h.drop sid = h.without fun j => j == sid := by
  unfold drop Handle.without
  rw [eraseP_eq_filter hwf.waits_once]
  rfl

theorem Wf.drop (hwf : h.Wf) (sid : Nat) : (h.drop sid).Wf := by
  rw [hwf.drop_eq]
  exact hwf.without _

/-! ## Serving before and after -/

theorem grant_without {sid : Nat} {mode : Mode} (hsid : gone sid = false) :
    (h.without gone).grant sid mode = (h.grant sid mode).without gone := by
  have hstays : (!gone sid) = true := by
    rw [hsid]
    rfl
  unfold without grant
  rw [Table.filterKeys_insert hstays]

theorem admits_without {mode : Mode} (ha : h.admits mode = true) :
    (h.without gone).admits mode = true :=
  admits_of_sub ha fun _ _ hm => (get?_holders_without.1 hm).2

theorem pump_without_stuck (w : Waiter ρ) (rest : List (Waiter ρ)) :
    (({ h with waiters := w :: rest } : Handle ρ).without gone).pump registered =
      (h.without gone).serve registered ((w :: rest).filter fun v => !gone v.session) :=
  serve_waiters (h := h.without gone) _ _

/-- Serving, striking off and serving again comes to striking off and serving. -/
theorem serve_without (hgone : ∀ sid, gone sid = true → registered sid = false)
    (ws : List (Waiter ρ)) :
    (((h.serve registered ws).2.without gone).pump registered).2 =
      ((h.without gone).serve registered (ws.filter fun w => !gone w.session)).2 := by
  induction ws generalizing h with
  | nil => rfl
  | cons w rest ih =>
    rcases serve_cases h registered w with ⟨ha, hr⟩ | ⟨ha, hr⟩ | ha
    · -- the head is granted, and is not among those struck off
      have hw : gone w.session = false := by
        cases hg : gone w.session with
        | false => rfl
        | true =>
          rw [hgone _ hg] at hr
          exact absurd hr Bool.false_ne_true
      have hin : (!gone w.session) = true := by
        rw [hw]
        rfl
      have hfilter : (w :: rest).filter (fun v => !gone v.session) =
          w :: rest.filter fun v => !gone v.session := List.filter_cons_of_pos hin
      rw [serve_granted ha hr, hfilter, serve_granted (admits_without ha) hr, grant_without hw]
      exact ih
    · -- the head is turned away, or struck off beforehand
      rw [serve_lapsed ha hr]
      cases hw : gone w.session with
      | true =>
        have hout : ¬ (!gone w.session) = true := by
          rw [hw]
          exact Bool.false_ne_true
        have hfilter : (w :: rest).filter (fun v => !gone v.session) =
            rest.filter fun v => !gone v.session := List.filter_cons_of_neg hout
        rw [hfilter]
        exact ih
      | false =>
        have hin : (!gone w.session) = true := by
          rw [hw]
          rfl
        have hfilter : (w :: rest).filter (fun v => !gone v.session) =
            w :: rest.filter fun v => !gone v.session := List.filter_cons_of_pos hin
        rw [hfilter, serve_lapsed (admits_without ha) hr]
        exact ih
    · rw [serve_stuck ha, pump_without_stuck]

theorem pump_without (hgone : ∀ sid, gone sid = true → registered sid = false) :
    (((h.pump registered).2.without gone).pump registered).2 =
      ((h.without gone).pump registered).2 :=
  serve_without hgone h.waiters

end LeaseLock.Coordinator.Handle
