import LeaseLock.Proofs.Coordinator.Deed
import LeaseLock.Proofs.Coordinator.Queue

/-
  LeaseLock: who waits in which order.
  The queue of a handle is a line: requests join it at the end (`Deed.joins?`), and none ever
  passes another one.  `Course.line_sublist` says so for every course, and `Course.line_perm`
  says that no request gets lost: it is still in the line, or one of the deeds took it out
  (`Deed.leaves?`).  From both follows `Course.no_overtaking`: if the requests have been made in
  the order of their numbers, nobody gets the lock before someone who was in the line when the
  request was made has left it.
-/

namespace LeaseLock.Coordinator

variable {ρ : Type}

/-! ## Joining and leaving -/

namespace Change

/-- The request that joins the line. -/
def joins? : Change ρ → Option (Waiter ρ)
  | joined w => some w
  | _ => none

/-- The request that leaves the line. -/
def leaves? : Change ρ → Option (Waiter ρ)
  | admitted w _ => some w
  | lapsed w => some w
  | withdrawn w _ => some w
  | _ => none

/-- The request that gets the lock, and the generation. -/
def grants? : Change ρ → Option (Waiter ρ × Nat)
  | given w generation => some (w, generation)
  | admitted w generation => some (w, generation)
  | _ => none

end Change

namespace Deed

/-- The request that joins the line of a handle. -/
def joins? (handle : Nat) : Deed ρ → Option (Waiter ρ)
  | on j c => if j = handle then c.joins? else none
  | _ => none

/-- The request that leaves the line of a handle. -/
def leaves? (handle : Nat) : Deed ρ → Option (Waiter ρ)
  | on j c => if j = handle then c.leaves? else none
  | _ => none

/-- The handle whose lock is given, the request that gets it, and the generation. -/
def grants? : Deed ρ → Option (Nat × Waiter ρ × Nat)
  | on handle c => c.grants?.map (handle, ·)
  | _ => none

end Deed

/-- The requests that wait for a handle, in their order. -/
def Shelf.line (s : Shelf ρ) (handle : Nat) : List (Waiter ρ) :=
  ((s.handles.get? handle).map (·.waiters)).getD []

/-- The requests that wait for a handle, in their order. -/
def State.line (s : State ρ) (handle : Nat) : List (Waiter ρ) :=
  ((s.handle? handle).map (·.waiters)).getD []

theorem State.mem_queue_iff_line {s : State ρ} {handle : Nat} {w : Waiter ρ} :
    (handle, w) ∈ s.queue ↔ w ∈ s.line handle := by
  rw [State.mem_queue, State.line]
  cases s.handle? handle <;> simp

section Step

variable {s s' : Shelf ρ} {handle : Nat} {x y : Handle ρ} {c : Change ρ} {d : Deed ρ}

theorem Shelf.line_of_get? (hx : s.handles.get? handle = some x) : s.line handle = x.waiters := by
  unfold Shelf.line
  rw [hx]
  rfl

theorem Shelf.line_put (s : Shelf ρ) (handle : Nat) (y : Handle ρ) (j : Nat) :
    (s.put handle y).line j = if j = handle then y.waiters else s.line j := by
  unfold Shelf.line
  rw [Shelf.get?_put]
  split <;> rfl

/-- Whoever is left in the line stands as before, and whoever joins stands at the end. -/
theorem Handle.Undergoes.waiters_sublist (hc : x.Undergoes c y) :
    y.waiters.Sublist (x.waiters ++ c.joins?.toList) := by
  have hsame : x.waiters.Sublist (x.waiters ++ []) := List.sublist_append_left _ _
  cases hc with
  | given alone admits opener new => exact hsame
  | joined blocked opener new => exact List.Sublist.refl _
  | admitted head admits =>
    rw [head]
    exact (List.sublist_cons_self _ _).trans (List.sublist_append_left _ _)
  | lapsed head admits =>
    rw [head]
    exact (List.sublist_cons_self _ _).trans (List.sublist_append_left _ _)
  | withdrawn found proper => exact List.eraseP_sublist.trans (List.sublist_append_left _ _)
  | unlocked held => exact hsame
  | opened session => exact hsame
  | shut opener idle quiet => exact hsame

/-- Whoever waits or joins leaves the line or is in it afterwards. -/
theorem Handle.Undergoes.waiters_perm (hc : x.Undergoes c y) :
    (x.waiters ++ c.joins?.toList).Perm (c.leaves?.toList ++ y.waiters) := by
  have hsame : (x.waiters ++ []).Perm ([] ++ x.waiters) := .of_eq (List.append_nil _)
  cases hc with
  | given alone admits opener new => exact hsame
  | joined blocked opener new => exact .refl _
  | admitted head admits =>
    refine hsame.trans (.of_eq ?_)
    rw [head]
    rfl
  | lapsed head admits =>
    refine hsame.trans (.of_eq ?_)
    rw [head]
    rfl
  | withdrawn found proper =>
    rename_i w a
    have hp := perm_find?_eraseP x.waiters fun v => v.session == w.session
    rw [found] at hp
    exact hsame.trans hp
  | unlocked held => exact hsame
  | opened session => exact hsame
  | shut opener idle quiet => exact hsame

/-- The line of a handle that has just been made or is not there is empty. -/
theorem Shelf.line_created (hwf : s.Wf) (name : String) (handle : Nat) :
    (⟨s.handles.insert s.next (.fresh name), s.next + 1⟩ : Shelf ρ).line handle =
      s.line handle := by
  refine (Shelf.line_put s s.next (.fresh name) handle).trans ?_
  split
  · rename_i hj
    have hnone : s.handles.get? s.next = none := by
      cases hx : s.handles.get? s.next with
      | none => rfl
      | some x => exact absurd (hwf _ x hx).2 (Nat.lt_irrefl _)
    unfold Shelf.line
    rw [hj, hnone]
    rfl
  · rfl

theorem Shelf.line_destroyed (hx : s.handles.get? handle = some x) (hwf : x.Wf)
    (hunused : x.openers.isEmpty = true) (j : Nat) :
    (⟨s.handles.erase handle, s.next⟩ : Shelf ρ).line j = s.line j := by
  by_cases hj : j = handle
  · rw [hj, Shelf.line_of_get? hx, hwf.waiters_eq_nil hunused]
    unfold Shelf.line
    rw [Table.get?_erase_self]
    rfl
  · unfold Shelf.line
    rw [Table.get?_erase_of_ne _ hj]

theorem Deed.Leads.line_sublist (hd : d.Leads s s') (hwf : s.Wf) (handle : Nat) :
    (s'.line handle).Sublist (s.line handle ++ (d.joins? handle).toList) := by
  cases hd with
  | on found change =>
    rename_i j x y c
    rw [Shelf.line_put]
    by_cases hj : handle = j
    · rw [if_pos hj, hj, Shelf.line_of_get? found, Deed.joins?, if_pos rfl]
      exact change.waiters_sublist
    · rw [if_neg hj]
      exact List.sublist_append_left _ _
  | created name =>
    rw [Shelf.line_created hwf]
    exact List.sublist_append_left _ _
  | destroyed found unused =>
    rw [Shelf.line_destroyed found (hwf _ _ found).1 unused]
    exact List.sublist_append_left _ _
  | turnedAway bare => exact List.sublist_append_left _ _
  | ended session locks => exact List.sublist_append_left _ _

theorem Deed.Leads.line_perm (hd : d.Leads s s') (hwf : s.Wf) (handle : Nat) :
    (s.line handle ++ (d.joins? handle).toList).Perm
      ((d.leaves? handle).toList ++ s'.line handle) := by
  have hsame : (s.line handle ++ []).Perm ([] ++ s.line handle) := .of_eq (List.append_nil _)
  cases hd with
  | on found change =>
    rename_i j x y c
    rw [Shelf.line_put, Deed.joins?, Deed.leaves?]
    by_cases hj : handle = j
    · rw [if_pos hj, if_pos hj.symm, if_pos hj.symm, hj, Shelf.line_of_get? found]
      exact change.waiters_perm
    · rw [if_neg hj, if_neg (Ne.symm hj), if_neg (Ne.symm hj)]
      exact hsame
  | created name =>
    rw [Shelf.line_created hwf]
    exact hsame
  | destroyed found unused =>
    rw [Shelf.line_destroyed found (hwf _ _ found).1 unused]
    exact hsame
  | turnedAway bare => exact hsame
  | ended session locks => exact hsame

end Step

/-! ## Whole courses -/

namespace Course

variable {s s' : Shelf ρ} {ds : List (Deed ρ)} {handle : Nat}

/-- Nobody in a line passes another one. -/
theorem line_sublist (hc : Course s ds s') (hwf : s.Wf) (handle : Nat) :
    (s'.line handle).Sublist (s.line handle ++ ds.filterMap (Deed.joins? handle)) := by
  induction hc with
  | nil => exact List.sublist_append_left _ _
  | cons first rest ih =>
    rw [Deed.filterMap_cons, ← List.append_assoc]
    exact (ih (first.wf hwf)).trans ((first.line_sublist hwf handle).append_right _)

/-- Nobody in a line gets lost. -/
theorem line_perm (hc : Course s ds s') (hwf : s.Wf) (handle : Nat) :
    (s.line handle ++ ds.filterMap (Deed.joins? handle)).Perm
      (ds.filterMap (Deed.leaves? handle) ++ s'.line handle) := by
  induction hc with
  | nil => exact .of_eq (List.append_nil _)
  | cons first rest ih =>
    rw [Deed.filterMap_cons, Deed.filterMap_cons, ← List.append_assoc]
    refine ((first.line_perm hwf handle).append_right _).trans ?_
    rw [List.append_assoc, List.append_assoc]
    exact (ih (first.wf hwf)).append_left _

theorem stays_or_leaves (hc : Course s ds s') (hwf : s.Wf) {w : Waiter ρ}
    (hw : w ∈ s.line handle ++ ds.filterMap (Deed.joins? handle)) :
    w ∈ s'.line handle ∨ ∃ d ∈ ds, d.leaves? handle = some w := by
  rw [(hc.line_perm hwf handle).mem_iff] at hw
  rcases List.mem_append.1 hw with hleft | hline
  · exact .inr (List.mem_filterMap.1 hleft)
  · exact .inl hline

end Course

/-! ## Deeds that answer -/

/-- Only deeds that are possible stand in a course. -/
theorem Course.leads_of_mem {s s' : Shelf ρ} {ds : List (Deed ρ)} (hc : Course s ds s')
    {d : Deed ρ} (hd : d ∈ ds) : ∃ s₁ s₂, d.Leads s₁ s₂ := by
  induction hc with
  | nil => cases hd
  | @cons s s₁ s' e ds first rest ih =>
    rcases List.mem_cons.1 hd with rfl | hd
    · exact ⟨s, s₁, first⟩
    · exact ih hd

theorem Deed.grants?_eq_some {d : Deed ρ} {handle generation : Nat} {w : Waiter ρ}
    (hd : d.grants? = some (handle, w, generation)) :
    d = .on handle (.given w generation) ∨ d = .on handle (.admitted w generation) := by
  cases d with
  | on j c =>
    cases c with
    | given w g =>
      cases hd
      exact .inl rfl
    | admitted w g =>
      cases hd
      exact .inr rfl
    | joined w => cases hd
    | lapsed w => cases hd
    | withdrawn w a => cases hd
    | unlocked session reason => cases hd
    | opened session => cases hd
    | shut session => cases hd
  | created j => cases hd
  | destroyed j => cases hd
  | turnedAway reply a => cases hd
  | ended session locks => cases hd

/-- Whoever is told of a grant gets the lock. -/
theorem Deed.Leads.grants {s s' : Shelf ρ} {d : Deed ρ} (hd : d.Leads s s') {reply : ρ}
    {generation : Nat} (hm : d.message? = some (reply, .granted generation)) :
    ∃ handle w, d.grants? = some (handle, w, generation) ∧ w.reply = reply := by
  cases hd with
  | on found change =>
    rename_i handle x y c
    cases change with
    | given alone admits opener new =>
      cases hm
      exact ⟨handle, _, rfl, rfl⟩
    | admitted head admits =>
      cases hm
      exact ⟨handle, _, rfl, rfl⟩
    | withdrawn found proper =>
      cases hm
      rcases proper with hp | hp
      · cases hp
      · cases hp
    | joined blocked opener new => cases hm
    | lapsed head admits => cases hm
    | unlocked held => cases hm
    | opened session => cases hm
    | shut opener idle quiet => cases hm
  | turnedAway bare =>
    cases hm
    exact absurd rfl (bare generation)
  | created name => cases hm
  | destroyed found unused => cases hm
  | ended session locks => cases hm

/-- Observers are told whenever a lock is given. -/
theorem Deed.event?_of_grants {d : Deed ρ} {handle generation : Nat} {w : Waiter ρ}
    (hd : d.grants? = some (handle, w, generation)) :
    d.event? = some (.acquired handle w.session w.mode generation) := by
  rcases Deed.grants?_eq_some hd with rfl | rfl
  · rfl
  · rfl

theorem Deed.message?_of_grants {d : Deed ρ} {handle generation : Nat} {w : Waiter ρ}
    (hd : d.grants? = some (handle, w, generation)) :
    d.message? = some (w.reply, .granted generation) := by
  rcases Deed.grants?_eq_some hd with rfl | rfl
  · rfl
  · rfl

/-- Whoever gets a lock is answered. -/
theorem Deed.grants_sublist (ds : List (Deed ρ)) :
    ((ds.filterMap Deed.grants?).map (·.2.1.reply)).Sublist
      ((ds.filterMap Deed.message?).map (·.1)) := by
  induction ds with
  | nil => exact List.Sublist.refl _
  | cons d rest ih =>
    rw [Deed.filterMap_cons, Deed.filterMap_cons, List.map_append, List.map_append]
    refine List.Sublist.append ?_ ih
    cases hd : d.grants? with
    | none => exact List.nil_sublist _
    | some p =>
      rw [Deed.message?_of_grants hd]
      exact List.Sublist.refl _

/-- Observers are told of a lock only when it is given. -/
theorem Deed.grants_of_event {d : Deed ρ} {handle session generation : Nat} {mode : Mode}
    (hd : d.event? = some (.acquired handle session mode generation)) :
    ∃ w, d.grants? = some (handle, w, generation) ∧ w.session = session ∧ w.mode = mode := by
  cases d with
  | on j c =>
    cases c with
    | given w g =>
      cases hd
      exact ⟨w, rfl, rfl, rfl⟩
    | admitted w g =>
      cases hd
      exact ⟨w, rfl, rfl, rfl⟩
    | joined w => cases hd
    | lapsed w => cases hd
    | withdrawn w a => cases hd
    | unlocked session reason => cases hd
    | opened session => cases hd
    | shut session => cases hd
  | created j => cases hd
  | destroyed j => cases hd
  | turnedAway reply a => cases hd
  | ended session locks => cases hd

/-- Whoever leaves a line is answered, in one of the ways in which a waiting request is
answered. -/
theorem Deed.Leads.answers {s s' : Shelf ρ} {d : Deed ρ} (hd : d.Leads s s') {handle : Nat}
    {w : Waiter ρ} (hw : d.leaves? handle = some w) :
    ∃ a, d.message? = some (w.reply, a) ∧ ((∃ generation, a = .granted generation) ∨
      a = .cancelled ∨ a = .refused (.sessionExpired w.session)) := by
  cases hd with
  | on found change =>
    rw [Deed.leaves?] at hw
    split at hw
    · cases change with
      | admitted head admits =>
        cases hw
        exact ⟨_, rfl, .inl ⟨_, rfl⟩⟩
      | lapsed head admits =>
        cases hw
        exact ⟨_, rfl, .inr (.inr rfl)⟩
      | withdrawn found proper =>
        cases hw
        exact ⟨_, rfl, .inr proper⟩
      | given alone admits opener new => cases hw
      | joined blocked opener new => cases hw
      | unlocked held => cases hw
      | opened session => cases hw
      | shut opener idle quiet => cases hw
    · cases hw
  | created name => cases hw
  | destroyed found unused => cases hw
  | turnedAway bare => cases hw
  | ended session locks => cases hw

/-! ## First come, first served -/

theorem Deed.request?_of_joins? {d : Deed ρ} {handle : Nat} {w : Waiter ρ}
    (hd : d.joins? handle = some w) :
    d.request? = some (handle, w) := by
  cases d with
  | on j c =>
    rw [Deed.joins?] at hd
    split at hd
    · rename_i hj
      cases c <;> cases hd
      rw [← hj]
      rfl
    · cases hd
  | created j => cases hd
  | destroyed j => cases hd
  | turnedAway reply a => cases hd
  | ended session locks => cases hd

/-- Whoever joins a line has asked for its lock. -/
theorem Deed.joined_sublist (ds : List (Deed ρ)) (handle : Nat) :
    ((ds.filterMap (Deed.joins? handle)).map (handle, ·)).Sublist
      (ds.filterMap Deed.request?) := by
  induction ds with
  | nil => exact List.Sublist.refl _
  | cons d rest ih =>
    rw [Deed.filterMap_cons, Deed.filterMap_cons, List.map_append]
    refine List.Sublist.append ?_ ih
    cases hj : d.joins? handle with
    | none => exact List.nil_sublist _
    | some w =>
      rw [Deed.request?_of_joins? hj]
      exact List.Sublist.refl _

/-- The requests have been made in the order of their numbers. -/
def InOrder (ds : List (Deed Nat)) : Prop :=
  (ds.filterMap Deed.request?).Pairwise fun p q => p.2.reply < q.2.reply

section InOrder

variable {s s' : Shelf Nat} {ds pre post : List (Deed Nat)} {d : Deed Nat} {handle : Nat}
  {a b : Waiter Nat}

/-- Those who join a line do so in the order of their numbers. -/
theorem InOrder.joined (ho : InOrder ds) (handle : Nat) :
    (ds.filterMap (Deed.joins? handle)).Pairwise fun v w => v.reply < w.reply := by
  have hpairs := ho.sublist (Deed.joined_sublist ds handle)
  rw [List.pairwise_map] at hpairs
  exact hpairs

/-- Whoever has been waiting for a lock when it is given to `b` stands behind `b`. -/
theorem Deed.Leads.behind (hd : d.Leads s s') {generation : Nat}
    (hb : d.grants? = some (handle, b, generation)) (ha : a ∈ s.line handle) :
    ∃ rest, s.line handle = b :: rest ∧ (a = b ∨ a ∈ rest) := by
  rcases Deed.grants?_eq_some hb with rfl | rfl
  · cases hd with
    | on found change =>
      cases change with
      | given alone admits opener new =>
        rw [Shelf.line_of_get? found, alone] at ha
        cases ha
  · cases hd with
    | on found change =>
      cases change with
      | admitted head admits =>
        rename_i rest
        rw [Shelf.line_of_get? found, head] at ha ⊢
        exact ⟨rest, rfl, List.mem_cons.1 ha⟩

/-- Whoever gets the lock has asked for it. -/
theorem Deed.Leads.requested (hd : d.Leads s s') {generation : Nat}
    (hb : d.grants? = some (handle, b, generation)) :
    d.request? = some (handle, b) ∨ b ∈ s.line handle := by
  rcases Deed.grants?_eq_some hb with rfl | rfl
  · exact .inl rfl
  · cases hd with
    | on found change =>
      cases change with
      | admitted head admits =>
        right
        rw [Shelf.line_of_get? found, head]
        exact List.mem_cons_self

/-- Whoever asks later has a larger number. -/
theorem InOrder.lt (ho : InOrder (pre ++ d :: post)) {p q : Nat × Waiter Nat}
    (hp : p ∈ pre.filterMap Deed.request? ∨ d.request? = some p)
    (hq : q ∈ post.filterMap Deed.request?) : p.2.reply < q.2.reply := by
  unfold InOrder at ho
  rw [List.filterMap_append, Deed.filterMap_cons, List.pairwise_append] at ho
  rcases hp with hp | hp
  · exact ho.2.2 p hp q (List.mem_append_right _ hq)
  · exact (List.pairwise_append.1 ho.2.1).2.2 p (Option.mem_toList.2 hp) q hq

theorem InOrder.of_append (ho : InOrder (pre ++ post)) : InOrder pre := by
  unfold InOrder at ho ⊢
  rw [List.filterMap_append, List.pairwise_append] at ho
  exact ho.1

/-- Nobody gets the lock before someone who joined the line with a smaller number has left it. -/
theorem Course.no_overtaking (hc : Course s (pre ++ d :: post) s') (hwf : s.Wf)
    (hempty : s.line handle = []) (ho : InOrder (pre ++ d :: post)) {generation : Nat}
    (hb : d.grants? = some (handle, b, generation))
    (ha : .on handle (.joined a) ∈ pre ++ d :: post) (hlt : a.reply < b.reply) :
    ∃ e ∈ pre, e.leaves? handle = some a := by
  obtain ⟨s₁, hpre, hrest⟩ := hc.split
  cases hrest with
  | cons first rest =>
    have hjoined := hpre.line_sublist hwf handle
    rw [hempty, List.nil_append] at hjoined
    have hasked : (handle, b) ∈ pre.filterMap Deed.request? ∨ d.request? = some (handle, b) := by
      rcases first.requested hb with hd | hline
      · exact .inr hd
      · obtain ⟨e, he, hj⟩ := List.mem_filterMap.1 (hjoined.subset hline)
        exact .inl (List.mem_filterMap.2 ⟨e, he, Deed.request?_of_joins? hj⟩)
    -- `a` joined the line before `b` got the lock
    have hbefore : a ∈ pre.filterMap (Deed.joins? handle) := by
      rcases List.mem_append.1 ha with hpre | hlate
      · exact List.mem_filterMap.2 ⟨_, hpre, if_pos rfl⟩
      · rcases List.mem_cons.1 hlate with rfl | hpost
        · cases hb
        · have hmade : (handle, a) ∈ post.filterMap Deed.request? :=
            List.mem_filterMap.2 ⟨_, hpost, rfl⟩
          have hgt : b.reply < a.reply := ho.lt hasked hmade
          omega
    have hwaits : a ∈ s.line handle ++ pre.filterMap (Deed.joins? handle) :=
      List.mem_append_right _ hbefore
    rcases hpre.stays_or_leaves hwf hwaits with hline | hleft
    · obtain ⟨rest, hq, hbehind⟩ := first.behind hb hline
      have hascending := (ho.of_append.joined handle).sublist hjoined
      rw [hq, List.pairwise_cons] at hascending
      rcases hbehind with rfl | hbehind
      · exact absurd hlt (Nat.lt_irrefl _)
      · exact absurd (hascending.1 a hbehind) (by omega)
    · exact hleft

end InOrder

end LeaseLock.Coordinator
