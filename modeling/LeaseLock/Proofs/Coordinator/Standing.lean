import LeaseLock.Proofs.Coordinator.Carried
import LeaseLock.Proofs.Coordinator.Line

/-
  LeaseLock: what becomes of a session at a handle on which it does not act.
  It keeps its lock, in the same mode and in the same generation (`Course.keeps_grant`).  Its
  request stays in the line or leaves it with the lock (`Course.keeps_request`).  Without a request
  it gains nothing (`Course.keeps_out`).  Every answer goes to the request that the operation makes
  or to one that leaves a line (`Deed.messages_perm`), and a request of a session that does not act
  is told nothing but a grant (`Carried.answer_of_idle`).
-/

namespace LeaseLock.Coordinator

variable {ρ : Type}

/-! ## Locks -/

/-- A session holds the lock of a handle in this mode, and so many exclusive grants have been made
of it. -/
def Shelf.Granted (s : Shelf ρ) (handle session : Nat) (mode : Mode) (generation : Nat) : Prop :=
  ∃ x, s.handles.get? handle = some x ∧ x.Grants session mode generation

/-- A session holds the lock of a handle in this mode, and so many exclusive grants have been made
of it. -/
def State.Granted (s : State ρ) (handle session : Nat) (mode : Mode) (generation : Nat) : Prop :=
  ∃ x, s.handle? handle = some x ∧ x.Grants session mode generation

/-- A session holds the lock of a handle in this mode. -/
def State.Locked (s : State ρ) (handle session : Nat) (mode : Mode) : Prop :=
  ∃ x, s.handle? handle = some x ∧ x.holders.get? session = some mode

theorem State.Granted.locked {s : State ρ} {handle session generation : Nat} {mode : Mode}
    (hg : s.Granted handle session mode generation) : s.Locked handle session mode := by
  obtain ⟨x, hx, hm⟩ := hg
  exact ⟨x, hx, hm.1⟩

theorem State.Locked.granted {s : State ρ} {handle session : Nat} {mode : Mode}
    (hl : s.Locked handle session mode) :
    ∃ generation, s.Granted handle session mode generation := by
  obtain ⟨x, hx, hm⟩ := hl
  exact ⟨x.generation, x, hx, hm, rfl⟩

section Step

variable {s s' : Shelf ρ} {d : Deed ρ} {acts : Nat → Nat → Prop} {registered : Nat → Bool}
  {handle session generation : Nat} {mode : Mode} {x y : Handle ρ} {c : Change ρ}

/-- Beside a holder the lock is given in shared mode only, which begins no generation. -/
theorem Handle.Grants.grant (hl : x.Grants session mode generation) {w : Waiter ρ}
    (hne : session ≠ w.session) (ha : x.admits w.mode = true) :
    (x.grant w.session w.mode).Grants session mode generation := by
  constructor
  · rw [Handle.grant_holders, Table.get?_insert_of_ne _ _ hne]
    exact hl.1
  · rw [Handle.grant, Handle.eq_shared_of_held hl.1 ha, if_neg (by decide)]
    exact hl.2

/-- Something happens to a handle, but not to the lock of a session that does not act on it. -/
theorem Handle.Undergoes.keeps_grant (hc : x.Undergoes c y) (hwf : x.Wf)
    (hfits : (Deed.on handle c).Fits acts registered) (hidle : ¬ acts session handle)
    (hl : x.Grants session mode generation) : y.Grants session mode generation := by
  have hholder : session ∈ x.holders := Table.mem_of_get? hl.1
  cases hc with
  | given alone admits opener new =>
    rename_i w
    have hne : session ≠ w.session := by
      rintro rfl
      rw [Handle.involves, Bool.or_eq_false_iff] at new
      exact ne_true_of_eq_false new.1 hholder
    exact hl.grant hne admits
  | admitted head admits =>
    rename_i w rest
    have hne : session ≠ w.session := by
      rintro rfl
      refine hwf.waiter_not_holder w ?_ hholder
      rw [head]
      exact List.mem_cons_self
    exact hl.grant hne admits
  | unlocked held =>
    have hne : session ≠ _ := fun heq => hidle (heq ▸ hfits)
    exact ⟨(Table.get?_erase_of_ne _ hne).trans hl.1, hl.2⟩
  | joined blocked opener new => exact hl
  | lapsed head admits => exact hl
  | withdrawn found proper => exact hl
  | opened session => exact hl
  | shut opener idle quiet => exact hl

theorem Deed.Leads.keeps_grant (hd : d.Leads s s') (hwf : s.Wf) (hfits : d.Fits acts registered)
    (hidle : ¬ acts session handle) (hl : s.Granted handle session mode generation) :
    s'.Granted handle session mode generation := by
  obtain ⟨x, hx, hm⟩ := hl
  cases hd with
  | on found change =>
    rename_i j z y c
    by_cases hj : handle = j
    · subst hj
      obtain rfl : x = z := Option.some.inj (hx.symm.trans found)
      exact ⟨y, (s.get?_put _ _ _).trans (if_pos rfl),
        change.keeps_grant (hwf _ _ hx).1 hfits hidle hm⟩
    · exact ⟨x, ((s.get?_put _ _ _).trans (if_neg hj)).trans hx, hm⟩
  | created name =>
    have hlt : handle < s.next := (hwf _ _ hx).2
    exact ⟨x, (Table.get?_insert_of_ne _ _ (Nat.ne_of_lt hlt)).trans hx, hm⟩
  | destroyed found unused =>
    rename_i j z
    have hne : handle ≠ j := by
      rintro rfl
      obtain rfl : x = z := Option.some.inj (hx.symm.trans found)
      have hopener := (hwf _ _ hx).1.holder_opener session (Table.mem_of_get? hm.1)
      exact Table.isEmpty_iff.1 unused session hopener
    exact ⟨x, (Table.get?_erase_of_ne _ hne).trans hx, hm⟩
  | turnedAway bare => exact ⟨x, hx, hm⟩
  | ended session locks => exact ⟨x, hx, hm⟩

/-! ## Requests -/

/-- Whoever is admitted holds the lock in the generation that is told. -/
theorem Deed.Leads.granted_of_admitted {w : Waiter ρ}
    (hd : (Deed.on handle (.admitted w generation)).Leads s s') :
    s'.Granted handle w.session w.mode generation := by
  cases hd with
  | on found change =>
    cases change with
    | admitted head admits =>
      exact ⟨_, (s.get?_put _ _ _).trans (if_pos rfl), Table.get?_insert_self _ _ _, rfl⟩

/-- A request of a session that is registered and does not act leaves the line with the lock. -/
theorem Deed.Fits.admitted (hfits : d.Fits acts registered) {w : Waiter ρ}
    (hidle : ¬ acts w.session handle) (hreg : registered w.session = true)
    (hleaves : d.leaves? handle = some w) :
    ∃ generation, d = .on handle (.admitted w generation) := by
  cases d with
  | on j c =>
    rw [Deed.leaves?] at hleaves
    split at hleaves
    · rename_i hj
      subst hj
      cases c with
      | admitted w generation =>
        cases hleaves
        exact ⟨generation, rfl⟩
      | lapsed w =>
        cases hleaves
        exact absurd hreg (ne_true_of_eq_false hfits)
      | withdrawn w a =>
        cases hleaves
        exact absurd hfits hidle
      | given w generation => cases hleaves
      | joined w => cases hleaves
      | unlocked session reason => cases hleaves
      | opened session => cases hleaves
      | shut session => cases hleaves
    · cases hleaves
  | created handle => cases hleaves
  | destroyed handle => cases hleaves
  | turnedAway reply a => cases hleaves
  | ended session locks => cases hleaves

/-- Only those who act make requests. -/
theorem Deed.Fits.of_request? (hfits : d.Fits acts registered) {p : Nat × Waiter ρ}
    (hr : d.request? = some p) : acts p.2.session p.1 := by
  cases d with
  | on handle c =>
    cases c with
    | given w generation =>
      cases hr
      exact hfits
    | joined w =>
      cases hr
      exact hfits
    | admitted w generation => cases hr
    | lapsed w => cases hr
    | withdrawn w a => cases hr
    | unlocked session reason => cases hr
    | opened session => cases hr
    | shut session => cases hr
  | created handle => cases hr
  | destroyed handle => cases hr
  | turnedAway reply a => cases hr
  | ended session locks => cases hr

/-! ## Without a request -/

/-- No request of a session waits for a handle. -/
def Shelf.Out (s : Shelf ρ) (handle session : Nat) : Prop :=
  ∀ w ∈ s.line handle, w.session ≠ session

/-- No request of a session waits for a handle. -/
def State.Out (s : State ρ) (handle session : Nat) : Prop :=
  ∀ w ∈ s.line handle, w.session ≠ session

/-- A session that neither waits nor acts does not get the lock. -/
theorem Handle.Undergoes.gains_nothing (hc : x.Undergoes c y)
    (hfits : (Deed.on handle c).Fits acts registered) (hidle : ¬ acts session handle)
    (hout : ∀ w ∈ x.waiters, w.session ≠ session) (hl : y.holders.get? session = some mode) :
    x.holders.get? session = some mode := by
  cases hc with
  | given alone admits opener new =>
    rename_i w
    have hne : session ≠ w.session := fun heq => hidle (heq ▸ hfits)
    rw [Handle.grant_holders, Table.get?_insert_of_ne _ _ hne] at hl
    exact hl
  | admitted head admits =>
    rename_i w rest
    have hne : session ≠ w.session := by
      refine fun heq => hout w ?_ heq.symm
      rw [head]
      exact List.mem_cons_self
    exact (Table.get?_insert_of_ne _ _ hne).symm.trans hl
  | unlocked held =>
    have hne : session ≠ _ := fun heq => hidle (heq ▸ hfits)
    exact (Table.get?_erase_of_ne _ hne).symm.trans hl
  | joined blocked opener new => exact hl
  | lapsed head admits => exact hl
  | withdrawn found proper => exact hl
  | opened session => exact hl
  | shut opener idle quiet => exact hl

theorem Deed.Leads.gains_nothing (hd : d.Leads s s') (hfits : d.Fits acts registered)
    (hidle : ¬ acts session handle) (hout : s.Out handle session)
    (hl : s'.Granted handle session mode generation) :
    ∃ generation, s.Granted handle session mode generation := by
  obtain ⟨x, hx, hm⟩ := hl
  cases hd with
  | on found change =>
    rename_i j z y c
    by_cases hj : handle = j
    · subst hj
      obtain rfl : y = x :=
        Option.some.inj (((s.get?_put _ _ _).trans (if_pos rfl)).symm.trans hx)
      rw [Shelf.Out, Shelf.line_of_get? found] at hout
      exact ⟨z.generation, z, found, change.gains_nothing hfits hidle hout hm.1, rfl⟩
    · exact ⟨generation, x, ((s.get?_put _ _ _).trans (if_neg hj)).symm.trans hx, hm⟩
  | created name =>
    by_cases hj : handle = s.next
    · subst hj
      obtain rfl : Handle.fresh name = x :=
        Option.some.inj ((Table.get?_insert_self _ _ _).symm.trans hx)
      cases hm.1
    · exact ⟨generation, x, (Table.get?_insert_of_ne _ _ hj).symm.trans hx, hm⟩
  | destroyed found unused =>
    rename_i j z
    refine ⟨generation, x, ?_, hm⟩
    rw [Table.get?_erase] at hx
    split at hx
    · cases hx
    · exact hx
  | turnedAway bare => exact ⟨generation, x, hx, hm⟩
  | ended session locks => exact ⟨generation, x, hx, hm⟩

end Step

/-! ## Whole courses -/

namespace Course

variable {s s' : Shelf ρ} {ds : List (Deed ρ)} {acts : Nat → Nat → Prop} {registered : Nat → Bool}
  {handle session generation : Nat} {mode : Mode}

/-- A session keeps its lock on a handle on which it does not act. -/
theorem keeps_grant (hc : Course s ds s') (hwf : s.Wf) (hfits : ∀ d ∈ ds, d.Fits acts registered)
    (hidle : ¬ acts session handle) (hl : s.Granted handle session mode generation) :
    s'.Granted handle session mode generation := by
  induction hc with
  | nil => exact hl
  | cons first rest ih =>
    have hl' := first.keeps_grant hwf (hfits _ List.mem_cons_self) hidle hl
    exact ih (first.wf hwf) (fun d hm => hfits d (List.mem_cons_of_mem _ hm)) hl'

/-- Whoever is admitted, and does not act, holds the lock in the end. -/
theorem granted_of_admitted (hc : Course s ds s') (hwf : s.Wf)
    (hfits : ∀ d ∈ ds, d.Fits acts registered) {w : Waiter ρ} (hidle : ¬ acts w.session handle)
    (hm : .on handle (.admitted w generation) ∈ ds) :
    s'.Granted handle w.session w.mode generation := by
  induction hc with
  | nil => cases hm
  | @cons s s₁ s' d ds first rest ih =>
    have hrest : ∀ e ∈ ds, e.Fits acts registered := fun e hm =>
      hfits e (List.mem_cons_of_mem _ hm)
    rcases List.mem_cons.1 hm with rfl | hm
    · exact rest.keeps_grant (first.wf hwf) hrest hidle first.granted_of_admitted
    · exact ih (first.wf hwf) hrest hm

/-- Those who join a line act on the handle. -/
theorem acts_of_joins (hfits : ∀ d ∈ ds, d.Fits acts registered) {w : Waiter ρ}
    (hw : w ∈ ds.filterMap (Deed.joins? handle)) : acts w.session handle := by
  obtain ⟨d, hm, hj⟩ := List.mem_filterMap.1 hw
  exact (hfits d hm).of_request? (Deed.request?_of_joins? hj)

/-- A session that does not act, and is registered, keeps its place in a line or gets the lock. -/
theorem keeps_request (hc : Course s ds s') (hwf : s.Wf)
    (hfits : ∀ d ∈ ds, d.Fits acts registered) {w : Waiter ρ} (hidle : ¬ acts w.session handle)
    (hreg : registered w.session = true) (hw : w ∈ s.line handle) :
    w ∈ s'.line handle ∨ ∃ generation, .on handle (.admitted w generation) ∈ ds ∧
      s'.Granted handle w.session w.mode generation := by
  rcases hc.stays_or_leaves hwf (List.mem_append_left _ hw) with hstays | ⟨d, hm, hleaves⟩
  · exact .inl hstays
  · obtain ⟨generation, rfl⟩ := (hfits d hm).admitted hidle hreg hleaves
    exact .inr ⟨generation, hm, hc.granted_of_admitted hwf hfits hidle hm⟩

/-- A session that neither waits nor acts does not begin to wait. -/
theorem keeps_out (hc : Course s ds s') (hwf : s.Wf) (hfits : ∀ d ∈ ds, d.Fits acts registered)
    (hidle : ¬ acts session handle) (hout : s.Out handle session) : s'.Out handle session := by
  intro w hw
  rcases List.mem_append.1 ((hc.line_sublist hwf handle).subset hw) with hold | hnew
  · exact hout w hold
  · rintro rfl
    exact hidle (acts_of_joins hfits hnew)

/-- A session that neither waits nor acts does not get the lock. -/
theorem gains_nothing (hc : Course s ds s') (hwf : s.Wf)
    (hfits : ∀ d ∈ ds, d.Fits acts registered) (hidle : ¬ acts session handle)
    (hout : s.Out handle session) (hl : s'.Granted handle session mode generation) :
    ∃ generation, s.Granted handle session mode generation := by
  induction hc generalizing generation with
  | nil => exact ⟨generation, hl⟩
  | cons first rest ih =>
    have hfirst := hfits _ List.mem_cons_self
    have hout' := (Course.single first).keeps_out hwf
      (fun d hm => List.mem_singleton.1 hm ▸ hfirst) hidle hout
    obtain ⟨generation', hl'⟩ := ih (first.wf hwf)
      (fun d hm => hfits d (List.mem_cons_of_mem _ hm)) hout' hl
    exact first.gains_nothing hfirst hidle hout hl'

end Course

/-! ## Answers -/

/-- The request that leaves the queue of a handle, and what its sender is told. -/
def Change.departure? (handle : Nat) : Change ρ → Option (Departure ρ)
  | admitted w generation => some ⟨handle, w, .granted generation⟩
  | lapsed w => some ⟨handle, w, .refused (.sessionExpired w.session)⟩
  | withdrawn w a => some ⟨handle, w, a⟩
  | _ => none

theorem Change.waiter_departure? (c : Change ρ) (handle : Nat) :
    (c.departure? handle).map (·.waiter) = c.leaves? := by
  cases c <;> rfl

theorem Change.handle_departure? {c : Change ρ} {handle : Nat} {out : Departure ρ}
    (hd : c.departure? handle = some out) : out.handle = handle := by
  cases c <;> cases hd <;> rfl

namespace Deed

/-- The request that leaves the queue of a handle, and what its sender is told. -/
def departure? : Deed ρ → Option (Departure ρ)
  | on handle c => c.departure? handle
  | _ => none

/-- Whoever is answered has left a queue, or does not wait. -/
theorem messages_perm (ds : List (Deed ρ)) : (ds.filterMap message?).Perm
    (ds.filterMap reply? ++ (ds.filterMap departure?).map Departure.message) := by
  induction ds with
  | nil => exact .refl _
  | cons d rest ih =>
    have hone : d.message?.toList =
        d.reply?.toList ++ d.departure?.toList.map Departure.message := by
      cases d with
      | on handle c => cases c <;> rfl
      | created handle => rfl
      | destroyed handle => rfl
      | turnedAway reply a => rfl
      | ended session locks => rfl
    rw [filterMap_cons, filterMap_cons, filterMap_cons, hone, List.map_append,
      List.append_assoc, List.append_assoc]
    refine List.Perm.append_left _ ((ih.append_left _).trans ?_)
    rw [← List.append_assoc, ← List.append_assoc]
    exact List.perm_append_comm.append_right _

/-- The requests that leave the queue of one handle. -/
theorem departures_at (ds : List (Deed ρ)) (handle : Nat) :
    ((ds.filterMap departure?).filter fun d => d.handle == handle).map (·.waiter) =
      ds.filterMap (leaves? handle) := by
  rw [List.filter_filterMap, List.map_filterMap]
  congr 1
  funext d
  cases d with
  | on j c =>
    show (Option.filter _ (c.departure? j)).map _ = if j = handle then c.leaves? else none
    rw [← c.waiter_departure? j]
    cases hd : c.departure? j with
    | none => exact (ite_self _).symm
    | some out =>
      rw [Option.filter_some, Change.handle_departure? hd]
      by_cases hj : j = handle
      · rw [if_pos hj, if_pos (beq_iff_eq.2 hj)]
      · rw [if_neg hj, if_neg (mt beq_iff_eq.1 hj)]
        rfl
  | created j => rfl
  | destroyed j => rfl
  | turnedAway reply a => rfl
  | ended session locks => rfl

theorem leaves?_of_departure? {d : Deed ρ} {out : Departure ρ} (hd : d.departure? = some out) :
    d.leaves? out.handle = some out.waiter := by
  cases d with
  | on j c =>
    have hc : c.departure? j = some out := hd
    rw [leaves?, if_pos (Change.handle_departure? hc).symm, ← c.waiter_departure? j, hc]
    rfl
  | created j => cases hd
  | destroyed j => cases hd
  | turnedAway reply a => cases hd
  | ended session locks => cases hd

/-- What a request is told that leaves the queue with the lock. -/
theorem answer_of_admitted {handle generation : Nat} {w : Waiter ρ} {out : Departure ρ}
    (hd : (Deed.on handle (.admitted w generation)).departure? = some out) :
    out.answer = .granted generation := by
  cases hd
  rfl

end Deed

/-! ## Operations -/

namespace State.Carried

variable {s : State ρ} {lent : Nat → Nat → Prop} {op : Operation ρ} {registered : Nat → Bool}
  {ds : List (Deed ρ)}

theorem events_eq (hd : s.Carried op registered ds) :
    (s.perform op).2.events = ds.filterMap Deed.event? := hd.did.events

theorem answers_eq (hd : s.Carried op registered ds) :
    (s.perform op).2.answers = ds.filterMap Deed.message? := hd.did.answers

/-- A session counts as registered if its request waits for a handle on which it does not act. -/
theorem registered_of_mem_line (hd : s.Carried op registered ds) (hs : Coherent [] lent s)
    {handle : Nat} {w : Waiter ρ} (hw : w ∈ s.line handle)
    (hidle : ¬ s.ActsOn op w.session handle) : registered w.session = true := by
  have hqueue : (handle, w) ∈ s.queue := State.mem_queue_iff_line.2 hw
  exact hd.stays _ handle (hs.contains_of_mem_queue hqueue) hidle

/-- Whoever leaves a queue has been waiting there, or acts on the handle. -/
theorem mem_line_of_departure (hd : s.Carried op registered ds) (hs : Coherent [] lent s)
    {out : Departure ρ} (hm : out ∈ ds.filterMap Deed.departure?) :
    out.waiter ∈ s.line out.handle ∨
      out.waiter ∈ ds.filterMap (Deed.joins? out.handle) := by
  have hleaves : out.waiter ∈ ds.filterMap (Deed.leaves? out.handle) := by
    rw [← Deed.departures_at]
    exact List.mem_map.2 ⟨out, List.mem_filter.2 ⟨hm, beq_self_eq_true _⟩, rfl⟩
  exact List.mem_append.1 ((hd.did.course.line_perm hs.wf_shelf out.handle).mem_iff.2
    (List.mem_append_left _ hleaves))

/-- A request that leaves the queue of a handle on which its session does not act gets the lock. -/
theorem admitted_of_departure (hd : s.Carried op registered ds) (hs : Coherent [] lent s)
    {out : Departure ρ} (hm : out ∈ ds.filterMap Deed.departure?)
    (hidle : ¬ s.ActsOn op out.waiter.session out.handle) :
    out.waiter ∈ s.line out.handle ∧ ∃ generation, out.answer = .granted generation ∧
      .on out.handle (.admitted out.waiter generation) ∈ ds := by
  have hline : out.waiter ∈ s.line out.handle :=
    (hd.mem_line_of_departure hs hm).resolve_right fun hj =>
      hidle (Course.acts_of_joins hd.did.fits hj)
  obtain ⟨d, hdeed, hout⟩ := List.mem_filterMap.1 hm
  have hreg := hd.registered_of_mem_line hs hline hidle
  obtain ⟨generation, rfl⟩ :=
    (hd.did.fits d hdeed).admitted hidle hreg (Deed.leaves?_of_departure? hout)
  exact ⟨hline, generation, Deed.answer_of_admitted hout, hdeed⟩

end State.Carried

end LeaseLock.Coordinator
