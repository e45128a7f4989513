import LeaseLock.Proofs.Fanout.Fate
import LeaseLock.Proofs.TimerQueue
import Mathlib.Data.List.Perm.Subperm

/-
  LeaseLock: the timers of sub-requests.
  A timer that the fan-out has scheduled is loose until its sub-request is entered.  The timer of an
  open sub-request runs, or it has been taken out to be fired and is still to be handled, unless it
  has gone before the sub-request was entered; all timers that it had before have gone, and the one
  of a sub-request that has ended is dead or about to be cancelled (`Wheel`).  That stays so
  whatever the fan-out does, and whatever others do with timers that are neither loose nor those of
  open sub-requests.
-/

namespace LeaseLock.TimerQueue

variable {η : Type} {q : TimerQueue η} {id : Nat}

/-- A timer has one deadline. -/
theorem Wf.deadline_eq (hq : q.Wf) {d d' : Nat} {x x' : η} (h : q.Pending id d x)
    (h' : q.Pending id d' x') : d = d' :=
  congrArg TimerEntry.deadline (List.inj_on_of_nodup_map hq.once h.2 h'.2 rfl)

theorem live_cancel (q : TimerQueue η) (id : Nat) : (q.cancel id).2.live = q.live.erase id :=
  (trimmed_compact _).live

theorem live_schedule {t : Nat} (h : t ≠ q.nextId) (deadline : Nat) (x : η) :
    (q.prune.schedule deadline x).2.live.get? t = q.live.get? t :=
  Table.get?_insert_of_ne _ _ h

theorem wf_prune_schedule (hq : q.Wf) (deadline : Nat) (x : η) :
    (q.prune.schedule deadline x).2.Wf :=
  wf_schedule (q.trimmed_prune.wf hq) deadline x

theorem pending_prune_schedule (hq : q.Wf) {deadline d : Nat} {x y : η} :
    (q.prune.schedule deadline x).2.Pending id d y ↔
      id = q.nextId ∧ d = deadline ∧ y = x ∨ q.Pending id d y := by
  rw [pending_schedule (q.trimmed_prune.wf hq), q.trimmed_prune.pending]
  exact .rfl

/-- At most this timer has gone. -/
structure Without (q : TimerQueue η) (timer : Nat) (q' : TimerQueue η) : Prop where
  wf : q'.Wf
  nextId : q'.nextId = q.nextId
  dead : ∀ t, q.live.get? t = none → q'.live.get? t = none
  others : ∀ t d x, t ≠ timer → q.Pending t d x → q'.Pending t d x

theorem without_cancel (hq : q.Wf) (timer : Nat) : Without q timer (q.cancel timer).2 where
  wf := wf_cancel hq timer
  nextId := Reactor.Machine.nextId_cancel q timer
  dead := by
    intro t ht
    rw [live_cancel, Table.get?_erase, ht]
    split <;> rfl
  others := fun _ _ _ hne h => pending_cancel.2 ⟨hne, h⟩

end LeaseLock.TimerQueue

namespace LeaseLock.Fanout

open Reactor

variable {κ η τ ν : Type} {w : Wiring κ η State τ ν} {me handler : η} {deadline horizon : Nat}
  {fs fs' before after : List Fate} {f : Fate} {q q' : TimerQueue η}
  {loose loose' cancels cancels' gone : List Nat} {due due' : List (Nat × η)} {t : Nat}

/-! ## Timers of fates -/

namespace Fate

/-- All timers that a sub-request has had. -/
def timers (f : Fate) : List Nat := f.timer :: f.earlier

/-- What has been sent for it. -/
def sends (f : Fate) : List (Nat × Bytes) := List.replicate (f.retries + 1) (f.endpoint, f.frame)

end Fate

theorem mem_place {α : Type} {before after : List α} {a : α} : a ∈ before ++ a :: after :=
  List.mem_append_right _ List.mem_cons_self

/-- One element is replaced by another of which the same is true. -/
theorem forall_mem_replace {α : Type} {before after : List α} {a b : α} {P : α → Prop}
    (h : ∀ x ∈ before ++ a :: after, P x) (hb : P b) : ∀ x ∈ before ++ b :: after, P x := by
  intro x hx
  rcases List.mem_append.1 hx with hx | hx
  · exact h x (List.mem_append_left _ hx)
  · rcases List.mem_cons.1 hx with rfl | hx
    · exact hb
    · exact h x (List.mem_append_right _ (List.mem_cons_of_mem a hx))

/-! ## The wheel -/

/-- A timer of the fan-out will fire in time, or has been taken out and is still to be handled. -/
def Runs (me : η) (horizon : Nat) (q : TimerQueue η) (due : List (Nat × η)) (t : Nat) : Prop :=
  (∃ d ≤ horizon, q.Pending t d me) ∨ (t, me) ∈ due

/-- How the timers of sub-requests stand.  Those that are `loose` are still to be entered, the
fan-out is about to cancel the `cancels`, `due` has been taken out and is still to be handled, and
what has been handled is `gone`. -/
structure Wheel (me : η) (horizon : Nat) (fs : List Fate) (loose cancels : List Nat)
    (q : TimerQueue η) (due : List (Nat × η)) (gone : List Nat) : Prop where
  wf : q.Wf
  /-- No two sub-requests have a timer in common. -/
  once : (fs.flatMap Fate.timers ++ loose).Nodup
  given : ∀ t ∈ fs.flatMap Fate.timers ++ loose, t < q.nextId
  /-- The timer of an open sub-request runs, unless it was missed. -/
  running : ∀ f ∈ fs, f.isOpen = true → f.missed = false → Runs me horizon q due f.timer
  missed : ∀ f ∈ fs, f.missed = true → f.timer ∈ gone ∧ f.earlier = []
  /-- A loose timer runs, or will be missed. -/
  poised : ∀ t ∈ loose, Runs me horizon q due t ∨ t ∈ gone
  /-- A sub-request gets another timer when the one before fires. -/
  earlier : ∀ f ∈ fs, ∀ t ∈ f.earlier, (t, me) ∈ due ∨ t ∈ gone
  /-- The timer of a sub-request that has ended is dead, or will be. -/
  ended : ∀ f ∈ fs, f.isOpen = false → q.live.get? f.timer = none ∨ f.timer ∈ cancels
  /-- No other is about to be cancelled. -/
  doomed : ∀ t ∈ cancels, ∃ f ∈ fs, f.isOpen = false ∧ f.timer = t
  /-- What was taken out does not come back. -/
  out : ∀ t ∈ due.map (·.1) ++ gone, t < q.nextId ∧ q.live.get? t = none
  apart : (due.map (·.1) ++ gone).Nodup

namespace Runs

theorem mono {horizon' : Nat} (h : Runs me horizon q due t) (hle : horizon ≤ horizon')
    (hq : ∀ d, q.Pending t d me → q'.Pending t d me) (hdue : (t, me) ∈ due → (t, me) ∈ due') :
    Runs me horizon' q' due' t :=
  h.imp (fun ⟨d, hd, hp⟩ => ⟨d, Nat.le_trans hd hle, hq d hp⟩) hdue

end Runs

namespace Wheel

theorem empty (me : η) (horizon : Nat) : Wheel me horizon [] [] [] .empty [] [] where
  wf := TimerQueue.wf_empty
  once := .nil
  given := nofun
  running := nofun
  missed := nofun
  poised := nofun
  earlier := nofun
  ended := nofun
  doomed := nofun
  out := nofun
  apart := .nil

/-- It does not matter in which order timers wait for something. -/
theorem perm (h : Wheel me horizon fs loose cancels q due gone) (hl : loose.Perm loose')
    (hc : cancels.Perm cancels') (hd : due.Perm due') :
    Wheel me horizon fs loose' cancels' q due' gone where
  wf := h.wf
  once := (hl.append_left _).nodup_iff.1 h.once
  given := fun t ht => h.given t ((hl.append_left _).mem_iff.2 ht)
  running := fun f hf hopen hmissed =>
    (h.running f hf hopen hmissed).mono (Nat.le_refl _) (fun _ => id) hd.mem_iff.1
  missed := h.missed
  poised := fun t ht => (h.poised t (hl.mem_iff.2 ht)).imp_left fun hruns =>
    hruns.mono (Nat.le_refl _) (fun _ => id) hd.mem_iff.1
  earlier := fun f hf t ht => (h.earlier f hf t ht).imp_left hd.mem_iff.1
  ended := fun f hf hended => (h.ended f hf hended).imp_right hc.mem_iff.1
  doomed := fun t ht => h.doomed t (hc.mem_iff.2 ht)
  out := fun t ht => h.out t (((hd.map _).append_right _).mem_iff.2 ht)
  apart := ((hd.map _).append_right _).nodup_iff.1 h.apart

/-- Time goes on. -/
theorem later {horizon' : Nat} (h : Wheel me horizon fs loose cancels q due gone)
    (hle : horizon ≤ horizon') : Wheel me horizon' fs loose cancels q due gone :=
  { h with
    running := fun f hf hopen hmissed => (h.running f hf hopen hmissed).mono hle (fun _ => id) id
    poised := fun t ht => (h.poised t ht).imp_left fun hruns => hruns.mono hle (fun _ => id) id }

/-- A timer that was taken out is not running. -/
theorem live_of_mem_due (h : Wheel me horizon fs loose cancels q due gone)
    (ht : (t, handler) ∈ due) : q.live.get? t = none :=
  (h.out t (List.mem_append_left _ (List.mem_map.2 ⟨_, ht, rfl⟩))).2

theorem given_of_mem (h : Wheel me horizon fs loose cancels q due gone) (hf : f ∈ fs)
    (ht : t ∈ f.timers) : t < q.nextId :=
  h.given t (List.mem_append_left _ (List.mem_flatMap.2 ⟨f, hf, ht⟩))

/-- A timer is that of one sub-request. -/
theorem owner (h : Wheel me horizon fs loose cancels q due gone) {g : Fate} (hf : f ∈ fs)
    (hg : g ∈ fs) (ht : t ∈ f.timers) (ht' : t ∈ g.timers) : f = g := by
  by_contra hne
  have honce := (List.nodup_append'.1 h.once).1
  obtain ⟨before, after, rfl⟩ := List.append_of_mem hf
  rw [List.flatMap_append, List.flatMap_cons] at honce
  obtain ⟨-, hrest, hbefore⟩ := List.nodup_append'.1 honce
  rcases List.mem_append.1 hg with hg | hg
  · exact hbefore (List.mem_flatMap.2 ⟨g, hg, ht'⟩) (List.mem_append_left _ ht)
  · have hg := (List.mem_cons.1 hg).resolve_left (Ne.symm hne)
    exact (List.nodup_append'.1 hrest).2.2 ht (List.mem_flatMap.2 ⟨g, hg, ht'⟩)

/-- A timer is scheduled, by whomever. -/
theorem schedule (h : Wheel me horizon fs loose cancels q due gone) (deadline : Nat)
    (handler : η) :
    Wheel me horizon fs loose cancels (q.prune.schedule deadline handler).2 due gone := by
  have hpending : ∀ t d, q.Pending t d me → (q.prune.schedule deadline handler).2.Pending t d me :=
    fun t d hp => (TimerQueue.pending_prune_schedule h.wf).2 (.inr hp)
  exact {
    wf := TimerQueue.wf_prune_schedule h.wf deadline handler
    once := h.once
    given := fun t ht => Nat.lt_succ_of_lt (h.given t ht)
    running := fun f hf hopen hmissed =>
      (h.running f hf hopen hmissed).mono (Nat.le_refl _) (hpending _) id
    missed := h.missed
    poised := fun t ht => (h.poised t ht).imp_left fun hruns =>
      hruns.mono (Nat.le_refl _) (hpending _) id
    earlier := h.earlier
    ended := by
      intro f hf hended
      have hlt := h.given_of_mem hf List.mem_cons_self
      rw [TimerQueue.live_schedule (Nat.ne_of_lt hlt)]
      exact h.ended f hf hended
    doomed := h.doomed
    out := by
      intro t ht
      obtain ⟨hlt, hnone⟩ := h.out t ht
      refine ⟨Nat.lt_succ_of_lt hlt, ?_⟩
      rw [TimerQueue.live_schedule (Nat.ne_of_lt hlt)]
      exact hnone
    apart := h.apart }

/-- A timer goes that is neither loose nor that of an open sub-request. -/
theorem without (h : Wheel me horizon fs loose cancels q due gone) (hq : q.Without t q')
    (hloose : t ∉ loose) (hother : ∀ f ∈ fs, f.isOpen = true → f.timer ≠ t) :
    Wheel me horizon fs loose cancels q' due gone where
  wf := hq.wf
  once := h.once
  given := fun t' ht' => hq.nextId ▸ h.given t' ht'
  running := fun f hf hopen hmissed => (h.running f hf hopen hmissed).mono (Nat.le_refl _)
    (fun d => hq.others _ d _ (hother f hf hopen)) id
  missed := h.missed
  poised := fun t' ht' => (h.poised t' ht').imp_left fun hruns => hruns.mono (Nat.le_refl _)
    (fun d => hq.others _ d _ fun heq => hloose (heq ▸ ht')) id
  earlier := h.earlier
  ended := fun f hf hended => (h.ended f hf hended).imp_left (hq.dead _)
  doomed := h.doomed
  out := fun t' ht' => ⟨hq.nextId ▸ (h.out t' ht').1, hq.dead t' (h.out t' ht').2⟩
  apart := h.apart

/-- The timers that are due are taken out. -/
theorem popDue (h : Wheel me horizon fs loose cancels q due gone) (now : Nat) :
    Wheel me horizon fs loose cancels (q.popDue now).2 ((q.popDue now).1 ++ due) gone := by
  have hdead : ∀ {t : Nat}, q.live.get? t = none → (q.popDue now).2.live.get? t = none := by
    intro t ht
    refine Option.eq_none_iff_forall_not_mem.2 fun x hx => ?_
    cases ht.symm.trans (TimerQueue.live_popDue.1 hx).1
  have hmem : ∀ {t : Nat}, t ∈ (q.popDue now).1.map (·.1) → ∃ d x, d ≤ now ∧ q.Pending t d x := by
    intro t ht
    obtain ⟨⟨t, x⟩, hx, rfl⟩ := List.mem_map.1 ht
    obtain ⟨d, hd, hpending⟩ := TimerQueue.mem_popDue.1 hx
    exact ⟨d, x, hd, hpending⟩
  have hruns : ∀ {t : Nat}, Runs me horizon q due t →
      Runs me horizon (q.popDue now).2 ((q.popDue now).1 ++ due) t := by
    rintro t (⟨d, hd, hpending⟩ | ht)
    · by_cases hdue : d ≤ now
      · exact .inr (List.mem_append_left _ (TimerQueue.mem_popDue.2 ⟨d, hdue, hpending⟩))
      · exact .inl ⟨d, hd, (TimerQueue.pending_popDue h.wf).2 ⟨Nat.lt_of_not_le hdue, hpending⟩⟩
    · exact .inr (List.mem_append_right _ ht)
  exact {
    wf := TimerQueue.wf_popDue h.wf now
    once := h.once
    given := h.given
    running := fun f hf hopen hmissed => hruns (h.running f hf hopen hmissed)
    missed := h.missed
    poised := fun t ht => (h.poised t ht).imp_left hruns
    earlier := fun f hf t ht => (h.earlier f hf t ht).imp_left (List.mem_append_right _)
    ended := fun f hf hended => (h.ended f hf hended).imp_left hdead
    doomed := h.doomed
    out := by
      intro t ht
      rw [List.map_append, List.append_assoc] at ht
      rcases List.mem_append.1 ht with ht | ht
      · obtain ⟨d, x, hd, hpending⟩ := hmem ht
        refine ⟨h.wf.below _ hpending.2, Option.eq_none_iff_forall_not_mem.2 fun y hy => ?_⟩
        exact (TimerQueue.live_popDue.1 hy).2 _
          ((TimerQueue.mem_takeWhile_isDue q.ordered).2 ⟨hpending.2, hd⟩) rfl
      · obtain ⟨hlt, hnone⟩ := h.out t ht
        exact ⟨hlt, hdead hnone⟩
    apart := by
      rw [List.map_append, List.append_assoc]
      refine List.nodup_append'.2 ⟨TimerQueue.nodup_popDue h.wf now, h.apart, ?_⟩
      intro t ht hout
      obtain ⟨d, x, -, hpending⟩ := hmem ht
      cases (h.out t hout).2.symm.trans hpending.1 }

/-- A timer has been handled, and no sub-request waits for it any more. -/
theorem handled (h : Wheel me horizon fs loose cancels q ((t, me) :: due) gone)
    (hnone : ∀ f ∈ fs, f.isOpen = true → f.timer ≠ t) :
    Wheel me horizon fs loose cancels q due (t :: gone) := by
  have hperm : ((t :: due.map (·.1)) ++ gone).Perm (due.map (·.1) ++ t :: gone) :=
    List.perm_middle.symm
  have hruns : ∀ {t'}, t' ≠ t → Runs me horizon q ((t, me) :: due) t' → Runs me horizon q due t' :=
    fun hne hruns => hruns.imp_right fun hmem =>
      (List.mem_cons.1 hmem).resolve_left fun heq => hne (congrArg Prod.fst heq)
  exact {
    wf := h.wf
    once := h.once
    given := h.given
    running := fun f hf hopen hmissed => hruns (hnone f hf hopen) (h.running f hf hopen hmissed)
    missed := fun f hf hmissed => (h.missed f hf hmissed).imp_left (List.mem_cons_of_mem t)
    poised := by
      intro t' ht'
      by_cases heq : t' = t
      · exact .inr (heq ▸ List.mem_cons_self)
      · exact (h.poised t' ht').imp (hruns heq) (List.mem_cons_of_mem t)
    earlier := by
      intro f hf t' ht'
      rcases h.earlier f hf t' ht' with hmem | hgone
      · rcases List.mem_cons.1 hmem with heq | hmem
        · obtain rfl : t' = t := congrArg Prod.fst heq
          exact .inr List.mem_cons_self
        · exact .inl hmem
      · exact .inr (List.mem_cons_of_mem t hgone)
    ended := h.ended
    doomed := h.doomed
    out := fun t' ht' => h.out t' (hperm.mem_iff.2 ht')
    apart := hperm.nodup_iff.1 h.apart }

/-- A timer of others has been handed over. -/
theorem passed (h : Wheel me horizon fs loose cancels q ((t, handler) :: due) gone)
    (hother : handler ≠ me) : Wheel me horizon fs loose cancels q due gone := by
  have hdue : ∀ {t'}, (t', me) ∈ (t, handler) :: due → (t', me) ∈ due := fun hmem =>
    (List.mem_cons.1 hmem).resolve_left fun heq => hother (congrArg Prod.snd heq).symm
  exact {
    wf := h.wf
    once := h.once
    given := h.given
    running := fun f hf hopen hmissed => (h.running f hf hopen hmissed).imp_right hdue
    missed := h.missed
    poised := fun t' ht' => (h.poised t' ht').imp_left fun hruns => hruns.imp_right hdue
    earlier := fun f hf t' ht' => (h.earlier f hf t' ht').imp_left hdue
    ended := h.ended
    doomed := h.doomed
    out := fun t' ht' => h.out t' (List.mem_cons_of_mem t ht')
    apart := (List.nodup_cons.1 h.apart).2 }

/-! ## What the fan-out does -/

/-- The fan-out schedules the first timer of a sub-request. -/
theorem scheduled (h : Wheel me horizon fs loose cancels q due gone) (hle : deadline ≤ horizon) :
    Wheel me horizon fs (q.nextId :: loose) cancels (q.prune.schedule deadline me).2 due gone := by
  have hs := h.schedule deadline me
  have hfresh : q.nextId ∉ fs.flatMap Fate.timers ++ loose :=
    fun hmem => Nat.lt_irrefl _ (h.given _ hmem)
  exact { hs with
    once := List.perm_middle.nodup_iff.2 (List.nodup_cons.2 ⟨hfresh, h.once⟩)
    given := by
      intro t ht
      rcases List.mem_cons.1 (List.perm_middle.mem_iff.1 ht) with rfl | ht
      · exact Nat.lt_succ_self _
      · exact hs.given t ht
    poised := by
      intro t ht
      rcases List.mem_cons.1 ht with rfl | ht
      · exact .inl (.inl ⟨deadline, hle,
          (TimerQueue.pending_prune_schedule h.wf).2 (.inl ⟨rfl, rfl, rfl⟩)⟩)
      · exact hs.poised t ht }

/-- A sub-request is entered, and its timer is no longer loose. -/
theorem entered {d : Draft} (h : Wheel me horizon fs (t :: loose) cancels q due gone) :
    Wheel me horizon (fs ++ [.enter d t (decide (t ∈ gone))]) loose cancels q due gone := by
  have hsame : (fs ++ [Fate.enter d t (decide (t ∈ gone))]).flatMap Fate.timers ++ loose =
      fs.flatMap Fate.timers ++ t :: loose := by
    rw [List.flatMap_append, List.flatMap_singleton, List.append_assoc]
    rfl
  have hnew : ∀ {P : Fate → Prop}, (∀ f ∈ fs, P f) → P (.enter d t (decide (t ∈ gone))) →
      ∀ f ∈ fs ++ [Fate.enter d t (decide (t ∈ gone))], P f := by
    intro P hall hentered f hf
    rcases List.mem_append.1 hf with hf | hf
    · exact hall f hf
    · exact List.mem_singleton.1 hf ▸ hentered
  exact {
    wf := h.wf
    once := hsame ▸ h.once
    given := hsame ▸ h.given
    running := hnew h.running fun _ hmissed =>
      (h.poised t List.mem_cons_self).resolve_right (of_decide_eq_false hmissed)
    missed := hnew h.missed fun hmissed => ⟨of_decide_eq_true hmissed, rfl⟩
    poised := fun t' ht' => h.poised t' (List.mem_cons_of_mem t ht')
    earlier := hnew h.earlier nofun
    ended := hnew h.ended nofun
    doomed := by
      intro t' ht'
      obtain ⟨f, hf, hended⟩ := h.doomed t' ht'
      exact ⟨f, List.mem_append_left _ hf, hended⟩
    out := h.out
    apart := h.apart }

/-- The fates that a timer has had stay the same when one sub-request ends. -/
theorem flatMap_timers_close (before after : List Fate) (f : Fate) (e : Ending) :
    (before ++ f.close e :: after).flatMap Fate.timers =
      (before ++ f :: after).flatMap Fate.timers := by
  rw [List.flatMap_append, List.flatMap_cons, List.flatMap_append, List.flatMap_cons]
  rfl

/-- A sub-request ends; its timer is dead, or about to be cancelled. -/
theorem close {extra : List Nat} (h : Wheel me horizon (before ++ f :: after) loose cancels q due gone)
    (e : Ending) (hextra : ∀ t ∈ extra, t = f.timer)
    (hdead : q.live.get? f.timer = none ∨ f.timer ∈ extra) :
    Wheel me horizon (before ++ f.close e :: after) loose (extra ++ cancels) q due gone where
  wf := h.wf
  once := (flatMap_timers_close before after f e).symm ▸ h.once
  given := (flatMap_timers_close before after f e).symm ▸ h.given
  running := forall_mem_replace h.running nofun
  missed := forall_mem_replace h.missed (h.missed f mem_place)
  poised := h.poised
  earlier := forall_mem_replace h.earlier (h.earlier f mem_place)
  ended := by
    have hall : ∀ g ∈ before ++ f :: after, g.isOpen = false →
        q.live.get? g.timer = none ∨ g.timer ∈ extra ++ cancels :=
      fun g hg hended => (h.ended g hg hended).imp_right (List.mem_append_right _)
    exact forall_mem_replace hall fun _ => hdead.imp_right (List.mem_append_left _)
  doomed := by
    intro t ht
    rcases List.mem_append.1 ht with ht | ht
    · exact ⟨f.close e, mem_place, rfl, (hextra t ht).symm⟩
    · obtain ⟨g, hg, hended, rfl⟩ := h.doomed t ht
      rcases List.mem_append.1 hg with hg | hg
      · exact ⟨g, List.mem_append_left _ hg, hended, rfl⟩
      · rcases List.mem_cons.1 hg with rfl | hg
        · exact ⟨g.close e, mem_place, rfl, rfl⟩
        · exact ⟨g, List.mem_append_right _ (List.mem_cons_of_mem _ hg), hended, rfl⟩
  out := h.out
  apart := h.apart

/-- A sub-request whose timer has been taken out is sent again. -/
theorem resend (h : Wheel me horizon (before ++ f :: after) loose cancels q due gone)
    (hopen : f.isOpen = true) (hdue : (f.timer, me) ∈ due) (hle : deadline ≤ horizon) :
    Wheel me horizon (before ++ f.resend q.nextId :: after) loose cancels
      (q.prune.schedule deadline me).2 due gone := by
  have hs := h.schedule deadline me
  have htimers : ((before ++ f.resend q.nextId :: after).flatMap Fate.timers ++ loose).Perm
      (q.nextId :: ((before ++ f :: after).flatMap Fate.timers ++ loose)) := by
    rw [List.flatMap_append, List.flatMap_cons, List.flatMap_append, List.flatMap_cons]
    exact List.perm_middle.append_right _
  have hfresh : q.nextId ∉ (before ++ f :: after).flatMap Fate.timers ++ loose :=
    fun hmem => Nat.lt_irrefl _ (h.given _ hmem)
  have hprompt : f.missed = false := by
    refine Bool.eq_false_iff.2 fun hmissed => ?_
    exact (List.nodup_append'.1 h.apart).2.2 (List.mem_map.2 ⟨_, hdue, rfl⟩)
      (h.missed f mem_place hmissed).1
  exact {
    wf := hs.wf
    once := htimers.nodup_iff.2 (List.nodup_cons.2 ⟨hfresh, h.once⟩)
    given := by
      intro t ht
      rcases List.mem_cons.1 (htimers.mem_iff.1 ht) with rfl | ht
      · exact Nat.lt_succ_self _
      · exact hs.given t ht
    running := forall_mem_replace hs.running fun _ _ =>
      .inl ⟨deadline, hle, (TimerQueue.pending_prune_schedule h.wf).2 (.inl ⟨rfl, rfl, rfl⟩)⟩
    missed := forall_mem_replace hs.missed fun hmissed => absurd hmissed (Bool.eq_false_iff.1 hprompt)
    poised := hs.poised
    earlier := by
      refine forall_mem_replace hs.earlier fun t ht => ?_
      rcases List.mem_cons.1 ht with rfl | ht
      · exact .inl hdue
      · exact hs.earlier f mem_place t ht
    ended := forall_mem_replace hs.ended fun hended => absurd hopen (Bool.eq_false_iff.1 hended)
    doomed := by
      intro t ht
      obtain ⟨g, hg, hended, rfl⟩ := hs.doomed t ht
      rcases List.mem_append.1 hg with hg | hg
      · exact ⟨g, List.mem_append_left _ hg, hended, rfl⟩
      · rcases List.mem_cons.1 hg with rfl | hg
        · exact absurd hopen (Bool.eq_false_iff.1 hended)
        · exact ⟨g, List.mem_append_right _ (List.mem_cons_of_mem _ hg), hended, rfl⟩
    out := hs.out
    apart := hs.apart }

/-- The fan-out cancels a timer. -/
theorem cancelled (h : Wheel me horizon fs loose (t :: cancels) q due gone) :
    Wheel me horizon fs loose cancels (q.cancel t).2 due gone := by
  obtain ⟨f, hf, hended, rfl⟩ := h.doomed t List.mem_cons_self
  have hloose : f.timer ∉ loose := fun hmem => (List.nodup_append'.1 h.once).2.2
    (List.mem_flatMap.2 ⟨f, hf, List.mem_cons_self⟩) hmem
  have hw := h.without (TimerQueue.without_cancel h.wf f.timer) hloose fun g hg hopen heq => by
    obtain rfl := h.owner hg hf List.mem_cons_self (heq ▸ List.mem_cons_self)
    exact absurd hopen (Bool.eq_false_iff.1 hended)
  exact { hw with
    ended := by
      intro g hg hgone
      rcases hw.ended g hg hgone with hnone | hmem
      · exact .inl hnone
      · rcases List.mem_cons.1 hmem with heq | hmem
        · rw [heq, TimerQueue.live_cancel]
          exact .inl (Table.get?_erase_self _ _)
        · exact .inr hmem
    doomed := fun t ht => hw.doomed t (List.mem_cons_of_mem _ ht) }

/-! ## Firings -/

theorem nodup_timers (h : Wheel me horizon fs loose cancels q due gone) (hf : f ∈ fs) :
    f.timers.Nodup :=
  (List.nodup_flatMap.1 (List.nodup_append'.1 h.once).1).1 f hf

/-- The timers of an open sub-request that have fired are those that it had before, if it has not
missed one. -/
theorem countP_gone (h : Wheel me horizon fs loose cancels q [] gone) (hf : f ∈ fs)
    (hopen : f.isOpen = true) (hprompt : f.missed = false) :
    gone.countP (fun t => t ∈ f.timers) = f.retries := by
  have hcurrent : f.timer ∉ gone := by
    intro hmem
    obtain ⟨d, -, hpending⟩ := (h.running f hf hopen hprompt).resolve_right nofun
    cases (h.out _ hmem).2.symm.trans hpending.1
  have hperm : (gone.filter fun t => t ∈ f.timers).Perm f.earlier := by
    refine (List.perm_ext_iff_of_nodup (h.apart.filter _)
      (List.nodup_cons.1 (h.nodup_timers hf)).2).2 fun t => ?_
    rw [List.mem_filter, decide_eq_true_eq]
    constructor
    · rintro ⟨hmem, ht⟩
      exact (List.mem_cons.1 ht).resolve_left fun heq => hcurrent (heq ▸ hmem)
    · exact fun ht => ⟨(h.earlier f hf t ht).resolve_left nofun, List.mem_cons_of_mem _ ht⟩
  rw [List.countP_eq_length_filter]
  exact hperm.length_eq

/-- Each timer of a sub-request has fired at most once. -/
theorem countP_gone_le (h : Wheel me horizon fs loose cancels q [] gone) :
    gone.countP (fun t => t ∈ f.timers) ≤ f.retries + 1 := by
  rw [List.countP_eq_length_filter]
  have hnodup : (gone.filter fun t => t ∈ f.timers).Nodup := h.apart.filter _
  have hsub : (gone.filter fun t => t ∈ f.timers) ⊆ f.timers := fun t ht =>
    of_decide_eq_true (List.mem_filter.1 ht).2
  exact (List.Nodup.subperm hnodup hsub).length_le

end Wheel

end LeaseLock.Fanout
