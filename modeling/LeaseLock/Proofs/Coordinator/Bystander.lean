import LeaseLock.Proofs.Coordinator.Registry
import LeaseLock.Proofs.Coordinator.Standing
import LeaseLock.Proofs.Coordinator.WakeUp

/-
  LeaseLock: nobody else loses anything.
  An operation is about some sessions (`State.Acts`), and only they can lose a lock or a place in a
  queue by it: no other session acts on any handle, so that the rules of `Standing` apply to all
  handles at once.  A handle that none of those who act has open is not touched at all
  (`Course.keeps_handle`), because its queue is settled.  `spares_others` puts this together for
  every operation in every state that operations lead to.
-/

namespace LeaseLock.Coordinator

variable {ρ : Type}

/-! ## Handles -/

section Step

variable {s s' : Shelf ρ} {d : Deed ρ} {acts : Nat → Nat → Prop} {registered : Nat → Bool}
  {handle : Nat} {x y : Handle ρ} {c : Change ρ}

/-- Nothing happens to a settled handle that nobody who acts has open, unless it gets a new
opener. -/
theorem Handle.Undergoes.idle (hc : x.Undergoes c y) (hwf : x.Wf) (hset : x.Settled)
    (hidle : ∀ sid ∈ x.openers, ¬ acts sid handle)
    (hfits : (Deed.on handle c).Fits acts registered) : ∃ session, c = .opened session := by
  -- a settled queue is not served
  have hstuck : ∀ (w : Waiter ρ) rest, x.waiters = w :: rest → ¬ x.admits w.mode = true := by
    intro w rest hq ha
    rw [hset w rest hq] at ha
    cases ha
  cases hc with
  | opened session => exact ⟨session, rfl⟩
  | given alone admits opener new => exact absurd hfits (hidle _ opener)
  | joined blocked opener new => exact absurd hfits (hidle _ opener)
  | admitted head admits => exact absurd admits (hstuck _ _ head)
  | lapsed head admits => exact absurd admits (hstuck _ _ head)
  | withdrawn found proper =>
    exact absurd hfits (hidle _ (hwf.waiter_opener _ (List.mem_of_find?_eq_some found)))
  | unlocked held => exact absurd hfits (hidle _ (hwf.holder_opener _ held))
  | shut opener idle quiet => exact absurd hfits (hidle _ opener)

theorem Deed.Leads.keeps_handle (hd : d.Leads s s') (hwf : s.Wf) (hfits : d.Fits acts registered)
    (hx : s.handles.get? handle = some x) (hset : x.Settled) (hused : ∃ sid, sid ∈ x.openers)
    (hidle : ∀ sid ∈ x.openers, ¬ acts sid handle) (hopen : ∀ sid, d ≠ .on handle (.opened sid)) :
    s'.handles.get? handle = some x := by
  cases hd with
  | on found change =>
    rename_i j z y c
    have hj : handle ≠ j := by
      rintro rfl
      obtain rfl : x = z := Option.some.inj (hx.symm.trans found)
      obtain ⟨sid, rfl⟩ := change.idle (hwf _ _ hx).1 hset hidle hfits
      exact hopen sid rfl
    exact ((s.get?_put _ _ _).trans (if_neg hj)).trans hx
  | created name =>
    have hlt : handle < s.next := (hwf _ _ hx).2
    exact (Table.get?_insert_of_ne _ _ (Nat.ne_of_lt hlt)).trans hx
  | destroyed found unused =>
    rename_i j z
    have hj : handle ≠ j := by
      rintro rfl
      obtain rfl : x = z := Option.some.inj (hx.symm.trans found)
      obtain ⟨sid, hm⟩ := hused
      exact Table.isEmpty_iff.1 unused sid hm
    exact (Table.get?_erase_of_ne _ hj).trans hx
  | turnedAway bare => exact hx
  | ended session locks => exact hx

end Step

/-- A settled handle that nobody who acts has open stays as it is. -/
theorem Course.keeps_handle {s s' : Shelf ρ} {ds : List (Deed ρ)} {acts : Nat → Nat → Prop}
    {registered : Nat → Bool} {handle : Nat} {x : Handle ρ} (hc : Course s ds s') (hwf : s.Wf)
    (hfits : ∀ d ∈ ds, d.Fits acts registered) (hx : s.handles.get? handle = some x)
    (hset : x.Settled) (hused : ∃ sid, sid ∈ x.openers)
    (hidle : ∀ sid ∈ x.openers, ¬ acts sid handle)
    (hopen : ∀ sid, .on handle (.opened sid) ∉ ds) : s'.handles.get? handle = some x := by
  induction hc with
  | nil => exact hx
  | cons first rest ih =>
    have hx' := first.keeps_handle hwf (hfits _ List.mem_cons_self) hx hset hused hidle
      fun sid heq => hopen sid (heq ▸ List.mem_cons_self)
    exact ih (first.wf hwf) (fun d hm => hfits d (List.mem_cons_of_mem _ hm)) hx'
      fun sid hm => hopen sid (List.mem_cons_of_mem _ hm)

/-! ## Operations -/

/-- An operation, which leads to the turn `t`, takes nothing from the sessions that it is not
about. -/
structure State.Spares (s : State ρ) (op : Operation ρ) (t : Turn ρ) : Prop where
  /-- They keep their locks, in the same mode. -/
  locks : ∀ session, ¬ s.Acts op session → ∀ handle mode, s.Locked handle session mode →
    t.state.Locked handle session mode
  /-- A request of theirs still waits, or gets the lock now. -/
  requests : ∀ handle, ∀ w ∈ s.line handle, ¬ s.Acts op w.session → w ∈ t.state.line handle ∨
    ∃ generation, (w.reply, .granted generation) ∈ t.answers ∧
      .acquired handle w.session w.mode generation ∈ t.events ∧
      t.state.Locked handle w.session w.mode
  /-- Whoever still waits stands as before, and a request of those who act comes last. -/
  order : ∀ handle, ∃ own, (t.state.line handle).Sublist (s.line handle ++ own) ∧
    ∀ w ∈ own, s.Acts op w.session
  /-- They keep their lease and the handles that they have open. -/
  records : ∀ session, ¬ s.Acts op session →
    (t.state.sessions.get? session).map (fun o => (o.expiry, o.opened)) =
      (s.sessions.get? session).map fun o => (o.expiry, o.opened)
  /-- The answers go to the request that the operation makes and to those that leave a queue; what
  a session is told that the operation is not about is that a request of it, which has been
  waiting, is granted. -/
  answers : ∃ (own : List (ρ × Answer)) (out : List (Departure ρ)),
    t.answers.Perm (own ++ out.map Departure.message) ∧
    (own.map (·.1)).Sublist op.reply?.toList ∧
    (∀ handle, ∃ joined, (s.line handle ++ joined).Perm
        ((out.filter fun d => d.handle == handle).map (·.waiter) ++ t.state.line handle) ∧
      ∀ w ∈ joined, s.Acts op w.session) ∧
    ∀ d ∈ out, ¬ s.Acts op d.waiter.session →
      d.waiter ∈ s.line d.handle ∧ ∃ generation, d.answer = .granted generation
  /-- A handle that only they have open stays as it is, unless it is the one that is opened. -/
  handles : ∀ handle x, s.handle? handle = some x →
    (∀ session ∈ x.openers, ¬ s.Acts op session) → t.state.handle? handle = some x ∨
      ∃ session name, op = .openHandle session name ∧ s.named? name = some handle ∧
        t.state.handle? handle = some { x with openers := IdSet.add x.openers session }

namespace Coherent

variable {s : State ρ} {lent : Nat → Nat → Prop} {op : Operation ρ} {registered : Nat → Bool}
  {ds : List (Deed ρ)}

/-- Opening a handle leaves all other openers alone. -/
theorem handles_openHandle (hs : Coherent [] lent s) (session : Nat) (name : String)
    {handle : Nat} {x : Handle ρ} (hx : s.handle? handle = some x) :
    (s.openHandle session name).2.handle? handle = some x ∨ s.named? name = some handle ∧
      (s.openHandle session name).2.handle? handle =
        some { x with openers := IdSet.add x.openers session } := by
  rcases s.openHandle_cases session name with ⟨-, heq⟩ | ⟨-, heq⟩
  · rw [heq]
    exact .inl hx
  · rw [heq]
    show (Table.modify _ _ _).get? handle = _ ∨ _ ∧ (Table.modify _ _ _).get? handle = _
    rw [Table.get?_modify]
    unfold State.ensureHandle
    cases hn : s.named? name with
    | some id =>
      dsimp only
      split
      · rename_i hid
        subst hid
        refine .inr ⟨rfl, ?_⟩
        show Option.map _ (s.handle? handle) = _
        rw [hx]
        rfl
      · exact .inl hx
    | none =>
      have hlt : handle < s.nextHandle := hs.handle_lt _ _ hx
      dsimp only
      rw [if_neg (Nat.ne_of_lt hlt)]
      exact .inl ((Table.get?_insert_of_ne _ _ (Nat.ne_of_lt hlt)).trans hx)

/-- What is left to the sessions that an operation is not about. -/
theorem spares (hs : Coherent [] lent s) (hset : s.Settled) (op : Operation ρ) :
    s.Spares op (s.perform op).2 := by
  obtain ⟨registered, ds, hd⟩ := State.carried_perform hs op
  have hcourse := hd.did.course
  have hfits := hd.did.fits
  have hidle : ∀ session, ¬ s.Acts op session → ∀ handle, ¬ s.ActsOn op session handle :=
    fun session hnot handle ha => hnot ha.acts
  have hjoined : ∀ handle, ∀ w ∈ ds.filterMap (Deed.joins? handle), s.Acts op w.session :=
    fun handle w hw => (Course.acts_of_joins hfits hw).acts
  exact {
    locks := by
      intro session hnot handle mode hl
      obtain ⟨generation, hg⟩ := hl.granted
      exact State.Granted.locked
        (hcourse.keeps_grant hs.wf_shelf hfits (hidle session hnot handle) hg)
    requests := by
      intro handle w hw hnot
      have hidle := hidle _ hnot handle
      have hreg := hd.registered_of_mem_line hs hw hidle
      rcases hcourse.keeps_request hs.wf_shelf hfits hidle hreg hw with hline | ⟨g, hm, hl⟩
      · exact .inl hline
      · refine .inr ⟨g, ?_, ?_, State.Granted.locked hl⟩
        · rw [hd.answers_eq]
          exact List.mem_filterMap.2 ⟨_, hm, rfl⟩
        · rw [hd.events_eq]
          exact List.mem_filterMap.2 ⟨_, hm, rfl⟩
    order := fun handle => ⟨_, hcourse.line_sublist hs.wf_shelf handle, hjoined handle⟩
    records := (s.kept_perform op).record
    answers := by
      refine ⟨_, _, hd.answers_eq ▸ Deed.messages_perm ds, hd.replies, fun handle => ?_, ?_⟩
      · rw [Deed.departures_at]
        exact ⟨_, hcourse.line_perm hs.wf_shelf handle, hjoined handle⟩
      · intro out hm hnot
        obtain ⟨hline, g, ha, -⟩ := hd.admitted_of_departure hs hm (hidle _ hnot _)
        exact ⟨hline, g, ha⟩
    handles := by
      intro handle x hx hnot
      by_cases hopen : ∃ session name, op = .openHandle session name
      · obtain ⟨session, name, rfl⟩ := hopen
        rcases hs.handles_openHandle session name hx with hsame | ⟨hn, hnew⟩
        · exact .inl hsame
        · exact .inr ⟨session, name, rfl, hn, hnew⟩
      · have hquiet : ∀ session, .on handle (.opened session) ∉ ds := by
          intro session hm
          obtain ⟨name, hop⟩ := hd.opens handle session hm
          exact hopen ⟨session, name, hop⟩
        have hidle : ∀ session ∈ x.openers, ¬ s.ActsOn op session handle :=
          fun session hm => hidle session (hnot session hm) handle
        exact .inl (hcourse.keeps_handle hs.wf_shelf hfits hx (hset handle x hx)
          (hs.booked_nil hx).in_use hidle hquiet) }

end Coherent

/-- Whatever operations have been carried out, the next one takes nothing from the sessions that it
is not about. -/
theorem spares_others (lease : Nat) (ops : List (Operation ρ)) (op : Operation ρ) :
    ((State.empty lease).after ops).Spares op (((State.empty lease).after ops).perform op).2 :=
  (coherent_after lease ops).spares (settled_after lease ops) op

end LeaseLock.Coordinator
