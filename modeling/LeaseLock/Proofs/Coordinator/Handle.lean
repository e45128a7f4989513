import LeaseLock.Coordinator.Basic
import LeaseLock.Proofs.Table

/-
  LeaseLock: one handle, its holders and its queue.
  `Handle.Wf` is what holds of a handle whoever is registered: the lock is shared or has one
  exclusive holder, holders and waiters have the handle open, nobody holds and waits, nobody waits
  twice.  `Handle.Settled` says that the head of the queue cannot be admitted.  Serving a queue
  keeps the first and brings about the second.
-/

namespace LeaseLock.Coordinator.Handle

variable {ρ : Type} {registered : Nat → Bool} {h : Handle ρ}

/-! ## Admission -/

theorem admits_iff {mode : Mode} : h.admits mode = true ↔
    ∀ sid held, h.holders.get? sid = some held → held.compatible mode = true :=
  Table.all_values_iff

theorem admits_eq_false_iff {mode : Mode} : h.admits mode = false ↔
    ∃ sid held, h.holders.get? sid = some held ∧ held.compatible mode = false := by
  rw [← Bool.not_eq_true, admits_iff]
  simp

/-- An exclusive lock is admitted only where nobody holds the lock. -/
theorem holders_eq_empty (ha : h.admits .exclusive = true) : h.holders = ∅ := by
  rw [admits_iff] at ha
  ext1 sid
  cases hs : h.holders.get? sid with
  | none => rfl
  | some held =>
    have hc := ha sid held hs
    cases held <;> simp [Mode.compatible] at hc

/-- A shared lock is admitted only beside shared locks. -/
theorem eq_shared_of_admits (ha : h.admits .shared = true) {sid : Nat} {held : Mode}
    (hs : h.holders.get? sid = some held) : held = .shared := by
  have hc := admits_iff.1 ha sid held hs
  cases held with
  | shared => rfl
  | exclusive => simp [Mode.compatible] at hc

/-- Fewer holders admit more. -/
theorem admits_of_sub {h' : Handle ρ} {mode : Mode} (ha : h.admits mode = true)
    (hsub : ∀ sid held, h'.holders.get? sid = some held → h.holders.get? sid = some held) :
    h'.admits mode = true := by
  rw [admits_iff] at ha ⊢
  intro sid held hs
  exact ha sid held (hsub sid held hs)

theorem grant_holders (sid : Nat) (mode : Mode) :
    (h.grant sid mode).holders = h.holders.insert sid mode := rfl

/-! ## What leaves a queue -/

namespace Admission

/-- The request that left the queue. -/
def waiter : Admission ρ → Waiter ρ
  | .granted w _ => w
  | .lapsed w => w

/-- What its sender is told. -/
def answer : Admission ρ → Answer
  | .granted _ generation => .granted generation
  | .lapsed w => .refused (.sessionExpired w.session)

/-- What observers are told. -/
def event? (handle : Nat) : Admission ρ → Option LockEvent
  | .granted w generation => some (.acquired handle w.session w.mode generation)
  | .lapsed _ => none

/-- Whether the request got the lock. -/
def got : Admission ρ → Bool
  | .granted _ _ => true
  | .lapsed _ => false

/-- Whether this session got the lock. -/
def gives (sid : Nat) : Admission ρ → Bool
  | .granted w _ => w.session == sid
  | .lapsed _ => false

end Admission

/-! ## Serving a queue, step by step -/

theorem serve_nil : h.serve registered [] = ([], { h with waiters := [] }) := rfl

theorem serve_granted {w : Waiter ρ} {rest : List (Waiter ρ)} (ha : h.admits w.mode = true)
    (hr : registered w.session = true) :
    h.serve registered (w :: rest) =
      (.granted w (h.grant w.session w.mode).generation ::
          ((h.grant w.session w.mode).serve registered rest).1,
        ((h.grant w.session w.mode).serve registered rest).2) := by
  rw [serve, if_pos ha, if_pos hr]

theorem serve_lapsed {w : Waiter ρ} {rest : List (Waiter ρ)} (ha : h.admits w.mode = true)
    (hr : registered w.session = false) :
    h.serve registered (w :: rest) =
      (.lapsed w :: (h.serve registered rest).1, (h.serve registered rest).2) := by
  have hr' : ¬ registered w.session = true := ne_true_of_eq_false hr
  rw [serve, if_pos ha, if_neg hr']

theorem serve_stuck {w : Waiter ρ} {rest : List (Waiter ρ)} (ha : h.admits w.mode = false) :
    h.serve registered (w :: rest) = ([], { h with waiters := w :: rest }) := by
  have ha' : ¬ h.admits w.mode = true := ne_true_of_eq_false ha
  rw [serve, if_neg ha']

/-- The three things that can happen to the head of a queue. -/
theorem serve_cases (h : Handle ρ) (registered : Nat → Bool) (w : Waiter ρ) :
    h.admits w.mode = true ∧ registered w.session = true ∨
      h.admits w.mode = true ∧ registered w.session = false ∨ h.admits w.mode = false := by
  cases h.admits w.mode <;> cases registered w.session <;> simp

/-- Serving does not look at the queue that is stored in the handle. -/
theorem serve_waiters (q ws : List (Waiter ρ)) :
    ({ h with waiters := q } : Handle ρ).serve registered ws = h.serve registered ws := by
  induction ws generalizing h with
  | nil => rfl
  | cons w rest ih =>
    rcases serve_cases h registered w with ⟨ha, hr⟩ | ⟨ha, hr⟩ | ha
    · rw [serve_granted ha hr, serve_granted (h := { h with waiters := q }) ha hr]
      rw [show ({ h with waiters := q } : Handle ρ).grant w.session w.mode =
        { h.grant w.session w.mode with waiters := q } from rfl, ih]
    · rw [serve_lapsed ha hr, serve_lapsed (h := { h with waiters := q }) ha hr, ih]
    · rw [serve_stuck ha, serve_stuck (h := { h with waiters := q }) ha]

/-! ## What serving does -/

theorem serve_name (ws : List (Waiter ρ)) : (h.serve registered ws).2.name = h.name := by
  induction ws generalizing h with
  | nil => rfl
  | cons w rest ih =>
    rcases serve_cases h registered w with ⟨ha, hr⟩ | ⟨ha, hr⟩ | ha
    · rw [serve_granted ha hr]
      exact ih
    · rw [serve_lapsed ha hr]
      exact ih
    · rw [serve_stuck ha]

theorem serve_openers (ws : List (Waiter ρ)) :
    (h.serve registered ws).2.openers = h.openers := by
  induction ws generalizing h with
  | nil => rfl
  | cons w rest ih =>
    rcases serve_cases h registered w with ⟨ha, hr⟩ | ⟨ha, hr⟩ | ha
    · rw [serve_granted ha hr]
      exact ih
    · rw [serve_lapsed ha hr]
      exact ih
    · rw [serve_stuck ha]

/-- The queue is what left it, followed by what remains. -/
theorem serve_queue (ws : List (Waiter ρ)) :
    ws = (h.serve registered ws).1.map Admission.waiter ++ (h.serve registered ws).2.waiters := by
  induction ws generalizing h with
  | nil => rfl
  | cons w rest ih =>
    rcases serve_cases h registered w with ⟨ha, hr⟩ | ⟨ha, hr⟩ | ha
    · rw [serve_granted ha hr, List.map_cons, List.cons_append]
      exact congrArg (w :: ·) ih
    · rw [serve_lapsed ha hr, List.map_cons, List.cons_append]
      exact congrArg (w :: ·) ih
    · rw [serve_stuck ha]
      rfl

/-- The lock is given to registered sessions, and only unregistered ones are turned away. -/
theorem registered_of_serve {ws : List (Waiter ρ)} {a : Admission ρ}
    (ha : a ∈ (h.serve registered ws).1) :
    registered a.waiter.session = a.got := by
  induction ws generalizing h with
  | nil =>
    rw [serve_nil] at ha
    simp at ha
  | cons w rest ih =>
    rcases serve_cases h registered w with ⟨had, hr⟩ | ⟨had, hr⟩ | had
    · rw [serve_granted had hr, List.mem_cons] at ha
      rcases ha with rfl | ha
      · exact hr
      · exact ih ha
    · rw [serve_lapsed had hr, List.mem_cons] at ha
      rcases ha with rfl | ha
      · exact hr
      · exact ih ha
    · rw [serve_stuck had] at ha
      simp at ha

theorem mem_holders_serve {ws : List (Waiter ρ)} {sid : Nat} :
    sid ∈ (h.serve registered ws).2.holders ↔
      sid ∈ h.holders ∨ ((h.serve registered ws).1.any (·.gives sid)) = true := by
  induction ws generalizing h with
  | nil => simp [serve_nil]
  | cons w rest ih =>
    rcases serve_cases h registered w with ⟨ha, hr⟩ | ⟨ha, hr⟩ | ha
    · rw [serve_granted ha hr, ih, grant_holders, Table.mem_insert, List.any_cons, Bool.or_eq_true,
        Admission.gives, beq_iff_eq]
      constructor
      · rintro ((rfl | hm) | hs)
        · exact .inr (.inl rfl)
        · exact .inl hm
        · exact .inr (.inr hs)
      · rintro (hm | rfl | hs)
        · exact .inl (.inr hm)
        · exact .inl (.inl rfl)
        · exact .inr hs
    · rw [serve_lapsed ha hr, ih, List.any_cons, Admission.gives, Bool.false_or]
    · rw [serve_stuck ha]
      simp

/-- Whoever is given the lock is registered. -/
theorem registered_of_gives {ws : List (Waiter ρ)} {sid : Nat}
    (hs : ((h.serve registered ws).1.any (·.gives sid)) = true) : registered sid = true := by
  obtain ⟨a, ha, hg⟩ := List.any_eq_true.1 hs
  have hr := registered_of_serve ha
  cases a with
  | granted w g =>
    rw [Admission.gives, beq_iff_eq] at hg
    rw [← hg]
    exact hr
  | lapsed w => simp [Admission.gives] at hg

/-! ## Settled queues -/

/-- The head of the queue cannot be admitted beside the holders. -/
def Settled (h : Handle ρ) : Prop :=
  ∀ w rest, h.waiters = w :: rest → h.admits w.mode = false

theorem settled_serve (ws : List (Waiter ρ)) : (h.serve registered ws).2.Settled := by
  induction ws generalizing h with
  | nil =>
    rw [serve_nil]
    intro w rest hw
    simp at hw
  | cons w rest ih =>
    rcases serve_cases h registered w with ⟨ha, hr⟩ | ⟨ha, hr⟩ | ha
    · rw [serve_granted ha hr]
      exact ih
    · rw [serve_lapsed ha hr]
      exact ih
    · rw [serve_stuck ha]
      intro w' rest' hw
      obtain ⟨rfl, rfl⟩ := List.cons.inj hw
      exact ha

theorem settled_pump : (h.pump registered).2.Settled := settled_serve h.waiters

theorem settled_of_no_waiters (hw : h.waiters = []) : h.Settled := by
  intro w rest hq
  rw [hw] at hq
  simp at hq

/-- A request that could not be admitted at once joins the end of the queue. -/
theorem Settled.enqueue {w : Waiter ρ} (hs : h.Settled)
    (hw : h.waiters ≠ [] ∨ h.admits w.mode = false) :
    ({ h with waiters := h.waiters ++ [w] } : Handle ρ).Settled := by
  intro v rest hq
  dsimp only at hq
  cases hold : h.waiters with
  | nil =>
    rw [hold, List.nil_append] at hq
    obtain ⟨rfl, -⟩ := List.cons.inj hq
    rcases hw with hne | ha
    · exact absurd hold hne
    · exact ha
  | cons u tail =>
    rw [hold, List.cons_append] at hq
    obtain ⟨rfl, -⟩ := List.cons.inj hq
    exact hs u tail hold

/-- Serving a settled queue does nothing. -/
theorem pump_of_settled (hs : h.Settled) : h.pump registered = ([], h) := by
  unfold pump
  cases hw : h.waiters with
  | nil =>
    rw [serve_nil, ← hw]
  | cons w rest =>
    rw [serve_stuck (hs w rest hw), ← hw]

/-! ## Well-formed handles -/

/-- The lock is shared by all its holders or has exactly one holder, which is exclusive. -/
def Exclusion (h : Handle ρ) : Prop :=
  (∀ sid mode, h.holders.get? sid = some mode → mode = .shared) ∨
    ∃ sid, h.holders.entries = [(sid, .exclusive)]

/-- What holds of a handle whoever is registered. -/
structure Wf (h : Handle ρ) : Prop where
  /-- Holders are compatible. -/
  exclusion : h.Exclusion
  /-- Holders have the handle open. -/
  holder_opener : ∀ sid, sid ∈ h.holders → sid ∈ h.openers
  /-- Waiters have the handle open. -/
  waiter_opener : ∀ w ∈ h.waiters, w.session ∈ h.openers
  /-- Nobody holds the lock and waits for it. -/
  waiter_not_holder : ∀ w ∈ h.waiters, w.session ∉ h.holders
  /-- Nobody waits twice. -/
  waits_once : (h.waiters.map (·.session)).Nodup

theorem wf_fresh (name : String) : (fresh name : Handle ρ).Wf where
  exclusion := .inl fun sid mode hm => by simp [fresh] at hm
  holder_opener := fun sid hm => absurd hm (Table.not_mem_empty sid)
  waiter_opener := fun w hw => by simp [fresh] at hw
  waiter_not_holder := fun w hw => by simp [fresh] at hw
  waits_once := List.nodup_nil

/-- Holders that are a part of compatible holders are compatible. -/
theorem Exclusion.of_sub {h' : Handle ρ} (he : h.Exclusion)
    (hsub : ∀ sid mode, h'.holders.get? sid = some mode → h.holders.get? sid = some mode) :
    h'.Exclusion := by
  rcases he with hshared | ⟨sid, hone⟩
  · left
    intro sid mode hm
    exact hshared sid mode (hsub sid mode hm)
  · -- a part of one holder is that holder or nobody
    have only : ∀ j mode, h'.holders.get? j = some mode → j = sid ∧ mode = .exclusive := by
      intro j mode hm
      have hj := Table.mem_entries_iff.2 (hsub j mode hm)
      rw [hone, List.mem_singleton, Prod.mk.injEq] at hj
      exact hj
    cases hs : h'.holders.get? sid with
    | none =>
      left
      intro j mode hm
      obtain ⟨rfl, -⟩ := only j mode hm
      rw [hs] at hm
      simp at hm
    | some mode =>
      right
      refine ⟨sid, ?_⟩
      obtain ⟨-, rfl⟩ := only sid mode hs
      have hone : h'.holders = (∅ : Table Mode).insert sid .exclusive := by
        ext1 j
        rw [Table.get?_insert]
        split
        · subst_vars
          exact hs
        · rename_i hj
          cases hm : h'.holders.get? j with
          | none => rfl
          | some mode => exact absurd (only j mode hm).1 hj
      rw [hone]
      rfl

/-- A grant beside compatible holders leaves them compatible. -/
theorem Exclusion.grant {sid : Nat} {mode : Mode} (ha : h.admits mode = true) :
    (h.grant sid mode).Exclusion := by
  cases mode with
  | shared =>
    left
    intro j held hj
    rw [grant_holders, Table.get?_insert] at hj
    split at hj
    · exact (Option.some.inj hj).symm
    · exact eq_shared_of_admits ha hj
  | exclusive =>
    right
    refine ⟨sid, ?_⟩
    rw [grant_holders, holders_eq_empty ha]
    rfl

/-- Fewer holders and waiters, all of whom still have the handle open. -/
theorem Wf.of_sub {h' : Handle ρ} (hwf : h.Wf)
    (hholders : ∀ sid mode, h'.holders.get? sid = some mode → h.holders.get? sid = some mode)
    (hwaiters : h'.waiters.Sublist h.waiters)
    (hho : ∀ sid, sid ∈ h'.holders → sid ∈ h'.openers)
    (hwo : ∀ w ∈ h'.waiters, w.session ∈ h'.openers) : h'.Wf where
  exclusion := hwf.exclusion.of_sub hholders
  holder_opener := hho
  waiter_opener := hwo
  waiter_not_holder := by
    intro w hw hm
    obtain ⟨mode, hmode⟩ := Table.mem_iff_get?.1 hm
    exact hwf.waiter_not_holder w (hwaiters.subset hw)
      (Table.mem_of_get? (hholders w.session mode hmode))
  waits_once := hwf.waits_once.sublist (hwaiters.map _)

/-- The head of the queue leaves it without the lock. -/
theorem Wf.skip {w : Waiter ρ} {rest : List (Waiter ρ)}
    (hwf : ({ h with waiters := w :: rest } : Handle ρ).Wf) :
    ({ h with waiters := rest } : Handle ρ).Wf :=
  hwf.of_sub (fun _ _ hm => hm) (List.sublist_cons_self w rest) hwf.holder_opener
    fun v hv => hwf.waiter_opener v (List.mem_cons_of_mem w hv)

/-- A session no longer holds the lock. -/
theorem Wf.unlock (hwf : h.Wf) (sid : Nat) :
    ({ h with holders := h.holders.erase sid } : Handle ρ).Wf := by
  have hsub : ∀ j mode, (h.holders.erase sid).get? j = some mode →
      h.holders.get? j = some mode := by
    intro j mode hm
    rw [Table.get?_erase] at hm
    split at hm
    · cases hm
    · exact hm
  have hopener : ∀ j, j ∈ h.holders.erase sid → j ∈ h.openers := by
    intro j hm
    exact hwf.holder_opener j (Table.mem_erase.1 hm).2
  exact hwf.of_sub hsub (List.Sublist.refl _) hopener hwf.waiter_opener

/-- A session no longer waits. -/
theorem Wf.withdraw (hwf : h.Wf) (sid : Nat) : (h.withdraw sid).2.Wf := by
  have hopener : ∀ w ∈ h.waiters.eraseP fun w => w.session == sid, w.session ∈ h.openers := by
    intro w hm
    exact hwf.waiter_opener w (List.mem_of_mem_eraseP hm)
  exact hwf.of_sub (fun _ _ hm => hm) List.eraseP_sublist hwf.holder_opener hopener

/-- A session that neither holds the lock nor waits for it gets it. -/
theorem Wf.grant {sid : Nat} {mode : Mode} (hwf : h.Wf) (ha : h.admits mode = true)
    (hopen : sid ∈ h.openers) (hwait : ∀ w ∈ h.waiters, w.session ≠ sid) :
    (h.grant sid mode).Wf where
  exclusion := .grant ha
  holder_opener := by
    intro j hj
    rw [grant_holders, Table.mem_insert] at hj
    rcases hj with rfl | hj
    · exact hopen
    · exact hwf.holder_opener j hj
  waiter_opener := hwf.waiter_opener
  waiter_not_holder := by
    intro w hw hj
    rw [grant_holders, Table.mem_insert] at hj
    rcases hj with hj | hj
    · exact hwait w hw hj
    · exact hwf.waiter_not_holder w hw hj
  waits_once := hwf.waits_once

/-- The head of the queue leaves it with the lock. -/
theorem Wf.grant_head {w : Waiter ρ} {rest : List (Waiter ρ)}
    (hwf : ({ h with waiters := w :: rest } : Handle ρ).Wf) (ha : h.admits w.mode = true) :
    ({ h.grant w.session w.mode with waiters := rest } : Handle ρ).Wf := by
  have hfirst : ∀ v ∈ rest, v.session ≠ w.session := by
    intro v hv heq
    have hnd := hwf.waits_once
    rw [List.map_cons, List.nodup_cons] at hnd
    exact hnd.1 (List.mem_map.2 ⟨v, hv, heq⟩)
  exact hwf.skip.grant (h := { h with waiters := rest }) ha
    (hwf.waiter_opener w List.mem_cons_self) hfirst

theorem Wf.serve {ws : List (Waiter ρ)} (hwf : ({ h with waiters := ws } : Handle ρ).Wf) :
    (h.serve registered ws).2.Wf := by
  induction ws generalizing h with
  | nil => exact hwf
  | cons w rest ih =>
    rcases serve_cases h registered w with ⟨ha, hr⟩ | ⟨ha, hr⟩ | ha
    · rw [serve_granted ha hr]
      exact ih (hwf.grant_head ha)
    · rw [serve_lapsed ha hr]
      exact ih hwf.skip
    · rw [serve_stuck ha]
      exact hwf

theorem Wf.pump (hwf : h.Wf) : (h.pump registered).2.Wf := Wf.serve hwf

/-- A handle that nobody has open has an empty queue. -/
theorem Wf.waiters_eq_nil (hwf : h.Wf) (ho : h.openers.isEmpty = true) : h.waiters = [] := by
  rw [List.eq_nil_iff_forall_not_mem]
  intro w hw
  exact Table.isEmpty_iff.1 ho w.session (hwf.waiter_opener w hw)

/-- A session joins the end of the queue. -/
theorem Wf.enqueue {w : Waiter ρ} (hwf : h.Wf) (hopen : w.session ∈ h.openers)
    (hnew : h.involves w.session = false) :
    ({ h with waiters := h.waiters ++ [w] } : Handle ρ).Wf := by
  rw [involves, Bool.or_eq_false_iff, List.any_eq_false] at hnew
  obtain ⟨hholder, hwaiter⟩ := hnew
  have hlast : ∀ v, v ∈ h.waiters ++ [w] → v ∈ h.waiters ∨ v = w := by
    intro v hv
    rw [List.mem_append, List.mem_singleton] at hv
    exact hv
  exact {
    exclusion := hwf.exclusion
    holder_opener := hwf.holder_opener
    waiter_opener := by
      intro v hv
      rcases hlast v hv with hv | rfl
      · exact hwf.waiter_opener v hv
      · exact hopen
    waiter_not_holder := by
      intro v hv
      rcases hlast v hv with hv | rfl
      · exact hwf.waiter_not_holder v hv
      · rw [Table.mem_iff, hholder]
        exact Bool.false_ne_true
    waits_once := by
      rw [List.map_append, List.nodup_append]
      refine ⟨hwf.waits_once, by simp, ?_⟩
      intro a ha b hb
      obtain ⟨v, hv, rfl⟩ := List.mem_map.1 ha
      rw [List.map_singleton, List.mem_singleton] at hb
      intro heq
      have hsame : (v.session == w.session) = true := beq_iff_eq.2 (heq.trans hb)
      exact hwaiter v hv hsame }

/-- A session joins the openers. -/
theorem Wf.add_opener (hwf : h.Wf) (sid : Nat) :
    ({ h with openers := IdSet.add h.openers sid } : Handle ρ).Wf :=
  hwf.of_sub (fun _ _ hm => hm) (List.Sublist.refl _)
    (fun j hm => IdSet.mem_add.2 (.inr (hwf.holder_opener j hm)))
    fun w hw => IdSet.mem_add.2 (.inr (hwf.waiter_opener w hw))

/-! ## What a grant leaves -/

/-- A session holds the lock in a mode, and this is the generation. -/
def Grants (h : Handle ρ) (sid : Nat) (mode : Mode) (generation : Nat) : Prop :=
  h.holders.get? sid = some mode ∧ h.generation = generation

/-- A lock beside which somebody holds the lock is admitted only in shared mode. -/
theorem eq_shared_of_held {sid : Nat} {held mode : Mode} (hs : h.holders.get? sid = some held)
    (ha : h.admits mode = true) : mode = .shared := by
  cases mode with
  | shared => rfl
  | exclusive =>
    rw [holders_eq_empty ha] at hs
    cases hs

/-- Whoever holds the lock keeps it, in its generation, when the queue is served. -/
theorem Grants.serve {sid generation : Nat} {mode : Mode} (hg : h.Grants sid mode generation)
    {ws : List (Waiter ρ)} (hnot : ∀ w ∈ ws, w.session ≠ sid) :
    (h.serve registered ws).2.Grants sid mode generation := by
  induction ws generalizing h with
  | nil => exact hg
  | cons w rest ih =>
    have hrest : ∀ v ∈ rest, v.session ≠ sid := fun v hv => hnot v (List.mem_cons_of_mem w hv)
    rcases serve_cases h registered w with ⟨ha, hr⟩ | ⟨ha, hr⟩ | ha
    · rw [serve_granted ha hr]
      refine ih ⟨?_, ?_⟩ hrest
      · rw [grant_holders, Table.get?_insert, if_neg (hnot w List.mem_cons_self).symm]
        exact hg.1
      · -- beside a holder only shared locks are granted, and they begin no generation
        rw [grant, eq_shared_of_held hg.1 ha, if_neg (by decide)]
        exact hg.2
    · rw [serve_lapsed ha hr]
      exact ih hg hrest
    · rw [serve_stuck ha]
      exact hg

/-- Whoever is given the lock holds it afterwards, and the generation is the one that was told. -/
theorem grants_of_serve {ws : List (Waiter ρ)} (hnd : (ws.map (·.session)).Nodup)
    {w : Waiter ρ} {generation : Nat}
    (ha : Admission.granted w generation ∈ (h.serve registered ws).1) :
    (h.serve registered ws).2.Grants w.session w.mode generation := by
  induction ws generalizing h with
  | nil => cases ha
  | cons v rest ih =>
    rw [List.map_cons, List.nodup_cons] at hnd
    rcases serve_cases h registered v with ⟨hadm, hr⟩ | ⟨hadm, hr⟩ | hadm
    · rw [serve_granted hadm hr] at ha ⊢
      rcases List.mem_cons.1 ha with heq | ha
      · obtain ⟨rfl, rfl⟩ := Admission.granted.inj heq
        refine Grants.serve ⟨?_, rfl⟩ fun u hu heq => hnd.1 (List.mem_map.2 ⟨u, hu, heq⟩)
        rw [grant_holders, Table.get?_insert_self]
      · exact ih hnd.2 ha
    · rw [serve_lapsed hadm hr] at ha ⊢
      rcases List.mem_cons.1 ha with heq | ha
      · cases heq
      · exact ih hnd.2 ha
    · rw [serve_stuck hadm] at ha
      cases ha

end LeaseLock.Coordinator.Handle
