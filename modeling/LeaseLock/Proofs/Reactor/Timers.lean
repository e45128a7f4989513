import LeaseLock.Proofs.Reactor.Execution
import LeaseLock.Proofs.TimerQueue.Ledger

/-
  LeaseLock: the timers of the event loop.
  A round takes all timers that are due out of the queue and then hands them over one by one; while
  it does so, handlers and others schedule and cancel timers as they like.  What has been scheduled,
  cancelled and taken out so far makes up a ledger of the queue, and what was taken out is what was
  handed over with the rest of the batch behind it (`Execution.timed`).  So a timer fires at most
  once, in time, and not when it was cancelled; and it does not fire before an earlier one that had
  been scheduled when it was still waiting (`Execution.timers_on_time`).
-/

namespace LeaseLock.Reactor

variable {κ η σ τ ν : Type} {w : Wiring κ η σ τ ν} {m : Machine κ η σ τ ν} {duty : Duty η}
  {hs before after : List (Moment κ η σ ν)} {x : Moment κ η σ ν}

/-! ## Timers in a history -/

/-- The timer that was scheduled: its id, its deadline and its handler. -/
def Moment.scheduled? : Moment κ η σ ν → Option (Nat × Nat × η)
  | .asked (.schedule deadline handler) (id : Nat) _ => some (id, deadline, handler)
  | _ => none

/-- The id of the timer that was cancelled. -/
def Moment.cancelled? : Moment κ η σ ν → Option Nat
  | .asked (.cancel id) (answer : Bool) _ => if answer then some id else none
  | _ => none

/-- The timers that were taken out, each with its handler. -/
def Moment.batch? : Moment κ η σ ν → Option (List (Nat × η))
  | .collected _ batch => some batch
  | _ => none

/-- The timer that was handed over, with its handler. -/
def Moment.fired? : Moment κ η σ ν → Option (Nat × η)
  | .fired _ id handler => some (id, handler)
  | _ => none

/-- The timers that were scheduled, in order. -/
def scheduled (hs : List (Moment κ η σ ν)) : List (Nat × Nat × η) := hs.filterMap Moment.scheduled?

/-- The timers that were cancelled, in order. -/
def cancelled (hs : List (Moment κ η σ ν)) : List Nat := hs.filterMap Moment.cancelled?

/-- The batches that were taken out, in order. -/
def batches (hs : List (Moment κ η σ ν)) : List (List (Nat × η)) := hs.filterMap Moment.batch?

/-- The timers that were handed over, in order. -/
def fired (hs : List (Moment κ η σ ν)) : List (Nat × η) := hs.filterMap Moment.fired?

/-- The timers that were taken out last. -/
def lastBatch (hs : List (Moment κ η σ ν)) : List (Nat × η) := (batches hs).getLast?.getD []

@[simp] theorem scheduled_concat (hs : List (Moment κ η σ ν)) (x : Moment κ η σ ν) :
    scheduled (hs ++ [x]) = scheduled hs ++ x.scheduled?.toList :=
  filterMap_concat _ _ _

@[simp] theorem cancelled_concat (hs : List (Moment κ η σ ν)) (x : Moment κ η σ ν) :
    cancelled (hs ++ [x]) = cancelled hs ++ x.cancelled?.toList :=
  filterMap_concat _ _ _

@[simp] theorem batches_concat (hs : List (Moment κ η σ ν)) (x : Moment κ η σ ν) :
    batches (hs ++ [x]) = batches hs ++ x.batch?.toList :=
  filterMap_concat _ _ _

@[simp] theorem fired_concat (hs : List (Moment κ η σ ν)) (x : Moment κ η σ ν) :
    fired (hs ++ [x]) = fired hs ++ x.fired?.toList :=
  filterMap_concat _ _ _

/-- The loop has ended once the history says so. -/
theorem Execution.stopped_iff (h : Execution w hs duty m) :
    m.phase = .stopped ↔ .ended ∈ hs := by
  induction h with
  | start world links => exact iff_of_false nofun nofun
  | @ask hs duty m prior r ih =>
    refine (m.answered_answer w r).stopped.trans ?_
    simpa using ih
  | collect prior running read ih | fire prior ih | take prior next receiver ih
  | drop prior next nobody ih => simpa [Machine.record, Machine.handOver] using ih
  | idle prior empty ih | wake prior next ih => exact ih
  | @finish hs m prior stopping ih =>
    obtain ⟨trace, hfinish⟩ := m.finish_eq
    simp [hfinish]

/-- What has happened before some moment, if the loop has not ended. -/
theorem Execution.split_of_ne_stopped (h : Execution w hs duty m) (hphase : m.phase ≠ .stopped)
    (heq : hs = before ++ x :: after) : ∃ duty₀ m₀, Execution w before duty₀ m₀ ∧
      m₀.phase ≠ .stopped ∧ x.Fits w duty₀ m₀ := by
  obtain ⟨duty₀, m₀, h₀, hfits⟩ := h.split heq
  refine ⟨duty₀, m₀, h₀, fun hstopped => hphase (h.stopped_iff.2 ?_), hfits⟩
  rw [heq]
  exact List.mem_append_left _ (h₀.stopped_iff.1 hstopped)

/-! ## The ledger -/

/-- What becomes of the ledger when a request is answered. -/
theorem Machine.ledger_answer (w : Wiring κ η σ τ ν) (m : Machine κ η σ τ ν)
    (r : Request κ η σ ν) (arrivals : List Event) {popped : List (Nat × η)}
    (h : m.timers.Ledger m.clock (scheduled hs) (cancelled hs) popped) :
    (m.answer w r).2.timers.Ledger (m.answer w r).2.clock
      (scheduled (hs ++ [.asked r (m.answer w r).1 arrivals]))
      (cancelled (hs ++ [.asked r (m.answer w r).1 arrivals])) popped := by
  have hanswered := m.answered_answer w r
  rw [hanswered.timers, scheduled_concat, cancelled_concat]
  cases r with
  | schedule deadline handler =>
    show (m.timers.prune.schedule deadline handler).2.Ledger _
      (scheduled hs ++ [(m.timers.prune.nextId, deadline, handler)]) (cancelled hs ++ []) popped
    rw [List.append_nil]
    exact (h.mono m.timers.trimmed_prune hanswered.clock).schedule deadline handler
  | cancel timer =>
    show (m.timers.cancel timer).2.Ledger _ (scheduled hs ++ [])
      (cancelled hs ++ (if (m.timers.cancel timer).1 then some timer else none).toList) popped
    rw [List.append_nil, apply_ite Option.toList]
    exact (h.cancel timer).mono (.refl _) hanswered.clock
  | _ =>
    show m.timers.Ledger _ (scheduled hs ++ []) (cancelled hs ++ []) popped
    rw [List.append_nil, List.append_nil]
    exact h.mono (.refl _) hanswered.clock

/-- How the timers of the loop stand after a history. -/
structure Timed (hs : List (Moment κ η σ ν)) (duty : Duty η) (m : Machine κ η σ τ ν) : Prop where
  ledger : m.timers.Ledger m.clock (scheduled hs) (cancelled hs) (batches hs).flatten
  /-- All batches have been handed over, but for what is left of the last one. -/
  handed : (batches hs).flatten = fired hs ++ duty.batch
  left : duty.batch <:+ lastBatch hs

theorem Execution.timed (h : Execution w hs duty m) (hphase : m.phase ≠ .stopped) :
    Timed hs duty m := by
  induction h with
  | start world links => exact ⟨TimerQueue.ledger_empty 0, rfl, List.suffix_refl _⟩
  | @ask hs duty m prior r ih =>
    obtain ⟨hledger, hhanded, hleft⟩ :=
      ih fun hs => hphase ((m.answered_answer w r).stopped.2 hs)
    refine ⟨?_, ?_, ?_⟩
    · simpa [Moment.batch?, Machine.perform, Machine.record] using
        m.ledger_answer w r (m.arrivals w r) hledger
    · simpa [Moment.batch?, Moment.fired?] using hhanded
    · simpa [lastBatch, Moment.batch?] using hleft
  | collect prior running read ih =>
    obtain ⟨hledger, hhanded, hleft⟩ := ih hphase
    refine ⟨?_, ?_, ?_⟩
    · simpa [Moment.scheduled?, Moment.cancelled?, Moment.batch?] using hledger.popDue read
    · simpa [Moment.batch?, Moment.fired?, Duty.batch] using hhanded
    · simp [lastBatch, Moment.batch?, Duty.batch]
  | fire prior ih =>
    obtain ⟨hledger, hhanded, hleft⟩ := ih hphase
    refine ⟨?_, ?_, ?_⟩
    · simpa [Moment.scheduled?, Moment.cancelled?, Moment.batch?, Machine.record] using hledger
    · simpa [Moment.batch?, Moment.fired?, Duty.batch] using hhanded
    · have hlast := (List.suffix_cons _ _).trans hleft
      simpa [lastBatch, Moment.batch?, Duty.batch] using hlast
  | idle prior empty ih | wake prior next ih =>
    exact ⟨(ih hphase).ledger, (ih hphase).handed, List.nil_suffix⟩
  | take prior next receiver ih | drop prior next nobody ih =>
    obtain ⟨hledger, hhanded, -⟩ := ih hphase
    refine ⟨?_, ?_, List.nil_suffix⟩
    · simpa [Moment.scheduled?, Moment.cancelled?, Moment.batch?, Machine.handOver,
        Machine.record] using hledger
    · simpa [Moment.batch?, Moment.fired?, Duty.batch] using hhanded
  | @finish hs m prior stopping ih =>
    obtain ⟨trace, hfinish⟩ := m.finish_eq
    exact absurd (by rw [hfinish]) hphase

/-! ## Timers in the course of time -/

/-- A timer waits: it has been scheduled, and neither been cancelled nor been taken out. -/
def Waiting (hs : List (Moment κ η σ ν)) (id deadline : Nat) (handler : η) : Prop :=
  (id, deadline, handler) ∈ scheduled hs ∧ id ∉ cancelled hs ∧
    id ∉ (batches hs).flatten.map (·.1)

/-- Timers are handed over at most once, in time and in order, unless they are cancelled. -/
structure TimersOnTime (hs : List (Moment κ η σ ν)) (duty : Duty η) (m : Machine κ η σ τ ν) :
    Prop where
  /-- No id is given to two timers. -/
  fresh : ((scheduled hs).map (·.1)).Nodup
  /-- No timer is handed over twice. -/
  once : ((fired hs).map (·.1)).Nodup
  /-- A timer goes to its handler, and when its deadline has come. -/
  inTime : ∀ before clock id handler rest, hs = before ++ .fired clock id handler :: rest →
    ∃ deadline ≤ clock, (id, deadline, handler) ∈ scheduled before
  /-- No timer is cancelled twice. -/
  cancelledOnce : (cancelled hs).Nodup
  /-- One that is cancelled is never handed over. -/
  neverFired : ∀ id ∈ cancelled hs, id ∉ (fired hs).map (·.1)
  /-- A timer that cannot be cancelled has been handed over, belongs to the batch at hand, or has
  been cancelled. -/
  refused : ∀ before id answer arrivals rest,
    hs = before ++ .asked (.cancel id) answer arrivals :: rest →
      ∀ deadline handler, (id, deadline, handler) ∈ scheduled before →
        ((answer : Bool) = false ↔ id ∈ (fired before).map (·.1) ∨
          (id, handler) ∈ lastBatch before ∨ id ∈ cancelled before)
  /-- A round takes out whatever is due when it begins. -/
  swept : ∀ before now batch rest, hs = before ++ .collected now batch :: rest →
    ∀ id deadline handler, (id, deadline, handler) ∈ scheduled before → deadline ≤ now →
      id ∈ cancelled before ∨ id ∈ (fired before).map (·.1) ∨ (id, handler) ∈ batch
  /-- What was taken out has been handed over, but for the rest of the batch at hand. -/
  handed : (batches hs).flatten = fired hs ++ duty.batch
  /-- When there is nothing left to do, every timer that is due has been handed over or been
  cancelled. -/
  quiet : duty.batch = [] → m.isQuiet = true →
    ∀ id deadline handler, (id, deadline, handler) ∈ scheduled hs → deadline ≤ m.clock →
      id ∈ (fired hs).map (·.1) ∨ id ∈ cancelled hs
  /-- Of two timers that wait at some moment the earlier one is handed over before the other, or
  cancelled. -/
  order : ∀ before mid clock b y rest, hs = before ++ mid ++ .fired clock b y :: rest →
    ∀ a d x d', Waiting before a d x → Waiting before b d' y → d < d' ∨ d = d' ∧ a < b →
      a ∈ (fired (before ++ mid)).map (·.1) ∨ a ∈ cancelled (before ++ mid)

theorem batches_append (hs hs' : List (Moment κ η σ ν)) :
    batches (hs ++ hs') = batches hs ++ batches hs' :=
  List.filterMap_append

theorem scheduled_append (hs hs' : List (Moment κ η σ ν)) :
    scheduled (hs ++ hs') = scheduled hs ++ scheduled hs' :=
  List.filterMap_append

theorem cancelled_append (hs hs' : List (Moment κ η σ ν)) :
    cancelled (hs ++ hs') = cancelled hs ++ cancelled hs' :=
  List.filterMap_append

theorem mem_batches {batch : List (Nat × η)} (hbatch : batch ∈ batches hs) :
    ∃ now, .collected now batch ∈ hs := by
  obtain ⟨x, hx, heq⟩ := List.mem_filterMap.1 hbatch
  cases x with
  | collected now batch =>
    cases heq
    exact ⟨now, hx⟩
  | _ => cases heq

theorem mem_lastBatch {t : Nat × η} (ht : t ∈ lastBatch hs) : t ∈ (batches hs).flatten := by
  unfold lastBatch at ht
  cases hlast : (batches hs).getLast? with
  | none =>
    rw [hlast] at ht
    cases ht
  | some batch =>
    rw [hlast] at ht
    exact List.mem_flatten.2 ⟨batch, List.mem_of_getLast? hlast, ht⟩

namespace Timed

theorem once (h : Timed hs duty m) : ((fired hs).map (·.1)).Nodup := by
  have hpopped := h.ledger.poppedOnce
  rw [h.handed, List.map_append] at hpopped
  exact (List.nodup_append'.1 hpopped).1

theorem popped_of_fired (h : Timed hs duty m) {id : Nat} (hid : id ∈ (fired hs).map (·.1)) :
    id ∈ (batches hs).flatten.map (·.1) := by
  rw [h.handed, List.map_append]
  exact List.mem_append_left _ hid

/-- What was taken out before the timer that comes next has been handed over. -/
theorem fired_eq (h : Timed hs duty m) {t : Nat × η} {prior later left : List (Nat × η)}
    (hnext : duty.batch = t :: left) (heq : (batches hs).flatten = prior ++ t :: later) :
    fired hs = prior := by
  have hhanded := h.handed
  have hnodup := h.ledger.poppedOnce.of_map
  rw [hhanded, hnext] at hnodup
  rw [hnext, heq] at hhanded
  obtain ⟨-, hleft, hdisjoint⟩ := List.nodup_append'.1 hnodup
  have hfired : t ∉ fired hs := fun hmem => hdisjoint hmem List.mem_cons_self
  exact ((List.append_cons_inj_of_notMem hfired (List.nodup_cons.1 hleft).1).1 hhanded.symm).1

/-- If nothing is left to do, what is due has been handed over or been cancelled. -/
theorem quiet (h : Timed hs duty m) (hbatch : duty.batch = []) (hquiet : m.isQuiet = true)
    {id deadline : Nat} {handler : η} (hscheduled : (id, deadline, handler) ∈ scheduled hs)
    (hdue : deadline ≤ m.clock) : id ∈ (fired hs).map (·.1) ∨ id ∈ cancelled hs := by
  by_cases hcancelled : id ∈ cancelled hs
  · exact .inr hcancelled
  by_cases hpopped : id ∈ (batches hs).flatten.map (·.1)
  · rw [h.handed, hbatch, List.append_nil] at hpopped
    exact .inl hpopped
  · have hany := (m.timers.anyDue_iff m.clock).2 ⟨id, deadline, handler, hdue,
      (h.ledger.pending id deadline handler).2 ⟨hscheduled, hcancelled, hpopped⟩⟩
    unfold Machine.isQuiet at hquiet
    rw [hany, Bool.not_true, Bool.and_false] at hquiet
    cases hquiet

/-- What was taken out has been handed over or belongs to the batch at hand. -/
theorem fired_or_left (h : Timed hs duty m) {id : Nat}
    (hid : id ∈ (batches hs).flatten.map (·.1)) :
    id ∈ (fired hs).map (·.1) ∨ id ∈ duty.batch.map (·.1) := by
  rw [h.handed, List.map_append] at hid
  exact List.mem_append.1 hid

end Timed

namespace Execution

theorem timed_before (h : Execution w hs duty m) (hphase : m.phase ≠ .stopped)
    (heq : hs = before ++ x :: after) :
    ∃ duty₀ m₀, Timed before duty₀ m₀ ∧ x.Fits w duty₀ m₀ := by
  obtain ⟨duty₀, m₀, h₀, hphase₀, hfits⟩ := h.split_of_ne_stopped hphase heq
  exact ⟨duty₀, m₀, h₀.timed hphase₀, hfits⟩

theorem fired_inTime (h : Execution w hs duty m) (hphase : m.phase ≠ .stopped)
    {clock id : Nat} {handler : η} (heq : hs = before ++ .fired clock id handler :: after) :
    ∃ deadline ≤ clock, (id, deadline, handler) ∈ scheduled before := by
  obtain ⟨duty₀, m₀, htimed, rfl, rest, rfl⟩ := h.timed_before hphase heq
  refine htimed.ledger.due id handler ?_
  rw [htimed.handed]
  exact List.mem_append_right _ List.mem_cons_self

theorem cancel_refused (h : Execution w hs duty m) (hphase : m.phase ≠ .stopped)
    {id deadline : Nat} {answer : Bool} {arrivals : List Event} {handler : η}
    (heq : hs = before ++ .asked (.cancel id) answer arrivals :: after)
    (hscheduled : (id, deadline, handler) ∈ scheduled before) :
    answer = false ↔ id ∈ (fired before).map (·.1) ∨ (id, handler) ∈ lastBatch before ∨
      id ∈ cancelled before := by
  obtain ⟨duty₀, m₀, htimed, hanswer, -⟩ := h.timed_before hphase heq
  have hgranted : answer = true ↔ _ :=
    (iff_of_eq (congrArg (· = true) hanswer)).trans (htimed.ledger.cancel_fst id)
  rw [← Bool.not_eq_true, hgranted]
  have hknown : id ∈ (scheduled before).map (·.1) := List.mem_map_of_mem hscheduled
  constructor
  · intro hnot
    by_cases hcancelled : id ∈ cancelled before
    · exact .inr (.inr hcancelled)
    by_cases hpopped : id ∈ (batches before).flatten.map (·.1)
    · rcases htimed.fired_or_left hpopped with hfired | hleft
      · exact .inl hfired
      · obtain ⟨⟨id, y⟩, hy, rfl⟩ := List.mem_map.1 hleft
        have hlast := htimed.left.subset hy
        obtain ⟨d, -, hy⟩ := htimed.ledger.due id y (mem_lastBatch hlast)
        obtain ⟨-, rfl⟩ := htimed.ledger.unique hscheduled hy
        exact .inr (.inl hlast)
    · exact absurd ⟨hknown, hcancelled, hpopped⟩ hnot
  · rintro hsome ⟨-, hcancelled, hpopped⟩
    rcases hsome with hfired | hlast | hid
    · exact hpopped (htimed.popped_of_fired hfired)
    · exact hpopped (List.mem_map_of_mem (mem_lastBatch hlast))
    · exact hcancelled hid

theorem swept (h : Execution w hs duty m) (hphase : m.phase ≠ .stopped)
    {now id deadline : Nat} {batch : List (Nat × η)} {handler : η}
    (heq : hs = before ++ .collected now batch :: after)
    (hscheduled : (id, deadline, handler) ∈ scheduled before) (hdue : deadline ≤ now) :
    id ∈ cancelled before ∨ id ∈ (fired before).map (·.1) ∨ (id, handler) ∈ batch := by
  obtain ⟨duty₀, m₀, htimed, -, rfl, rfl⟩ := h.timed_before hphase heq
  rcases htimed.ledger.mem_popDue hscheduled hdue with hcancelled | hpopped | hbatch
  · exact .inl hcancelled
  · exact .inr (.inl ((htimed.fired_or_left hpopped).resolve_right nofun))
  · exact .inr (.inr hbatch)

/-- The batch of the later timer is looked at when it was taken out: what has been taken out by
then, and what stands before the timer in the batch, is what was handed over before it. -/
theorem fired_in_order (h : Execution w hs duty m) (hphase : m.phase ≠ .stopped)
    {mid : List (Moment κ η σ ν)} {clock a b d d' : Nat} {x y : η}
    (heq : hs = before ++ mid ++ .fired clock b y :: after) (hx : Waiting before a d x)
    (hy : Waiting before b d' y) (hlt : d < d' ∨ d = d' ∧ a < b) :
    a ∈ (fired (before ++ mid)).map (·.1) ∨ a ∈ cancelled (before ++ mid) := by
  obtain ⟨duty₀, m₀, h₀, hphase₀, rfl, left, rfl⟩ := h.split_of_ne_stopped hphase heq
  have htimed := h₀.timed hphase₀
  have hout : (b, y) ∈ (batches before).flatten ++ (batches mid).flatten := by
    rw [← List.flatten_append, ← batches_append, htimed.handed]
    exact List.mem_append_right _ List.mem_cons_self
  have hmid := (List.mem_append.1 hout).resolve_left fun hb =>
    hy.2.2 (List.mem_map_of_mem hb)
  obtain ⟨batch, hbatch, hb⟩ := List.mem_flatten.1 hmid
  obtain ⟨now, hcollected⟩ := mem_batches hbatch
  obtain ⟨mid₁, mid₂, rfl⟩ := List.append_of_mem hcollected
  obtain ⟨earlier, later, rfl⟩ := List.append_of_mem hb
  obtain ⟨duty₁, m₁, htimed₁, -, hpopped, -⟩ :=
    h₀.timed_before hphase₀ (List.append_assoc _ _ _).symm
  have hmem : ∀ t, t ∈ scheduled before → t ∈ scheduled (before ++ mid₁) := by
    intro t ht
    rw [scheduled_append]
    exact List.mem_append_left _ ht
  rw [← List.append_assoc] at htimed ⊢
  have hflat : (batches (before ++ mid₁ ++
      .collected now (earlier ++ (b, y) :: later) :: mid₂)).flatten =
        ((batches (before ++ mid₁)).flatten ++ earlier) ++
          (b, y) :: (later ++ (batches mid₂).flatten) := by
    rw [List.append_cons, batches_append, batches_concat]
    simp [Moment.batch?]
  rw [htimed.fired_eq rfl hflat, List.map_append, cancelled_append]
  rcases htimed₁.ledger.popDue_sooner (hmem _ hx.1) (hmem _ hy.1) hlt hpopped.symm with
    hc | hp | he
  · exact .inr (List.mem_append_left _ hc)
  · exact .inl (List.mem_append_left _ hp)
  · exact .inl (List.mem_append_right _ he)

/-- However handlers and others behave, until the loop ends its timers are handed over at most
once, in time and in order, unless they are cancelled. -/
theorem timers_on_time (h : Execution w hs duty m) (hphase : m.phase ≠ .stopped) :
    TimersOnTime hs duty m where
  fresh := (h.timed hphase).ledger.fresh
  once := (h.timed hphase).once
  inTime _ _ _ _ _ heq := h.fired_inTime hphase heq
  cancelledOnce := (h.timed hphase).ledger.cancelledOnce
  neverFired id hid hfired :=
    (h.timed hphase).ledger.apart id hid ((h.timed hphase).popped_of_fired hfired)
  refused _ _ _ _ _ heq _ _ := h.cancel_refused hphase heq
  swept _ _ _ _ heq _ _ _ := h.swept hphase heq
  handed := (h.timed hphase).handed
  quiet hbatch hquiet _ _ _ := (h.timed hphase).quiet hbatch hquiet
  order _ _ _ _ _ _ heq _ _ _ _ := h.fired_in_order hphase heq

/-- Two timers become due at once.  When the earlier one has been handed over, it is too late to
cancel the other, which stands in the same batch. -/
theorem timers_on_time_batch :
    ∃ (w : Wiring Unit Unit Unit Unit Unit) (hs : List (Moment Unit Unit Unit Unit))
      (m : Machine Unit Unit Unit Unit Unit), Execution w hs (.round []) m ∧ m.phase ≠ .stopped ∧
        TimersOnTime hs (.round []) m ∧ scheduled hs = [(1, 5, ()), (2, 3, ())] ∧
          cancelled hs = [] ∧ fired hs = [(2, ()), (1, ())] := by
  let w : Wiring Unit Unit Unit Unit Unit :=
    ⟨fun _ _ => .done (), fun _ _ _ links => (true, [], links)⟩
  have hstart : Execution w [] .head (.start () ()) := .start () ()
  have hdue := ((hstart.ask (.schedule 5 ())).ask (.schedule 3 ())).ask (.elapse 5)
  have hbatch : Execution w _ (.round [(2, ()), (1, ())]) _ := hdue.collect rfl (Nat.le_refl _)
  have h := (hbatch.fire.ask (.cancel 1)).fire
  exact ⟨w, _, _, h, by decide, h.timers_on_time (by decide), by decide +kernel,
    by decide +kernel, by decide +kernel⟩

end Execution

end LeaseLock.Reactor
