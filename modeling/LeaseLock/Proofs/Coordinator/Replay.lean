import LeaseLock.Proofs.Coordinator.Deed
import Mathlib.Logic.Function.Basic

/-
  LeaseLock: who reads the events knows the locks.
  A `Board` is what an observer of the events writes down: for each handle the sessions that hold
  its lock, with their modes, and the number of exclusive grants so far.  `Board.read?` enters one
  event and fails if it does not fit what is on the board.

  `Course.replay?`: whoever has the locks of some handles on the board and reads the events of a
  course has the locks of the handles that it leads to on the board, and every event fits.
-/

namespace LeaseLock.Coordinator

variable {ρ : Type}

/-! ## The board -/

/-- The locks as the events tell them. -/
structure Board where
  /-- The sessions that hold the lock of a handle, each with its mode. -/
  holders : Nat → Table Mode
  /-- The number of exclusive grants of a handle. -/
  generation : Nat → Nat

namespace Board

/-- The board before any event. -/
def blank : Board := ⟨fun _ => ∅, fun _ => 0⟩

/-- Write down what is known of a handle. -/
def put (b : Board) (handle : Nat) (holders : Table Mode) (generation : Nat) : Board :=
  ⟨Function.update b.holders handle holders, Function.update b.generation handle generation⟩

/-- The generation that begins, or goes on, when a handle is locked in this mode. -/
def following (b : Board) (handle : Nat) (mode : Mode) : Nat :=
  if mode = .exclusive then b.generation handle + 1 else b.generation handle

/-- Enter an event.  A session can get a lock only if it does not hold it, if all that hold it
admit the mode, and in the generation that is due; it can lose a lock only if it holds it. -/
def read? (b : Board) : LockEvent → Option Board
  | .acquired handle session mode generation =>
    if (b.holders handle).contains session = false ∧
        ((b.holders handle).values.all fun held => held.compatible mode) = true ∧
        generation = b.following handle mode then
      some (b.put handle ((b.holders handle).insert session mode) generation)
    else none
  | .released handle session _ =>
    if (b.holders handle).contains session then
      some (b.put handle ((b.holders handle).erase session) (b.generation handle))
    else none
  | .expired _ _ => some b

/-- Enter events one after another. -/
def replay? (b : Board) (events : List LockEvent) : Option Board := events.foldlM read? b

theorem replay?_append (b : Board) (first rest : List LockEvent) :
    b.replay? (first ++ rest) = (b.replay? first).bind fun b' => b'.replay? rest :=
  List.foldlM_append

theorem replay?_singleton (b : Board) (e : LockEvent) : b.replay? [e] = b.read? e := by
  unfold replay?
  rw [List.foldlM_cons]
  cases b.read? e <;> rfl

end Board

/-! ## What is on the board -/

/-- The sessions that hold the lock of a handle; nobody does if there is no such handle. -/
def Shelf.holders (s : Shelf ρ) (handle : Nat) : Table Mode :=
  ((s.handles.get? handle).map (·.holders)).getD ∅

/-- The board tells the locks of these handles. -/
structure Board.Shows (b : Board) (s : Shelf ρ) : Prop where
  /-- It tells who holds them. -/
  holders : ∀ handle, b.holders handle = s.holders handle
  /-- It tells the generation of every handle. -/
  generation : ∀ handle x, s.handles.get? handle = some x → b.generation handle = x.generation
  /-- Nothing has been written down for handles that have not been made yet. -/
  unused : ∀ handle, s.next ≤ handle → b.generation handle = 0

section Shows

variable {b : Board} {s s' : Shelf ρ} {handle : Nat} {x y : Handle ρ}

theorem Shelf.holders_of_get? (hx : s.handles.get? handle = some x) :
    s.holders handle = x.holders := by
  unfold Shelf.holders
  rw [hx]
  rfl

theorem Shelf.holders_put (s : Shelf ρ) (handle : Nat) (y : Handle ρ) (j : Nat) :
    (s.put handle y).holders j = if j = handle then y.holders else s.holders j := by
  unfold Shelf.holders
  rw [Shelf.get?_put]
  split <;> rfl

theorem Board.Shows.at_handle (hb : b.Shows s) (hx : s.handles.get? handle = some x) :
    b.holders handle = x.holders :=
  (hb.holders handle).trans (Shelf.holders_of_get? hx)

/-- A handle changes, and what is known of it is written down. -/
theorem Board.Shows.put (hb : b.Shows s) (hlt : handle < s.next) :
    (b.put handle y.holders y.generation).Shows (s.put handle y) where
  holders := by
    intro j
    rw [Shelf.holders_put, ← hb.holders]
    exact Function.update_apply _ _ _ _
  generation := by
    intro j z hz
    rw [Shelf.get?_put] at hz
    show Function.update _ _ _ j = _
    rw [Function.update_apply]
    split at hz
    · rename_i hj
      rw [if_pos hj, Option.some.inj hz]
    · rename_i hj
      rw [if_neg hj]
      exact hb.generation j z hz
  unused := by
    intro j hj
    show Function.update _ _ _ j = _
    rw [Function.update_of_ne (by have : s.next ≤ j := hj; omega)]
    exact hb.unused j hj

/-- A handle changes, but not its lock. -/
theorem Board.Shows.put_of_eq (hb : b.Shows s) (hx : s.handles.get? handle = some x)
    (hholders : y.holders = x.holders) (hgeneration : y.generation = x.generation) :
    b.Shows (s.put handle y) where
  holders := by
    intro j
    rw [Shelf.holders_put]
    split
    · rename_i hj
      rw [hj, hholders]
      exact hb.at_handle hx
    · exact hb.holders j
  generation := by
    intro j z hz
    rw [Shelf.get?_put] at hz
    split at hz
    · rename_i hj
      rw [hj, ← Option.some.inj hz, hgeneration]
      exact hb.generation handle x hx
    · exact hb.generation j z hz
  unused := hb.unused

theorem Board.shows_blank : Board.blank.Shows (⟨∅, 1⟩ : Shelf ρ) where
  holders := fun _ => rfl
  generation := fun _ _ hx => by cases hx
  unused := fun _ _ => rfl

/-! ## Reading along -/

/-- A lock is given to a session that does not hold it, beside holders that admit it. -/
theorem Board.Shows.read?_acquired (hb : b.Shows s) (hx : s.handles.get? handle = some x)
    {session : Nat} {mode : Mode} (hnew : session ∉ x.holders) (ha : x.admits mode = true) :
    b.read? (.acquired handle session mode (x.grant session mode).generation) =
      some (b.put handle (x.grant session mode).holders (x.grant session mode).generation) := by
  have hholders := hb.at_handle hx
  have hcontains : (b.holders handle).contains session = false := by
    rw [hholders, ← Bool.not_eq_true]
    exact hnew
  have hgeneration : (x.grant session mode).generation = b.following handle mode := by
    unfold Board.following
    rw [hb.generation handle x hx]
    rfl
  have hadmits : ((b.holders handle).values.all fun held => held.compatible mode) = true := by
    rw [hholders]
    exact ha
  rw [Board.read?, if_pos ⟨hcontains, hadmits, hgeneration⟩, hholders]
  rfl

/-- A lock is taken from a session that holds it. -/
theorem Board.Shows.read?_released (hb : b.Shows s) (hx : s.handles.get? handle = some x)
    {session : Nat} (reason : ReleaseReason) (hheld : session ∈ x.holders) :
    b.read? (.released handle session reason) =
      some (b.put handle (x.holders.erase session) x.generation) := by
  have hholders := hb.at_handle hx
  have hcontains : (b.holders handle).contains session = true := by
    rw [hholders]
    exact hheld
  rw [Board.read?, if_pos hcontains, hholders, hb.generation handle x hx]

/-- What happens to a handle can be read off the event, if there is one. -/
theorem Board.Shows.replay?_change {c : Change ρ} (hb : b.Shows s)
    (hx : s.handles.get? handle = some x) (hwf : x.Wf) (hlt : handle < s.next)
    (hc : x.Undergoes c y) :
    ∃ b', b.replay? (c.event? handle).toList = some b' ∧ b'.Shows (s.put handle y) := by
  cases hc with
  | given alone admits opener new =>
    rename_i w
    have hnew : w.session ∉ x.holders := by
      rw [Handle.involves, Bool.or_eq_false_iff] at new
      rw [Table.mem_iff, new.1]
      exact Bool.false_ne_true
    refine ⟨_, ?_, hb.put hlt⟩
    exact (b.replay?_singleton _).trans (hb.read?_acquired hx hnew admits)
  | admitted head admits =>
    rename_i w rest
    have hnew : w.session ∉ x.holders := by
      refine hwf.waiter_not_holder w ?_
      rw [head]
      exact List.mem_cons_self
    refine ⟨_, ?_, hb.put hlt⟩
    exact (b.replay?_singleton _).trans (hb.read?_acquired hx hnew admits)
  | unlocked held =>
    refine ⟨_, ?_, hb.put hlt⟩
    exact (b.replay?_singleton _).trans (hb.read?_released hx _ held)
  | joined blocked opener new => exact ⟨b, rfl, hb.put_of_eq hx rfl rfl⟩
  | lapsed head admits => exact ⟨b, rfl, hb.put_of_eq hx rfl rfl⟩
  | withdrawn found proper => exact ⟨b, rfl, hb.put_of_eq hx rfl rfl⟩
  | opened session => exact ⟨b, rfl, hb.put_of_eq hx rfl rfl⟩
  | shut opener idle quiet => exact ⟨b, rfl, hb.put_of_eq hx rfl rfl⟩

/-- A new handle is made; nobody holds its lock. -/
theorem Board.Shows.created (hb : b.Shows s) (hwf : s.Wf) (name : String) :
    b.Shows ⟨s.handles.insert s.next (.fresh name), s.next + 1⟩ where
  holders := by
    intro j
    refine Eq.trans ?_ (Shelf.holders_put s s.next (.fresh name) j).symm
    split
    · rename_i hj
      have hnone : s.handles.get? s.next = none := by
        cases hx : s.handles.get? s.next with
        | none => rfl
        | some x => exact absurd (hwf _ x hx).2 (Nat.lt_irrefl _)
      rw [hb.holders, hj, Shelf.holders, hnone]
      rfl
    · exact hb.holders j
  generation := by
    intro j z hz
    rw [Table.get?_insert] at hz
    split at hz
    · rename_i hj
      rw [← Option.some.inj hz]
      exact hb.unused j (Nat.le_of_eq hj.symm)
    · exact hb.generation j z hz
  unused := fun j hj => hb.unused j (Nat.le_of_succ_le hj)

/-- A handle goes that nobody has open; nobody holds its lock either. -/
theorem Board.Shows.destroyed (hb : b.Shows s) (hx : s.handles.get? handle = some x) (hwf : x.Wf)
    (hunused : x.openers.isEmpty = true) : b.Shows ⟨s.handles.erase handle, s.next⟩ where
  holders := by
    intro j
    unfold Shelf.holders
    rw [Table.get?_erase]
    split
    · rename_i hj
      have hempty : x.holders = ∅ := by
        ext1 sid
        refine Table.not_mem_iff.1 fun hm => ?_
        exact Table.isEmpty_iff.1 hunused sid (hwf.holder_opener sid hm)
      rw [hj, hb.at_handle hx, hempty]
      rfl
    · exact hb.holders j
  generation := by
    intro j z hz
    rw [Table.get?_erase] at hz
    split at hz
    · cases hz
    · exact hb.generation j z hz
  unused := hb.unused

theorem Deed.Leads.replay? {d : Deed ρ} (hd : d.Leads s s') (hwf : s.Wf) (hb : b.Shows s) :
    ∃ b', b.replay? d.event?.toList = some b' ∧ b'.Shows s' := by
  cases hd with
  | on found change => exact hb.replay?_change found (hwf _ _ found).1 (hwf _ _ found).2 change
  | created name => exact ⟨b, rfl, hb.created hwf name⟩
  | destroyed found unused => exact ⟨b, rfl, hb.destroyed found (hwf _ _ found).1 unused⟩
  | turnedAway bare => exact ⟨b, rfl, hb⟩
  | ended session locks => exact ⟨b, rfl, hb⟩

/-- Whoever reads the events of a course has the locks on the board. -/
theorem Course.replay? {ds : List (Deed ρ)} (hc : Course s ds s') (hwf : s.Wf) (hb : b.Shows s) :
    ∃ b', b.replay? (ds.filterMap Deed.event?) = some b' ∧ b'.Shows s' := by
  induction hc generalizing b with
  | nil => exact ⟨b, rfl, hb⟩
  | cons first rest ih =>
    rename_i d ds
    obtain ⟨b₁, h1, hb₁⟩ := first.replay? hwf hb
    obtain ⟨b₂, h2, hb₂⟩ := ih (first.wf hwf) hb₁
    refine ⟨b₂, ?_, hb₂⟩
    rw [Deed.filterMap_cons, Board.replay?_append, h1]
    exact h2

end Shows

end LeaseLock.Coordinator
