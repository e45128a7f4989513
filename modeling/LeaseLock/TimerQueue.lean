import LeaseLock.Table
import LeaseLock.Time

/-
  LeaseLock: timers in the order of their deadlines.
  A queue holds an entry per scheduled timer, earliest first and, at equal deadlines, smallest id
  first.  Cancelling is lazy: the timer leaves `live`, its entry stays and is skipped when it comes
  to the front.  A cancel that leaves more dead entries than live ones, with some slack, drops the
  dead ones; a cancel that leaves no live timer drops all.
-/

namespace LeaseLock

/-! ## Entries -/

/-- A scheduled timer. -/
structure TimerEntry where
  /-- When the timer is due. -/
  deadline : Nat
  /-- The id of the timer. -/
  id : Nat
deriving DecidableEq, Repr

namespace TimerEntry

/-- Whether `a` comes first: the earlier deadline, then the smaller id. -/
def le (a b : TimerEntry) : Bool :=
  a.deadline < b.deadline || (a.deadline == b.deadline && a.id ≤ b.id)

theorem le_iff {a b : TimerEntry} :
    a.le b = true ↔ a.deadline < b.deadline ∨ (a.deadline = b.deadline ∧ a.id ≤ b.id) := by
  simp [le]

theorem le_trans {a b c : TimerEntry} (hab : a.le b = true) (hbc : b.le c = true) :
    a.le c = true := by
  rw [le_iff] at *
  omega

theorem le_of_not_le {a b : TimerEntry} (h : ¬ a.le b = true) : b.le a = true := by
  rw [le_iff] at *
  omega

/-- Put an entry before the first one that it precedes. -/
def place (e : TimerEntry) : List TimerEntry → List TimerEntry
  | [] => [e]
  | f :: rest => if e.le f then e :: f :: rest else f :: place e rest

theorem mem_place {e f : TimerEntry} {l : List TimerEntry} :
    f ∈ place e l ↔ f = e ∨ f ∈ l := by
  induction l with
  | nil => simp [place]
  | cons g l ih =>
    unfold place
    split
    · simp
    · simp only [List.mem_cons, ih]
      grind

theorem length_place (e : TimerEntry) (l : List TimerEntry) :
    (place e l).length = l.length + 1 := by
  induction l with
  | nil => rfl
  | cons g l ih =>
    unfold place
    split
    · rfl
    · simp [ih]

theorem place_pairwise (e : TimerEntry) {l : List TimerEntry}
    (h : l.Pairwise fun a b => a.le b = true) : (place e l).Pairwise fun a b => a.le b = true := by
  induction l with
  | nil => simp [place]
  | cons g l ih =>
    rw [List.pairwise_cons] at h
    unfold place
    split
    · rename_i he
      rw [List.pairwise_cons, List.pairwise_cons]
      refine ⟨fun f hf => ?_, h⟩
      rcases List.mem_cons.1 hf with rfl | hf
      · exact he
      · exact le_trans he (h.1 f hf)
    · rename_i he
      rw [List.pairwise_cons]
      refine ⟨fun f hf => ?_, ih h.2⟩
      rcases mem_place.1 hf with rfl | hf
      · exact le_of_not_le he
      · exact h.1 f hf

end TimerEntry

/-! ## The queue -/

/-- Timers that carry a value of type `η`. -/
structure TimerQueue (η : Type) where
  /-- An entry for every timer that is live, and for some that no longer are. -/
  entries : List TimerEntry
  /-- The timers that can still fire, by their ids. -/
  live : Table η
  /-- The id of the next timer. -/
  nextId : Nat
  /-- The entries stand in the order in which they are due. -/
  ordered : entries.Pairwise fun a b => a.le b = true

namespace TimerQueue

variable {η : Type}

/-- Dead entries that a cancel tolerates beyond one for each live timer and its entry. -/
def slack : Nat := 64

/-- The queue without timers; ids start at 1. -/
def empty : TimerQueue η := ⟨[], ∅, 1, .nil⟩

instance : Inhabited (TimerQueue η) := ⟨empty⟩

/-- The number of timers that can still fire. -/
def size (q : TimerQueue η) : Nat := q.live.size

/-- Whether no timer can fire any more. -/
def isEmpty (q : TimerQueue η) : Bool := q.live.isEmpty

/-- The number of entries, dead ones included. -/
def entryCount (q : TimerQueue η) : Nat := q.entries.length

/-- Schedule a timer; returns its id. -/
def schedule (q : TimerQueue η) (deadline : Nat) (x : η) : Nat × TimerQueue η :=
  (q.nextId,
    { entries := TimerEntry.place ⟨deadline, q.nextId⟩ q.entries
      live := q.live.insert q.nextId x
      nextId := q.nextId + 1
      ordered := TimerEntry.place_pairwise _ q.ordered })

/-- Keep the entries that satisfy `p`. -/
def keepEntries (q : TimerQueue η) (p : TimerEntry → Bool) : TimerQueue η :=
  { q with entries := q.entries.filter p, ordered := q.ordered.filter p }

/-- Drop dead entries once they outnumber the live ones by more than `slack`, and all entries once
nothing is live. -/
def compact (q : TimerQueue η) : TimerQueue η :=
  if q.live.isEmpty then q.keepEntries fun _ => false
  else if q.entries.length > 2 * q.live.size + slack then
    q.keepEntries fun e => q.live.contains e.id
  else q

/-- Cancel a timer; returns whether it could still fire. -/
def cancel (q : TimerQueue η) (id : Nat) : Bool × TimerQueue η :=
  (q.live.contains id, { q with live := q.live.erase id }.compact)

/-- Drop the dead entries at the front. -/
def prune (q : TimerQueue η) : TimerQueue η :=
  { q with
    entries := q.entries.dropWhile fun e => !q.live.contains e.id
    ordered := q.ordered.sublist (List.dropWhile_sublist _) }

/-- The earliest deadline of a live timer; drops the dead entries before it. -/
def nextDeadline (q : TimerQueue η) : Option Nat × TimerQueue η :=
  (q.prune.entries.head?.map (·.deadline), q.prune)

/-- Whether an entry is due at `now`. -/
def isDue (now : Nat) (e : TimerEntry) : Bool := e.deadline ≤ now

/-- Take out every live timer that is due at `now`, in the order of the entries; dead entries that
are due go too. -/
def popDue (q : TimerQueue η) (now : Nat) : List (Nat × η) × TimerQueue η :=
  let due := q.entries.takeWhile (isDue now)
  (due.filterMap fun e => (q.live.get? e.id).map fun x => (e.id, x),
    { q with
      entries := q.entries.dropWhile (isDue now)
      live := q.live.filterKeys fun id => !(due.any fun e => e.id == id)
      ordered := q.ordered.sublist (List.dropWhile_sublist _) })

/-- Whether some live timer is due at `now`. -/
def anyDue (q : TimerQueue η) (now : Nat) : Bool :=
  q.entries.any fun e => isDue now e && q.live.contains e.id

end TimerQueue

end LeaseLock
