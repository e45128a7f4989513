/-
  LeaseLock: the book of leases.
  A book says which session ids have been given out and when each running lease ends.  A session
  begins, a lease is renewed, a session is closed, or an id is used up for a session that cannot
  begin (`Entry`).  `Pages` leads from one book to another by entries.  `Follows` is what entries
  cannot do, whichever they are: no end of a lease is moved forward, a lease that has ended is not
  started again, and an id that has been given out is not given out again.
-/

namespace LeaseLock.Tenure

/-! ## Entries and books -/

/-- Something that happens to a lease. -/
inductive Entry where
  /-- A session begins, and its lease with it. -/
  | created (id now : Nat)
  /-- A lease starts anew. -/
  | renewed (id now : Nat)
  /-- A session is closed. -/
  | closed (id : Nat)
  /-- An id is used up, and no session begins. -/
  | skipped
deriving DecidableEq

namespace Entry

/-- When it happens, if a lease is started. -/
def time? : Entry → Option Nat
  | created _ now => some now
  | renewed _ now => some now
  | closed _ => none
  | skipped => none

/-- The id that is given out. -/
def issued? : Entry → Option Nat
  | created id _ => some id
  | renewed _ _ => none
  | closed _ => none
  | skipped => none

/-- When the lease of a session has been started last, given when that was before the entry;
`none` if the session is not open. -/
def started? (id : Nat) (before : Option Nat) : Entry → Option Nat
  | created j now => if j = id then some now else before
  | renewed j now => if j = id then some now else before
  | closed j => if j = id then none else before
  | skipped => before

end Entry

/-- When the lease of a session has been started last, if the session is open. -/
def lastStart? (id : Nat) (entries : List Entry) : Option Nat :=
  entries.foldl (Entry.started? id) none

/-- The ids that have been given out, in the order in which that has been done. -/
def issued (entries : List Entry) : List Nat := entries.filterMap Entry.issued?

/-- When leases end. -/
structure Book where
  /-- The length of a lease. -/
  lease : Nat
  /-- The next id; all smaller ones have been given out. -/
  next : Nat
  /-- When the lease of each open session ends. -/
  ends : Nat → Option Nat

namespace Book

/-- The book with another end for one lease. -/
def set (b : Book) (id : Nat) (expiry : Option Nat) : Book :=
  { b with ends := fun j => if j = id then expiry else b.ends j }

/-- Open sessions have ids that have been given out. -/
def Wf (b : Book) : Prop := ∀ id expiry, b.ends id = some expiry → id < b.next

/-- No lease ends later than one that starts now. -/
def EndsBy (b : Book) (now : Nat) : Prop :=
  ∀ id expiry, b.ends id = some expiry → expiry ≤ now + b.lease

/-- One entry leads from a book to another. -/
inductive Reads (b : Book) : Entry → Book → Prop
  | created (now : Nat) :
      b.Reads (.created b.next now) { b.set b.next (some (now + b.lease)) with next := b.next + 1 }
  | renewed {id expiry now : Nat} (found : b.ends id = some expiry) (live : now < expiry) :
      b.Reads (.renewed id now) (b.set id (some (now + b.lease)))
  | closed {id expiry : Nat} (found : b.ends id = some expiry) :
      b.Reads (.closed id) (b.set id none)
  | skipped : b.Reads .skipped { b with next := b.next + 1 }

/-- Entries lead from a book to another. -/
inductive Pages : Book → List Entry → Book → Prop
  | nil (b : Book) : Pages b [] b
  | cons {b b' b'' : Book} {e : Entry} {rest : List Entry} (first : b.Reads e b')
      (later : Pages b' rest b'') : Pages b (e :: rest) b''

/-- A book after another one, between which nothing has happened before `now`. -/
structure Follows (now : Nat) (b b' : Book) : Prop where
  lease : b'.lease = b.lease
  next : b.next ≤ b'.next
  /-- Whatever session is open that had its id before was open before; its lease ends no earlier
  than it did, and if it was to end by now, it ends when it did. -/
  older : ∀ id expiry', id < b.next → b'.ends id = some expiry' →
    ∃ expiry, b.ends id = some expiry ∧ expiry ≤ expiry' ∧ (expiry ≤ now → expiry' = expiry)

variable {b b' b'' : Book} {e : Entry} {entries rest : List Entry} {id now now' : Nat}

/-! ## One entry -/

theorem ends_set (b : Book) (id : Nat) (expiry : Option Nat) (j : Nat) :
    (b.set id expiry).ends j = if j = id then expiry else b.ends j := rfl

theorem EndsBy.mono (h : b.EndsBy now) (hle : now ≤ now') : b.EndsBy now' := fun id expiry he =>
  Nat.le_trans (h id expiry he) (Nat.add_le_add_right hle _)

namespace Reads

theorem lease (hr : b.Reads e b') : b'.lease = b.lease := by
  cases hr <;> rfl

theorem next_le (hr : b.Reads e b') : b.next ≤ b'.next := by
  cases hr with
  | created => exact Nat.le_succ _
  | renewed => exact Nat.le_refl _
  | closed => exact Nat.le_refl _
  | skipped => exact Nat.le_succ _

theorem wf (hr : b.Reads e b') (hb : b.Wf) : b'.Wf := by
  intro id expiry he
  cases hr with
  | created now =>
    rw [ends_set] at he
    split at he
    · rename_i hid
      exact hid ▸ Nat.lt_succ_self _
    · exact Nat.lt_succ_of_lt (hb id expiry he)
  | renewed found live =>
    rw [ends_set] at he
    split at he
    · rename_i hid
      subst hid
      exact hb _ _ found
    · exact hb id expiry he
  | closed found =>
    rw [ends_set] at he
    split at he
    · cases he
    · exact hb id expiry he
  | skipped => exact Nat.lt_succ_of_lt (hb id expiry he)

/-- A lease that starts now ends last. -/
theorem endsBy (hr : b.Reads e b') (hb : b.EndsBy now) (ht : ∀ t, e.time? = some t → t = now) :
    b'.EndsBy now := by
  intro id expiry he
  rw [hr.lease]
  cases hr with
  | created t =>
    rw [ends_set] at he
    split at he
    · cases he
      exact Nat.le_of_eq (by rw [ht t rfl])
    · exact hb id expiry he
  | renewed found live =>
    rename_i j old t
    rw [ends_set] at he
    split at he
    · cases he
      exact Nat.le_of_eq (by rw [ht t rfl])
    · exact hb id expiry he
  | closed found =>
    rw [ends_set] at he
    split at he
    · cases he
    · exact hb id expiry he
  | skipped => exact hb id expiry he

theorem follows (hr : b.Reads e b') (hends : b.EndsBy now)
    (ht : ∀ t, e.time? = some t → t = now) : Follows now b b' := by
  refine ⟨hr.lease, hr.next_le, fun id expiry' hused he => ?_⟩
  cases hr with
  | created t =>
    rw [ends_set, if_neg (Nat.ne_of_lt hused)] at he
    exact ⟨expiry', he, Nat.le_refl _, fun _ => rfl⟩
  | renewed found live =>
    rename_i j old t
    obtain rfl : t = now := ht t rfl
    rw [ends_set] at he
    split at he
    · rename_i hid
      subst hid
      cases he
      have hle := hends _ _ found
      exact ⟨old, found, hle, fun hover => absurd hover (Nat.not_le.2 live)⟩
    · exact ⟨expiry', he, Nat.le_refl _, fun _ => rfl⟩
  | closed found =>
    rw [ends_set] at he
    split at he
    · cases he
    · exact ⟨expiry', he, Nat.le_refl _, fun _ => rfl⟩
  | skipped => exact ⟨expiry', he, Nat.le_refl _, fun _ => rfl⟩

/-- A lease ends one lease after it has been started last. -/
theorem ends (hr : b.Reads e b') {start : Option Nat} (hs : b.ends id = start.map (· + b.lease)) :
    b'.ends id = (e.started? id start).map (· + b'.lease) := by
  rw [hr.lease]
  cases hr with
  | created t =>
    rw [ends_set, Entry.started?]
    simp only [eq_comm (a := id)]
    split
    · rfl
    · exact hs
  | renewed found live =>
    rw [ends_set, Entry.started?]
    simp only [eq_comm (a := id)]
    split
    · rfl
    · exact hs
  | closed found =>
    rw [ends_set, Entry.started?]
    simp only [eq_comm (a := id)]
    split
    · rfl
    · exact hs
  | skipped => exact hs

/-- A lease that has been renewed ends one lease later. -/
theorem ends_of_renewed (hr : b.Reads (.renewed id now) b') :
    b'.ends id = some (now + b.lease) := by
  cases hr with
  | renewed found live => exact if_pos rfl

/-- An id that has been given out and whose session is not open stays so. -/
theorem absent (hr : b.Reads e b') (hused : id < b.next) (hnone : b.ends id = none) :
    b'.ends id = none := by
  cases hr with
  | created t => rw [ends_set, if_neg (Nat.ne_of_lt hused), hnone]
  | renewed found live =>
    rw [ends_set, if_neg, hnone]
    rintro rfl
    rw [hnone] at found
    cases found
  | closed found => rw [ends_set, hnone, ite_self]
  | skipped => exact hnone

/-- A session stays open unless it is closed. -/
theorem stays (hr : b.Reads e b') (hne : e ≠ .closed id) (hopen : b.ends id ≠ none) :
    b'.ends id ≠ none := by
  cases hr with
  | created t =>
    rw [ends_set]
    split
    · exact Option.some_ne_none _
    · exact hopen
  | renewed found live =>
    rw [ends_set]
    split
    · exact Option.some_ne_none _
    · exact hopen
  | closed found =>
    rw [ends_set, if_neg]
    · exact hopen
    · rintro rfl
      exact hne rfl
  | skipped => exact hopen

end Reads

/-! ## Many entries -/

namespace Follows

theorem refl (now : Nat) (b : Book) : Follows now b b :=
  ⟨rfl, Nat.le_refl _, fun _ expiry _ he => ⟨expiry, he, Nat.le_refl _, fun _ => rfl⟩⟩

theorem trans (h : Follows now b b') (h' : Follows now' b' b'') (hle : now ≤ now') :
    Follows now b b'' where
  lease := h'.lease.trans h.lease
  next := Nat.le_trans h.next h'.next
  older := by
    intro id expiry'' hused he
    have hused' : id < b'.next := Nat.lt_of_lt_of_le hused h.next
    obtain ⟨expiry', he', hle', hfixed'⟩ := h'.older id expiry'' hused' he
    obtain ⟨expiry, he, hle, hfixed⟩ := h.older id expiry' hused he'
    refine ⟨expiry, he, Nat.le_trans hle hle', fun hover => ?_⟩
    have hsame := hfixed hover
    rw [hfixed' (by omega), hsame]

theorem mono (h : Follows now' b b') (hle : now ≤ now') : Follows now b b' :=
  (refl now b).trans h hle

end Follows

namespace Pages

theorem single (hr : b.Reads e b') : Pages b [e] b' := .cons hr (.nil b')

theorem eq_of_nil (hp : Pages b [] b') : b' = b := by
  cases hp
  rfl

theorem append (hp : Pages b entries b') (hp' : Pages b' rest b'') :
    Pages b (entries ++ rest) b'' := by
  induction hp with
  | nil => exact hp'
  | cons first later ih => exact .cons first (ih hp')

theorem lease (hp : Pages b entries b') : b'.lease = b.lease := by
  induction hp with
  | nil => rfl
  | cons first later ih => exact ih.trans first.lease

theorem wf (hp : Pages b entries b') (hb : b.Wf) : b'.Wf := by
  induction hp with
  | nil => exact hb
  | cons first later ih => exact ih (first.wf hb)

/-- What entries that are all made at one instant lead to. -/
theorem follows (hp : Pages b entries b') (hends : b.EndsBy now)
    (ht : ∀ e ∈ entries, ∀ t, e.time? = some t → t = now) :
    Follows now b b' ∧ b'.EndsBy now := by
  induction hp with
  | nil => exact ⟨.refl now _, hends⟩
  | cons first later ih =>
    have hfirst := ht _ List.mem_cons_self
    have hlater := ih (first.endsBy hends hfirst) fun e he => ht e (List.mem_cons_of_mem _ he)
    exact ⟨(first.follows hends hfirst).trans hlater.1 (Nat.le_refl _), hlater.2⟩

theorem ends (hp : Pages b entries b') (id : Nat) (start : Option Nat)
    (hs : b.ends id = start.map (· + b.lease)) :
    b'.ends id = (entries.foldl (Entry.started? id) start).map (· + b'.lease) := by
  induction hp generalizing start with
  | nil => exact hs
  | cons first later ih => exact ih _ (first.ends hs)

theorem next_le (hp : Pages b entries b') : b.next ≤ b'.next := by
  induction hp with
  | nil => exact Nat.le_refl _
  | cons first later ih => exact Nat.le_trans first.next_le ih

theorem absent (hp : Pages b entries b') (hused : id < b.next) (hnone : b.ends id = none) :
    b'.ends id = none := by
  induction hp with
  | nil => exact hnone
  | cons first later ih =>
    exact ih (Nat.lt_of_lt_of_le hused first.next_le) (first.absent hused hnone)

theorem stays (hp : Pages b entries b') (id : Nat) (hnot : .closed id ∉ entries)
    (hopen : b.ends id ≠ none) : b'.ends id ≠ none := by
  induction hp with
  | nil => exact hopen
  | cons first later ih =>
    rw [List.mem_cons, not_or] at hnot
    exact ih hnot.2 (first.stays (Ne.symm hnot.1) hopen)

/-- A session that has been closed is not open any more, and its id has been given out. -/
theorem closed (hp : Pages b entries b') (hb : b.Wf) (hm : .closed id ∈ entries) :
    b'.ends id = none ∧ id < b'.next := by
  induction hp with
  | nil => cases hm
  | cons first later ih =>
    rcases List.mem_cons.1 hm with heq | hm
    · subst heq
      have hnext := first.next_le
      cases first with
      | closed found =>
        have hused := hb _ _ found
        have hnone := later.absent hused (by rw [ends_set, if_pos rfl])
        exact ⟨hnone, Nat.lt_of_lt_of_le hused later.next_le⟩
    · exact ih (first.wf hb) hm

/-- Ids are given out in ascending order, and only new ones. -/
theorem issued (hp : Pages b entries b') :
    (Tenure.issued entries).Pairwise (· < ·) ∧ ∀ id ∈ Tenure.issued entries, b.next ≤ id := by
  induction hp with
  | nil => exact ⟨.nil, fun _ hm => nomatch hm⟩
  | cons first later ih =>
    have hnext := first.next_le
    unfold Tenure.issued at ih ⊢
    cases first with
    | created now =>
      refine ⟨List.pairwise_cons.2 ⟨fun id hid => ih.2 id hid, ih.1⟩, fun id hid => ?_⟩
      rcases List.mem_cons.1 hid with rfl | hid
      · exact Nat.le_refl _
      · exact Nat.le_trans hnext (ih.2 id hid)
    | renewed found live => exact ih
    | closed found => exact ih
    | skipped => exact ⟨ih.1, fun id hid => Nat.le_trans hnext (ih.2 id hid)⟩

end Pages

end Book

end LeaseLock.Tenure
