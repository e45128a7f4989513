/-
  LeaseLock: finite maps from numbers.
  A `Table` is a list of key-value pairs in strictly ascending key order, so a table is determined
  by its lookups (`Table.ext`) and listing it yields the keys in order.  `IdSet` is a table
  without values.  The rules are one lemma per operation, stated on `get?`.
-/

namespace LeaseLock

universe u v

/-- A finite map from `Nat`, kept in ascending order of the keys. -/
structure Table (β : Type u) where
  /-- The pairs, in ascending order of their keys. -/
  entries : List (Nat × β)
  /-- No key stands twice, and a smaller key stands first. -/
  ascending : entries.Pairwise fun a b => a.1 < b.1

namespace Table

variable {β : Type u} {γ : Type v}

/-! ## Sorted association lists -/

/-- The value stored under `k`. -/
def find (k : Nat) : List (Nat × β) → Option β
  | [] => none
  | (a, b) :: rest => if a = k then some b else find k rest

/-- Store `x` under `k`, before the first larger key and in place of an equal one. -/
def place (k : Nat) (x : β) : List (Nat × β) → List (Nat × β)
  | [] => [(k, x)]
  | (a, b) :: rest =>
    if k < a then (k, x) :: (a, b) :: rest
    else if k = a then (k, x) :: rest
    else (a, b) :: place k x rest

theorem mem_place {k : Nat} {x : β} {p : Nat × β} {l : List (Nat × β)} (h : p ∈ place k x l) :
    p = (k, x) ∨ p ∈ l := by
  induction l with
  | nil => simpa [place] using h
  | cons hd tl ih =>
    unfold place at h
    split at h
    · simp_all
    · split at h <;> grind

theorem place_pairwise (k : Nat) (x : β) {l : List (Nat × β)}
    (h : l.Pairwise fun a b => a.1 < b.1) : (place k x l).Pairwise fun a b => a.1 < b.1 := by
  induction l with
  | nil => simp [place]
  | cons hd tl ih =>
    obtain ⟨a, b⟩ := hd
    rw [List.pairwise_cons] at h
    unfold place
    split
    · rename_i hk
      rw [List.pairwise_cons, List.pairwise_cons]
      refine ⟨fun p hp => ?_, h⟩
      rcases List.mem_cons.1 hp with rfl | hp
      · exact hk
      · exact Nat.lt_trans hk (h.1 p hp)
    · split
      · rename_i hk
        subst hk
        rw [List.pairwise_cons]
        exact h
      · rw [List.pairwise_cons]
        refine ⟨fun p hp => ?_, ih h.2⟩
        rcases mem_place hp with rfl | hp
        · simp only; omega
        · exact h.1 p hp

theorem find_place (k j : Nat) (x : β) (l : List (Nat × β))
    (h : l.Pairwise fun a b => a.1 < b.1) :
    find j (place k x l) = if j = k then some x else find j l := by
  induction l with
  | nil => simp [place, find, eq_comm]
  | cons hd tl ih =>
    obtain ⟨a, b⟩ := hd
    have ih := ih (List.pairwise_cons.1 h).2
    unfold place
    split
    · simp only [find, eq_comm]
    · split
      · rename_i hk
        subst hk
        by_cases hj : j = k
        · simp [find, hj]
        · simp [find, Ne.symm hj, hj]
      · simp only [find, ih]
        by_cases hj : a = j
        · subst hj
          have : ¬ a = k := by omega
          simp [this]
        · simp [hj]

theorem find_filter (p : Nat → Bool) (k : Nat) (l : List (Nat × β)) :
    find k (l.filter fun e => p e.1) = if p k then find k l else none := by
  induction l with
  | nil => simp [find]
  | cons hd tl ih =>
    obtain ⟨a, b⟩ := hd
    by_cases hp : p a <;> by_cases ha : a = k <;> simp_all [find]

theorem find_eq_none_of_lt {k : Nat} {l : List (Nat × β)} (h : ∀ p ∈ l, k < p.1) :
    find k l = none := by
  induction l with
  | nil => rfl
  | cons hd tl ih =>
    have h1 := h hd (by simp)
    have : ¬ hd.1 = k := by omega
    simp only [find, this, if_false]
    exact ih fun p hp => h p (by simp [hp])

theorem find_eq_some_iff {k : Nat} {x : β} {l : List (Nat × β)}
    (h : l.Pairwise fun a b => a.1 < b.1) : find k l = some x ↔ (k, x) ∈ l := by
  induction l with
  | nil => simp [find]
  | cons hd tl ih =>
    obtain ⟨a, b⟩ := hd
    rw [List.pairwise_cons] at h
    by_cases ha : a = k
    · subst ha
      simp only [find, if_true, Option.some.injEq, List.mem_cons, Prod.mk.injEq, true_and]
      constructor
      · intro hb
        exact .inl hb.symm
      · rintro (hb | hm)
        · exact hb.symm
        · exact absurd (h.1 _ hm) (Nat.lt_irrefl _)
    · simp [find, ha, ih h.2, Ne.symm ha]

theorem eq_of_find_eq {l m : List (Nat × β)} (hl : l.Pairwise fun a b => a.1 < b.1)
    (hm : m.Pairwise fun a b => a.1 < b.1) (h : ∀ k, find k l = find k m) : l = m := by
  induction l generalizing m with
  | nil =>
    cases m with
    | nil => rfl
    | cons hd tl =>
      have := h hd.1
      simp [find] at this
  | cons x l ih =>
    obtain ⟨a, b⟩ := x
    cases m with
    | nil =>
      have := h a
      simp [find] at this
    | cons y m =>
      obtain ⟨c, d⟩ := y
      rw [List.pairwise_cons] at hl hm
      have hac : a = c := by
        rcases Nat.lt_trichotomy a c with hlt | heq | hgt
        · have := h a
          have hc : ¬ c = a := by omega
          rw [find, find, if_pos rfl, if_neg hc,
            find_eq_none_of_lt fun p hp => Nat.lt_trans hlt (hm.1 p hp)] at this
          exact absurd this (by simp)
        · exact heq
        · have := h c
          have hc : ¬ a = c := by omega
          rw [find, find, if_pos rfl, if_neg hc,
            find_eq_none_of_lt fun p hp => Nat.lt_trans hgt (hl.1 p hp)] at this
          exact absurd this (by simp)
      subst hac
      have hbd : b = d := by
        have := h a
        simpa [find] using this
      subst hbd
      congr 1
      refine ih hl.2 hm.2 fun k => ?_
      by_cases hk : a = k
      · subst hk
        rw [find_eq_none_of_lt hl.1, find_eq_none_of_lt hm.1]
      · have := h k
        simpa [find, hk] using this

/-! ## Tables -/

/-- The table without entries. -/
def empty : Table β := ⟨[], .nil⟩

instance : EmptyCollection (Table β) := ⟨empty⟩

instance : Inhabited (Table β) := ⟨empty⟩

/-- The value stored under `k`. -/
def get? (t : Table β) (k : Nat) : Option β := find k t.entries

/-- Whether something is stored under `k`. -/
def contains (t : Table β) (k : Nat) : Bool := (t.get? k).isSome

instance : Membership Nat (Table β) := ⟨fun t k => t.contains k = true⟩

/-- Store `x` under `k`, in place of what was stored there. -/
def insert (t : Table β) (k : Nat) (x : β) : Table β :=
  ⟨place k x t.entries, place_pairwise k x t.ascending⟩

/-- Keep the entries whose key satisfies `p`. -/
def filterKeys (t : Table β) (p : Nat → Bool) : Table β :=
  ⟨t.entries.filter fun e => p e.1, t.ascending.filter _⟩

/-- Keep the entries that satisfy `p`. -/
def filter (t : Table β) (p : Nat → β → Bool) : Table β :=
  ⟨t.entries.filter fun e => p e.1 e.2, t.ascending.filter _⟩

/-- Forget what is stored under `k`. -/
def erase (t : Table β) (k : Nat) : Table β := t.filterKeys fun j => j != k

/-- Replace what is stored under `k`, if anything is, by its image. -/
def modify (t : Table β) (k : Nat) (f : β → β) : Table β :=
  match t.get? k with
  | some x => t.insert k (f x)
  | none => t

/-- Apply a function to every value. -/
def map (t : Table β) (f : Nat → β → γ) : Table γ :=
  ⟨t.entries.map fun e => (e.1, f e.1 e.2), by
    rw [List.pairwise_map]
    exact t.ascending⟩

/-- The keys in ascending order. -/
def keys (t : Table β) : List Nat := t.entries.map (·.1)

/-- The values in ascending order of their keys. -/
def values (t : Table β) : List β := t.entries.map (·.2)

/-- The number of entries. -/
def size (t : Table β) : Nat := t.entries.length

/-- Whether there is no entry. -/
def isEmpty (t : Table β) : Bool := t.entries.isEmpty

instance [DecidableEq β] : DecidableEq (Table β) := fun s t =>
  decidable_of_iff (s.entries = t.entries) ⟨fun h => by
    cases s; cases t; simp_all, fun h => h ▸ rfl⟩

@[ext] theorem ext {s t : Table β} (h : ∀ k, s.get? k = t.get? k) : s = t := by
  obtain ⟨l, hl⟩ := s
  obtain ⟨m, hm⟩ := t
  have : l = m := eq_of_find_eq hl hm h
  subst this
  rfl

@[simp] theorem get?_empty (k : Nat) : (∅ : Table β).get? k = none := rfl

theorem get?_insert (t : Table β) (k j : Nat) (x : β) :
    (t.insert k x).get? j = if j = k then some x else t.get? j :=
  find_place k j x t.entries t.ascending

@[simp] theorem get?_insert_self (t : Table β) (k : Nat) (x : β) :
    (t.insert k x).get? k = some x := by
  simp [get?_insert]

theorem get?_insert_of_ne (t : Table β) {k j : Nat} (x : β) (h : j ≠ k) :
    (t.insert k x).get? j = t.get? j := by
  simp [get?_insert, h]

theorem get?_filterKeys (t : Table β) (p : Nat → Bool) (k : Nat) :
    (t.filterKeys p).get? k = if p k then t.get? k else none :=
  find_filter p k t.entries

theorem get?_erase (t : Table β) (k j : Nat) :
    (t.erase k).get? j = if j = k then none else t.get? j := by
  rw [erase, get?_filterKeys]
  by_cases h : j = k <;> simp [h]

@[simp] theorem get?_erase_self (t : Table β) (k : Nat) : (t.erase k).get? k = none := by
  simp [get?_erase]

theorem get?_erase_of_ne (t : Table β) {k j : Nat} (h : j ≠ k) :
    (t.erase k).get? j = t.get? j := by
  simp [get?_erase, h]

theorem get?_modify (t : Table β) (k j : Nat) (f : β → β) :
    (t.modify k f).get? j = if j = k then (t.get? k).map f else t.get? j := by
  unfold modify
  split
  · rename_i x hx
    rw [get?_insert, hx]
    rfl
  · rename_i hx
    by_cases h : j = k
    · simp [h, hx]
    · simp [h]

theorem get?_map (t : Table β) (f : Nat → β → γ) (k : Nat) :
    (t.map f).get? k = (t.get? k).map (f k) := by
  obtain ⟨l, hl⟩ := t
  simp only [map, get?]
  clear hl
  induction l with
  | nil => rfl
  | cons hd tl ih =>
    obtain ⟨a, b⟩ := hd
    by_cases h : a = k
    · subst h; simp [find]
    · simp only [List.map_cons, find, h, if_false, ih]

theorem mem_entries_iff {t : Table β} {k : Nat} {x : β} :
    (k, x) ∈ t.entries ↔ t.get? k = some x :=
  (find_eq_some_iff t.ascending).symm

theorem mem_iff {t : Table β} {k : Nat} : k ∈ t ↔ t.contains k = true := .rfl

theorem mem_iff_get? {t : Table β} {k : Nat} : k ∈ t ↔ ∃ x, t.get? k = some x := by
  rw [mem_iff, contains, Option.isSome_iff_exists]

theorem mem_keys_iff {t : Table β} {k : Nat} : k ∈ t.keys ↔ k ∈ t := by
  simp only [keys, List.mem_map, mem_iff_get?]
  constructor
  · rintro ⟨⟨a, b⟩, hm, rfl⟩
    exact ⟨b, mem_entries_iff.1 hm⟩
  · rintro ⟨x, hx⟩
    exact ⟨(k, x), mem_entries_iff.2 hx, rfl⟩

theorem keys_ascending (t : Table β) : t.keys.Pairwise (· < ·) := by
  rw [keys, List.pairwise_map]
  exact t.ascending

instance (t : Table β) (k : Nat) : Decidable (k ∈ t) := inferInstanceAs (Decidable (_ = true))

end Table

/-! ## Sets of identifiers -/

/-- A finite set of identifiers. -/
abbrev IdSet := Table Unit

namespace IdSet

/-- The set without members. -/
def empty : IdSet := Table.empty

/-- The set with one more member. -/
def add (s : IdSet) (k : Nat) : IdSet := s.insert k ()

/-- The members in ascending order. -/
def toList (s : IdSet) : List Nat := s.keys

theorem mem_add {s : IdSet} {k j : Nat} : j ∈ s.add k ↔ j = k ∨ j ∈ s := by
  simp only [add, Table.mem_iff_get?, Table.get?_insert]
  by_cases h : j = k <;> simp [h]

theorem mem_erase {s : IdSet} {k j : Nat} : j ∈ s.erase k ↔ j ≠ k ∧ j ∈ s := by
  simp only [Table.mem_iff_get?, Table.get?_erase]
  by_cases h : j = k <;> simp [h]

theorem mem_toList {s : IdSet} {k : Nat} : k ∈ s.toList ↔ k ∈ s := Table.mem_keys_iff

end IdSet

end LeaseLock
