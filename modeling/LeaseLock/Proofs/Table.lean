import LeaseLock.Table

/-
  LeaseLock: more rules of tables.
  Membership and lookup after each operation, commutation of storing and forgetting, and the
  listing of a table split at one of its keys (`entries_perm`), by which sums over a table are
  changed at one place.
-/

namespace LeaseLock

universe u v

namespace Table

variable {β : Type u} {γ : Type v}

/-! ## Membership -/

theorem mem_of_get? {t : Table β} {k : Nat} {x : β} (h : t.get? k = some x) : k ∈ t :=
  mem_iff_get?.2 ⟨x, h⟩

theorem not_mem_iff {t : Table β} {k : Nat} : k ∉ t ↔ t.get? k = none := by
  rw [mem_iff_get?]
  cases t.get? k <;> simp

theorem not_mem_empty (k : Nat) : k ∉ (∅ : Table β) := by
  rw [not_mem_iff]
  rfl

theorem mem_insert {t : Table β} {k j : Nat} {x : β} : j ∈ t.insert k x ↔ j = k ∨ j ∈ t := by
  rw [mem_iff_get?, mem_iff_get?, get?_insert]
  by_cases h : j = k <;> simp [h]

theorem mem_erase {t : Table β} {k j : Nat} : j ∈ t.erase k ↔ j ≠ k ∧ j ∈ t := by
  rw [mem_iff_get?, mem_iff_get?, get?_erase]
  by_cases h : j = k <;> simp [h]

theorem mem_filterKeys {t : Table β} {p : Nat → Bool} {j : Nat} :
    j ∈ t.filterKeys p ↔ p j = true ∧ j ∈ t := by
  rw [mem_iff_get?, mem_iff_get?, get?_filterKeys]
  by_cases h : p j = true <;> simp [h]

theorem mem_modify {t : Table β} {k j : Nat} {f : β → β} : j ∈ t.modify k f ↔ j ∈ t := by
  rw [mem_iff_get?, mem_iff_get?, get?_modify]
  by_cases h : j = k
  · subst h
    cases t.get? j <;> simp
  · simp [h]

theorem contains_modify (t : Table β) (k j : Nat) (f : β → β) :
    (t.modify k f).contains j = t.contains j := by
  rw [Bool.eq_iff_iff]
  exact mem_modify

theorem isEmpty_iff {t : Table β} : t.isEmpty = true ↔ ∀ k, k ∉ t := by
  unfold isEmpty
  rw [List.isEmpty_iff]
  constructor
  · intro h k hk
    obtain ⟨x, hx⟩ := mem_iff_get?.1 hk
    have hm := mem_entries_iff.2 hx
    rw [h] at hm
    cases hm
  · intro h
    rw [List.eq_nil_iff_forall_not_mem]
    rintro ⟨k, x⟩ hm
    exact h k (mem_of_get? (mem_entries_iff.1 hm))

theorem isEmpty_eq_false_iff {t : Table β} : t.isEmpty = false ↔ ∃ k, k ∈ t := by
  rw [← Bool.not_eq_true, isEmpty_iff]
  simp

/-! ## Lookup -/

theorem find_filter_pair (p : Nat → β → Bool) (k : Nat) {l : List (Nat × β)}
    (h : l.Pairwise fun a b => a.1 < b.1) :
    find k (l.filter fun e => p e.1 e.2) = (find k l).filter (p k) := by
  induction l with
  | nil => rfl
  | cons hd tl ih =>
    obtain ⟨a, b⟩ := hd
    rw [List.pairwise_cons] at h
    have ih := ih h.2
    by_cases ha : a = k
    · subst ha
      have hn : find a tl = none := find_eq_none_of_lt h.1
      rw [hn] at ih
      by_cases hp : p a b = true
      · simp [find, hp, Option.filter]
      · simpa [find, hp, Option.filter] using ih
    · by_cases hp : p a b = true <;> simp [find, hp, ha, ih]

theorem get?_filter (t : Table β) (p : Nat → β → Bool) (k : Nat) :
    (t.filter p).get? k = (t.get? k).filter (p k) :=
  find_filter_pair p k t.ascending

theorem all_values_iff {t : Table β} {p : β → Bool} :
    t.values.all p = true ↔ ∀ k x, t.get? k = some x → p x = true := by
  rw [values, List.all_eq_true]
  constructor
  · intro h k x hx
    exact h x (List.mem_map.2 ⟨(k, x), mem_entries_iff.2 hx, rfl⟩)
  · intro h x hx
    obtain ⟨⟨k, y⟩, hm, rfl⟩ := List.mem_map.1 hx
    exact h k y (mem_entries_iff.1 hm)

/-! ## Two operations in a row -/

theorem insert_insert (t : Table β) (k : Nat) (x y : β) :
    (t.insert k x).insert k y = t.insert k y := by
  ext1 j
  rw [get?_insert, get?_insert, get?_insert]
  split <;> rfl

theorem insert_get? {t : Table β} {k : Nat} {x : β} (h : t.get? k = some x) :
    t.insert k x = t := by
  ext1 j
  rw [get?_insert]
  split
  · subst_vars
    exact h.symm
  · rfl

theorem erase_insert (t : Table β) (k : Nat) (x : β) : (t.insert k x).erase k = t.erase k := by
  ext1 j
  rw [get?_erase, get?_erase, get?_insert]
  split <;> rfl

theorem insert_erase (t : Table β) (k : Nat) (x : β) : (t.erase k).insert k x = t.insert k x := by
  ext1 j
  rw [get?_insert, get?_insert, get?_erase]
  split <;> rfl

theorem filterKeys_insert {t : Table β} {p : Nat → Bool} {k : Nat} {x : β} (h : p k = true) :
    (t.insert k x).filterKeys p = (t.filterKeys p).insert k x := by
  ext1 j
  rw [get?_filterKeys, get?_insert, get?_insert, get?_filterKeys]
  by_cases hj : j = k
  · subst hj
    simp [h]
  · simp [hj]

theorem filterKeys_filterKeys (t : Table β) (p q : Nat → Bool) :
    (t.filterKeys p).filterKeys q = t.filterKeys fun k => p k && q k := by
  ext1 j
  simp only [get?_filterKeys]
  by_cases hp : p j = true <;> by_cases hq : q j = true <;> simp [hp, hq]

/-! ## Listing -/

theorem nodup_keys (t : Table β) : t.keys.Nodup := by
  unfold List.Nodup
  exact t.keys_ascending.imp fun h => Nat.ne_of_lt h

theorem keys_filterKeys (t : Table β) (p : Nat → Bool) :
    (t.filterKeys p).keys = t.keys.filter p := by
  unfold keys filterKeys
  rw [List.filter_map]
  rfl

/-- The listing of a table, split at one of its keys. -/
theorem entries_perm {t : Table β} {k : Nat} {x : β} (h : t.get? k = some x) :
    t.entries.Perm ((k, x) :: (t.erase k).entries) := by
  have nodup : ∀ s : Table β, s.entries.Nodup := fun s =>
    s.ascending.imp fun hlt heq => by rw [heq] at hlt; exact Nat.lt_irrefl _ hlt
  rw [List.perm_ext_iff_of_nodup (nodup t)]
  · rintro ⟨j, y⟩
    rw [List.mem_cons, mem_entries_iff, mem_entries_iff, get?_erase, Prod.mk.injEq]
    by_cases hj : j = k
    · subst hj
      simp [h, eq_comm]
    · simp [hj]
  · rw [List.nodup_cons]
    refine ⟨?_, nodup _⟩
    rw [mem_entries_iff, get?_erase_self]
    simp

theorem erase_of_none {t : Table β} {k : Nat} (h : t.get? k = none) : t.erase k = t := by
  ext1 j
  rw [get?_erase]
  split
  · subst_vars
    exact h.symm
  · rfl

/-- The listing of a table in which something has been stored. -/
theorem entries_insert_perm (t : Table β) (k : Nat) (x : β) :
    (t.insert k x).entries.Perm ((k, x) :: (t.erase k).entries) := by
  rw [← erase_insert t k x]
  exact entries_perm (get?_insert_self t k x)

theorem countP_insert_of_none {t : Table β} {k : Nat} (h : t.get? k = none) (x : β)
    (q : Nat × β → Bool) :
    (t.insert k x).entries.countP q = t.entries.countP q + if q (k, x) then 1 else 0 := by
  rw [(entries_insert_perm t k x).countP_eq, erase_of_none h, List.countP_cons]

theorem countP_erase_of_some {t : Table β} {k : Nat} {x : β} (h : t.get? k = some x)
    (q : Nat × β → Bool) :
    (t.erase k).entries.countP q + (if q (k, x) then 1 else 0) = t.entries.countP q := by
  rw [(entries_perm h).countP_eq, List.countP_cons]

/-- What is stored anew counts as much as what was stored before. -/
theorem countP_insert_of_some {t : Table β} {k : Nat} {x y : β} (h : t.get? k = some x)
    {q : Nat × β → Bool} (hq : q (k, y) = q (k, x)) :
    (t.insert k y).entries.countP q = t.entries.countP q := by
  rw [(entries_insert_perm t k y).countP_eq, List.countP_cons, hq, countP_erase_of_some h]

theorem size_insert_of_none {t : Table β} {k : Nat} (h : t.get? k = none) (x : β) :
    (t.insert k x).size = t.size + 1 := by
  have hlength := (entries_insert_perm t k x).length_eq
  rw [erase_of_none h] at hlength
  exact hlength

theorem size_erase_of_some {t : Table β} {k : Nat} {x : β} (h : t.get? k = some x) :
    (t.erase k).size + 1 = t.size := (entries_perm h).length_eq.symm

theorem size_insert_of_some {t : Table β} {k : Nat} {x : β} (h : t.get? k = some x) (y : β) :
    (t.insert k y).size = t.size :=
  ((entries_insert_perm t k y).length_eq).trans (size_erase_of_some h)

end Table

/-! ## Sets of identifiers -/

namespace IdSet

/-- A set is determined by its members. -/
theorem ext {s t : IdSet} (h : ∀ k, k ∈ s ↔ k ∈ t) : s = t := by
  ext1 k
  have hk := h k
  rw [Table.mem_iff_get?, Table.mem_iff_get?] at hk
  cases hs : s.get? k <;> cases ht : t.get? k <;> simp_all

theorem not_mem_empty (k : Nat) : k ∉ IdSet.empty := Table.not_mem_empty k

end IdSet

end LeaseLock
