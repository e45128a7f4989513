import LeaseLock.Session
import LeaseLock.Proofs.Table

/-
  LeaseLock: what the registry records.
  `Sessions.Opened` and `Sessions.Held` read the registry as two relations between sessions and
  handles; each change of a record is one rule for either.  `Sessions.SameButHeld` is the frame of
  changes that concern locks only.
-/

namespace LeaseLock.Sessions

variable {r r' r'' : Sessions} {id sid handle j : Nat}

/-- A registered session has a handle open. -/
def Opened (r : Sessions) (sid handle : Nat) : Prop :=
  ∃ o, r.get? sid = some o ∧ handle ∈ o.opened

/-- A registered session is recorded as a holder of a lock. -/
def Held (r : Sessions) (sid handle : Nat) : Prop :=
  ∃ o, r.get? sid = some o ∧ handle ∈ o.held

theorem contains_iff : r.contains sid = true ↔ ∃ o, r.get? sid = some o :=
  Table.mem_iff_get?

theorem contains_eq_false_iff : r.contains sid = false ↔ r.get? sid = none := by
  rw [← Bool.not_eq_true]
  exact Table.not_mem_iff

theorem Opened.contains (ho : r.Opened sid handle) : r.contains sid = true := by
  obtain ⟨o, hs, -⟩ := ho
  exact contains_iff.2 ⟨o, hs⟩

theorem Held.contains (hh : r.Held sid handle) : r.contains sid = true := by
  obtain ⟨o, hs, -⟩ := hh
  exact contains_iff.2 ⟨o, hs⟩

theorem opened_iff {o : Session} (hs : r.get? sid = some o) :
    r.Opened sid handle ↔ handle ∈ o.opened := by
  unfold Opened
  rw [hs]
  simp

theorem held_iff {o : Session} (hs : r.get? sid = some o) :
    r.Held sid handle ↔ handle ∈ o.held := by
  unfold Held
  rw [hs]
  simp

/-! ## Changes of one record -/

theorem get?_modify (f : Session → Session) :
    (r.modify id f).get? sid = if sid = id then (r.get? id).map f else r.get? sid :=
  Table.get?_modify r.table id sid f

theorem contains_modify (f : Session → Session) :
    (r.modify id f).contains sid = r.contains sid :=
  Table.contains_modify r.table id sid f

theorem opened_modify {f : Session → Session} {P : Nat → Prop}
    (hf : ∀ o j, j ∈ (f o).opened ↔ (j ∈ o.opened ∧ P j)) :
    (r.modify id f).Opened sid j ↔ r.Opened sid j ∧ (sid = id → P j) := by
  unfold Opened
  rw [get?_modify]
  by_cases h : sid = id
  · subst h
    cases r.get? sid <;> simp [hf]
  · simp [h]

theorem held_modify {f : Session → Session} {P : Nat → Prop}
    (hf : ∀ o j, j ∈ (f o).held ↔ (j ∈ o.held ∧ P j)) :
    (r.modify id f).Held sid j ↔ r.Held sid j ∧ (sid = id → P j) := by
  unfold Held
  rw [get?_modify]
  by_cases h : sid = id
  · subst h
    cases r.get? sid <;> simp [hf]
  · simp [h]

theorem held_hold : (r.hold id handle).Held sid j ↔
    r.Held sid j ∨ sid = id ∧ j = handle ∧ r.contains id = true := by
  unfold hold Held
  rw [get?_modify, contains_iff]
  by_cases h : sid = id
  · subst h
    cases r.get? sid with
    | none => simp
    | some o => simp [IdSet.mem_add, or_comm]
  · simp [h]

theorem opened_openHandle : (r.openHandle id handle).Opened sid j ↔
    r.Opened sid j ∨ sid = id ∧ j = handle ∧ r.contains id = true := by
  unfold openHandle Opened
  rw [get?_modify, contains_iff]
  by_cases h : sid = id
  · subst h
    cases r.get? sid with
    | none => simp
    | some o => simp [IdSet.mem_add, or_comm]
  · simp [h]

theorem held_openHandle : (r.openHandle id handle).Held sid j ↔ r.Held sid j := by
  unfold openHandle
  rw [held_modify (P := fun _ => True) (by simp)]
  simp

theorem held_unhold : (r.unhold id handle).Held sid j ↔
    r.Held sid j ∧ (sid = id → j ≠ handle) := by
  unfold unhold
  rw [held_modify (P := fun k => k ≠ handle)]
  intro o k
  rw [Table.mem_erase, and_comm]

/-- A session no longer has a handle open, nor its lock. -/
def giveUp (r : Sessions) (id handle : Nat) : Sessions :=
  r.modify id fun o => { o with opened := o.opened.erase handle, held := o.held.erase handle }

theorem contains_giveUp : (r.giveUp id handle).contains sid = r.contains sid := contains_modify _

theorem opened_giveUp : (r.giveUp id handle).Opened sid j ↔
    r.Opened sid j ∧ (sid = id → j ≠ handle) := by
  unfold giveUp
  rw [opened_modify (P := fun k => k ≠ handle)]
  intro o k
  rw [Table.mem_erase, and_comm]

theorem held_giveUp : (r.giveUp id handle).Held sid j ↔
    r.Held sid j ∧ (sid = id → j ≠ handle) := by
  unfold giveUp
  rw [held_modify (P := fun k => k ≠ handle)]
  intro o k
  rw [Table.mem_erase, and_comm]

/-! ## Sessions that come, and their leases -/

theorem create_cases (r : Sessions) (now : Nat) :
    (∃ expiry, (r.create now).2 =
        ⟨r.table.insert r.nextId ⟨expiry, IdSet.empty, IdSet.empty⟩, r.lease, r.nextId + 1⟩) ∨
      (r.create now).2 = { r with nextId := r.nextId + 1 } := by
  unfold create
  cases Time.add? now r.lease with
  | some expiry => exact .inl ⟨expiry, rfl⟩
  | none => exact .inr rfl

theorem nextId_create (now : Nat) : (r.create now).2.nextId = r.nextId + 1 := by
  rcases create_cases r now with ⟨_, heq⟩ | heq <;> rw [heq]

theorem contains_create {now : Nat} (hc : (r.create now).2.contains sid = true) :
    sid = r.nextId ∨ r.contains sid = true := by
  rcases create_cases r now with ⟨_, heq⟩ | heq
  · rw [heq] at hc
    exact Table.mem_insert.1 hc
  · rw [heq] at hc
    exact .inr hc

/-- A new session has nothing open. -/
theorem opened_create {now : Nat} (hnew : r.contains r.nextId = false) :
    (r.create now).2.Opened sid j ↔ r.Opened sid j := by
  rcases create_cases r now with ⟨expiry, heq⟩ | heq
  · rw [heq]
    unfold Opened get?
    rw [Table.get?_insert]
    by_cases h : sid = r.nextId
    · have hfree : r.table.get? r.nextId = none := contains_eq_false_iff.1 hnew
      rw [if_pos h, h, hfree]
      simp [IdSet.not_mem_empty]
    · rw [if_neg h]
  · rw [heq]
    rfl

/-- A new session holds nothing. -/
theorem held_create {now : Nat} (hnew : r.contains r.nextId = false) :
    (r.create now).2.Held sid j ↔ r.Held sid j := by
  rcases create_cases r now with ⟨expiry, heq⟩ | heq
  · rw [heq]
    unfold Held get?
    rw [Table.get?_insert]
    by_cases h : sid = r.nextId
    · have hfree : r.table.get? r.nextId = none := contains_eq_false_iff.1 hnew
      rw [if_pos h, h, hfree]
      simp [IdSet.not_mem_empty]
    · rw [if_neg h]
  · rw [heq]
    rfl

theorem renew_cases (r : Sessions) (id now : Nat) :
    (r.renew id now).2 = r ∨
      ∃ expiry, (r.renew id now).2 = r.modify id fun o => { o with expiry } := by
  unfold renew
  cases hs : r.get? id with
  | none => exact .inl rfl
  | some o =>
    dsimp only
    split
    · exact .inl rfl
    · cases Time.add? now r.lease with
      | none => exact .inl rfl
      | some expiry =>
        right
        refine ⟨expiry, ?_⟩
        have ho : r.table.get? id = some o := hs
        unfold modify Table.modify
        rw [ho]

theorem nextId_renew (now : Nat) : (r.renew id now).2.nextId = r.nextId := by
  rcases renew_cases r id now with heq | ⟨_, heq⟩
  · rw [heq]
  · rw [heq]
    rfl

theorem contains_renew (now : Nat) : (r.renew id now).2.contains sid = r.contains sid := by
  rcases renew_cases r id now with heq | ⟨_, heq⟩
  · rw [heq]
  · rw [heq, contains_modify]

theorem opened_renew (now : Nat) : (r.renew id now).2.Opened sid j ↔ r.Opened sid j := by
  rcases renew_cases r id now with heq | ⟨_, heq⟩
  · rw [heq]
  · rw [heq, opened_modify (P := fun _ => True) (by simp)]
    simp

theorem held_renew (now : Nat) : (r.renew id now).2.Held sid j ↔ r.Held sid j := by
  rcases renew_cases r id now with heq | ⟨_, heq⟩
  · rw [heq]
  · rw [heq, held_modify (P := fun _ => True) (by simp)]
    simp

/-! ## Sessions that leave -/

theorem get?_filterKeys (p : Nat → Bool) :
    ({ r with table := r.table.filterKeys p } : Sessions).get? sid =
      if p sid then r.get? sid else none :=
  Table.get?_filterKeys r.table p sid

theorem contains_filterKeys (p : Nat → Bool) :
    ({ r with table := r.table.filterKeys p } : Sessions).contains sid =
      (p sid && r.contains sid) := by
  unfold contains Table.contains
  rw [Table.get?_filterKeys]
  cases p sid <;> rfl

theorem opened_filterKeys {p : Nat → Bool} :
    ({ r with table := r.table.filterKeys p } : Sessions).Opened sid j ↔
      p sid = true ∧ r.Opened sid j := by
  unfold Opened
  rw [get?_filterKeys]
  cases p sid <;> simp

theorem held_filterKeys {p : Nat → Bool} :
    ({ r with table := r.table.filterKeys p } : Sessions).Held sid j ↔
      p sid = true ∧ r.Held sid j := by
  unfold Held
  rw [get?_filterKeys]
  cases p sid <;> simp

/-! ## The frame of changes that concern locks only -/

/-- The same sessions with the same leases and the same open handles. -/
structure SameButHeld (r r' : Sessions) : Prop where
  /-- The length of a lease is the same. -/
  lease : r'.lease = r.lease
  /-- The id of the next session is the same. -/
  nextId : r'.nextId = r.nextId
  /-- The records differ at most in what is held. -/
  record : ∀ sid, (r'.get? sid).map (fun o => (o.expiry, o.opened)) =
    (r.get? sid).map fun o => (o.expiry, o.opened)

theorem SameButHeld.refl (r : Sessions) : r.SameButHeld r := ⟨rfl, rfl, fun _ => rfl⟩

theorem SameButHeld.trans (h : r.SameButHeld r') (h' : r'.SameButHeld r'') :
    r.SameButHeld r'' :=
  ⟨h'.lease.trans h.lease, h'.nextId.trans h.nextId,
    fun sid => (h'.record sid).trans (h.record sid)⟩

theorem SameButHeld.contains (h : r.SameButHeld r') (sid : Nat) :
    r'.contains sid = r.contains sid := by
  have hsome := congrArg Option.isSome (h.record sid)
  rw [Option.isSome_map, Option.isSome_map] at hsome
  exact hsome

theorem SameButHeld.opened (h : r.SameButHeld r') : r'.Opened sid j ↔ r.Opened sid j := by
  have hr := h.record sid
  unfold Opened
  cases hs : r.get? sid with
  | none =>
    rw [hs, Option.map_none, Option.map_eq_none_iff] at hr
    rw [hr]
  | some o =>
    rw [hs, Option.map_some, Option.map_eq_some_iff] at hr
    obtain ⟨o', hs', heq⟩ := hr
    rw [Prod.mk.injEq] at heq
    rw [hs']
    simp [heq.2]

/-- Registries that differ in what is held at most, and not in that either, are the same. -/
theorem SameButHeld.eq (h : r.SameButHeld r') (h' : r.SameButHeld r'')
    (hheld : ∀ sid j, r'.Held sid j ↔ r''.Held sid j) : r' = r'' := by
  have htable : r'.table = r''.table := by
    ext1 sid
    have hrecord := (h.record sid).trans (h'.record sid).symm
    show r'.get? sid = r''.get? sid
    cases hs : r'.get? sid with
    | none =>
      rw [hs, Option.map_none, eq_comm, Option.map_eq_none_iff] at hrecord
      exact hrecord.symm
    | some o =>
      rw [hs, Option.map_some, eq_comm, Option.map_eq_some_iff] at hrecord
      obtain ⟨o', hs', heq⟩ := hrecord
      obtain ⟨hexpiry, hopened⟩ := Prod.mk.inj heq
      have heldEq : o.held = o'.held := IdSet.ext fun j => by
        rw [← held_iff hs, ← held_iff hs', hheld]
      rw [hs']
      obtain ⟨e, held, opened⟩ := o
      obtain ⟨e', held', opened'⟩ := o'
      simp_all
  have hlease := h.lease.trans h'.lease.symm
  have hnext := h.nextId.trans h'.nextId.symm
  obtain ⟨table, lease, nextId⟩ := r'
  obtain ⟨table', lease', nextId'⟩ := r''
  simp_all

theorem sameButHeld_modify {f : Session → Session}
    (hf : ∀ o, ((f o).expiry, (f o).opened) = (o.expiry, o.opened)) :
    r.SameButHeld (r.modify id f) := by
  refine ⟨rfl, rfl, ?_⟩
  intro sid
  rw [get?_modify]
  split
  · subst_vars
    rw [Option.map_map]
    exact congrArg (fun g => (r.get? _).map g) (funext hf)
  · rfl

theorem sameButHeld_hold : r.SameButHeld (r.hold id handle) := sameButHeld_modify fun _ => rfl

theorem sameButHeld_unhold : r.SameButHeld (r.unhold id handle) :=
  sameButHeld_modify fun _ => rfl

end LeaseLock.Sessions
