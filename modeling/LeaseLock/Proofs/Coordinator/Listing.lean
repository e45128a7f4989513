import LeaseLock.Coordinator.Snapshot
import LeaseLock.Proofs.Coordinator.Consistency
import Mathlib.Algebra.GroupWithZero.Nat
import Mathlib.Algebra.Order.BigOperators.Group.List
import Mathlib.Algebra.Order.Group.Nat
import Mathlib.Data.List.Perm.Subperm

/-
  LeaseLock: how long the statistics are at least.
  Their text holds the quoted name of each handle (`Snapshot.sum_names_le`).  Names and handles are
  inverse to each other, so different names in use stand there side by side (`State.sum_names_le`),
  and a name is in use from when it is opened (`State.named?_openHandle`).
-/

namespace LeaseLock.Coordinator

/-! ## Texts and their parts -/

theorem sum_le_intercalate (separator : String) (texts : List String) :
    (texts.map String.utf8ByteSize).sum ≤ (separator.intercalate texts).utf8ByteSize := by
  induction texts with
  | nil => exact Nat.zero_le _
  | cons first rest ih =>
    rw [List.map_cons, List.sum_cons]
    cases rest with
    | nil => simp
    | cons second rest =>
      rw [String.intercalate_cons_cons, String.utf8ByteSize_append, String.utf8ByteSize_append]
      omega

theorem le_object {text : String} {members : List String} (h : text ∈ members) :
    text.utf8ByteSize ≤ (object members).utf8ByteSize := by
  have hsum := sum_le_intercalate "," members
  have hmember : text.utf8ByteSize ≤ (members.map String.utf8ByteSize).sum :=
    List.le_sum_of_mem (List.mem_map_of_mem h)
  rw [object, String.utf8ByteSize_append, String.utf8ByteSize_append]
  omega

theorem le_member (key text : String) : text.utf8ByteSize ≤ (member key text).utf8ByteSize := by
  rw [member, String.utf8ByteSize_append]
  exact Nat.le_add_left _ _

theorem sum_le_array (elements : List String) :
    (elements.map String.utf8ByteSize).sum ≤ (array elements).utf8ByteSize := by
  have hsum := sum_le_intercalate "," elements
  rw [array, String.utf8ByteSize_append, String.utf8ByteSize_append]
  omega

/-! ## Names -/

/-- The bytes that a name takes in the statistics. -/
def quotedSize (name : String) : Nat := (Quoted.quote name).utf8ByteSize

theorem HandleSnapshot.quotedSize_le (h : HandleSnapshot) :
    quotedSize h.name ≤ h.text.utf8ByteSize := by
  refine (le_member "name" (Quoted.quote h.name)).trans (le_object ?_)
  exact List.mem_cons_of_mem _ List.mem_cons_self

theorem Snapshot.sum_names_le (s : Snapshot) :
    (s.handles.map fun h => quotedSize h.name).sum ≤ s.text.utf8ByteSize := by
  have hnames : (s.handles.map fun h => quotedSize h.name).sum ≤
      ((s.handles.map (·.text)).map String.utf8ByteSize).sum := by
    rw [List.map_map]
    exact List.sum_le_sum fun h _ => h.quotedSize_le
  have hmember := le_member "handles" (array (s.handles.map (·.text)))
  refine hnames.trans ((sum_le_array _).trans (hmember.trans (le_object ?_)))
  exact List.mem_cons_of_mem _ List.mem_cons_self

namespace State

variable {ρ : Type} {lent : Nat → Nat → Prop} {s : State ρ}

/-- The handle of a name in use is listed. -/
theorem name_mem_snapshot (hs : Coherent [] lent s) {name : String}
    (h : (s.named? name).isSome = true) : name ∈ s.snapshot.handles.map (·.name) := by
  obtain ⟨id, hid⟩ := Option.isSome_iff_exists.1 h
  obtain ⟨x, hx, rfl⟩ := (hs.named name id).1 hid
  have hentry : (id, x) ∈ s.handles.entries := Table.mem_entries_iff.2 hx
  exact List.mem_map.2 ⟨x.snapshot id, List.mem_map.2 ⟨(id, x), hentry, rfl⟩, rfl⟩

/-- Different names in use stand in the statistics side by side. -/
theorem sum_names_le (hs : Coherent [] lent s) {names : List String} (hnodup : names.Nodup)
    (hnamed : ∀ name ∈ names, (s.named? name).isSome = true) :
    (names.map quotedSize).sum ≤ s.snapshot.text.utf8ByteSize := by
  have hsubset : names ⊆ s.snapshot.handles.map (·.name) :=
    fun name hm => name_mem_snapshot hs (hnamed name hm)
  obtain ⟨listed, hperm, hsublist⟩ :=
    List.subperm_iff.1 (List.subperm_of_subset hnodup hsubset)
  calc (names.map quotedSize).sum
      ≤ (listed.map quotedSize).sum :=
        (hsublist.map quotedSize).sum_le_sum fun _ _ => Nat.zero_le _
    _ = ((s.snapshot.handles.map (·.name)).map quotedSize).sum := (hperm.map quotedSize).sum_eq
    _ = (s.snapshot.handles.map fun h => quotedSize h.name).sum := by rw [List.map_map]; rfl
    _ ≤ s.snapshot.text.utf8ByteSize := s.snapshot.sum_names_le

/-- The names in use once a session has opened one more. -/
theorem named?_openHandle {session : Nat} (hc : s.sessions.contains session = true)
    (name other : String) : ((s.openHandle session name).2.named? other).isSome = true ↔
      other = name ∨ (s.named? other).isSome = true := by
  unfold openHandle ensureHandle
  rw [if_pos hc]
  cases hn : s.named? name with
  | some id =>
    show (s.named? other).isSome = true ↔ _
    constructor
    · exact .inr
    · rintro (rfl | h)
      · rw [hn]
        rfl
      · exact h
  | none =>
    show ((s.names ++ [(name, s.nextHandle)]).lookup other).isSome = true ↔
      _ ∨ (s.names.lookup other).isSome = true
    rw [List.lookup_append, Option.isSome_or, Bool.or_eq_true, or_comm]
    refine or_congr_left ?_
    rw [List.lookup_cons]
    by_cases h : other = name
    · simp [h]
    · simp [h, beq_eq_false_iff_ne.2 h]

end State

end LeaseLock.Coordinator
