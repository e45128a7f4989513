import LeaseLock.Client.Connection
import LeaseLock.Proofs.Table

/-
  LeaseLock: requests under way and their tickets.
  A request that is under way has a ticket of its own, under which nothing has been laid down yet
  (`Connection.Wf`).  As long as no id is used again too early (`Connection.Free`), starting a
  request touches no other (`start_of_free`), and a reply settles the request with its id and no
  other (`receive_of_decode`).
-/

namespace LeaseLock.Client.Connection

variable {c : Connection}

/-- No request that is under way has the next id. -/
def Free (c : Connection) : Prop := c.waiting.get? c.nextId.toNat = none

instance (c : Connection) : Decidable c.Free := inferInstanceAs (Decidable (_ = _))

/-- Requests under way have tickets of their own, and nothing is laid down under those yet. -/
structure Wf (c : Connection) : Prop where
  waiting_lt : ∀ id ticket, c.waiting.get? id = some ticket → ticket < c.nextTicket
  settled_lt : ∀ ticket o, c.settled.get? ticket = some o → ticket < c.nextTicket
  unsettled : ∀ id ticket, c.waiting.get? id = some ticket → c.settled.get? ticket = none
  single : ∀ i j ticket, c.waiting.get? i = some ticket → c.waiting.get? j = some ticket → i = j

theorem wf_fresh : fresh.Wf := ⟨nofun, nofun, nofun, nofun⟩

/-! ## Settling -/

theorem settle_of_none {id : UInt32} (h : c.waiting.get? id.toNat = none) (o : Outcome) :
    c.settle id o = c := by
  unfold settle
  rw [h]

theorem settle_of_some {id : UInt32} {ticket : Nat} (h : c.waiting.get? id.toNat = some ticket)
    (o : Outcome) : c.settle id o =
      { c with waiting := c.waiting.erase id.toNat, settled := c.settled.insert ticket o } := by
  unfold settle
  rw [h]

theorem nextTicket_settle (c : Connection) (id : UInt32) (o : Outcome) :
    (c.settle id o).nextTicket = c.nextTicket := by
  unfold settle
  split <;> rfl

theorem writing_settle (c : Connection) (id : UInt32) (o : Outcome) :
    (c.settle id o).writing = c.writing := by
  unfold settle
  split <;> rfl

theorem reading_settle (c : Connection) (id : UInt32) (o : Outcome) :
    (c.settle id o).reading = c.reading := by
  unfold settle
  split <;> rfl

theorem get?_waiting_settle (c : Connection) (id : UInt32) (o : Outcome) (j : Nat) :
    (c.settle id o).waiting.get? j = if j = id.toNat then none else c.waiting.get? j := by
  unfold settle
  split
  · rename_i hnone
    split
    · rename_i hj
      rw [hj, hnone]
    · rfl
  · exact Table.get?_erase _ _ _

/-- What is laid down is kept, and only the outcome of the request with this id is added. -/
theorem get?_settled_settle (hc : c.Wf) {id j : UInt32} {ticket : Nat}
    (hj : c.waiting.get? j.toNat = some ticket) (o : Outcome) :
    (c.settle id o).settled.get? ticket = if j = id then some o else none := by
  unfold settle
  split
  · rename_i hnone
    rw [if_neg, hc.unsettled _ _ hj]
    rintro rfl
    rw [hnone] at hj
    cases hj
  · rename_i other hother
    show (c.settled.insert other o).get? ticket = _
    rw [Table.get?_insert]
    split
    · rename_i heq
      subst heq
      rw [if_pos (UInt32.toNat_inj.1 (hc.single _ _ _ hj hother))]
    · rename_i hne
      rw [if_neg, hc.unsettled _ _ hj]
      rintro rfl
      exact hne (Option.some.inj (hj.symm.trans hother))

theorem get?_settled_of_settled (hc : c.Wf) {ticket : Nat} {o' : Outcome}
    (h : c.settled.get? ticket = some o') (id : UInt32) (o : Outcome) :
    (c.settle id o).settled.get? ticket = some o' := by
  unfold settle
  split
  · exact h
  · rename_i other hother
    show (c.settled.insert other o).get? ticket = _
    rw [Table.get?_insert, if_neg, h]
    rintro rfl
    rw [hc.unsettled _ _ hother] at h
    cases h

theorem Wf.settle (hc : c.Wf) (id : UInt32) (o : Outcome) : (c.settle id o).Wf := by
  cases hw : c.waiting.get? id.toNat with
  | none =>
    rw [settle_of_none hw]
    exact hc
  | some ticket =>
    have hold : ∀ j t, (c.settle id o).waiting.get? j = some t →
        c.waiting.get? j = some t ∧ j ≠ id.toNat := by
      intro j t hj
      rw [get?_waiting_settle] at hj
      split at hj
      · cases hj
      · rename_i hne
        exact ⟨hj, hne⟩
    refine ⟨fun j t hj => ?_, fun t o' ho => ?_, fun j t hj => ?_, fun i j t hi hj =>
      hc.single i j t (hold i t hi).1 (hold j t hj).1⟩
    · rw [nextTicket_settle]
      exact hc.waiting_lt j t (hold j t hj).1
    · rw [nextTicket_settle]
      rw [settle_of_some hw] at ho
      have ho : (c.settled.insert ticket o).get? t = some o' := ho
      rw [Table.get?_insert] at ho
      split at ho
      · rename_i heq
        exact heq ▸ hc.waiting_lt _ _ hw
      · exact hc.settled_lt t o' ho
    · obtain ⟨hj, hne⟩ := hold j t hj
      rw [settle_of_some hw]
      show (c.settled.insert ticket o).get? t = none
      rw [Table.get?_insert, if_neg, hc.unsettled j t hj]
      rintro rfl
      exact hne (hc.single _ _ _ hj hw)

/-! ## Replies -/

/-- What is no reply is dropped. -/
theorem receive_of_error {frame : Bytes} {fault : Fault}
    (hd : Wire.Response.decode frame = .error fault) : c.receive frame = c := by
  unfold receive
  rw [hd]

/-- A reply is laid down for the request with its id. -/
theorem receive_of_decode {frame : Bytes} {r : Wire.Response} (hr : c.reading = true)
    (hd : Wire.Response.decode frame = .ok r) : c.receive frame = c.settle r.id (.replied r) := by
  unfold receive
  rw [hd]
  dsimp only
  rw [if_pos hr]

/-! ## Requests -/

/-- A request gets the next ticket and the next id; nothing else changes. -/
theorem start_of_free (hf : c.Free) (hw : c.writing = true) (command : UInt8) (body : Bytes) :
    c.start command body = (some (c.nextTicket, ⟨c.nextId, command, body⟩),
      { c with
        nextId := c.nextId + 1
        nextTicket := c.nextTicket + 1
        waiting := c.waiting.insert c.nextId.toNat c.nextTicket }) := by
  unfold start
  dsimp only
  rw [settle_of_none hf, if_pos hw]

theorem Wf.start (hc : c.Wf) (hf : c.Free) (hw : c.writing = true) (command : UInt8)
    (body : Bytes) : (c.start command body).2.Wf := by
  rw [start_of_free hf hw]
  have hcases : ∀ j t, (c.waiting.insert c.nextId.toNat c.nextTicket).get? j = some t →
      j = c.nextId.toNat ∧ t = c.nextTicket ∨ c.waiting.get? j = some t ∧ t < c.nextTicket := by
    intro j t hj
    rw [Table.get?_insert] at hj
    split at hj
    · rename_i heq
      exact .inl ⟨heq, (Option.some.inj hj).symm⟩
    · exact .inr ⟨hj, hc.waiting_lt j t hj⟩
  refine ⟨fun j t hj => ?_, fun t o ho => Nat.lt_succ_of_lt (hc.settled_lt t o ho),
    fun j t hj => ?_, fun i j t hi hj => ?_⟩
  · show t < c.nextTicket + 1
    rcases hcases j t hj with ⟨-, rfl⟩ | ⟨-, hlt⟩ <;> omega
  · rcases hcases j t hj with ⟨-, rfl⟩ | ⟨hold, -⟩
    · cases hs : c.settled.get? c.nextTicket with
      | none => rfl
      | some o => exact absurd (hc.settled_lt _ o hs) (Nat.lt_irrefl _)
    · exact hc.unsettled j t hold
  · rcases hcases i t hi with ⟨rfl, rfl⟩ | ⟨hi, hlt⟩
    · rcases hcases j _ hj with ⟨rfl, -⟩ | ⟨-, hlt⟩
      · rfl
      · exact absurd hlt (Nat.lt_irrefl _)
    · rcases hcases j t hj with ⟨-, rfl⟩ | ⟨hj, -⟩
      · exact absurd hlt (Nat.lt_irrefl _)
      · exact hc.single i j t hi hj

end LeaseLock.Client.Connection
