import LeaseLock.Proofs.Coordinator.Bid
import LeaseLock.Proofs.Coordinator.Registry

/-
  LeaseLock: when leases end.
  A lease is started by the beginning of a session or by its renewal, and then ends one lease
  later; nothing else moves its end (`ages_perform`).  Hence two facts about runs.  A lease that has
  ended, or whose session is gone, is never started again, as a lapsed session is not renewed and a
  new session has a new id (`Over`).  And as long as leases are started no earlier than some
  instant, a bound below it that all ends of leases have kept goes on to be kept (`LeasesFrom`), and
  likewise a bound above (`LeasesTo`).
-/

namespace LeaseLock

namespace Sessions

variable {r r' r'' : Sessions} {id sid now now' expiry floor : Nat}

/-- When the lease of a session ends. -/
def leaseEnd? (r : Sessions) (id : Nat) : Option Nat := (r.get? id).map (·.expiry)

/-- A session is registered, and its lease has not ended. -/
def Live (r : Sessions) (id now : Nat) : Prop := ∃ o, r.get? id = some o ∧ o.lapsed now = false

theorem live_iff : r.Live id now ↔ ∃ expiry, r.leaseEnd? id = some expiry ∧ now < expiry := by
  unfold Live leaseEnd? Session.lapsed
  cases r.get? id <;> simp

theorem Live.contains (h : r.Live id now) : r.contains id = true := by
  obtain ⟨o, ho, -⟩ := h
  exact contains_iff.2 ⟨o, ho⟩

/-! ## Renewals -/

/-- A lease that has not ended starts anew. -/
theorem renew_of_live (h : r.Live id now) (hlimit : now + r.lease < Time.limit) :
    r.renew id now =
      (.ok (now + r.lease), r.modify id fun o => { o with expiry := now + r.lease }) := by
  obtain ⟨o, ho, hl⟩ := h
  have htable : r.table.modify id (fun o => { o with expiry := now + r.lease }) =
      r.table.insert id { o with expiry := now + r.lease } := by
    ext1 sid
    have ho' : r.table.get? id = some o := ho
    rw [Table.get?_modify, Table.get?_insert, ho']
    rfl
  unfold renew modify
  rw [ho]
  dsimp only
  rw [hl, if_neg Bool.false_ne_true, Time.add?_eq_some_iff.2 ⟨rfl, hlimit⟩, htable]

/-- A lease that has ended is not renewed. -/
theorem renew_of_not_live (h : ¬ r.Live id now) :
    r.renew id now = (.error (.refused (.sessionExpired id)), r) := by
  unfold renew
  cases ho : r.get? id with
  | none => rfl
  | some o =>
    have hl : o.lapsed now = true := by
      rw [← Bool.not_eq_false]
      exact fun hl => h ⟨o, ho, hl⟩
    dsimp only
    rw [if_pos hl]

theorem leaseEnd?_renew (h : r.Live id now) (hlimit : now + r.lease < Time.limit) :
    (r.renew id now).2.leaseEnd? id = some (now + r.lease) := by
  obtain ⟨o, ho⟩ := contains_iff.1 h.contains
  rw [renew_of_live h hlimit]
  unfold leaseEnd?
  rw [get?_modify, if_pos rfl, ho]
  rfl

theorem live_renew (h : r.Live id now) (hlimit : now + r.lease < Time.limit) (hpos : 0 < r.lease) :
    (r.renew id now).2.Live id now := by
  rw [renew_of_live h hlimit]
  obtain ⟨o, ho, -⟩ := h
  have hlater : ¬ now + r.lease ≤ now := Nat.not_le.2 (Nat.lt_add_of_pos_right hpos)
  refine ⟨{ o with expiry := now + r.lease }, ?_, decide_eq_false hlater⟩
  rw [get?_modify, if_pos rfl, ho]
  rfl

/-- To renew a lease twice at one instant is to renew it once. -/
theorem renew_renew (h : r.Live id now) (hlimit : now + r.lease < Time.limit)
    (hpos : 0 < r.lease) : (r.renew id now).2.renew id now = r.renew id now := by
  have hlive := live_renew h hlimit hpos
  rw [renew_of_live h hlimit] at hlive ⊢
  rw [renew_of_live hlive hlimit]
  refine congrArg (Prod.mk _) (congrArg (Sessions.mk · r.lease r.nextId) ?_)
  ext1 sid
  rw [Table.get?_modify]
  split
  · rename_i heq
    rw [heq]
    show ((r.table.modify id _).get? id).map _ = (r.table.modify id _).get? id
    rw [Table.get?_modify, if_pos rfl, Option.map_map]
    rfl
  · rfl

/-! ## Leases after a change -/

/-- A registry after a change that starts some leases at some instants.  Whatever lease there is
afterwards ends when it ended before, or has been started by the change. -/
structure Ages (starts : Nat → Nat → Prop) (r r' : Sessions) : Prop where
  lease : r'.lease = r.lease
  nextId : r.nextId ≤ r'.nextId
  ends : ∀ {sid expiry}, r'.leaseEnd? sid = some expiry → r.leaseEnd? sid = some expiry ∨
    ∃ now, starts sid now ∧ expiry = now + r.lease

variable {starts : Nat → Nat → Prop}

theorem SameButHeld.leaseEnd? (h : r.SameButHeld r') (sid : Nat) :
    r'.leaseEnd? sid = r.leaseEnd? sid := by
  have hrecord := congrArg (Option.map Prod.fst) (h.record sid)
  rwa [Option.map_map, Option.map_map] at hrecord

theorem SameButHeld.ages (h : r.SameButHeld r') : r.Ages starts r' where
  lease := h.lease
  nextId := Nat.le_of_eq h.nextId.symm
  ends := fun he => .inl ((h.leaseEnd? _).symm.trans he)

theorem Ages.trans (h : r.Ages starts r') (h' : r'.SameButHeld r'') : r.Ages starts r'' where
  lease := h'.lease.trans h.lease
  nextId := by
    rw [h'.nextId]
    exact h.nextId
  ends := fun he => h.ends ((h'.leaseEnd? _).symm.trans he)

/-- What is recorded for one session changes, but not its lease. -/
theorem ages_modify {f : Session → Session} (hf : ∀ o, (f o).expiry = o.expiry) :
    r.Ages starts (r.modify id f) where
  lease := rfl
  nextId := Nat.le_refl _
  ends := fun {sid expiry} he => by
    unfold leaseEnd? at he ⊢
    rw [get?_modify] at he
    split at he
    · rename_i heq
      rw [Option.map_map, show Session.expiry ∘ f = Session.expiry from funext hf] at he
      rw [heq]
      exact .inl he
    · exact .inl he

/-- Sessions leave the registry. -/
theorem ages_filterKeys (stays : Nat → Bool) :
    r.Ages starts { r with table := r.table.filterKeys stays } where
  lease := rfl
  nextId := Nat.le_refl _
  ends := fun {sid expiry} he => by
    unfold leaseEnd? at he ⊢
    rw [get?_filterKeys] at he
    split at he
    · exact .inl he
    · cases he

theorem ages_create (r : Sessions) (now : Nat) :
    r.Ages (fun sid t => sid = r.nextId ∧ t = now) (r.create now).2 := by
  unfold create
  cases hadd : Time.add? now r.lease with
  | none => exact ⟨rfl, Nat.le_succ _, .inl⟩
  | some expiry =>
    refine ⟨rfl, Nat.le_succ _, fun {sid expiry'} he => ?_⟩
    unfold leaseEnd? at he ⊢
    rw [show ∀ table lease nextId, get? ⟨table, lease, nextId⟩ sid = table.get? sid from
      fun _ _ _ => rfl, Table.get?_insert] at he
    split at he
    · rename_i hsid
      cases he
      exact .inr ⟨now, ⟨hsid, rfl⟩, (Time.add?_eq_some_iff.1 hadd).1⟩
    · exact .inl he

theorem ages_renew (r : Sessions) (id now : Nat) :
    r.Ages (fun sid t => sid = id ∧ t = now ∧ r.Live id now) (r.renew id now).2 := by
  by_cases hl : r.Live id now
  · by_cases hlimit : now + r.lease < Time.limit
    · rw [renew_of_live hl hlimit]
      refine ⟨rfl, Nat.le_refl _, fun {sid expiry} he => ?_⟩
      unfold leaseEnd? at he ⊢
      rw [get?_modify] at he
      split at he
      · rename_i hsid
        rw [Option.map_map] at he
        obtain ⟨o, -, rfl⟩ := Option.map_eq_some_iff.1 he
        exact .inr ⟨now, ⟨hsid, rfl, hl⟩, rfl⟩
      · exact .inl he
    · obtain ⟨o, ho, hlapsed⟩ := hl
      unfold renew
      rw [ho]
      dsimp only
      rw [hlapsed, if_neg Bool.false_ne_true, Time.add?_eq_none_iff.2 (Nat.le_of_not_lt hlimit)]
      exact (SameButHeld.refl r).ages
  · rw [renew_of_not_live hl]
    exact (SameButHeld.refl r).ages

end Sessions

namespace Coordinator

variable {ρ : Type} {op : Operation ρ} {ops : List (Operation ρ)} {s : State ρ} {id now now' : Nat}

/-- An operation starts the lease of a session at an instant: the session is new, or its lease has
not ended. -/
def State.Starts (s : State ρ) (op : Operation ρ) (sid now : Nat) : Prop :=
  match op with
  | .createSession t => sid = s.sessions.nextId ∧ now = t
  | .renew session t => sid = session ∧ now = t ∧ s.sessions.Live session t
  | _ => False

/-- If the operation starts a lease, then no earlier than at this instant. -/
def Operation.NotBefore (now : Nat) : Operation ρ → Prop
  | .createSession t | .renew _ t => now ≤ t
  | _ => True

theorem Operation.NotBefore.mono (h : op.NotBefore now') (hle : now ≤ now') : op.NotBefore now := by
  cases op with
  | createSession | renew => exact Nat.le_trans hle h
  | _ => trivial

/-- If the operation starts a lease, then no later than at this instant. -/
def Operation.NotAfter (now : Nat) : Operation ρ → Prop
  | .createSession t | .renew _ t => t ≤ now
  | _ => True

namespace State

open Sessions (Ages SameButHeld)

/-- Leases end as they did before an operation, or have been started by it. -/
theorem ages_perform (s : State ρ) (op : Operation ρ) :
    Ages (s.Starts op) s.sessions (s.perform op).2.state.sessions := by
  cases op with
  | createSession now => exact s.sessions.ages_create now
  | renew session now => exact s.sessions.ages_renew session now
  | closeSession session =>
    show Ages _ _ (s.closeSession session).2.state.sessions
    rcases s.closeSession_cases session with ⟨-, heq⟩ | ⟨gone, -, heq⟩
    · rw [heq]
      exact (SameButHeld.refl _).ages
    · rw [heq]
      exact (Sessions.ages_filterKeys _).trans (Turn.sessions_detachAll
        (.start { s with sessions := (s.sessions.remove session).2 }) session .sessionClosed _)
  | openHandle session name =>
    show Ages _ _ (s.openHandle session name).2.sessions
    rcases s.openHandle_cases session name with ⟨-, heq⟩ | ⟨-, heq⟩
    · rw [heq]
      exact (SameButHeld.refl _).ages
    · rw [heq]
      show Ages _ _ ((s.ensureHandle name).2.sessions.openHandle session _)
      rw [sessions_ensureHandle]
      exact Sessions.ages_modify fun _ => rfl
  | closeHandle session handle =>
    show Ages _ _ (s.closeHandle session handle).2.state.sessions
    rcases s.closeHandle_cases session handle with ⟨fault, heq⟩ | ⟨-, heq⟩
    · rw [heq]
      exact (SameButHeld.refl _).ages
    · have hgiven : Ages (s.Starts (.closeHandle session handle)) s.sessions
          (s.sessions.giveUp session handle) := Sessions.ages_modify fun _ => rfl
      rw [heq]
      exact hgiven.trans (Turn.sessions_detach
        (.start { s with sessions := s.sessions.giveUp session handle }) session handle _)
  | acquire session handle mode tryOnly reply =>
    exact (s.sameButHeld_acquire session handle mode tryOnly reply).ages
  | dispatch session payload reply => exact (s.sameButHeld_dispatch session payload reply).ages
  | release session handle => exact (s.sameButHeld_release session handle).ages
  | cancel session handle => exact (s.sameButHeld_cancel session handle).ages
  | expire now =>
    have hgone : Ages (s.Starts (.expire now)) s.sessions
        (s.unregister ((s.lapsed now).map (·.1))).sessions := Sessions.ages_filterKeys _
    have hexpired := Turn.sessions_expireAll
      (.start (s.unregister ((s.lapsed now).map (·.1)))) (s.lapsed now)
    exact hgone.trans hexpired

theorem Starts.notBefore {sid t : Nat} (h : s.Starts op sid t) (hop : op.NotBefore now) :
    now ≤ t := by
  cases op with
  | createSession => exact h.2 ▸ hop
  | renew => exact h.2.1 ▸ hop
  | _ => exact h.elim

theorem Starts.notAfter {sid t : Nat} (h : s.Starts op sid t) (hop : op.NotAfter now) :
    t ≤ now := by
  cases op with
  | createSession => exact h.2 ▸ hop
  | renew => exact h.2.1 ▸ hop
  | _ => exact h.elim

/-- Operations leave the length of a lease alone. -/
theorem lease_after (s : State ρ) (ops : List (Operation ρ)) :
    (s.after ops).sessions.lease = s.sessions.lease := by
  induction ops generalizing s with
  | nil => rfl
  | cons op rest ih =>
    rw [after_cons]
    exact (ih _).trans (s.ages_perform op).lease

theorem nextId_le_after (s : State ρ) (ops : List (Operation ρ)) :
    s.sessions.nextId ≤ (s.after ops).sessions.nextId := by
  induction ops generalizing s with
  | nil => exact Nat.le_refl _
  | cons op rest ih =>
    rw [after_cons]
    exact Nat.le_trans (s.ages_perform op).nextId (ih _)

/-! ## Leases that are over -/

/-- An id has been used, and there is no lease of this session that ends after `now`. -/
structure Over (s : State ρ) (id now : Nat) : Prop where
  used : id < s.sessions.nextId
  ended : ¬ s.sessions.Live id now

/-- What is over stays over. -/
theorem Over.mono (h : s.Over id now) (hle : now ≤ now') : s.Over id now' where
  used := h.used
  ended := by
    rw [Sessions.live_iff]
    rintro ⟨expiry, hend, hlt⟩
    exact h.ended (Sessions.live_iff.2 ⟨expiry, hend, Nat.lt_of_le_of_lt hle hlt⟩)

/-- No operation starts a lease that is over. -/
theorem Over.perform (h : s.Over id now) (hop : op.NotBefore now) :
    (s.perform op).2.state.Over id now where
  used := Nat.lt_of_lt_of_le h.used (s.ages_perform op).nextId
  ended := by
    rw [Sessions.live_iff]
    rintro ⟨expiry, hend, hlt⟩
    rcases (s.ages_perform op).ends hend with hbefore | ⟨t, hstarts, -⟩
    · exact h.ended (Sessions.live_iff.2 ⟨expiry, hbefore, hlt⟩)
    · have hle := hstarts.notBefore hop
      cases op with
      | createSession => exact Nat.ne_of_lt h.used hstarts.1
      | renew session t' =>
        obtain ⟨rfl, rfl, hlive⟩ := hstarts
        exact (h.mono hle).ended hlive
      | _ => exact hstarts

/-- However long operations go on, what is over stays over. -/
theorem Over.after (h : s.Over id now) (hops : ∀ op ∈ ops, op.NotBefore now) :
    (s.after ops).Over id now := by
  induction ops generalizing s with
  | nil => exact h
  | cons op rest ih =>
    rw [after_cons]
    exact ih (h.perform (hops op List.mem_cons_self)) fun op hm =>
      hops op (List.mem_cons_of_mem _ hm)

/-! ## Bounds on the ends of leases -/

/-- No lease ends before `floor`. -/
def LeasesFrom (s : State ρ) (floor : Nat) : Prop :=
  ∀ sid expiry, s.sessions.leaseEnd? sid = some expiry → floor ≤ expiry

variable {floor : Nat}

theorem LeasesFrom.mono (h : s.LeasesFrom floor) {floor' : Nat} (hle : floor' ≤ floor) :
    s.LeasesFrom floor' := fun sid expiry he => Nat.le_trans hle (h sid expiry he)

theorem LeasesFrom.perform (h : s.LeasesFrom floor) (hop : op.NotBefore now)
    (hle : floor ≤ now) : (s.perform op).2.state.LeasesFrom floor := by
  intro sid expiry hend
  rcases (s.ages_perform op).ends hend with hbefore | ⟨t, hstarts, rfl⟩
  · exact h sid expiry hbefore
  · exact Nat.le_trans hle (Nat.le_trans (hstarts.notBefore hop) (Nat.le_add_right _ _))

/-- Leases that are started late enough keep the bound. -/
theorem LeasesFrom.after (h : s.LeasesFrom floor) (hops : ∀ op ∈ ops, op.NotBefore now)
    (hle : floor ≤ now) : (s.after ops).LeasesFrom floor := by
  induction ops generalizing s with
  | nil => exact h
  | cons op rest ih =>
    rw [after_cons]
    exact ih (h.perform (hops op List.mem_cons_self) hle) fun op hm =>
      hops op (List.mem_cons_of_mem _ hm)

/-- Once the lapsed sessions have been ended, all leases end later. -/
theorem leasesFrom_expire (s : State ρ) (now : Nat) :
    (s.perform (.expire now)).2.state.LeasesFrom (now + 1) := by
  intro sid expiry hend
  have hsame := Turn.sessions_expireAll
    (.start (s.unregister ((s.lapsed now).map (·.1)))) (s.lapsed now)
  have hleft : (s.unregister ((s.lapsed now).map (·.1))).sessions.leaseEnd? sid = some expiry :=
    (hsame.leaseEnd? sid).symm.trans hend
  obtain ⟨o, ho, rfl⟩ := Option.map_eq_some_iff.1 hleft
  unfold unregister at ho
  rw [Sessions.get?_filterKeys] at ho
  split at ho
  · rename_i hstays
    refine Nat.lt_of_not_le fun hle => ?_
    rw [contains_lapsed.2 ⟨o, ho, decide_eq_true hle⟩] at hstays
    cases hstays
  · cases ho

/-- No lease ends after `ceiling`. -/
def LeasesTo (s : State ρ) (ceiling : Nat) : Prop :=
  ∀ sid expiry, s.sessions.leaseEnd? sid = some expiry → expiry ≤ ceiling

variable {ceiling : Nat}

theorem LeasesTo.mono (h : s.LeasesTo ceiling) {ceiling' : Nat} (hle : ceiling ≤ ceiling') :
    s.LeasesTo ceiling' := fun sid expiry he => Nat.le_trans (h sid expiry he) hle

theorem LeasesTo.perform (h : s.LeasesTo ceiling) (hop : op.NotAfter now)
    (hle : now + s.sessions.lease ≤ ceiling) : (s.perform op).2.state.LeasesTo ceiling := by
  intro sid expiry hend
  rcases (s.ages_perform op).ends hend with hbefore | ⟨t, hstarts, rfl⟩
  · exact h sid expiry hbefore
  · exact Nat.le_trans (Nat.add_le_add_right (hstarts.notAfter hop) _) hle

/-- Leases that are started early enough keep the bound. -/
theorem LeasesTo.after (h : s.LeasesTo ceiling) (hops : ∀ op ∈ ops, op.NotAfter now)
    (hle : now + s.sessions.lease ≤ ceiling) : (s.after ops).LeasesTo ceiling := by
  induction ops generalizing s with
  | nil => exact h
  | cons op rest ih =>
    rw [after_cons]
    refine ih (h.perform (hops op List.mem_cons_self) hle)
      (fun op hm => hops op (List.mem_cons_of_mem _ hm)) ?_
    rw [(s.ages_perform op).lease]
    exact hle

/-- If the leases that can be running at an instant end no later than one that is started then, a
lease that has not ended has a length. -/
theorem LeasesTo.lease_pos (h : s.LeasesTo (now + s.sessions.lease))
    (hl : s.sessions.Live id now) : 0 < s.sessions.lease := by
  obtain ⟨expiry, hend, hlt⟩ := Sessions.live_iff.1 hl
  exact Nat.pos_of_lt_add_right (Nat.lt_of_lt_of_le hlt (h id expiry hend))

end State

end Coordinator

end LeaseLock
