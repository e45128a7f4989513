import LeaseLock.Proofs.Coordinator.Chronicle
import LeaseLock.Proofs.Coordinator.Replay
import LeaseLock.Proofs.Coordinator.Sweep

/-
  LeaseLock: grants as fencing tokens.
  The token of an exclusive grant is the id of the handle and the generation that begins with the
  grant.  Within the life of a handle the generation counts the exclusive grants; a name whose
  handle is gone gets a handle with a higher id when it is opened again.  So the tokens of a name
  increase in lexicographic order over all runs, whatever becomes of its handles (`fenced`).

  Two facts carry this.  Whoever reads the events knows the generations (`Board`), so among the
  tokens of one handle the generations increase.  A call keeps the names of the handles it finds
  and gives new ids to the handles it makes (`Shelf.Keeps`), so among the tokens of one name the
  handles never go back.
-/

namespace LeaseLock.Coordinator

variable {ρ : Type}

/-! ## Tokens and what they count -/

namespace LockEvent

/-- The generation in which a lock is given. -/
def generation? : LockEvent → Option Nat
  | acquired _ _ _ generation => some generation
  | _ => none

/-- The handle and the generation of an exclusive grant. -/
def token? : LockEvent → Option (Nat × Nat)
  | acquired handle _ .exclusive generation => some (handle, generation)
  | _ => none

end LockEvent

/-- The generation that the sender of a request is told. -/
def Answer.generation? : Answer → Option Nat
  | granted generation => some generation
  | _ => none

/-- The number of exclusive grants of a handle that the events tell of. -/
def exclusives (handle : Nat) (events : List LockEvent) : Nat :=
  (events.filterMap LockEvent.token?).countP fun p => p.1 == handle

theorem exclusives_append (handle : Nat) (first rest : List LockEvent) :
    exclusives handle (first ++ rest) = exclusives handle first + exclusives handle rest := by
  unfold exclusives
  rw [List.filterMap_append, List.countP_append]

theorem exclusives_acquired (handle session generation j : Nat) (mode : Mode) :
    exclusives j [.acquired handle session mode generation] =
      if mode = .exclusive ∧ handle = j then 1 else 0 := by
  cases mode with
  | shared => rfl
  | exclusive =>
    show [(handle, generation)].countP _ = _
    rw [List.countP_singleton]
    simp

namespace Board

variable {b b' : Board} {events : List LockEvent}

theorem generation_read? {e : LockEvent} (hr : b.read? e = some b') (handle : Nat) :
    b'.generation handle = b.generation handle + exclusives handle [e] := by
  cases e with
  | acquired j session mode generation =>
    rw [read?] at hr
    split at hr
    · rename_i hfits
      obtain rfl := Option.some.inj hr
      rw [exclusives_acquired]
      show Function.update b.generation j generation handle = _
      rw [Function.update_apply, hfits.2.2, following]
      by_cases hj : handle = j
      · subst hj
        by_cases hm : mode = .exclusive <;> simp [hm]
      · rw [if_neg hj, if_neg fun h => hj h.2.symm]
        rfl
    · cases hr
  | released j session reason =>
    rw [read?] at hr
    split at hr
    · obtain rfl := Option.some.inj hr
      show Function.update b.generation j (b.generation j) handle = _
      rw [Function.update_eq_self]
      rfl
    · cases hr
  | expired session released =>
    obtain rfl := Option.some.inj hr
    rfl

theorem replay?_cons {e : LockEvent} (hr : b.replay? (e :: events) = some b') :
    ∃ b₁, b.read? e = some b₁ ∧ b₁.replay? events = some b' := by
  obtain ⟨b₁, hfirst, hrest⟩ :=
    Option.bind_eq_some_iff.1 ((b.replay?_append [e] events).symm.trans hr)
  exact ⟨b₁, (b.replay?_singleton e).symm.trans hfirst, hrest⟩

/-- The board counts the exclusive grants. -/
theorem generation_replay? (hr : b.replay? events = some b') (handle : Nat) :
    b'.generation handle = b.generation handle + exclusives handle events := by
  induction events generalizing b with
  | nil =>
    obtain rfl := Option.some.inj hr
    rfl
  | cons e rest ih =>
    obtain ⟨b₁, hfirst, hrest⟩ := replay?_cons hr
    rw [ih hrest, generation_read? hfirst, Nat.add_assoc, ← exclusives_append]
    rfl

/-- A lock is given in the generation that counts the exclusive grants of its handle. -/
theorem counted_of_replay? (hr : b.replay? events = some b') (before : List LockEvent)
    {after : List LockEvent} {handle session generation : Nat} {mode : Mode}
    (he : events = before ++ .acquired handle session mode generation :: after) :
    generation = b.generation handle +
      exclusives handle (before ++ [.acquired handle session mode generation]) := by
  rw [he, replay?_append] at hr
  obtain ⟨b₁, hbefore, hrest⟩ := Option.bind_eq_some_iff.1 hr
  obtain ⟨b₂, hread, -⟩ := replay?_cons hrest
  rw [read?] at hread
  split at hread
  · rename_i hfits
    rw [exclusives_append, ← Nat.add_assoc, ← generation_replay? hbefore, exclusives_acquired]
    refine hfits.2.2.trans ?_
    unfold following
    by_cases hm : mode = .exclusive <;> simp [hm]
  · cases hread

/-- An exclusive grant begins the next generation. -/
theorem token_read? {e : LockEvent} (hr : b.read? e = some b') {p : Nat × Nat}
    (ht : e.token? = some p) : p.2 = b.generation p.1 + 1 ∧ b'.generation p.1 = p.2 := by
  cases e with
  | acquired handle session mode generation =>
    cases mode with
    | shared => cases ht
    | exclusive =>
      obtain rfl := Option.some.inj ht
      have hone := counted_of_replay? ((b.replay?_singleton _).trans hr) [] rfl
      have hdue := generation_read? hr handle
      rw [List.nil_append, exclusives_acquired, if_pos ⟨rfl, rfl⟩] at hone
      rw [exclusives_acquired, if_pos ⟨rfl, rfl⟩] at hdue
      exact ⟨hone, hdue.trans hone.symm⟩
  | released handle session reason => cases ht
  | expired session released => cases ht

/-- Among the tokens of one handle the generations increase. -/
theorem ascending_of_replay? (hr : b.replay? events = some b') :
    (events.filterMap LockEvent.token?).Pairwise (fun p q => p.1 = q.1 → p.2 < q.2) ∧
      ∀ p ∈ events.filterMap LockEvent.token?, b.generation p.1 < p.2 := by
  induction events generalizing b with
  | nil => exact ⟨List.Pairwise.nil, fun p hp => by cases hp⟩
  | cons e rest ih =>
    obtain ⟨b₁, hfirst, hrest⟩ := replay?_cons hr
    obtain ⟨hpairs, habove⟩ := ih hrest
    have hlater : ∀ p ∈ rest.filterMap LockEvent.token?, b.generation p.1 < p.2 := fun p hp =>
      Nat.lt_of_le_of_lt (Nat.le.intro (generation_read? hfirst p.1).symm) (habove p hp)
    rw [List.filterMap_cons]
    cases ht : e.token? with
    | none => exact ⟨hpairs, hlater⟩
    | some p =>
      obtain ⟨hbegins, hshown⟩ := token_read? hfirst ht
      refine ⟨List.pairwise_cons.2 ⟨fun q hq heq => ?_, hpairs⟩, fun q hq => ?_⟩
      · rw [← hshown, heq]
        exact habove q hq
      · rcases List.mem_cons.1 hq with rfl | hq
        · exact hbegins ▸ Nat.lt_succ_self _
        · exact hlater q hq

end Board

/-! ## What calls do to the handles -/

/-- From some handles to others: the names stay, and new handles have new ids. -/
structure Shelf.Keeps (s s' : Shelf ρ) : Prop where
  /-- Ids are not given back. -/
  next : s.next ≤ s'.next
  /-- What has an old id was there before, under the same name. -/
  name : ∀ h y, s'.handles.get? h = some y → h < s.next →
    ∃ x, s.handles.get? h = some x ∧ x.name = y.name

namespace Shelf.Keeps

variable {s s' s'' : Shelf ρ}

theorem refl (s : Shelf ρ) : s.Keeps s := ⟨Nat.le_refl _, fun _ y hy _ => ⟨y, hy, rfl⟩⟩

theorem trans (hk : s.Keeps s') (hk' : s'.Keeps s'') : s.Keeps s'' where
  next := Nat.le_trans hk.next hk'.next
  name := by
    intro h z hz hlt
    obtain ⟨y, hy, hyz⟩ := hk'.name h z hz (Nat.lt_of_lt_of_le hlt hk.next)
    obtain ⟨x, hx, hxy⟩ := hk.name h y hy hlt
    exact ⟨x, hx, hxy.trans hyz⟩

end Shelf.Keeps

theorem Handle.Undergoes.name {x y : Handle ρ} {c : Change ρ} (hu : x.Undergoes c y) :
    x.name = y.name := by
  cases hu <;> rfl

theorem Deed.Leads.keeps {s s' : Shelf ρ} {d : Deed ρ} (hd : d.Leads s s') : s.Keeps s' := by
  cases hd with
  | @on handle x y c found change =>
    refine ⟨Nat.le_refl _, fun h z hz _ => ?_⟩
    rw [Shelf.get?_put] at hz
    split at hz
    · rename_i hj
      rw [← Option.some.inj hz, hj]
      exact ⟨x, found, change.name⟩
    · exact ⟨z, hz, rfl⟩
  | created name =>
    refine ⟨Nat.le_succ _, fun h z hz hlt => ?_⟩
    rw [Table.get?_insert, if_neg (Nat.ne_of_lt hlt)] at hz
    exact ⟨z, hz, rfl⟩
  | destroyed found unused =>
    refine ⟨Nat.le_refl _, fun h z hz _ => ?_⟩
    rw [Table.get?_erase] at hz
    split at hz
    · cases hz
    · exact ⟨z, hz, rfl⟩
  | turnedAway bare => exact .refl s
  | ended session locks => exact .refl s

theorem Course.keeps {s s' : Shelf ρ} {ds : List (Deed ρ)} (hc : Course s ds s') :
    s.Keeps s' := by
  induction hc with
  | nil s => exact .refl s
  | cons first rest ih => exact first.keeps.trans ih

/-- A lock is given where there is a handle. -/
theorem Deed.Leads.found_of_acquired {s s' : Shelf ρ} {d : Deed ρ} (hd : d.Leads s s')
    {handle session generation : Nat} {mode : Mode}
    (he : d.event? = some (.acquired handle session mode generation)) :
    ∃ x, s.handles.get? handle = some x := by
  cases hd with
  | on found change =>
    cases change with
    | given alone admits opener new =>
      cases he
      exact ⟨_, found⟩
    | admitted head admits =>
      cases he
      exact ⟨_, found⟩
    | unlocked held => cases he
    | joined blocked opener new => cases he
    | lapsed head admits => cases he
    | withdrawn found' proper => cases he
    | opened session => cases he
    | shut opener idle quiet => cases he
  | created name => cases he
  | destroyed found unused => cases he
  | turnedAway bare => cases he
  | ended session locks => cases he

/-- Where no handle is made, locks are given of the handles that were there at the start. -/
theorem Course.found_of_acquired {s s' : Shelf ρ} {ds : List (Deed ρ)} (hc : Course s ds s')
    (hwf : s.Wf) (hnext : s'.next = s.next) {handle session generation : Nat} {mode : Mode}
    (he : .acquired handle session mode generation ∈ ds.filterMap Deed.event?) :
    ∃ x, s.handles.get? handle = some x := by
  obtain ⟨d, hd, hevent⟩ := List.mem_filterMap.1 he
  obtain ⟨before, after, rfl⟩ := List.append_of_mem hd
  obtain ⟨s₁, hbefore, hrest⟩ := hc.split
  cases hrest with
  | cons first rest =>
    obtain ⟨x, hx⟩ := first.found_of_acquired hevent
    have hle := (first.keeps.trans rest.keeps).next
    have hlt := (hbefore.wf hwf handle x hx).2
    obtain ⟨y, hy, -⟩ := hbefore.keeps.name handle x hx (by omega)
    exact ⟨y, hy⟩

/-- A deed that gives a lock tells its observers and its new holder the same generation. -/
theorem Deed.Leads.told {s s' : Shelf ρ} {d : Deed ρ} (hd : d.Leads s s') :
    (d.message?.bind fun p => p.2.generation?) = d.event?.bind LockEvent.generation? := by
  cases hd with
  | on found change =>
    cases change with
    | withdrawn found' proper => rcases proper with rfl | rfl <;> rfl
    | given alone admits opener new => rfl
    | admitted head admits => rfl
    | unlocked held => rfl
    | joined blocked opener new => rfl
    | lapsed head admits => rfl
    | opened session => rfl
    | shut opener idle quiet => rfl
  | @turnedAway reply a bare =>
    cases a with
    | granted generation => exact absurd rfl (bare generation)
    | busy => rfl
    | cancelled => rfl
    | refused fault => rfl
    | malformed fault => rfl
  | created name => rfl
  | destroyed found unused => rfl
  | ended session locks => rfl

theorem Course.told {s s' : Shelf ρ} {ds : List (Deed ρ)} (hc : Course s ds s') :
    (ds.filterMap Deed.message?).filterMap (fun p => p.2.generation?) =
      (ds.filterMap Deed.event?).filterMap LockEvent.generation? := by
  rw [List.filterMap_filterMap, List.filterMap_filterMap]
  refine List.filterMap_congr fun d hd => ?_
  obtain ⟨_, _, hleads⟩ := hc.leads_of_mem hd
  exact hleads.told

/-! ### Which calls make handles -/

namespace Turn

theorem nextHandle_detach (t : Turn ρ) (session handle : Nat) (reason : ReleaseReason) :
    (t.detach handle session reason).2.state.nextHandle = t.state.nextHandle := by
  cases hx : t.state.handle? handle with
  | none => rw [detach_of_none hx]
  | some x => exact (detached_detach hx session reason).nextHandle

theorem nextHandle_detachAll (t : Turn ρ) (session : Nat) (reason : ReleaseReason)
    (handles : List Nat) :
    (t.detachAll session reason handles).2.state.nextHandle = t.state.nextHandle :=
  detachAll_induction (P := fun _ t' => t'.state.nextHandle = t.state.nextHandle)
    (fun h _ t' ht => (t'.nextHandle_detach session h reason).trans ht) handles [] rfl

theorem nextHandle_expireAll (t : Turn ρ) (gone : List (Nat × Session)) :
    (t.expireAll gone).state.nextHandle = t.state.nextHandle :=
  expireAll_induction (P := fun _ t' => t'.state.nextHandle = t.state.nextHandle)
    (fun d h _ t' ht => (t'.nextHandle_detach d h _).trans ht) (fun _ _ _ _ ht => ht) gone rfl

end Turn

namespace State

theorem nextHandle_acquire (s : State ρ) (session handle : Nat) (mode : Mode) (tryOnly : Bool)
    (reply : ρ) :
    (s.acquire session handle mode tryOnly reply).2.state.nextHandle = s.nextHandle := by
  have hr := s.requested_acquire session handle mode tryOnly reply
  generalize s.acquire session handle mode tryOnly reply = r at hr ⊢
  cases hr <;> rfl

/-- Only who opens a handle can make one. -/
theorem nextHandle_perform (s : State ρ) {op : Operation ρ}
    (hop : ∀ session name, op ≠ .openHandle session name) :
    (s.perform op).2.state.nextHandle = s.nextHandle := by
  cases op with
  | createSession now => rfl
  | renew session now => rfl
  | closeSession session =>
    show (s.closeSession session).2.state.nextHandle = _
    rcases s.closeSession_cases session with ⟨-, heq⟩ | ⟨gone, -, heq⟩
    · rw [heq]
      rfl
    · rw [heq]
      exact Turn.nextHandle_detachAll _ _ _ _
  | openHandle session name => exact absurd rfl (hop session name)
  | closeHandle session handle =>
    show (s.closeHandle session handle).2.state.nextHandle = _
    rcases s.closeHandle_cases session handle with ⟨fault, heq⟩ | ⟨-, heq⟩
    · rw [heq]
      rfl
    · rw [heq]
      exact Turn.nextHandle_detach _ _ _ _
  | acquire session handle mode tryOnly reply => exact s.nextHandle_acquire _ _ _ _ _
  | dispatch session payload reply =>
    show (s.dispatch session payload reply).2.state.nextHandle = _
    rcases s.dispatch_cases session payload reply with ⟨request, mode, -, heq⟩ | ⟨fault, -, heq⟩
    · rw [heq]
      exact s.nextHandle_acquire _ _ _ _ _
    · rw [heq]
      rfl
  | release session handle =>
    show (s.release session handle).2.state.nextHandle = _
    rcases s.release_cases session handle with ⟨-, fault, heq⟩ | ⟨x, t, -, hu, heq⟩
    · rw [heq]
      rfl
    · rw [heq]
      exact (Turn.nextHandle_pump _ _).trans hu.nextHandle
  | cancel session handle =>
    show (s.cancel session handle).2.state.nextHandle = _
    rcases s.cancel_cases session handle with ⟨-, heq⟩ | ⟨x, t, -, hw, heq⟩
    · rw [heq]
      rfl
    · rw [heq]
      exact (Turn.nextHandle_pump _ _).trans hw.nextHandle
  | expire now => exact Turn.nextHandle_expireAll _ _

/-- Opening a name that is not in use makes a handle with the next id; otherwise none is made. -/
theorem openHandle_next (s : State ρ) (session : Nat) (name : String) :
    (s.openHandle session name).2.nextHandle = s.nextHandle ∧
        (s.named? name = none → (s.openHandle session name).1 = .error (.sessionExpired session)) ∨
      s.named? name = none ∧ (s.openHandle session name).1 = .ok s.nextHandle ∧
        (s.openHandle session name).2.nextHandle = s.nextHandle + 1 := by
  rcases s.openHandle_cases session name with ⟨-, heq⟩ | ⟨-, heq⟩
  · rw [heq]
    exact .inl ⟨rfl, fun _ => rfl⟩
  · rw [heq]
    unfold ensureHandle
    cases s.named? name with
    | some id => exact .inl ⟨rfl, fun h => by cases h⟩
    | none => exact .inr ⟨rfl, rfl, rfl⟩

end State

/-- Only lock requests come to an outcome. -/
theorem State.perform_ne_outcome (s : State ρ) {op : Operation Unit} (hop : op.asker? = none)
    (reply : ρ) (o : LockOutcome) :
    (s.perform (op.mapReply fun _ => reply)).1 ≠ .outcome o := by
  intro h
  cases op with
  | acquire session handle mode tryOnly reply => cases hop
  | dispatch session payload reply => cases hop
  | createSession now => exact Result.noConfusion h
  | renew session now => exact Result.noConfusion h
  | closeSession session => exact Result.noConfusion h
  | openHandle session name => exact Result.noConfusion h
  | closeHandle session handle => exact Result.noConfusion h
  | release session handle => exact Result.noConfusion h
  | cancel session handle => exact Result.noConfusion h
  | expire now => exact Result.noConfusion h

/-- The handle that a call makes: it opens a name that is not in use. -/
def Call.made? (c : Call) : Option Nat :=
  match c.op, c.result with
  | .openHandle _ name, .opened (.ok handle) =>
    if (c.found.named? name).isNone then some handle else none
  | _, _ => none

/-- A call makes no handle, or one with the next id, and then it tells nothing. -/
theorem Call.made?_make (s : State Nat) (op : Operation Unit) (n : Nat) :
    (make s op n).made? = none ∧ (make s op n).turn.state.nextHandle = s.nextHandle ∨
      (make s op n).made? = some s.nextHandle ∧
        (make s op n).turn.state.nextHandle = s.nextHandle + 1 ∧
        (make s op n).turn.events = [] := by
  by_cases hop : ∃ session name, op = .openHandle session name
  · obtain ⟨session, name, rfl⟩ := hop
    have hmade : (make s (.openHandle session name) n).made? =
        match (s.openHandle session name).1 with
        | .ok handle => if (s.named? name).isNone then some handle else none
        | .error _ => none := by
      cases hr : (s.openHandle session name).1 with
      | ok handle => simp [make, made?, State.perform, Operation.mapReply, hr]
      | error fault => simp [make, made?, State.perform, Operation.mapReply, hr]
    rcases s.openHandle_next session name with ⟨hnext, hnone⟩ | ⟨hfree, hok, hnext⟩
    · refine .inl ⟨?_, hnext⟩
      rw [hmade]
      cases hnamed : s.named? name with
      | none => rw [hnone hnamed]
      | some id => cases (s.openHandle session name).1 <;> rfl
    · refine .inr ⟨?_, hnext, rfl⟩
      rw [hmade, hok, hfree]
      rfl
  · have hother : ∀ session name, (op.mapReply fun _ => n) ≠ .openHandle session name := by
      intro session name heq
      cases op <;> cases heq
      exact hop ⟨_, _, rfl⟩
    refine .inl ⟨?_, s.nextHandle_perform hother⟩
    unfold made? make
    cases op <;> first | rfl | exact absurd ⟨_, _, rfl⟩ hop

/-! ## All runs -/

/-- The tokens that a call hands out for a name. -/
def Call.tokens (c : Call) (name : String) : List (Nat × Nat) :=
  (c.turn.events.filterMap LockEvent.token?).filter fun p =>
    (c.found.handle? p.1).any fun x => x.name == name

/-- No two handles have the same name. -/
theorem Coherent.eq_of_name {lent : Nat → Nat → Prop} {s : State ρ} (hs : Coherent [] lent s)
    {h h' : Nat} {x x' : Handle ρ} (hx : s.handle? h = some x) (hx' : s.handle? h' = some x')
    (hname : x.name = x'.name) : h = h' := by
  have h1 : s.named? x.name = some h := (hs.named _ _).2 ⟨x, hx, rfl⟩
  have h2 : s.named? x.name = some h' := (hs.named _ _).2 ⟨x', hx', hname.symm⟩
  exact Option.some.inj (h1.symm.trans h2)

/-- What a call tells of generations is so, and the handles that it makes are new. -/
structure Call.Accurate (c : Call) : Prop where
  /-- It gives the locks of handles that it finds, so that every grant counts for a name. -/
  found : ∀ handle session mode generation,
    .acquired handle session mode generation ∈ c.turn.events →
      ∃ x, c.found.handle? handle = some x
  /-- Whoever gets a lock is told the generation that the observers are told, grant by grant. -/
  told : c.turn.answers.filterMap (fun p => p.2.generation?) =
    c.turn.events.filterMap LockEvent.generation?
  /-- So is the caller, if the lock is given at once. -/
  returned : ∀ generation, c.result = .outcome (.granted generation) →
    c.turn.events.filterMap LockEvent.generation? = [generation]
  /-- A handle that it makes was not there before. -/
  new : ∀ handle, c.made? = some handle → c.found.handle? handle = none
  /-- A handle that is there only afterwards has been made by it. -/
  only : ∀ handle x, c.turn.state.handle? handle = some x → c.found.handle? handle = none →
    c.made? = some handle

theorem Coherent.accurate {s : State Nat} (hs : Coherent [] (fun _ _ => False) s)
    (op : Operation Unit) (n : Nat) : (Call.make s op n).Accurate := by
  obtain ⟨registered, ds, hdone⟩ := State.carried_perform hs (op.mapReply fun _ => n)
  have hcourse : Course s.shelf ds (Call.make s op n).turn.state.shelf := hdone.did.course
  have hevents : (Call.make s op n).turn.events = ds.filterMap Deed.event? := hdone.did.events
  have hanswers : (Call.make s op n).turn.answers = ds.filterMap Deed.message? :=
    hdone.did.answers
  have htold : (Call.make s op n).turn.answers.filterMap (fun p => p.2.generation?) =
      (Call.make s op n).turn.events.filterMap LockEvent.generation? := by
    rw [hanswers, hevents]
    exact hcourse.told
  refine ⟨?_, htold, ?_, ?_, ?_⟩
  · intro handle session mode generation he
    rcases Call.made?_make s op n with ⟨-, hnext⟩ | ⟨-, -, hnone⟩
    · rw [hevents] at he
      exact hcourse.found_of_acquired hs.wf_shelf hnext he
    · rw [hnone] at he
      cases he
  · intro generation hr
    rw [← htold]
    cases hop : op.asker? with
    | none => exact absurd hr (State.perform_ne_outcome s hop _ _)
    | some session =>
      obtain ⟨o, ho, hplaced⟩ := placed_perform (s := s) hop n
      obtain rfl := Result.outcome.inj (ho.symm.trans hr)
      cases hplaced with
      | answered a agrees answers queue gave =>
        obtain rfl : a = .granted generation := agrees
        show (State.perform s _).2.answers.filterMap _ = _
        rw [answers]
        rfl
  · intro handle hm
    rcases Call.made?_make s op n with ⟨hnone, -⟩ | ⟨hmade, -, -⟩
    · rw [hnone] at hm
      cases hm
    · rw [hmade] at hm
      obtain rfl := Option.some.inj hm
      exact hs.next_handle_free
  · intro handle y hy hfree
    have hlt := (hcourse.wf hs.wf_shelf handle y hy).2
    have hold : s.nextHandle ≤ handle := by
      by_contra hlt'
      obtain ⟨x, hx, -⟩ := hcourse.keeps.name handle y hy (Nat.lt_of_not_le hlt')
      exact Option.some_ne_none x (hx.symm.trans hfree)
    have hlt : handle < (Call.make s op n).turn.state.nextHandle := hlt
    rcases Call.made?_make s op n with ⟨-, hnext⟩ | ⟨hmade, hnext, -⟩
    · omega
    · rw [hmade]
      congr 1
      omega

namespace Traffic

/-- The tokens that have been handed out for a name, in the order of the grants. -/
def tokens (t : Traffic) (name : String) : List (Nat × Nat) := t.calls.flatMap (·.tokens name)

/-- The ids of the handles that have been made, in order. -/
def made (t : Traffic) : List Nat := t.calls.filterMap Call.made?

/-- The states between the calls, the first and the last included. -/
def states (t : Traffic) : List (State Nat) := t.calls.map (·.found) ++ [t.state]

/-- Grants serve as fencing tokens. -/
structure Fenced (t : Traffic) : Prop where
  /-- The tokens of a name increase in lexicographic order, whatever becomes of its handles. -/
  increasing : ∀ name, (t.tokens name).Pairwise (Prod.Lex (· < ·) (· < ·))
  /-- The generation in which a lock is given is the number of the exclusive grants of the handle,
  with the present one if it is exclusive. -/
  counted : ∀ before after handle session mode generation,
    t.stream = before ++ .acquired handle session mode generation :: after →
      generation = exclusives handle (before ++ [.acquired handle session mode generation])
  /-- All calls tell the generations as they are. -/
  accurate : ∀ c ∈ t.calls, c.Accurate
  /-- New handles have higher ids than all before them. -/
  ascending : t.made.Pairwise (· < ·)
  /-- From when it is made until it goes for good a handle has one name: an id that is used in two
  states is used for the same handle in all states between them. -/
  life : ∀ s u s', [s, u, s'].Sublist t.states → ∀ handle x z,
    s.handle? handle = some x → s'.handle? handle = some z →
      ∃ y, u.handle? handle = some y ∧ y.name = x.name ∧ y.name = z.name

/-- The books on the handles of a run are in order. -/
structure Register (t : Traffic) : Prop where
  /-- All calls tell the generations as they are. -/
  accurate : ∀ c ∈ t.calls, c.Accurate
  /-- The ids of the tokens of a name are not above the id of the handle that has the name now. -/
  latest : ∀ name, ∀ p ∈ t.tokens name, p.1 < t.state.nextHandle ∧
    ∀ h x, t.state.handle? h = some x → x.name = name → p.1 ≤ h
  /-- The ids of the tokens of a name do not go back. -/
  climbing : ∀ name, (t.tokens name).Pairwise fun p q => p.1 ≤ q.1
  /-- The ids that have been given to handles are used up. -/
  used : ∀ h ∈ t.made, h < t.state.nextHandle
  /-- They have been given in order. -/
  ascending : t.made.Pairwise (· < ·)
  /-- The states so far are coherent. -/
  coherent : ∀ s ∈ t.states, Coherent [] (fun _ _ => False) s
  /-- Handles keep their names. -/
  keeps : t.states.Pairwise fun s s' => s.shelf.Keeps s'.shelf

variable {t : Traffic}

namespace Register

theorem start (lease : Nat) : Register (Traffic.start lease) where
  accurate := fun c hc => by cases hc
  latest := fun name p hp => by cases hp
  climbing := fun name => List.Pairwise.nil
  used := fun h hh => by cases hh
  ascending := List.Pairwise.nil
  coherent := fun s hs => by
    rw [List.mem_singleton.1 hs]
    exact coherent_empty lease
  keeps := List.pairwise_singleton _ _

theorem state (hr : Register t) : Coherent [] (fun _ _ => False) t.state :=
  hr.coherent _ (List.mem_append_right _ (List.mem_singleton.2 rfl))

/-- The handle of a token that a call hands out for a name has this name. -/
theorem handle_of_tokens {s : State Nat} {op : Operation Unit} {n : Nat} {name : String}
    {p : Nat × Nat} (hp : p ∈ (Call.make s op n).tokens name) :
    ∃ y, s.handle? p.1 = some y ∧ y.name = name := by
  have hfound : (s.handle? p.1).any (fun x => x.name == name) = true := (List.mem_filter.1 hp).2
  obtain ⟨y, hy, hname⟩ := (Option.any_eq_true _ _).1 hfound
  exact ⟨y, hy, beq_iff_eq.1 hname⟩

theorem keeps_call (hs : Coherent [] (fun _ _ => False) t.state) (op : Operation Unit) :
    t.state.shelf.Keeps (t.next (.call op)).state.shelf := by
  obtain ⟨registered, ds, hdone⟩ := State.carried_perform hs (op.mapReply fun _ => t.calls.length)
  exact hdone.did.course.keeps

theorem tokens_call (t : Traffic) (op : Operation Unit) (name : String) :
    (t.next (.call op)).tokens name =
      t.tokens name ++ (Call.make t.state op t.calls.length).tokens name := by
  show (t.calls ++ [Call.make t.state op t.calls.length]).flatMap _ = _
  rw [List.flatMap_append, List.flatMap_singleton]
  rfl

theorem made_call (t : Traffic) (op : Operation Unit) :
    (t.next (.call op)).made = t.made ++ (Call.make t.state op t.calls.length).made?.toList := by
  show (t.calls ++ [Call.make t.state op t.calls.length]).filterMap _ = _
  rw [List.filterMap_append, List.filterMap_cons]
  cases (Call.make t.state op t.calls.length).made? <;> rfl

theorem states_call (t : Traffic) (op : Operation Unit) :
    (t.next (.call op)).states = t.states ++ [(t.next (.call op)).state] := by
  show (t.calls ++ [Call.make t.state op t.calls.length]).map _ ++ _ = _
  rw [List.map_append]
  rfl

/-- Tokens that come with a call and those before are all below the handle that has the name before
the call. -/
theorem below_call (hr : Register t) {op : Operation Unit} {name : String} {p : Nat × Nat}
    (hp : p ∈ (t.next (.call op)).tokens name) : p.1 < t.state.nextHandle ∧
      ∀ h x, t.state.handle? h = some x → x.name = name → p.1 ≤ h := by
  rw [tokens_call] at hp
  rcases List.mem_append.1 hp with hp | hp
  · exact hr.latest name p hp
  · obtain ⟨y, hy, hyname⟩ := handle_of_tokens hp
    refine ⟨hr.state.handle_lt _ y hy, fun h x hx hname => Nat.le_of_eq ?_⟩
    exact hr.state.eq_of_name hy hx (hyname.trans hname.symm)

theorem latest_call (hr : Register t) {op : Operation Unit} {name : String} {p : Nat × Nat}
    (hp : p ∈ (t.next (.call op)).tokens name) : p.1 < (t.next (.call op)).state.nextHandle ∧
      ∀ h x, (t.next (.call op)).state.handle? h = some x → x.name = name → p.1 ≤ h := by
  have hkeeps := keeps_call hr.state op
  obtain ⟨hlt, hbelow⟩ := hr.below_call hp
  refine ⟨Nat.lt_of_lt_of_le hlt hkeeps.next, fun h y hy hname => ?_⟩
  rcases Nat.lt_or_ge h t.state.nextHandle with hold | hnew
  · obtain ⟨x, hx, hxy⟩ := hkeeps.name h y hy hold
    exact hbelow h x hx (hxy.trans hname)
  · exact Nat.le_of_lt (Nat.lt_of_lt_of_le hlt hnew)

theorem climbing_call (hr : Register t) (op : Operation Unit) (name : String) :
    ((t.next (.call op)).tokens name).Pairwise fun p q => p.1 ≤ q.1 := by
  have hle : ∀ p ∈ (t.next (.call op)).tokens name,
      ∀ q ∈ (Call.make t.state op t.calls.length).tokens name, p.1 ≤ q.1 := by
    intro p hp q hq
    obtain ⟨x, hx, hname⟩ := handle_of_tokens hq
    exact (hr.below_call hp).2 q.1 x hx hname
  rw [tokens_call] at hle
  rw [tokens_call, List.pairwise_append]
  refine ⟨hr.climbing name, ?_, fun p hp => hle p (List.mem_append_left _ hp)⟩
  exact List.pairwise_of_forall_mem_list fun p hp => hle p (List.mem_append_right _ hp)

/-- A handle that a call makes gets the next id. -/
theorem made_eq {op : Operation Unit} {h : Nat}
    (hmade : (Call.make t.state op t.calls.length).made? = some h) :
    h = t.state.nextHandle ∧ h < (t.next (.call op)).state.nextHandle := by
  rcases Call.made?_make t.state op t.calls.length with ⟨hnone, -⟩ | ⟨hsome, hnext, -⟩
  · rw [hnone] at hmade
    cases hmade
  · obtain rfl := Option.some.inj (hsome.symm.trans hmade)
    exact ⟨rfl, hnext ▸ Nat.lt_succ_self _⟩

theorem ascending_call (hr : Register t) (op : Operation Unit) :
    (t.next (.call op)).made.Pairwise (· < ·) := by
  rw [made_call, List.pairwise_append]
  refine ⟨hr.ascending, ?_, ?_⟩
  · cases (Call.make t.state op t.calls.length).made? with
    | none => exact List.Pairwise.nil
    | some h => exact List.pairwise_singleton _ _
  · intro h hh h' hh'
    rw [(made_eq (Option.mem_toList.1 hh')).1]
    exact hr.used h hh

theorem keeps_states_call (hr : Register t) (op : Operation Unit) :
    (t.next (.call op)).states.Pairwise fun s s' => s.shelf.Keeps s'.shelf := by
  have hkeeps := keeps_call hr.state op
  rw [states_call, List.pairwise_append]
  refine ⟨hr.keeps, List.pairwise_singleton _ _, fun s hs s' hs' => ?_⟩
  rw [List.mem_singleton.1 hs']
  rcases List.mem_append.1 hs with hbefore | hlast
  · have hold := (List.pairwise_append.1 hr.keeps).2.2 s hbefore t.state
      (List.mem_singleton.2 rfl)
    exact hold.trans hkeeps
  · rw [List.mem_singleton.1 hlast]
    exact hkeeps

/-- A call is made. -/
theorem call (hr : Register t) (op : Operation Unit) : Register (t.next (.call op)) where
  accurate := by
    intro c hc
    rcases List.mem_append.1 hc with hc | hc
    · exact hr.accurate c hc
    · rw [List.mem_singleton.1 hc]
      exact hr.state.accurate op t.calls.length
  latest := fun _ _ hp => hr.latest_call hp
  climbing := hr.climbing_call op
  used := by
    intro h hh
    rw [made_call] at hh
    rcases List.mem_append.1 hh with hh | hh
    · exact Nat.lt_of_lt_of_le (hr.used h hh) (keeps_call hr.state op).next
    · exact (made_eq (Option.mem_toList.1 hh)).2
  ascending := hr.ascending_call op
  coherent := by
    intro s hs
    rw [states_call] at hs
    rcases List.mem_append.1 hs with hs | hs
    · exact hr.coherent s hs
    · rw [List.mem_singleton.1 hs]
      exact hr.state.perform _
  keeps := hr.keeps_states_call op

theorem next (hr : Register t) (move : Move) : Register (t.next move) := by
  cases move with
  | call op => exact hr.call op
  | receive i =>
    unfold Traffic.next
    dsimp only
    cases t.underWay[i]? with
    | none => exact hr
    | some d => exact { hr with }

theorem run (hr : Register t) (moves : List Move) : Register (t.run moves) := by
  induction moves generalizing t with
  | nil => exact hr
  | cons move rest ih => exact ih (hr.next move)

/-- A handle that is there in two states is there in all states between them. -/
theorem life (hr : Register t) {s u s' : State Nat} (hsub : [s, u, s'].Sublist t.states)
    {handle : Nat} {x z : Handle Nat} (hx : s.handle? handle = some x)
    (hz : s'.handle? handle = some z) :
    ∃ y, u.handle? handle = some y ∧ y.name = x.name ∧ y.name = z.name := by
  have hpairs := hr.keeps.sublist hsub
  rw [List.pairwise_cons, List.pairwise_cons] at hpairs
  have hsu := hpairs.1 u List.mem_cons_self
  have hus := hpairs.2.1 s' (List.mem_singleton.2 rfl)
  have hlt := (hr.coherent s (hsub.subset List.mem_cons_self)).handle_lt handle x hx
  obtain ⟨y, hy, hyz⟩ := hus.name handle z hz (Nat.lt_of_lt_of_le hlt hsu.next)
  obtain ⟨x', hx', hxy⟩ := hsu.name handle y hy hlt
  obtain rfl := Option.some.inj (hx'.symm.trans hx)
  exact ⟨y, hy, hxy.symm, hyz⟩

end Register

/-- The tokens of a name are tokens of the run. -/
theorem tokens_sublist (t : Traffic) (name : String) :
    (t.tokens name).Sublist (t.stream.filterMap LockEvent.token?) := by
  unfold tokens stream
  induction t.calls with
  | nil => exact .refl _
  | cons c rest ih =>
    rw [List.flatMap_cons, List.flatMap_cons, List.filterMap_append]
    exact List.filter_sublist.append ih

/-- Grants serve as fencing tokens in every run: the tokens of a name increase. -/
theorem fenced (lease : Nat) (moves : List Move) : ((start lease).run moves).Fenced := by
  obtain ⟨ds, hc⟩ := exists_chronicle lease moves
  have hr := (Register.start lease).run moves
  have hempty : Shelf.Wf (⟨∅, 1⟩ : Shelf Nat) := fun h x hx => by cases hx
  obtain ⟨b, hreplay, -⟩ := hc.course.replay? hempty Board.shows_blank
  rw [← hc.events] at hreplay
  refine ⟨fun name => ?_, ?_, hr.accurate, hr.ascending, ?_⟩
  · -- the handles never go back, and on one handle the generations increase
    have hgenerations := (Board.ascending_of_replay? hreplay).1.sublist (tokens_sublist _ name)
    refine ((hr.climbing name).and hgenerations).imp fun {p q} hpq => ?_
    rcases Nat.lt_or_eq_of_le hpq.1 with hlt | heq
    · exact Prod.lex_def.2 (.inl hlt)
    · exact Prod.lex_def.2 (.inr ⟨heq, hpq.2 heq⟩)
  · intro before after handle session mode generation hsplit
    have hcount := Board.counted_of_replay? hreplay before hsplit
    exact hcount.trans (Nat.zero_add _)
  · exact fun s u s' hsub handle x z hx hz => hr.life hsub hx hz

/-- A name is closed and opened again: the generations begin anew, on a higher handle. -/
example : ((start 1000).run
    [.call (.createSession 0), .call (.openHandle 1 "a"), .call (.acquire 1 1 .exclusive false ()),
      .call (.release 1 1), .call (.acquire 1 1 .exclusive false ()), .call (.closeHandle 1 1),
      .call (.openHandle 1 "a"), .call (.acquire 1 2 .exclusive false ())]).tokens "a" =
    [(1, 1), (1, 2), (2, 1)] := by
  decide +kernel

end Traffic

end LeaseLock.Coordinator
