import LeaseLock.Proofs.Coordinator.WakeUp
import LeaseLock.Proofs.Coordinator.Request

/-
  LeaseLock: the end of leases, all at once.
  `State.strike` takes a set of sessions out of everything in one stroke.  The sweep does it one
  session and one handle at a time, and serves queues in which other sessions of the set still
  wait.  `State.prospect` tells what will become of a handle once all that is owed has been taken
  out of it; no step of the sweep changes it (`Sweep.detach`), because serving a queue earlier or
  later makes no difference (`Handle.pump_without`).  So the sweep ends where the one stroke does,
  whatever the order of its steps.
-/

namespace LeaseLock.Coordinator

variable {ρ : Type}

/-! ## Handles in use -/

/-- A handle is kept while somebody has it open. -/
def Handle.kept (x : Handle ρ) : Option (Handle ρ) := if x.openers.isEmpty then none else some x

theorem Handle.kept_of_mem {x : Handle ρ} {sid : Nat} (hm : sid ∈ x.openers) : x.kept = some x := by
  unfold kept
  rw [if_neg]
  intro he
  exact Table.isEmpty_iff.1 he sid hm

theorem Handle.kept_eq_some {x y : Handle ρ} :
    x.kept = some y ↔ x = y ∧ ∃ sid, sid ∈ x.openers := by
  unfold kept
  cases he : x.openers.isEmpty with
  | true =>
    have hnone := Table.isEmpty_iff.1 he
    simp only [if_true]
    constructor
    · intro h
      cases h
    · rintro ⟨-, sid, hm⟩
      exact absurd hm (hnone sid)
  | false =>
    obtain ⟨sid, hm⟩ := Table.isEmpty_eq_false_iff.1 he
    simp only [Bool.false_eq_true, if_false, Option.some.injEq]
    constructor
    · intro h
      exact ⟨h, sid, hm⟩
    · rintro ⟨h, -⟩
      exact h

/-! ## Striking sessions off -/

/-- A set of sessions leaves everything at once: the registry, and the holders, the queue and the
openers of every handle.  Handles that nobody has open any more go, with their names. -/
def State.strike (s : State ρ) (gone : Nat → Bool) : State ρ :=
  let struck := s.handles.map fun _ x => x.without gone
  { s with
    sessions := { s.sessions with table := s.sessions.table.filterKeys fun sid => !gone sid }
    handles := struck.filter fun _ x => !x.openers.isEmpty
    names := s.names.filter fun entry =>
      struck.values.all fun x => x.name != entry.1 || !x.openers.isEmpty }

variable {s s' : State ρ} {t t' : Turn ρ} {gone : Nat → Bool} {lent : Nat → Nat → Prop}
  {owed : List (Nat × Nat)}

theorem State.handle?_strike (gone : Nat → Bool) (j : Nat) :
    (s.strike gone).handle? j = (s.handle? j).bind fun x => (x.without gone).kept := by
  unfold State.strike State.handle?
  dsimp only
  rw [Table.get?_filter, Table.get?_map]
  cases s.handles.get? j with
  | none => rfl
  | some x =>
    rw [Option.map_some, Option.bind_some, Option.filter_some, Handle.kept]
    cases (x.without gone).openers.isEmpty <;> rfl

theorem State.handle?_strike_eq_some {j : Nat} {y : Handle ρ} :
    (s.strike gone).handle? j = some y ↔
      ∃ x, s.handle? j = some x ∧ x.without gone = y ∧
        ∃ sid, gone sid = false ∧ sid ∈ x.openers := by
  rw [handle?_strike, Option.bind_eq_some_iff]
  constructor
  · rintro ⟨x, hx, hk⟩
    obtain ⟨hy, sid, hm⟩ := Handle.kept_eq_some.1 hk
    exact ⟨x, hx, hy, sid, Handle.mem_openers_without.1 hm⟩
  · rintro ⟨x, hx, hy, sid, hm⟩
    exact ⟨x, hx, Handle.kept_eq_some.2 ⟨hy, sid, Handle.mem_openers_without.2 hm⟩⟩

/-- A name is kept if its handle is. -/
theorem Coherent.named?_strike (hs : Coherent [] lent s) (n : String) :
    (s.strike gone).named? n = (s.named? n).filter fun h => ((s.strike gone).handle? h).isSome := by
  have hlookup : (s.strike gone).named? n =
      if (s.handles.map fun _ x => x.without gone).values.all
          fun x => x.name != n || !x.openers.isEmpty
        then s.named? n else none :=
    lookup_filter s.names (fun n => (s.handles.map fun _ x => x.without gone).values.all
      fun x => x.name != n || !x.openers.isEmpty) n
  rw [hlookup]
  cases hn : s.named? n with
  | none => rw [ite_self, Option.filter_none]
  | some h =>
    obtain ⟨x, hx, rfl⟩ := (hs.named n h).1 hn
    rw [Option.filter_some]
    congr 1
    rw [Table.all_values_iff, State.handle?_strike, hx, Option.bind_some, eq_iff_iff]
    constructor
    · intro hall
      have hmap : (s.handles.map fun _ z => z.without gone).get? h = some (x.without gone) := by
        rw [Table.get?_map]
        exact congrArg _ hx
      have hself := hall h (x.without gone) hmap
      rw [Handle.kept]
      simp_all [Handle.without]
    · intro hkept k y hy
      rw [Table.get?_map] at hy
      obtain ⟨z, hz, rfl⟩ := Option.map_eq_some_iff.1 hy
      by_cases hname : z.name = x.name
      · -- no other handle bears the name
        have hk : s.named? x.name = some k := (hs.named x.name k).2 ⟨z, hz, hname⟩
        obtain rfl : h = k := Option.some.inj (hn.symm.trans hk)
        obtain rfl : x = z := Option.some.inj (hx.symm.trans hz)
        rw [Handle.kept] at hkept
        simp_all
      · simp [Handle.without, hname]

theorem Coherent.strike (hs : Coherent [] lent s) (gone : Nat → Bool) :
    Coherent [] lent (s.strike gone) := by
  have hopened : ∀ sid h, (s.strike gone).sessions.Opened sid h ↔
      gone sid = false ∧ s.sessions.Opened sid h := fun sid h => by
    refine Sessions.opened_filterKeys.trans ?_
    rw [Bool.not_eq_true']
  have hheld : ∀ sid h, (s.strike gone).sessions.Held sid h ↔
      gone sid = false ∧ s.sessions.Held sid h := fun sid h => by
    refine Sessions.held_filterKeys.trans ?_
    rw [Bool.not_eq_true']
  constructor
  · intro h y hy
    obtain ⟨x, hx, rfl, sid, hm⟩ := State.handle?_strike_eq_some.1 hy
    have hb := hs.booked_nil hx
    refine ⟨hb.wf.without gone, ⟨sid, Handle.mem_openers_without.2 hm⟩, ?_, ?_⟩
    · intro j
      rw [State.opens_nil, hopened, Handle.mem_openers_without, hb.opener_iff]
    · intro j
      rw [State.holds_nil, hheld, Handle.mem_holders_without, hb.holder_iff]
  · intro sid h ho
    rw [State.opens_nil, hopened] at ho
    obtain ⟨x, hx⟩ := hs.handle_of_opened ho.2
    have hopener : sid ∈ x.openers := ((hs.booked_nil hx).opener_iff sid).2 ho.2
    exact ⟨x.without gone, State.handle?_strike_eq_some.2 ⟨x, hx, rfl, sid, ho.1, hopener⟩⟩
  · intro sid h hh
    rw [hheld] at hh
    exact (hopened sid h).2 ⟨hh.1, hs.opened_of_held sid h hh.2⟩
  · intro sid h hm
    cases hm
  · intro sid h hm
    cases hm
  · exact List.nodup_nil
  · intro n h
    rw [hs.named?_strike, Option.filter_eq_some_iff, hs.named, Option.isSome_iff_exists]
    constructor
    · rintro ⟨⟨x, hx, hn⟩, y, hy⟩
      refine ⟨y, hy, ?_⟩
      obtain ⟨z, hz, rfl, -⟩ := State.handle?_strike_eq_some.1 hy
      obtain rfl : x = z := Option.some.inj (hx.symm.trans hz)
      exact hn
    · rintro ⟨y, hy, hn⟩
      obtain ⟨x, hx, rfl, -⟩ := State.handle?_strike_eq_some.1 hy
      exact ⟨⟨x, hx, hn⟩, _, hy⟩
  · intro h y hy
    obtain ⟨x, hx, -⟩ := State.handle?_strike_eq_some.1 hy
    exact hs.handle_lt h x hx
  · intro sid hc
    have hc := (Sessions.contains_filterKeys fun sid => !gone sid).symm.trans hc
    rw [Bool.and_eq_true] at hc
    exact hs.session_lt sid hc.2

/-! ## What will become of a handle -/

/-- What will become of a handle when all that is owed has been taken out of it and its queue has
been served. -/
def Turn.prospect (t : Turn ρ) (owed : List (Nat × Nat)) (j : Nat) : Option (Handle ρ) :=
  (t.state.handle? j).bind fun x =>
    (t.served (x.without fun sid => owed.contains (sid, j))).2.kept

/-- Nothing is owed: the handle stays as it is. -/
theorem Turn.prospect_nil (hs : Coherent [] lent t.state) (hset : t.state.Settled) (j : Nat) :
    t.prospect [] j = t.state.handle? j := by
  unfold prospect
  cases hx : t.state.handle? j with
  | none => rfl
  | some x =>
    obtain ⟨sid, hm⟩ := (hs.booked_nil hx).in_use
    have hnone : x.without (fun sid => [].contains (sid, j)) = x := Handle.without_none fun _ => rfl
    rw [Option.bind_some, hnone, served, Handle.pump_of_settled (hset j x hx),
      Handle.kept_of_mem hm]

/-- Taking one session out of one handle changes nothing about what will become of them. -/
theorem Turn.prospect_detach {d h : Nat} (hs : Coherent ((d, h) :: owed) lent t.state)
    (hgone : ∀ p ∈ owed, t.state.sessions.contains p.1 = false) (reason : ReleaseReason) (j : Nat) :
    (t.detach h d reason).2.prospect owed j = t.prospect ((d, h) :: owed) j := by
  obtain ⟨x, hx⟩ := hs.exists_handle d h (.inr List.mem_cons_self)
  have hr := detached_detach hx d reason
  have hwf := (hs.booked h x hx).wf
  have hreg : (t.detach h d reason).2.state.sessions.contains = t.state.sessions.contains :=
    funext hr.sessions.contains
  unfold prospect served
  rw [hr.handle?, hreg]
  by_cases hj : j = h
  · subst hj
    rw [if_pos rfl, hx, Option.bind_some]
    have hdrop : (x.drop d).without (fun sid => owed.contains (sid, j)) =
        x.without fun sid => ((d, j) :: owed).contains (sid, j) := by
      rw [hwf.drop_eq, Handle.without_without]
      congr 1
      funext sid
      rw [Bool.eq_iff_iff, Bool.or_eq_true, beq_iff_eq, List.contains_iff_mem,
        List.contains_iff_mem, List.mem_cons, Prod.mk.injEq, eq_self, and_true]
    by_cases he : (x.openers.erase d).isEmpty = true
    · -- the handle is destroyed now, and would have been in the end
      rw [if_pos he, Option.bind_none, eq_comm, ← hdrop, Handle.kept, if_pos]
      rw [Handle.pump, Handle.serve_openers, Table.isEmpty_iff]
      intro sid hm
      exact Table.isEmpty_iff.1 he sid (Handle.mem_openers_without.1 hm).2
    · -- serving the queue now makes no difference to serving it in the end
      rw [if_neg he, Option.bind_some, ← hdrop, expelled, served, Handle.pump_without]
      intro sid hm
      exact hgone (sid, j) (List.contains_iff_mem.1 hm)
  · rw [if_neg hj]
    congr 1
    funext y
    have hsame : (fun sid => ((d, h) :: owed).contains (sid, j)) =
        fun sid => owed.contains (sid, j) := by
      funext sid
      rw [Bool.eq_iff_iff, List.contains_iff_mem, List.contains_iff_mem, List.mem_cons,
        Prod.mk.injEq, eq_false hj, and_false, false_or]
    rw [hsame]

/-! ## The steps of a sweep -/

/-- A sweep under way that began in the state `s`: the sessions `gone` have left the registry, and
the pairs `owed` are still to be taken apart. -/
structure Sweep (s : State ρ) (gone : Nat → Bool) (owed : List (Nat × Nat)) (t : Turn ρ) :
    Prop where
  coherent : Coherent owed s.sessions.Held t.state
  departed : ∀ p ∈ owed, t.state.sessions.contains p.1 = false
  sessions : (s.strike gone).sessions.SameButHeld t.state.sessions
  settled : t.state.Settled
  nextHandle : t.state.nextHandle = s.nextHandle
  /-- What will become of the handles is what becomes of them in one stroke. -/
  prospect : ∀ j, t.prospect owed j = (s.handle? j).bind fun x =>
    ((x.without gone).pump (s.strike gone).sessions.contains).2.kept

namespace Sweep

theorem detach {d h : Nat} (hw : Sweep s gone ((d, h) :: owed) t) (reason : ReleaseReason) :
    Sweep s gone owed (t.detach h d reason).2 := by
  obtain ⟨x, hx⟩ := hw.coherent.exists_handle d h (.inr List.mem_cons_self)
  have hr := Turn.detached_detach hx d reason
  have hrest : ∀ p ∈ owed, t.state.sessions.contains p.1 = false := fun p hp =>
    hw.departed p (List.mem_cons_of_mem _ hp)
  refine {
    coherent := hw.coherent.detach reason
    departed := fun p hp => ?_
    sessions := hw.sessions.trans hr.sessions
    settled := hw.settled.detach d h reason
    nextHandle := hr.nextHandle.trans hw.nextHandle
    prospect := fun j => ?_ }
  · rw [hr.sessions.contains]
    exact hrest p hp
  · rw [Turn.prospect_detach hw.coherent hrest]
    exact hw.prospect j

theorem emit (hw : Sweep s gone owed t) (e : LockEvent) : Sweep s gone owed (t.emit e) :=
  { hw with }

/-- All has been taken apart. -/
theorem handle? (hw : Sweep s gone [] t) (j : Nat) :
    t.state.handle? j = (s.handle? j).bind fun x =>
      ((x.without gone).pump (s.strike gone).sessions.contains).2.kept := by
  rw [← hw.prospect j, Turn.prospect_nil hw.coherent hw.settled]

end Sweep

/-! ## Steps in any order -/

/-- Take sessions out of handles, pair by pair. -/
def Turn.detachEach (t : Turn ρ) (reason : ReleaseReason) (pairs : List (Nat × Nat)) : Turn ρ :=
  pairs.foldl (fun t p => (t.detach p.2 p.1 reason).2) t

theorem Sweep.detachEach (reason : ReleaseReason) (pairs : List (Nat × Nat))
    (hw : Sweep s gone pairs t) : Sweep s gone [] (t.detachEach reason pairs) := by
  induction pairs generalizing t with
  | nil => exact hw
  | cons p rest ih => exact ih (hw.detach reason)

theorem Sweep.expireAll (lapsed : List (Nat × Session)) (hw : Sweep s gone (Turn.owes lapsed) t) :
    Sweep s gone [] (t.expireAll lapsed) :=
  Turn.expireAll_induction (P := fun owed t => Sweep s gone owed t)
    (fun _ _ _ _ h => h.detach _) (fun _ _ _ _ h => h.emit _) lapsed hw

/-- Whether a session is registered and its lease has ended. -/
def State.hasLapsed (s : State ρ) (now sid : Nat) : Bool :=
  (s.sessions.get? sid).any (·.lapsed now)

theorem State.contains_lapsed_eq (s : State ρ) (now : Nat) :
    ((s.lapsed now).map (·.1)).contains = s.hasLapsed now := by
  funext sid
  rw [Bool.eq_iff_iff, State.contains_lapsed, hasLapsed, Option.any_eq_true]

/-- The sweep begins: lapsed sessions have left the registry. -/
theorem Sweep.start (hs : Coherent [] lent s) (hset : s.Settled) (now : Nat)
    {pairs : List (Nat × Nat)} (hp : pairs.Perm (Turn.owes (s.lapsed now))) :
    Sweep s (s.hasLapsed now) pairs (.start (s.unregister ((s.lapsed now).map (·.1)))) := by
  have hregistry : (s.strike (s.hasLapsed now)).sessions =
      (s.unregister ((s.lapsed now).map (·.1))).sessions := by
    rw [State.strike, State.unregister, s.contains_lapsed_eq]
  refine {
    coherent := (hs.unregister_lapsed now).perm hp.symm
    departed := ?_
    sessions := ?_
    settled := hset
    nextHandle := rfl
    prospect := ?_ }
  · intro p hm
    show (s.unregister _).sessions.contains p.1 = false
    rw [State.contains_unregister, (State.mem_owes_lapsed.1 (hp.mem_iff.1 hm)).1]
    rfl
  · rw [hregistry]
    exact .refl _
  · intro j
    unfold Turn.prospect
    show (s.handle? j).bind _ = _
    cases hx : s.handle? j with
    | none => rfl
    | some x =>
      have hb := hs.booked_nil hx
      rw [Option.bind_some, Option.bind_some, Turn.served, hregistry]
      rw [hb.wf.without_congr]
      · rfl
      · intro sid hm
        rw [Bool.eq_iff_iff, List.contains_iff_mem, hp.mem_iff, State.mem_owes_lapsed,
          s.contains_lapsed_eq]
        exact and_iff_left ((hb.opener_iff sid).1 hm)

/-! ## Serving all queues -/

/-- Serve the queues of handles, one after another. -/
def Turn.pumpAll (t : Turn ρ) (handles : List Nat) : Turn ρ := handles.foldl pump t

theorem Turn.handle?_pump (t : Turn ρ) (h j : Nat) :
    (t.pump h).state.handle? j =
      if j = h then (t.state.handle? j).map fun x => (t.served x).2 else t.state.handle? j := by
  cases hx : t.state.handle? h with
  | none =>
    rw [pump_of_none hx]
    split
    · subst_vars
      rw [hx]
      rfl
    · rfl
  | some x =>
    rw [State.handle?, (pumped_pump hx).handles, Table.get?_insert]
    split
    · subst_vars
      rw [hx]
      rfl
    · rfl

theorem Turn.nextHandle_pump (t : Turn ρ) (h : Nat) :
    (t.pump h).state.nextHandle = t.state.nextHandle := by
  cases hx : t.state.handle? h with
  | none => rw [pump_of_none hx]
  | some x => exact (pumped_pump hx).nextHandle

theorem Turn.sessions_pumpAll (handles : List Nat) (t : Turn ρ) :
    t.state.sessions.SameButHeld (t.pumpAll handles).state.sessions := by
  induction handles generalizing t with
  | nil => exact .refl _
  | cons h rest ih => exact (t.sessions_pump h).trans (ih _)

theorem Turn.nextHandle_pumpAll (handles : List Nat) (t : Turn ρ) :
    (t.pumpAll handles).state.nextHandle = t.state.nextHandle := by
  induction handles generalizing t with
  | nil => rfl
  | cons h rest ih => exact (ih _).trans (t.nextHandle_pump h)

theorem Coherent.pumpAll (hs : Coherent [] lent t.state) (handles : List Nat) :
    Coherent [] lent (t.pumpAll handles).state := by
  induction handles generalizing t with
  | nil => exact hs
  | cons h rest ih => exact ih (hs.pump h)

/-- Serving the queues of different handles serves each of them once. -/
theorem Turn.handle?_pumpAll {handles : List Nat} (hnd : handles.Nodup) (t : Turn ρ) (j : Nat) :
    (t.pumpAll handles).state.handle? j =
      if j ∈ handles then (t.state.handle? j).map fun x => (t.served x).2
      else t.state.handle? j := by
  induction handles generalizing t with
  | nil => rfl
  | cons h rest ih =>
    obtain ⟨hh, hrest⟩ := List.nodup_cons.1 hnd
    have hreg : (t.pump h).state.sessions.contains = t.state.sessions.contains :=
      funext (t.sessions_pump h).contains
    refine (ih hrest _).trans ?_
    unfold served
    rw [t.handle?_pump, hreg]
    by_cases hj : j = h
    · subst hj
      rw [if_neg hh, if_pos rfl, if_pos List.mem_cons_self]
      rfl
    · rw [if_neg hj]
      simp only [List.mem_cons, hj, false_or]

theorem Handle.kept_pump (x : Handle ρ) (registered : Nat → Bool) :
    (x.kept.map fun y => (y.pump registered).2) = (x.pump registered).2.kept := by
  rw [kept, kept, pump, serve_openers]
  split <;> rfl

/-- Striking sessions off and serving all queues that remain, in any order. -/
theorem State.handle?_strike_pumpAll {handles : List Nat}
    (hp : handles.Perm (s.strike gone).handles.keys) (j : Nat) :
    ((Turn.start (s.strike gone)).pumpAll handles).state.handle? j = (s.handle? j).bind fun x =>
      ((x.without gone).pump (s.strike gone).sessions.contains).2.kept := by
  have hnd : handles.Nodup := hp.nodup_iff.2 (Table.nodup_keys _)
  have hall : ((Turn.start (s.strike gone)).pumpAll handles).state.handle? j =
      ((s.strike gone).handle? j).map fun x =>
        (x.pump (s.strike gone).sessions.contains).2 := by
    refine (Turn.handle?_pumpAll hnd _ j).trans ?_
    split
    · rfl
    · rename_i hj
      rw [hp.mem_iff, Table.mem_keys_iff, Table.not_mem_iff] at hj
      have hnone : (s.strike gone).handle? j = none := hj
      show (s.strike gone).handle? j = _
      rw [hnone]
      rfl
  rw [hall, handle?_strike]
  cases s.handle? j with
  | none => rfl
  | some x => exact Handle.kept_pump _ _

/-! ## One and the same state -/

/-- Two states differ in the counts at most. -/
structure State.Alike (s s' : State ρ) : Prop where
  /-- The same sessions, with the same leases, the same locks and the same open handles. -/
  sessions : s.sessions = s'.sessions
  /-- The same handles, with the same holders, openers, queues and generations. -/
  handles : s.handles = s'.handles
  /-- The same names for the same handles. -/
  named? : ∀ n, s.named? n = s'.named? n
  /-- The same id for the next handle. -/
  nextHandle : s.nextHandle = s'.nextHandle

/-- The handles determine what sessions hold and have open, and the names. -/
theorem Coherent.alike {r : Sessions} (hs : Coherent [] lent s) (hs' : Coherent [] lent s')
    (hhandle : ∀ j, s.handle? j = s'.handle? j) (hr : r.SameButHeld s.sessions)
    (hr' : r.SameButHeld s'.sessions) (hnext : s.nextHandle = s'.nextHandle) : s.Alike s' where
  sessions := by
    refine hr.eq hr' fun sid j => ?_
    refine (hs.consistent.holder_iff sid j).symm.trans
      (Iff.trans ?_ (hs'.consistent.holder_iff sid j))
    rw [hhandle]
  handles := by
    ext1 j
    exact hhandle j
  named? := by
    intro n
    have hsome : ∀ h, s.named? n = some h ↔ s'.named? n = some h := fun h => by
      rw [hs.named, hs'.named, hhandle]
    cases hn : s.named? n with
    | some h => exact ((hsome h).1 hn).symm
    | none =>
      cases hn' : s'.named? n with
      | none => rfl
      | some h =>
        rw [(hsome h).2 hn'] at hn
        cases hn
  nextHandle := hnext

/-- Where a sweep ends, the one stroke ends as well. -/
theorem Sweep.alike_strike (hw : Sweep s gone [] t) (hs : Coherent [] lent s) {handles : List Nat}
    (hp : handles.Perm (s.strike gone).handles.keys) :
    t.state.Alike ((Turn.start (s.strike gone)).pumpAll handles).state := by
  have hstruck : Coherent [] s.sessions.Held
      ((Turn.start (s.strike gone)).pumpAll handles).state :=
    Coherent.pumpAll ((hs.relend _).strike gone) handles
  have hsessions := Turn.sessions_pumpAll handles (.start (s.strike gone))
  refine hw.coherent.alike hstruck ?_ hw.sessions hsessions ?_
  · intro j
    rw [hw.handle?, State.handle?_strike_pumpAll hp]
  · rw [hw.nextHandle, Turn.nextHandle_pumpAll]
    rfl

/-- Two sweeps end in the same state. -/
theorem Sweep.alike (hw : Sweep s gone [] t) (hw' : Sweep s gone [] t') :
    t.state.Alike t'.state := by
  refine hw.coherent.alike hw'.coherent ?_ hw.sessions hw'.sessions ?_
  · intro j
    rw [hw.handle?, hw'.handle?]
  · rw [hw.nextHandle, hw'.nextHandle]

end LeaseLock.Coordinator
