import LeaseLock.Coordinator.Operation
import LeaseLock.Proofs.Coordinator.Turn

/-
  LeaseLock: the books of the coordinator agree.
  Who has a handle open and who holds its lock is recorded twice: in the registry, by session, and
  in the handle itself.  `Coherent owed lent` says that the records agree, also in the middle of an
  operation that ends sessions or closes handles.  `owed` lists the pairs of a session and a handle
  that the registry has given up and the handle has not; `lent` tells which of those locks were
  held.  Taking a session out of a handle strikes one pair from the list (`Coherent.detach`), so
  that every operation ends with nothing owed.
-/

namespace LeaseLock.Coordinator

variable {ρ : Type}

/-! ## A handle and what the registry says of it -/

/-- A handle is well formed and in use, and its openers and holders are the given ones. -/
structure Handle.Booked (x : Handle ρ) (opens holds : Nat → Prop) : Prop where
  wf : x.Wf
  in_use : ∃ sid, sid ∈ x.openers
  opener_iff : ∀ sid, sid ∈ x.openers ↔ opens sid
  holder_iff : ∀ sid, sid ∈ x.holders ↔ holds sid

theorem Handle.Booked.congr {x : Handle ρ} {opens holds opens' holds' : Nat → Prop}
    (hb : x.Booked opens holds) (ho : ∀ sid, opens' sid ↔ opens sid)
    (hh : ∀ sid, holds' sid ↔ holds sid) : x.Booked opens' holds' where
  wf := hb.wf
  in_use := hb.in_use
  opener_iff := fun sid => (hb.opener_iff sid).trans (ho sid).symm
  holder_iff := fun sid => (hb.holder_iff sid).trans (hh sid).symm

/-! ## Names -/

theorem lookup_filter (names : List (String × Nat)) (p : String → Bool) (n : String) :
    (names.filter fun entry => p entry.1).lookup n = if p n then names.lookup n else none := by
  induction names with
  | nil => simp
  | cons entry rest ih =>
    obtain ⟨k, id⟩ := entry
    cases hk : p k with
    | false =>
      have hfilter : ((k, id) :: rest).filter (fun entry => p entry.1) =
          rest.filter fun entry => p entry.1 :=
        List.filter_cons_of_neg (ne_true_of_eq_false hk)
      rw [hfilter, ih, List.lookup_cons]
      by_cases hn : n = k
      · subst hn
        simp [hk]
      · rw [beq_eq_false_iff_ne.2 hn]
    | true =>
      rw [List.filter_cons_of_pos (p := fun entry => p entry.1) (a := (k, id)) hk,
        List.lookup_cons, List.lookup_cons, ih]
      by_cases hn : n = k
      · subst hn
        simp [hk]
      · rw [beq_eq_false_iff_ne.2 hn]

/-- Names and handles are inverse to each other. -/
def State.Named (s : State ρ) : Prop :=
  ∀ n h, s.named? n = some h ↔ ∃ x, s.handle? h = some x ∧ x.name = n

namespace State.Named

variable {s s' : State ρ} {h : Nat} {x y : Handle ρ}

/-- A handle changes, but not its name. -/
theorem replace (hs : s.Named) (hx : s.handle? h = some x)
    (hat : ∀ j, s'.handle? j = if j = h then some y else s.handle? j) (hname : y.name = x.name)
    (hnames : s'.names = s.names) : s'.Named := by
  intro n j
  rw [named?, hnames, hat]
  refine (hs n j).trans ?_
  split
  · rename_i hj
    subst hj
    rw [hx]
    simp [hname]
  · rfl

/-- A handle goes, with its name. -/
theorem remove (hs : s.Named) (hx : s.handle? h = some x)
    (hat : ∀ j, s'.handle? j = if j = h then none else s.handle? j)
    (hnames : s'.names = s.names.filter fun entry => entry.1 != x.name) : s'.Named := by
  intro n j
  rw [named?, hnames, hat, lookup_filter _ (· != x.name)]
  have hxn : s.named? x.name = some h := (hs x.name h).2 ⟨x, hx, rfl⟩
  by_cases hn : n = x.name
  · rw [if_neg (by simp [hn])]
    refine iff_of_false (by simp) ?_
    -- no other handle bears the name
    rintro ⟨z, hz, hzn⟩
    split at hz
    · cases hz
    · rename_i hj
      have hnamed : s.named? n = some j := (hs n j).2 ⟨z, hz, hzn⟩
      rw [hn, hxn] at hnamed
      exact hj (Option.some.inj hnamed).symm
  · rw [if_pos (by simp [hn])]
    refine (hs n j).trans ?_
    split
    · rename_i hj
      subst hj
      rw [hx]
      simp [Ne.symm hn]
    · rfl

/-- A handle with a new name comes. -/
theorem add (hs : s.Named) (hfree : s.handle? h = none) (hnew : s.named? x.name = none)
    (hat : ∀ j, s'.handle? j = if j = h then some x else s.handle? j)
    (hnames : s'.names = s.names ++ [(x.name, h)]) : s'.Named := by
  intro n j
  have hlookup : s'.named? n = (s.named? n).or (if n = x.name then some h else none) := by
    rw [named?, hnames, List.lookup_append]
    congr 1
    rw [List.lookup_cons]
    split
    · rename_i hn
      rw [if_pos (beq_iff_eq.1 hn)]
    · rename_i hn
      rw [if_neg (beq_eq_false_iff_ne.1 hn), List.lookup_nil]
  rw [hlookup, hat]
  have hold := hs n j
  by_cases hj : j = h
  · subst hj
    rw [if_pos rfl]
    have hno : s.named? n ≠ some j := fun heq => by
      obtain ⟨z, hz, -⟩ := hold.1 heq
      rw [hfree] at hz
      cases hz
    by_cases hn : n = x.name
    · subst hn
      simp [hnew]
    · rw [if_neg hn, Option.or_none]
      refine iff_of_false hno ?_
      rintro ⟨z, hz, hzn⟩
      cases hz
      exact hn hzn.symm
  · rw [if_neg hj, ← hold]
    cases s.named? n with
    | some k => rfl
    | none =>
      rw [Option.none_or]
      split
      · simp [Ne.symm hj]
      · rfl

end State.Named

/-! ## Coherent states -/

/-- A session has a handle open, or has not been taken out of it yet. -/
def State.Opens (s : State ρ) (owed : List (Nat × Nat)) (sid h : Nat) : Prop :=
  s.sessions.Opened sid h ∨ (sid, h) ∈ owed

/-- A session holds a lock, or held it and has not been taken out of the handle yet. -/
def State.Holds (s : State ρ) (owed : List (Nat × Nat)) (lent : Nat → Nat → Prop) (sid h : Nat) :
    Prop :=
  s.sessions.Held sid h ∨ (sid, h) ∈ owed ∧ lent sid h

/-- The registry, the handles and their names agree, but for what is owed. -/
structure Coherent (owed : List (Nat × Nat)) (lent : Nat → Nat → Prop) (s : State ρ) : Prop where
  /-- A handle agrees with the registry. -/
  booked : ∀ h x, s.handle? h = some x →
    x.Booked (fun sid => s.Opens owed sid h) fun sid => s.Holds owed lent sid h
  /-- What is open exists. -/
  exists_handle : ∀ sid h, s.Opens owed sid h → ∃ x, s.handle? h = some x
  /-- Only what is open is held. -/
  opened_of_held : ∀ sid h, s.sessions.Held sid h → s.sessions.Opened sid h
  /-- What is owed is not open any more. -/
  not_opened : ∀ sid h, (sid, h) ∈ owed → ¬ s.sessions.Opened sid h
  /-- Sessions that are owed have left the registry, but for one that closes one handle. -/
  owed_alone : ∀ sid h, (sid, h) ∈ owed → s.sessions.contains sid = true → owed = [(sid, h)]
  /-- Nothing is owed twice. -/
  owed_once : owed.Nodup
  /-- Names and handles are inverse to each other. -/
  named : s.Named
  /-- Handle ids are below the next one. -/
  handle_lt : ∀ h x, s.handle? h = some x → h < s.nextHandle
  /-- Session ids are below the next one. -/
  session_lt : ∀ sid, s.sessions.contains sid = true → sid < s.sessions.nextId

theorem State.opens_nil {s : State ρ} {sid h : Nat} :
    s.Opens [] sid h ↔ s.sessions.Opened sid h := by
  simp [State.Opens]

theorem State.holds_nil {s : State ρ} {lent : Nat → Nat → Prop} {sid h : Nat} :
    s.Holds [] lent sid h ↔ s.sessions.Held sid h := by
  simp [State.Holds]

namespace Coherent

variable {owed owed' : List (Nat × Nat)} {lent lent' : Nat → Nat → Prop} {s s' : State ρ}

/-- Where nothing is owed, it does not matter what was held. -/
theorem relend (hs : Coherent [] lent s) (lent' : Nat → Nat → Prop) : Coherent [] lent' s :=
  { hs with
    booked := fun h x hx => (hs.booked h x hx).congr (fun _ => .rfl) fun _ => by
      rw [State.holds_nil, State.holds_nil] }

/-- What is owed may be listed in any order. -/
theorem perm (hs : Coherent owed lent s) (hp : owed.Perm owed') : Coherent owed' lent s where
  booked := fun h x hx => (hs.booked h x hx).congr
    (fun sid => by rw [State.Opens, State.Opens, hp.mem_iff])
    fun sid => by rw [State.Holds, State.Holds, hp.mem_iff]
  exists_handle := fun sid h ho => hs.exists_handle sid h (by
    rw [State.Opens, hp.mem_iff]
    exact ho)
  opened_of_held := hs.opened_of_held
  not_opened := fun sid h ho => hs.not_opened sid h (hp.mem_iff.2 ho)
  owed_alone := fun sid h ho hc => by
    have halone := hs.owed_alone sid h (hp.mem_iff.2 ho) hc
    rw [halone] at hp
    exact List.perm_singleton.1 hp.symm
  owed_once := hp.nodup_iff.1 hs.owed_once
  named := hs.named
  handle_lt := hs.handle_lt
  session_lt := hs.session_lt

theorem booked_nil (hs : Coherent [] lent s) {h : Nat} {x : Handle ρ} (hx : s.handle? h = some x) :
    x.Booked (s.sessions.Opened · h) (s.sessions.Held · h) :=
  (hs.booked h x hx).congr (fun _ => State.opens_nil.symm) fun _ => State.holds_nil.symm

theorem handle_of_opened (hs : Coherent owed lent s) {sid h : Nat} (ho : s.sessions.Opened sid h) :
    ∃ x, s.handle? h = some x :=
  hs.exists_handle sid h (.inl ho)

/-- The registry changes, the handles do not. -/
theorem reregister (hs : Coherent owed lent s) {r : Sessions}
    (hopens : ∀ sid h,
      ({ s with sessions := r } : State ρ).Opens owed' sid h ↔ s.Opens owed sid h)
    (hholds : ∀ sid h,
      ({ s with sessions := r } : State ρ).Holds owed' lent' sid h ↔ s.Holds owed lent sid h)
    (hheld : ∀ sid h, r.Held sid h → r.Opened sid h)
    (hout : ∀ sid h, (sid, h) ∈ owed' → ¬ r.Opened sid h)
    (halone : ∀ sid h, (sid, h) ∈ owed' → r.contains sid = true → owed' = [(sid, h)])
    (honce : owed'.Nodup)
    (hlt : ∀ sid, r.contains sid = true → sid < r.nextId) :
    Coherent owed' lent' { s with sessions := r } where
  booked := fun h x hx => (hs.booked h x hx).congr (fun sid => hopens sid h) fun sid => hholds sid h
  exists_handle := fun sid h ho => hs.exists_handle sid h ((hopens sid h).1 ho)
  opened_of_held := hheld
  not_opened := hout
  owed_alone := halone
  owed_once := honce
  named := hs.named
  handle_lt := hs.handle_lt
  session_lt := hlt

/-- One handle changes or comes, and the registry with it. -/
theorem of_insert (hs : Coherent [] lent s) {h : Nat} {y : Handle ρ}
    (hat : ∀ j, s'.handle? j = if j = h then some y else s.handle? j)
    (hy : y.Booked (s'.sessions.Opened · h) (s'.sessions.Held · h))
    (hopened : ∀ sid j, j ≠ h → (s'.sessions.Opened sid j ↔ s.sessions.Opened sid j))
    (hheld : ∀ sid j, j ≠ h → (s'.sessions.Held sid j ↔ s.sessions.Held sid j))
    (hnamed : s'.Named) (hlt : ∀ j z, s'.handle? j = some z → j < s'.nextHandle)
    (hsession : ∀ sid, s'.sessions.contains sid = true → sid < s'.sessions.nextId) :
    Coherent [] lent s' where
  booked := by
    intro j z hz
    rw [hat] at hz
    split at hz
    · rename_i hj
      subst hj
      obtain rfl := Option.some.inj hz
      exact hy.congr (fun sid => State.opens_nil) fun sid => State.holds_nil
    · rename_i hj
      exact (hs.booked_nil hz).congr (fun sid => State.opens_nil.trans (hopened sid j hj))
        fun sid => State.holds_nil.trans (hheld sid j hj)
  exists_handle := by
    intro sid j ho
    rw [hat]
    split
    · exact ⟨y, rfl⟩
    · rename_i hj
      exact hs.handle_of_opened ((hopened sid j hj).1 (State.opens_nil.1 ho))
  opened_of_held := by
    intro sid j hh
    by_cases hj : j = h
    · subst hj
      have hholder : sid ∈ y.holders := (hy.holder_iff sid).2 hh
      exact (hy.opener_iff sid).1 (hy.wf.holder_opener sid hholder)
    · have hold : s.sessions.Held sid j := (hheld sid j hj).1 hh
      exact (hopened sid j hj).2 (hs.opened_of_held sid j hold)
  not_opened := fun sid j hm => by cases hm
  owed_alone := fun sid j hm => by cases hm
  owed_once := List.nodup_nil
  named := hnamed
  handle_lt := hlt
  session_lt := hsession

/-- One handle changes, without gaining or losing openers, and the registry with it. -/
theorem rehandle (hs : Coherent [] lent s) {h : Nat} {x y : Handle ρ} (hx : s.handle? h = some x)
    (hhandles : s'.handles = s.handles.insert h y) (hnames : s'.names = s.names)
    (hnext : s'.nextHandle = s.nextHandle) (hframe : s.sessions.SameButHeld s'.sessions)
    (hwf : y.Wf) (hname : y.name = x.name) (hopeners : y.openers = x.openers)
    (hholders : ∀ sid, sid ∈ y.holders ↔ s'.sessions.Held sid h)
    (hother : ∀ sid j, j ≠ h → (s'.sessions.Held sid j ↔ s.sessions.Held sid j)) :
    Coherent [] lent s' := by
  have hat : ∀ j, s'.handle? j = if j = h then some y else s.handle? j := by
    intro j
    rw [State.handle?, hhandles, Table.get?_insert]
    rfl
  have hbx := hs.booked_nil hx
  have hnamed : s'.Named := hs.named.replace hx hat hname hnames
  refine hs.of_insert hat ⟨hwf, ?_, ?_, hholders⟩ (fun _ _ _ => hframe.opened) hother hnamed ?_ ?_
  · rw [hopeners]
    exact hbx.in_use
  · intro sid
    rw [hopeners, hframe.opened]
    exact hbx.opener_iff sid
  · intro j z hz
    rw [hnext]
    rw [hat] at hz
    split at hz
    · rename_i hj
      rw [hj]
      exact hs.handle_lt h x hx
    · exact hs.handle_lt j z hz
  · intro sid hc
    rw [hframe.nextId]
    exact hs.session_lt sid ((hframe.contains sid).symm.trans hc)

end Coherent

/-! ## Taking sessions out of handles -/

section Detach

variable {owed : List (Nat × Nat)} {lent : Nat → Nat → Prop} {t : Turn ρ} {d h : Nat}
  {x : Handle ρ} {reason : ReleaseReason} {r : Bool × Turn ρ}

/-- While one session is taken out of a handle, the others that are owed are unregistered. -/
theorem Coherent.not_registered {s : State ρ} (hs : Coherent ((d, h) :: owed) lent s) {sid j : Nat}
    (hm : (sid, j) ∈ owed) : ¬ s.sessions.contains sid = true := by
  intro hc
  have halone := hs.owed_alone sid j (List.mem_cons_of_mem _ hm) hc
  have hrest : owed = [] := (List.cons.inj halone).2
  rw [hrest] at hm
  cases hm

/-- The openers that are left are those who still have the handle open or are still owed. -/
theorem Coherent.mem_openers_erase (hs : Coherent ((d, h) :: owed) lent t.state)
    (hx : t.state.handle? h = some x) (sid : Nat) :
    sid ∈ x.openers.erase d ↔ t.state.Opens owed sid h := by
  have hnew := (List.nodup_cons.1 hs.owed_once).1
  have hclosed := hs.not_opened d h List.mem_cons_self
  rw [Table.mem_erase, (hs.booked h x hx).opener_iff, State.Opens, State.Opens, List.mem_cons,
    Prod.mk.injEq]
  constructor
  · rintro ⟨hne, ho | ⟨heq, -⟩ | hm⟩
    · exact .inl ho
    · exact absurd heq hne
    · exact .inr hm
  · rintro (ho | hm)
    · exact ⟨fun heq => hclosed (heq ▸ ho), .inl ho⟩
    · exact ⟨fun heq => hnew (heq ▸ hm), .inr (.inr hm)⟩

/-- The holders that are left, and those who get the lock now, are the holders of record. -/
theorem Coherent.mem_holders_expelled (hs : Coherent ((d, h) :: owed) lent t.state)
    (hx : t.state.handle? h = some x) (hr : Turn.Detached t h d reason x r) (sid : Nat) :
    sid ∈ (t.expelled x d).2.holders ↔ r.2.state.Holds owed lent sid h := by
  have hnew := (List.nodup_cons.1 hs.owed_once).1
  have hclosed : ¬ t.state.sessions.Held d h := fun hh =>
    hs.not_opened d h List.mem_cons_self (hs.opened_of_held d h hh)
  have hdrop : sid ∈ (x.drop d).holders ↔ t.state.Holds owed lent sid h := by
    show sid ∈ x.holders.erase d ↔ _
    rw [Table.mem_erase, (hs.booked h x hx).holder_iff, State.Holds, State.Holds, List.mem_cons,
      Prod.mk.injEq]
    constructor
    · rintro ⟨hne, hh | ⟨⟨heq, -⟩ | hm, hl⟩⟩
      · exact .inl hh
      · exact absurd heq hne
      · exact .inr ⟨hm, hl⟩
    · rintro (hh | ⟨hm, hl⟩)
      · exact ⟨fun heq => hclosed (heq ▸ hh), .inl hh⟩
      · exact ⟨fun heq => hnew (heq ▸ hm), .inr ⟨.inr hm, hl⟩⟩
  refine Handle.mem_holders_serve.trans ?_
  rw [hdrop, State.Holds, State.Holds, hr.held]
  constructor
  · rintro ((hh | ho) | hg)
    · exact .inl (.inl hh)
    · exact .inr ho
    · exact .inl (.inr ⟨rfl, hg⟩)
  · rintro ((hh | ⟨-, hg⟩) | ho)
    · exact .inl (.inl hh)
    · exact .inr hg
    · exact .inl (.inr ho)

theorem Coherent.wf_expelled (hs : Coherent owed lent t.state) (hx : t.state.handle? h = some x) :
    (t.expelled x d).2.Wf :=
  ((hs.booked h x hx).wf.drop d).pump

theorem Coherent.opens_of_ne {s : State ρ} {sid j : Nat} (hj : j ≠ h) :
    s.Opens ((d, h) :: owed) sid j ↔ s.Opens owed sid j := by
  rw [State.Opens, State.Opens, List.mem_cons, Prod.mk.injEq]
  simp [hj]

theorem Coherent.holds_of_ne {s : State ρ} {sid j : Nat} (hj : j ≠ h) :
    s.Holds ((d, h) :: owed) lent sid j ↔ s.Holds owed lent sid j := by
  rw [State.Holds, State.Holds, List.mem_cons, Prod.mk.injEq]
  simp [hj]

theorem Coherent.opens_detached (hr : Turn.Detached t h d reason x r) {sid j : Nat} :
    r.2.state.Opens owed sid j ↔ t.state.Opens owed sid j := by
  rw [State.Opens, State.Opens, hr.sessions.opened]

theorem Coherent.holds_detached (hr : Turn.Detached t h d reason x r) {sid j : Nat} (hj : j ≠ h) :
    r.2.state.Holds owed lent sid j ↔ t.state.Holds owed lent sid j := by
  rw [State.Holds, State.Holds, hr.held]
  simp [hj]

/-- The handle that the session was taken out of agrees with the registry. -/
theorem Coherent.booked_expelled (hs : Coherent ((d, h) :: owed) lent t.state)
    (hx : t.state.handle? h = some x) (hr : Turn.Detached t h d reason x r)
    (he : ¬ (x.openers.erase d).isEmpty = true) :
    (t.expelled x d).2.Booked (fun sid => r.2.state.Opens owed sid h)
      fun sid => r.2.state.Holds owed lent sid h where
  wf := hs.wf_expelled hx
  in_use := by
    rw [Bool.not_eq_true, Table.isEmpty_eq_false_iff] at he
    rw [Turn.expelled_openers]
    exact he
  opener_iff := by
    intro sid
    rw [Turn.expelled_openers, opens_detached hr]
    exact hs.mem_openers_erase hx sid
  holder_iff := hs.mem_holders_expelled hx hr

/-- Whoever gets the lock of the handle has it open. -/
theorem Coherent.opened_of_gives (hs : Coherent ((d, h) :: owed) lent t.state)
    (hx : t.state.handle? h = some x) {sid : Nat}
    (hg : (t.expelled x d).1.any (·.gives sid) = true) : t.state.sessions.Opened sid h := by
  have hreg : t.state.sessions.contains sid = true := Handle.registered_of_gives hg
  have hm : sid ∈ (t.expelled x d).2.openers :=
    (hs.wf_expelled hx).holder_opener sid (Handle.mem_holders_serve.2 (.inr hg))
  rw [Turn.expelled_openers, hs.mem_openers_erase hx] at hm
  rcases hm with ho | ho
  · exact ho
  · exact absurd hreg (hs.not_registered ho)

theorem Coherent.named_detached (hs : Coherent ((d, h) :: owed) lent t.state)
    (hx : t.state.handle? h = some x) (hr : Turn.Detached t h d reason x r) :
    r.2.state.Named := by
  have hat := hr.handle?
  have hnames := hr.names
  by_cases he : (x.openers.erase d).isEmpty = true
  · simp only [he, if_true] at hat hnames
    exact hs.named.remove hx hat hnames
  · simp only [he] at hat hnames
    exact hs.named.replace hx hat Turn.expelled_name hnames

/-- Taking a session out of a handle settles what is owed of the two. -/
theorem Coherent.of_detached (hs : Coherent ((d, h) :: owed) lent t.state)
    (hx : t.state.handle? h = some x) (hr : Turn.Detached t h d reason x r) :
    Coherent owed lent r.2.state where
  booked := by
    intro j z hz
    rw [hr.handle?] at hz
    split at hz
    · rename_i hj
      subst hj
      split at hz
      · cases hz
      · rename_i he
        obtain rfl := Option.some.inj hz
        exact hs.booked_expelled hx hr he
    · rename_i hj
      exact (hs.booked j z hz).congr
        (fun sid => (opens_detached hr).trans (opens_of_ne hj).symm)
        fun sid => (holds_detached hr hj).trans (holds_of_ne hj).symm
  exists_handle := by
    intro sid j ho
    rw [opens_detached hr] at ho
    rw [hr.handle?]
    split
    · rename_i hj
      subst hj
      rw [← hs.mem_openers_erase hx] at ho
      have hused : (x.openers.erase d).isEmpty = false := Table.isEmpty_eq_false_iff.2 ⟨sid, ho⟩
      rw [if_neg (ne_true_of_eq_false hused)]
      exact ⟨_, rfl⟩
    · rename_i hj
      exact hs.exists_handle sid j ((opens_of_ne hj).2 ho)
  opened_of_held := by
    intro sid j hh
    rw [hr.sessions.opened]
    rw [hr.held] at hh
    rcases hh with hh | ⟨rfl, hg⟩
    · exact hs.opened_of_held sid j hh
    · exact hs.opened_of_gives hx hg
  not_opened := by
    intro sid j hm
    rw [hr.sessions.opened]
    exact hs.not_opened sid j (List.mem_cons_of_mem _ hm)
  owed_alone := by
    intro sid j hm hc
    rw [hr.sessions.contains] at hc
    exact absurd hc (hs.not_registered hm)
  owed_once := (List.nodup_cons.1 hs.owed_once).2
  named := hs.named_detached hx hr
  handle_lt := by
    intro j z hz
    rw [hr.nextHandle]
    rw [hr.handle?] at hz
    split at hz
    · rename_i hj
      rw [hj]
      exact hs.handle_lt h x hx
    · exact hs.handle_lt j z hz
  session_lt := by
    intro sid hc
    rw [hr.sessions.nextId]
    exact hs.session_lt sid ((hr.sessions.contains sid).symm.trans hc)

end Detach

end LeaseLock.Coordinator
