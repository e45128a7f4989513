import LeaseLock.Proofs.Coordinator.Lease
import LeaseLock.Proofs.Session.Book

/-
  LeaseLock: how long sessions last.
  A registry of sessions can be used by itself or by the coordinator.  Both are keepers of leases
  (`Tenure.Keeper`): what an act tells leads from the book of leases before it to the one after it
  (`Tenure.Keeper.Lawful`).  What holds of books along any run then holds of either
  (`Tenure.Keeper.Upheld`, `leases_upheld`).
-/

namespace LeaseLock

/-! ## The book of a registry -/

namespace Tenure.Entry

/-- What the result of a request to begin a session tells; a crash has used up an id. -/
def ofCreate (now : Nat) : Except Crash Nat → List Entry
  | .ok id => [.created id now]
  | .error _ => [.skipped]

/-- What the result of a request to renew a lease tells. -/
def ofRenew (id now : Nat) : Except Failure Nat → List Entry
  | .ok _ => [.renewed id now]
  | .error _ => []

variable {e : Entry} {id now t : Nat}

theorem time_of_mem_ofCreate {result : Except Crash Nat} (he : e ∈ ofCreate now result)
    (ht : e.time? = some t) : t = now := by
  cases result with
  | ok id =>
    obtain rfl := List.mem_singleton.1 he
    exact (Option.some.inj ht).symm
  | error crash =>
    obtain rfl := List.mem_singleton.1 he
    cases ht

theorem time_of_mem_ofRenew {result : Except Failure Nat} (he : e ∈ ofRenew id now result)
    (ht : e.time? = some t) : t = now := by
  cases result with
  | ok expiry =>
    obtain rfl := List.mem_singleton.1 he
    exact (Option.some.inj ht).symm
  | error failure => cases he

end Tenure.Entry

namespace Sessions

open Tenure (Entry Book)

variable {r r' : Sessions} {id now : Nat}

/-- The book of the leases in a registry. -/
def book (r : Sessions) : Book := ⟨r.lease, r.nextId, r.leaseEnd?⟩

theorem SameButHeld.book (h : r.SameButHeld r') : r'.book = r.book := by
  unfold Sessions.book
  rw [h.lease, h.nextId, funext h.leaseEnd?]

theorem book_modify {f : Session → Session} (hf : ∀ o, (f o).expiry = o.expiry) :
    (r.modify id f).book = r.book := by
  have hends : (r.modify id f).leaseEnd? = r.leaseEnd? := by
    funext sid
    unfold leaseEnd?
    rw [get?_modify]
    split
    · rename_i heq
      rw [Option.map_map, heq, show Session.expiry ∘ f = Session.expiry from funext hf]
    · rfl
  unfold book
  rw [hends]
  rfl

theorem pages_create (r : Sessions) (now : Nat) :
    Book.Pages r.book (Entry.ofCreate now (r.create now).1) (r.create now).2.book := by
  unfold create
  dsimp only
  cases hadd : Time.add? now r.lease with
  | none => exact .single .skipped
  | some expiry =>
    obtain ⟨rfl, -⟩ := Time.add?_eq_some_iff.1 hadd
    have hbook : (Sessions.mk (r.table.insert r.nextId
        ⟨now + r.lease, IdSet.empty, IdSet.empty⟩) r.lease (r.nextId + 1)).book =
        { r.book.set r.nextId (some (now + r.lease)) with next := r.nextId + 1 } := by
      refine congrArg (Book.mk r.lease (r.nextId + 1)) (funext fun sid => ?_)
      show ((r.table.insert r.nextId _).get? sid).map Session.expiry = _
      rw [Table.get?_insert, Book.ends_set]
      split <;> rfl
    dsimp only
    rw [hbook]
    exact .single (.created now)

/-- A renewal crashes or is refused if the clock cannot name the new end of the lease. -/
theorem renew_of_late (r : Sessions) (id : Nat) (hlate : Time.limit ≤ now + r.lease) :
    ∃ failure, r.renew id now = (.error failure, r) := by
  unfold renew
  cases r.get? id with
  | none => exact ⟨_, rfl⟩
  | some o =>
    dsimp only
    split
    · exact ⟨_, rfl⟩
    · rw [Time.add?_eq_none_iff.2 hlate]
      exact ⟨_, rfl⟩

theorem reads_renew (hl : r.Live id now) (hlimit : now + r.lease < Time.limit) :
    r.book.Reads (.renewed id now) (r.renew id now).2.book := by
  obtain ⟨expiry, hend, hlt⟩ := live_iff.1 hl
  have hbook : (r.renew id now).2.book = r.book.set id (some (now + r.lease)) := by
    rw [renew_of_live hl hlimit]
    refine congrArg (Book.mk r.lease r.nextId) (funext fun sid => ?_)
    obtain ⟨o, ho⟩ := contains_iff.1 hl.contains
    rw [leaseEnd?, get?_modify, ho]
    split <;> rfl
  rw [hbook]
  exact .renewed hend hlt

theorem pages_renew (r : Sessions) (id now : Nat) :
    Book.Pages r.book (Entry.ofRenew id now (r.renew id now).1) (r.renew id now).2.book := by
  by_cases hlate : Time.limit ≤ now + r.lease
  · obtain ⟨failure, heq⟩ := r.renew_of_late id hlate
    rw [heq]
    exact .nil _
  · by_cases hl : r.Live id now
    · have hreads := reads_renew hl (Nat.lt_of_not_le hlate)
      rw [renew_of_live hl (Nat.lt_of_not_le hlate)] at hreads ⊢
      exact .single hreads
    · rw [renew_of_not_live hl]
      exact .nil _

theorem reads_remove (hc : r.contains id = true) :
    r.book.Reads (.closed id) (r.remove id).2.book := by
  obtain ⟨o, ho⟩ := contains_iff.1 hc
  have hend : r.leaseEnd? id = some o.expiry := by rw [leaseEnd?, ho, Option.map_some]
  have hbook : (r.remove id).2.book = r.book.set id none := by
    refine congrArg (Book.mk r.lease r.nextId) (funext fun sid => ?_)
    show ((r.table.erase id).get? sid).map Session.expiry = _
    rw [Table.get?_erase]
    split <;> rfl
  rw [hbook]
  exact .closed hend

/-- Several sessions are closed. -/
theorem pages_unregister {ids : List Nat} (hnd : ids.Nodup)
    (hc : ∀ id ∈ ids, r.contains id = true) :
    Book.Pages r.book (ids.map .closed)
      ({ r with table := r.table.filterKeys fun id => !ids.contains id } : Sessions).book := by
  induction ids generalizing r with
  | nil =>
    have hsame : (r.table.filterKeys fun id => !([] : List Nat).contains id) = r.table := by
      ext1 sid
      rw [Table.get?_filterKeys]
      rfl
    rw [hsame]
    exact .nil _
  | cons id rest ih =>
    rw [List.nodup_cons] at hnd
    have hfirst := reads_remove (hc id List.mem_cons_self)
    have hrest := ih (r := (r.remove id).2) hnd.2 fun j hj => by
      have hne : j ≠ id := fun heq => hnd.1 (heq ▸ hj)
      have hj := hc j (List.mem_cons_of_mem _ hj)
      rw [contains, Table.contains] at hj ⊢
      rwa [remove, Table.get?_erase_of_ne _ hne]
    have htable : (r.table.filterKeys fun j => !(id :: rest).contains j) =
        (r.table.erase id).filterKeys fun j => !rest.contains j := by
      ext1 sid
      rw [Table.get?_filterKeys, Table.get?_filterKeys, Table.get?_erase, List.contains_cons]
      by_cases hsid : sid = id <;> simp [hsid]
    rw [htable]
    exact .cons hfirst hrest

/-- The sessions whose leases have ended are found in ascending order. -/
theorem mem_lapsed : id ∈ r.lapsed now ↔
    ∃ expiry, r.leaseEnd? id = some expiry ∧ expiry ≤ now := by
  have hget : r.get? id = r.table.get? id := rfl
  rw [lapsed, Table.mem_keys_iff, Table.mem_iff_get?, Table.get?_filter, leaseEnd?, hget]
  cases r.table.get? id with
  | none => simp
  | some o => simp [Session.lapsed]

theorem pairwise_lapsed (r : Sessions) (now : Nat) : (r.lapsed now).Pairwise (· < ·) :=
  Table.keys_ascending _

end Sessions

/-! ## Keepers -/

namespace Tenure

/-- Something that keeps sessions: it has states and can be acted upon. -/
structure Keeper (σ α : Type) where
  /-- The sessions in a state. -/
  registry : σ → Sessions
  /-- The state after an act. -/
  next : σ → α → σ
  /-- What an act does to leases, as far as its result tells. -/
  told : σ → α → List Entry
  /-- The time of an act that looks at the clock. -/
  time? : α → Option Nat
  /-- The act that asks to renew a lease at some time. -/
  renewal : Nat → Nat → α
  /-- Its result: the new end of the lease. -/
  renewed : σ → Nat → Nat → Except Failure Nat
  /-- What a sweep at some time finds. -/
  swept : σ → Nat → List Nat

namespace Keeper

variable {σ α : Type} (k : Keeper σ α)

/-- The state after acts, one after another. -/
def after (s : σ) (acts : List α) : σ := acts.foldl k.next s

/-- What acts tell, one after another. -/
def log (s : σ) : List α → List Entry
  | [] => []
  | a :: rest => k.told s a ++ log (k.next s a) rest

/-- The time after acts, given the time before. -/
def clock (now : Nat) (acts : List α) : Nat := acts.foldl (fun now a => (k.time? a).getD now) now

/-- The times of acts do not decrease. -/
def Orderly (now : Nat) : List α → Prop
  | [] => True
  | a :: rest => now ≤ (k.time? a).getD now ∧ Orderly ((k.time? a).getD now) rest

instance decidableOrderly : (now : Nat) → (acts : List α) → Decidable (k.Orderly now acts)
  | _, [] => inferInstanceAs (Decidable True)
  | now, a :: rest =>
    have := decidableOrderly ((k.time? a).getD now) rest
    inferInstanceAs (Decidable (_ ∧ k.Orderly ((k.time? a).getD now) rest))

/-- When the lease of an open session ends in a state. -/
def leaseEnd? (s : σ) (id : Nat) : Option Nat := (k.registry s).leaseEnd? id

/-- What a keeper has to see to with every single act. -/
structure Lawful : Prop where
  /-- What an act tells is what happens to the leases. -/
  pages : ∀ s a, Book.Pages (k.registry s).book (k.told s a) (k.registry (k.next s a)).book
  /-- It happens at the time of the act. -/
  timed : ∀ s a, ∀ e ∈ k.told s a, ∀ t, e.time? = some t → k.time? a = some t
  /-- A lease that has not ended is renewed, if the clock can name its new end. -/
  renews : ∀ s id now, (k.registry s).Live id now → now + (k.registry s).lease < Time.limit →
    k.renewed s id now = .ok (now + (k.registry s).lease) ∧
      k.told s (k.renewal id now) = [.renewed id now]
  /-- One that has ended is not, and nothing happens. -/
  refuses : ∀ s id now, ¬ (k.registry s).Live id now →
    k.renewed s id now = .error (.refused (.sessionExpired id)) ∧
      k.told s (k.renewal id now) = [] ∧ k.next s (k.renewal id now) = s
  /-- A sweep finds the leases that have ended. -/
  sweeps : ∀ s now, (k.swept s now).Pairwise (· < ·) ∧
    ∀ id, id ∈ k.swept s now ↔ ∃ expiry, k.leaseEnd? s id = some expiry ∧ expiry ≤ now

/-- What holds of leases after acts. -/
structure Upheld (s : σ) (acts : List α) : Prop where
  /-- A lease ends one lease after it has been started last. -/
  expiry : ∀ id, k.leaseEnd? (k.after s acts) id =
    (lastStart? id (k.log s acts)).map (· + (k.registry s).lease)
  /-- The end of a lease never comes nearer. -/
  later : ∀ before rest, acts = before ++ rest → ∀ id expiry expiry',
    k.leaseEnd? (k.after s before) id = some expiry →
    k.leaseEnd? (k.after s acts) id = some expiry' → expiry ≤ expiry'
  /-- A session whose lease has not ended can renew it, if the clock can name its new end; then it
  ends one lease later. -/
  renews : ∀ id now, (k.registry (k.after s acts)).Live id now →
    now + (k.registry s).lease < Time.limit →
    k.renewed (k.after s acts) id now = .ok (now + (k.registry s).lease) ∧
      k.leaseEnd? (k.next (k.after s acts) (k.renewal id now)) id =
        some (now + (k.registry s).lease)
  /-- No other session can, and the attempt changes nothing. -/
  refuses : ∀ id now, ¬ (k.registry (k.after s acts)).Live id now →
    k.renewed (k.after s acts) id now = .error (.refused (.sessionExpired id)) ∧
      k.next (k.after s acts) (k.renewal id now) = k.after s acts
  /-- When the time has come for a lease to end, it never runs again. -/
  ended : ∀ before rest, acts = before ++ rest → ∀ id expiry,
    k.leaseEnd? (k.after s before) id = some expiry → expiry ≤ k.clock 0 before →
    ∀ now, k.clock 0 before ≤ now → ¬ (k.registry (k.after s acts)).Live id now
  /-- Then the next sweep finds it, unless the session has been closed meanwhile. -/
  found : ∀ before rest, acts = before ++ rest → ∀ id expiry,
    k.leaseEnd? (k.after s before) id = some expiry → expiry ≤ k.clock 0 before →
    .closed id ∉ k.log (k.after s before) rest →
    ∀ now, k.clock 0 before ≤ now → id ∈ k.swept (k.after s acts) now
  /-- A sweep finds, in ascending order, the sessions whose leases have ended, and no other. -/
  sweeps : ∀ now, (k.swept (k.after s acts) now).Pairwise (· < ·) ∧
    ∀ id, id ∈ k.swept (k.after s acts) now ↔
      ∃ expiry, k.leaseEnd? (k.after s acts) id = some expiry ∧ expiry ≤ now
  /-- Ids are given out in ascending order. -/
  ascending : (issued (k.log s acts)).Pairwise (· < ·)
  /-- A session that has been closed is not open, and its id is not given out again. -/
  gone : ∀ before rest, acts = before ++ rest → ∀ id, .closed id ∈ k.log s before →
    k.leaseEnd? (k.after s acts) id = none ∧ id ∉ issued (k.log (k.after s before) rest)

variable {k} {s : σ} {acts before rest : List α} {now : Nat}

theorem after_append (s : σ) (before rest : List α) :
    k.after s (before ++ rest) = k.after (k.after s before) rest := List.foldl_append

theorem orderly_append : k.Orderly now (before ++ rest) ↔
    k.Orderly now before ∧ k.Orderly (k.clock now before) rest := by
  induction before generalizing now with
  | nil => exact ⟨fun h => ⟨trivial, h⟩, And.right⟩
  | cons a before ih =>
    simp only [List.cons_append, Orderly, ih, and_assoc]
    rfl

namespace Lawful

variable (hk : k.Lawful)

include hk

/-- What acts tell leads from the book before them to the book after them. -/
theorem pages_after (s : σ) (acts : List α) :
    Book.Pages (k.registry s).book (k.log s acts) (k.registry (k.after s acts)).book := by
  induction acts generalizing s with
  | nil => exact .nil _
  | cons a rest ih => exact (hk.pages s a).append (ih (k.next s a))

/-- Acts do not bring the ends of leases nearer, nor start a lease that has ended. -/
theorem follows_after (h : k.Orderly now acts)
    (hends : (k.registry s).book.EndsBy now) :
    Book.Follows now (k.registry s).book (k.registry (k.after s acts)).book ∧
      (k.registry (k.after s acts)).book.EndsBy (k.clock now acts) := by
  induction acts generalizing s now with
  | nil => exact ⟨.refl _ _, hends⟩
  | cons a rest ih =>
    have hfirst := (hk.pages s a).follows (hends.mono h.1) fun e he t ht => by
      rw [hk.timed s a e he t ht, Option.getD_some]
    have hrest := ih h.2 hfirst.2
    exact ⟨(hfirst.1.mono h.1).trans hrest.1 h.1, hrest.2⟩

/-- A renewal that is told of has moved the end of the lease. -/
theorem leaseEnd?_renewal {id : Nat} (htold : k.told s (k.renewal id now) = [.renewed id now]) :
    k.leaseEnd? (k.next s (k.renewal id now)) id = some (now + (k.registry s).lease) := by
  have hpages := hk.pages s (k.renewal id now)
  rw [htold] at hpages
  cases hpages with
  | cons first later =>
    have hbook := later.eq_of_nil
    show (k.registry _).book.ends id = _
    rw [hbook]
    exact first.ends_of_renewed

/-- What is known of the states on the way of a run. -/
theorem on_the_way (h : k.Orderly 0 (before ++ rest))
    (hwf : (k.registry s).book.Wf) (hends : (k.registry s).book.EndsBy 0) :
    (k.registry (k.after s before)).book.Wf ∧
    Book.Pages (k.registry (k.after s before)).book (k.log (k.after s before) rest)
      (k.registry (k.after s (before ++ rest))).book ∧
    Book.Follows (k.clock 0 before) (k.registry (k.after s before)).book
      (k.registry (k.after s (before ++ rest))).book := by
  obtain ⟨hbefore, hrest⟩ := orderly_append.1 h
  rw [after_append]
  exact ⟨(hk.pages_after s before).wf hwf, hk.pages_after _ rest,
    (hk.follows_after hrest (hk.follows_after hbefore hends).2).1⟩

/-- What a keeper sees to with every act is upheld by every run that starts without sessions. -/
theorem upheld (hnone : (k.registry s).leaseEnd? = fun _ => none)
    (h : k.Orderly 0 acts) : k.Upheld s acts := by
  have hempty : (k.registry s).book.ends = fun _ => none := hnone
  have hwf : (k.registry s).book.Wf := fun id expiry he => by rw [hempty] at he; cases he
  have hends : (k.registry s).book.EndsBy 0 := fun id expiry he => by rw [hempty] at he; cases he
  have hpages := hk.pages_after s acts
  have hlease : (k.registry (k.after s acts)).lease = (k.registry s).lease := hpages.lease
  -- a lease that is to end by the time on the way ends then, or its session is closed
  have hfixed : ∀ before rest, acts = before ++ rest → ∀ id expiry,
      k.leaseEnd? (k.after s before) id = some expiry → expiry ≤ k.clock 0 before →
      ∀ expiry', k.leaseEnd? (k.after s acts) id = some expiry' → expiry' = expiry := by
    rintro before rest rfl id expiry hend hover expiry' hend'
    obtain ⟨hwf', -, hfollows⟩ := hk.on_the_way h hwf hends
    obtain ⟨expiry'', hend'', -, hsame⟩ := hfollows.older id expiry' (hwf' id expiry hend) hend'
    obtain rfl : expiry = expiry'' := Option.some.inj (hend.symm.trans hend'')
    exact hsame hover
  refine {
    expiry := fun id => ?_
    later := ?_
    renews := fun id now hl hlimit => ?_
    refuses := fun id now hl => ⟨(hk.refuses _ id now hl).1, (hk.refuses _ id now hl).2.2⟩
    ended := ?_
    found := ?_
    sweeps := hk.sweeps _
    ascending := hpages.issued.1
    gone := ?_ }
  · have hstart := hpages.ends id none (congrFun hempty id)
    rw [hpages.lease] at hstart
    exact hstart
  · rintro before rest rfl id expiry expiry' hend hend'
    obtain ⟨hwf', -, hfollows⟩ := hk.on_the_way h hwf hends
    obtain ⟨expiry'', hend'', hle, -⟩ := hfollows.older id expiry' (hwf' id expiry hend) hend'
    obtain rfl : expiry = expiry'' := Option.some.inj (hend.symm.trans hend'')
    exact hle
  · rw [← hlease] at hlimit ⊢
    obtain ⟨hresult, htold⟩ := hk.renews _ id now hl hlimit
    exact ⟨hresult, hk.leaseEnd?_renewal htold⟩
  · intro before rest hsplit id expiry hend hover now hnow hlive
    obtain ⟨expiry', hend', hlt⟩ := Sessions.live_iff.1 hlive
    have hsame := hfixed before rest hsplit id expiry hend hover expiry' hend'
    omega
  · intro before rest hsplit id expiry hend hover hopen now hnow
    have hsame := hfixed before rest hsplit id expiry hend hover
    subst hsplit
    obtain ⟨-, hlater, -⟩ := hk.on_the_way h hwf hends
    have hstays := hlater.stays id hopen (by
      show k.leaseEnd? (k.after s before) id ≠ none
      rw [hend]
      exact Option.some_ne_none _)
    obtain ⟨expiry', hend'⟩ := Option.ne_none_iff_exists'.1 hstays
    exact ((hk.sweeps _ now).2 id).2 ⟨expiry', hend', by rw [hsame expiry' hend']; omega⟩
  · rintro before rest rfl id hclosed
    obtain ⟨-, hlater, -⟩ := hk.on_the_way h hwf hends
    have hbefore := hk.pages_after s before
    obtain ⟨hnone, hused⟩ := hbefore.closed hwf hclosed
    exact ⟨hlater.absent hused hnone, fun hm =>
      absurd (hlater.issued.2 id hm) (Nat.not_le.2 hused)⟩

end Lawful

end Keeper

end Tenure

/-! ## The registry as a keeper -/

namespace Sessions

open Tenure (Entry Book Keeper)

variable {r : Sessions} {id now : Nat}

/-- What one can do with a registry. -/
inductive Act where
  /-- Register a session. -/
  | create (now : Nat)
  /-- Renew a lease. -/
  | renew (id now : Nat)
  /-- Forget a session. -/
  | close (id : Nat)
  /-- Ask which leases have ended. -/
  | sweep (now : Nat)

/-- The registry after an act.  A sweep only looks. -/
def act (r : Sessions) : Act → Sessions
  | .create now => (r.create now).2
  | .renew id now => (r.renew id now).2
  | .close id => (r.remove id).2
  | .sweep _ => r

/-- What an act does to leases, as far as its result tells. -/
def told (r : Sessions) : Act → List Entry
  | .create now => Entry.ofCreate now (r.create now).1
  | .renew id now => Entry.ofRenew id now (r.renew id now).1
  | .close id => if (r.remove id).1.isSome then [.closed id] else []
  | .sweep _ => []

/-- The time of an act that looks at the clock. -/
def Act.time? : Act → Option Nat
  | create now => some now
  | renew _ now => some now
  | close _ => none
  | sweep now => some now

/-- A registry that is used by itself. -/
def keeper : Keeper Sessions Act where
  registry r := r
  next := act
  told := told
  time? := Act.time?
  renewal := .renew
  renewed r id now := (r.renew id now).1
  swept := lapsed

theorem lawful_keeper : keeper.Lawful where
  pages r a := by
    show Book.Pages r.book (r.told a) (r.act a).book
    cases a with
    | create now => exact r.pages_create now
    | renew id now => exact r.pages_renew id now
    | close id =>
      by_cases hc : (r.remove id).1.isSome = true
      · rw [told, if_pos hc]
        exact .single (reads_remove hc)
      · have hnone : r.get? id = none := contains_eq_false_iff.1 (Bool.eq_false_iff.2 hc)
        have htable : r.table.erase id = r.table := Table.erase_of_none hnone
        rw [told, if_neg hc, act, remove, htable]
        exact .nil _
    | sweep now => exact .nil _
  timed r a e he t ht := by
    cases a with
    | create now => exact congrArg some (Entry.time_of_mem_ofCreate he ht).symm
    | renew id now => exact congrArg some (Entry.time_of_mem_ofRenew he ht).symm
    | close id =>
      simp only [keeper, told] at he
      split at he
      · obtain rfl := List.mem_singleton.1 he
        cases ht
      · cases he
    | sweep now => cases he
  renews r id now hl hlimit :=
    ⟨congrArg Prod.fst (renew_of_live hl hlimit),
      congrArg (fun p => Entry.ofRenew id now (Prod.fst p)) (renew_of_live hl hlimit)⟩
  refuses r id now hl :=
    ⟨congrArg Prod.fst (renew_of_not_live hl),
      congrArg (fun p => Entry.ofRenew id now (Prod.fst p)) (renew_of_not_live hl),
      congrArg Prod.snd (renew_of_not_live hl)⟩
  sweeps r now := ⟨r.pairwise_lapsed now, fun _ => mem_lapsed⟩

end Sessions

/-! ## The coordinator as a keeper -/

namespace Coordinator

open Tenure (Book Keeper)

variable {ρ : Type} {s : State ρ} {op : Operation ρ}

/-- The time of an operation that looks at the clock. -/
def Operation.time? : Operation ρ → Option Nat
  | .createSession now => some now
  | .renew _ now => some now
  | .expire now => some now
  | _ => none

/-- What a result of an operation says about leases. -/
def Operation.toldBy : Operation ρ → Result → List Tenure.Entry
  | .createSession now, .created result => Tenure.Entry.ofCreate now result
  | .renew id now, .renewed result => Tenure.Entry.ofRenew id now result
  | .closeSession id, .done (.ok _) => [.closed id]
  | .expire _, .expired ids => ids.map .closed
  | _, _ => []

theorem Operation.time?_of_told {r : Result} {e : Tenure.Entry} (he : e ∈ op.toldBy r) {t : Nat}
    (ht : e.time? = some t) : op.time? = some t := by
  unfold toldBy at he
  split at he
  · exact congrArg some (Tenure.Entry.time_of_mem_ofCreate he ht).symm
  · exact congrArg some (Tenure.Entry.time_of_mem_ofRenew he ht).symm
  · obtain rfl := List.mem_singleton.1 he
    cases ht
  · obtain ⟨id, -, rfl⟩ := List.mem_map.1 he
    cases ht
  · cases he

namespace State

/-- The coordinator with its sessions. -/
def keeper : Keeper (State ρ) (Operation ρ) where
  registry := sessions
  next s op := (s.perform op).2.state
  told s op := op.toldBy (s.perform op).1
  time? := Operation.time?
  renewal := .renew
  renewed s id now := (s.renew id now).1
  swept s now := (s.expire now).1

/-- An operation that tells nothing about leases leaves them as they were. -/
theorem book_openHandle (s : State ρ) (session : Nat) (name : String) :
    (s.openHandle session name).2.sessions.book = s.sessions.book := by
  rcases s.openHandle_cases session name with ⟨-, heq⟩ | ⟨-, heq⟩
  · rw [heq]
  · rw [heq]
    show ((s.ensureHandle name).2.sessions.openHandle session _).book = _
    rw [sessions_ensureHandle]
    exact Sessions.book_modify fun _ => rfl

theorem book_closeHandle (s : State ρ) (session handle : Nat) :
    (s.closeHandle session handle).2.state.sessions.book = s.sessions.book := by
  rcases s.closeHandle_cases session handle with ⟨fault, heq⟩ | ⟨-, heq⟩
  · rw [heq]
    rfl
  · have hdetach := Turn.sessions_detach (.start { s with
      sessions := s.sessions.giveUp session handle }) session handle .handleClosed
    rw [heq]
    exact hdetach.book.trans (Sessions.book_modify fun _ => rfl)

theorem pages_closeSession (s : State ρ) (session : Nat) :
    Book.Pages s.sessions.book
      ((Operation.closeSession session : Operation ρ).toldBy (s.perform (.closeSession session)).1)
      (s.closeSession session).2.state.sessions.book := by
  show Book.Pages _ (Operation.toldBy (ρ := ρ) (.closeSession session)
    (.done (s.closeSession session).1)) _
  rcases s.closeSession_cases session with ⟨-, heq⟩ | ⟨gone, hg, heq⟩
  · rw [heq]
    exact .nil _
  · have hdetach := Turn.sessions_detachAll (.start { s with
      sessions := (s.sessions.remove session).2 }) session .sessionClosed gone.opened.keys
    rw [heq]
    dsimp only
    rw [hdetach.book]
    exact .single (Sessions.reads_remove (Sessions.contains_iff.2 ⟨gone, hg⟩))

theorem pages_expire (s : State ρ) (now : Nat) :
    Book.Pages s.sessions.book ((s.expire now).1.map .closed)
      (s.expire now).2.state.sessions.book := by
  have hexpire := Turn.sessions_expireAll
    (.start (s.unregister ((s.lapsed now).map (·.1)))) (s.lapsed now)
  have hbook : (s.expire now).2.state.sessions.book =
    (s.unregister ((s.lapsed now).map (·.1))).sessions.book := hexpire.book
  rw [hbook]
  refine Sessions.pages_unregister ?_ fun id hid => ?_
  · have hasc := (s.pairwise_lapsed now).imp fun h => Nat.ne_of_lt h
    exact List.pairwise_map.2 hasc
  · obtain ⟨o, ho, -⟩ := contains_lapsed.1 (List.contains_iff_mem.2 hid)
    exact Sessions.contains_iff.2 ⟨o, ho⟩

theorem mem_expire {id now : Nat} : id ∈ (s.expire now).1 ↔
    ∃ expiry, s.sessions.leaseEnd? id = some expiry ∧ expiry ≤ now := by
  have hmem : id ∈ (s.expire now).1 ↔ _ := List.contains_iff_mem.symm.trans contains_lapsed
  rw [hmem, Sessions.leaseEnd?]
  cases s.sessions.get? id with
  | none => simp
  | some o => simp [Session.lapsed]

theorem lawful_keeper : (keeper : Keeper (State ρ) (Operation ρ)).Lawful where
  pages s op := by
    show Book.Pages s.sessions.book (op.toldBy (s.perform op).1)
      (s.perform op).2.state.sessions.book
    cases op with
    | createSession now => exact s.sessions.pages_create now
    | renew id now => exact s.sessions.pages_renew id now
    | closeSession session => exact s.pages_closeSession session
    | openHandle session name =>
      show Book.Pages _ [] (s.openHandle session name).2.sessions.book
      rw [s.book_openHandle]
      exact .nil _
    | closeHandle session handle =>
      show Book.Pages _ [] (s.closeHandle session handle).2.state.sessions.book
      rw [s.book_closeHandle]
      exact .nil _
    | acquire session handle mode tryOnly reply =>
      show Book.Pages _ [] (s.acquire session handle mode tryOnly reply).2.state.sessions.book
      rw [(s.sameButHeld_acquire session handle mode tryOnly reply).book]
      exact .nil _
    | dispatch session payload reply =>
      show Book.Pages _ [] (s.dispatch session payload reply).2.state.sessions.book
      rw [(s.sameButHeld_dispatch session payload reply).book]
      exact .nil _
    | release session handle =>
      show Book.Pages _ [] (s.release session handle).2.state.sessions.book
      rw [(s.sameButHeld_release session handle).book]
      exact .nil _
    | cancel session handle =>
      show Book.Pages _ [] (s.cancel session handle).2.state.sessions.book
      rw [(s.sameButHeld_cancel session handle).book]
      exact .nil _
    | expire now => exact s.pages_expire now
  timed s op e he t ht := Operation.time?_of_told he ht
  renews s id now hl hlimit := by
    have hrenew := Sessions.renew_of_live (r := s.sessions) hl hlimit
    exact ⟨congrArg Prod.fst hrenew,
      congrArg (fun p => Tenure.Entry.ofRenew id now (Prod.fst p)) hrenew⟩
  refuses s id now hl := by
    have hrenew := Sessions.renew_of_not_live (r := s.sessions) hl
    refine ⟨congrArg Prod.fst hrenew,
      congrArg (fun p => Tenure.Entry.ofRenew id now (Prod.fst p)) hrenew, ?_⟩
    show { s with sessions := (s.sessions.renew id now).2 } = s
    rw [hrenew]
  sweeps s now := ⟨List.pairwise_map.2 (s.pairwise_lapsed now), fun _ => mem_expire⟩

end State

/-- Sessions are created and closed, leases renewed and swept, at times that do not decrease.
Whether that is done with a registry or with the coordinator, in which other things may happen in
between: a lease ends one lease after it has been started last; that end never comes nearer; a
session can renew its lease as long as the lease has not ended; when it has, it never runs again,
and the next sweep finds it; a sweep finds no other session; and ids are given out in ascending
order and never again. -/
theorem leases_upheld (lease : Nat) :
    (∀ acts, Sessions.keeper.Orderly 0 acts → Sessions.keeper.Upheld (.empty lease) acts) ∧
    ∀ ops : List (Operation ρ), State.keeper.Orderly 0 ops →
      State.keeper.Upheld (.empty lease) ops :=
  ⟨fun _ h => Sessions.lawful_keeper.upheld (s := Sessions.empty lease) rfl h,
    fun _ h => State.lawful_keeper.upheld (s := State.empty lease) rfl h⟩

/-- The first session renews its lease in time, the second at the very instant at which it ends. -/
theorem leases_upheld_boundary :
    let ops : List (Operation Unit) :=
      [.createSession 0, .createSession 0, .renew 1 9, .renew 2 10, .expire 10, .createSession 10,
        .renew 2 11]
    State.keeper.Orderly 0 ops ∧ State.keeper.Upheld (.empty 10) ops ∧
      Sessions.keeper.Orderly 0 [.create 0, .renew 1 9, .renew 1 19, .sweep 19] ∧
      Sessions.keeper.Upheld (.empty 10) [.create 0, .renew 1 9, .renew 1 19, .sweep 19] ∧
      State.keeper.log (.empty 10) ops =
        [.created 1 0, .created 2 0, .renewed 1 9, .closed 2, .created 3 10] := by
  intro ops
  have hops : State.keeper.Orderly 0 ops := by decide
  have hacts : Sessions.keeper.Orderly 0 [.create 0, .renew 1 9, .renew 1 19, .sweep 19] := by
    decide
  exact ⟨hops, (leases_upheld 10).2 ops hops, hacts, (leases_upheld (ρ := Unit) 10).1 _ hacts,
    by decide⟩

end Coordinator

end LeaseLock
