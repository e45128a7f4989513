import LeaseLock.Proofs.Fanout.Story

/-
  LeaseLock: what becomes of a sub-request.
  The `Fate` of a sub-request follows from the occasions of a story alone (`fates`): it begins when
  the sub-request is entered, a response with its id from its own endpoint ends it, so does the end of
  that endpoint, its timer has it sent again until it has been sent often enough, and it is given up
  when its frame is refused.  A timer runs before its sub-request is entered, and if it fires by
  then, nobody notices (`Fate.missed`).  The tables of the fan-out know a sub-request exactly as long
  as its fate is open, and as its fate says (`Followed`), whichever chore is done (`Followed.acts`).
-/

namespace LeaseLock.Fanout

open Reactor

variable {κ η τ ν : Type} {self : η} {m : Machine κ η State τ ν} {mine : Token → Bool}

/-! ## Fates -/

/-- How a sub-request has ended. -/
inductive Ending where
  /-- Its endpoint has responded. -/
  | answered (failed : Bool)
  /-- It had been sent as often as it may when its timer fired. -/
  | exhausted
  /-- Its frame was refused, the first time or later. -/
  | refused
  /-- Its endpoint has ended. -/
  | closed
deriving DecidableEq, Repr

/-- Everything but a successful response is a failure. -/
def Ending.isFailure : Ending → Bool
  | .answered failed => failed
  | .exhausted | .refused | .closed => true

/-- What has become of a sub-request so far. -/
structure Fate where
  /-- Its id. -/
  id : Nat
  /-- Where it was sent. -/
  endpoint : Nat
  /-- What was sent. -/
  frame : Bytes
  /-- Its task. -/
  token : Token
  /-- Its timer. -/
  timer : Nat
  /-- The timers that it had before, newest first; with each of them it timed out once and was sent
  again. -/
  earlier : List Nat
  /-- Its first timer had fired before it was entered. -/
  missed : Bool
  /-- How it has ended, if it has. -/
  ending : Option Ending
deriving DecidableEq, Repr

namespace Fate

/-- How often it has been sent again. -/
def retries (f : Fate) : Nat := f.earlier.length

/-- It has not ended. -/
def isOpen (f : Fate) : Bool := f.ending.isNone

/-- It has ended, and its task has failed. -/
def isFailed (f : Fate) : Bool := f.ending.any Ending.isFailure

/-- It has been sent again. -/
def isRetried (f : Fate) : Bool := !f.earlier.isEmpty

/-- The sub-request as it stands. -/
def pending (f : Fate) : Pending := ⟨f.endpoint, f.frame, f.retries, f.timer, f.token⟩

/-- The fate of a sub-request that has just been entered. -/
def enter (d : Draft) (timer : Nat) (missed : Bool) : Fate :=
  ⟨d.id, d.endpoint, d.frame, d.token, timer, [], missed, none⟩

/-- The sub-request ends. -/
def close (e : Ending) (f : Fate) : Fate := { f with ending := some e }

/-- The sub-request is sent again, and gets another timer. -/
def resend (timer : Nat) (f : Fate) : Fate := { f with timer, earlier := f.timer :: f.earlier }

/-- Change the fate of the sub-request that is pending under an id. -/
def only (id : Nat) (u : Fate → Fate) (f : Fate) : Fate :=
  if f.isOpen = true ∧ f.id = id then u f else f

/-- Its endpoint ends, if the sub-request is pending under one of these ids. -/
def lost (ids : List Nat) (f : Fate) : Fate :=
  if f.isOpen = true ∧ f.id ∈ ids then f.close .closed else f

/-- What a chore that is done in the loop `m` comes to for a sub-request. -/
def next (m : Machine κ η State τ ν) : Chore → Fate → Fate
  | .reply endpoint payload, f =>
    match Wire.Response.decode payload with
    | .ok response =>
      if f.endpoint = endpoint then f.only response.id.toNat (close (.answered response.isError))
      else f
    | .error _ => f
  | .expire timer, f =>
    if f.isOpen = true ∧ f.timer = timer then
      if m.world.config.maxRetries ≤ f.retries then f.close .exhausted
      else f.resend m.timers.nextId
    else f
  | .giveUp id, f => f.only id (close .refused)
  | .close endpoint, f => if f.isOpen = true ∧ f.endpoint = endpoint then f.close .closed else f
  | _, f => f

end Fate

namespace Occasion

/-- The timer that the fan-out is told of. -/
def fired? : Occasion κ η τ ν → Option Nat
  | .did _ _ (.expire timer) => some timer
  | _ => none

/-- What an occasion comes to for sub-requests that were there before. -/
def pass (fs : List Fate) : Occasion κ η τ ν → List Fate
  | .did m _ c => fs.map (Fate.next m c)
  | .others _ _ => fs

/-- The sub-request that is entered at an occasion, if its token is one of these; the occasions
before say whether its timer has fired. -/
def opened (mine : Token → Bool) (os : List (Occasion κ η τ ν)) : Occasion κ η τ ν → List Fate
  | .did _ _ (.enter d timer) =>
    if mine d.token then [.enter d timer (decide (timer ∈ os.filterMap fired?))] else []
  | _ => []

end Occasion

/-- The fates of the sub-requests with these tokens that were entered at some occasion. -/
def fates (mine : Token → Bool) : List (Occasion κ η τ ν) → List Fate
  | [] => []
  | o :: os => o.pass (fates mine os) ++ o.opened mine os

/-- A chore that enters nothing only changes the fates that are there. -/
theorem Occasion.after_of_idle {m : Machine κ η State τ ν} {waiting : List Chore} {c : Chore}
    {mine : Token → Bool} {os : List (Occasion κ η τ ν)} {fs : List Fate} (hc : c.loose? = none) :
    Occasion.pass fs (.did m waiting c) ++ Occasion.opened mine os (.did m waiting c) =
      fs.map (Fate.next m c) := by
  cases c <;> first | exact List.append_nil _ | cases hc

/-! ## Fates and tables -/

/-- The sub-requests with these tokens are pending as their fates say. -/
structure Followed (mine : Token → Bool) (fs : List Fate) (s : State) : Prop where
  /-- A sub-request is pending as long as its fate is open. -/
  pending : ∀ f ∈ fs, f.isOpen = true → s.pending.get? f.id = some f.pending
  /-- No other is. -/
  known : ∀ id p, s.pending.get? id = some p → mine p.token = true →
    ∃ f ∈ fs, f.isOpen = true ∧ f.id = id
  mine : ∀ f ∈ fs, mine f.token = true
  distinct : fs.Pairwise fun f g => f.isOpen = true → g.isOpen = true → f.id ≠ g.id

variable {fs fs' : List Fate} {s s' : State} {id timer : Nat} {p : Pending} {f : Fate}
  {u : Fate → Fate} {c : Chore} {cs chores waiting : List Chore} {es : List (Errand η)}

namespace Fate

theorem only_of_not (h : ¬ (f.isOpen = true ∧ f.id = id)) : f.only id u = f := if_neg h

theorem only_of_open (hopen : f.isOpen = true) (hid : f.id = id) : f.only id u = u f :=
  if_pos ⟨hopen, hid⟩

theorem not_isOpen_close (e : Ending) (f : Fate) : ¬ (f.close e).isOpen = true := nofun

/-- The fates that are still open were so before. -/
theorem isOpen_of_only_close {e : Ending} (h : (f.only id (close e)).isOpen = true) :
    f.isOpen = true ∧ f.id ≠ id ∧ f.only id (close e) = f := by
  by_cases hnow : f.isOpen = true ∧ f.id = id
  · rw [only_of_open hnow.1 hnow.2] at h
    exact absurd h (not_isOpen_close e f)
  · rw [only_of_not hnow] at h ⊢
    exact ⟨h, fun hid => hnow ⟨h, hid⟩, rfl⟩

theorem lost_of_not {ids : List Nat} (h : ¬ (f.isOpen = true ∧ f.id ∈ ids)) : f.lost ids = f :=
  if_neg h

/-- Sub-requests can be lost one after another. -/
theorem only_lost (f : Fate) (ids : List Nat) (id : Nat) :
    (f.lost ids).only id (close .closed) = f.lost (ids ++ [id]) := by
  by_cases hnow : f.isOpen = true ∧ f.id ∈ ids
  · rw [lost, if_pos hnow, lost, if_pos ⟨hnow.1, List.mem_append_left _ hnow.2⟩]
    exact only_of_not fun hopen => not_isOpen_close _ f hopen.1
  · rw [lost_of_not hnow]
    refine if_congr (and_congr_right fun hopen => ?_) rfl rfl
    rw [List.mem_append, or_iff_right fun hmem => hnow ⟨hopen, hmem⟩, List.mem_singleton]

theorem isOpen_only_resend : (f.only id (resend timer)).isOpen = f.isOpen := by
  unfold only
  split <;> rfl

theorem id_only_resend : (f.only id (resend timer)).id = f.id := by
  unfold only
  split <;> rfl

theorem id_only_close {e : Ending} : (f.only id (close e)).id = f.id := by
  unfold only
  split <;> rfl

theorem token_only_resend : (f.only id (resend timer)).token = f.token := by
  unfold only
  split <;> rfl

theorem token_only_close {e : Ending} : (f.only id (close e)).token = f.token := by
  unfold only
  split <;> rfl

end Fate

theorem map_eq_self (h : ∀ f ∈ fs, u f = f) : fs.map u = fs := by
  conv_rhs => rw [← List.map_id fs]
  exact List.map_congr_left h

theorem map_lost_nil (fs : List Fate) : fs.map (.lost []) = fs :=
  map_eq_self fun _ _ => Fate.lost_of_not fun hnow => List.not_mem_nil hnow.2

theorem map_only_lost (fs : List Fate) (ids : List Nat) (id : Nat) :
    (fs.map (Fate.lost ids)).map (Fate.only id (.close .closed)) =
      fs.map (Fate.lost (ids ++ [id])) := by
  rw [List.map_map]
  exact List.map_congr_left fun f _ => f.only_lost ids id

namespace Followed

/-- A sub-request ends. -/
theorem without (h : Followed mine fs s) (id : Nat) (p : Pending) (e : Ending) :
    Followed mine (fs.map (.only id (.close e))) (s.without id p) := by
  constructor
  · intro g hg hopen
    obtain ⟨f, hf, rfl⟩ := List.mem_map.1 hg
    obtain ⟨hf', hne, heq⟩ := Fate.isOpen_of_only_close hopen
    rw [heq]
    exact (Table.get?_erase_of_ne _ hne).trans (h.pending f hf hf')
  · intro id' p' hp' hmine
    have hget : (s.pending.erase id).get? id' = some p' := hp'
    rw [Table.get?_erase] at hget
    split at hget
    · cases hget
    · rename_i hne
      obtain ⟨f, hf, hopen, rfl⟩ := h.known id' p' hget hmine
      have hsame : f.only id (.close e) = f := Fate.only_of_not fun hnow => hne hnow.2
      exact ⟨f, List.mem_map.2 ⟨f, hf, hsame⟩, hopen, rfl⟩
  · intro g hg
    obtain ⟨f, hf, rfl⟩ := List.mem_map.1 hg
    rw [Fate.token_only_close]
    exact h.mine f hf
  · refine List.pairwise_map.2 (h.distinct.imp fun hdistinct hf hg => ?_)
    rw [Fate.id_only_close, Fate.id_only_close]
    exact hdistinct (Fate.isOpen_of_only_close hf).1 (Fate.isOpen_of_only_close hg).1

/-- A sub-request is sent again. -/
theorem resent (h : Followed mine fs s) (hp : s.pending.get? id = some p) (timer : Nat) :
    Followed mine (fs.map (.only id (.resend timer))) (s.resent id p timer) := by
  constructor
  · intro g hg hopen
    obtain ⟨f, hf, rfl⟩ := List.mem_map.1 hg
    rw [Fate.isOpen_only_resend] at hopen
    have hold := h.pending f hf hopen
    show (s.pending.insert id _).get? _ = _
    rw [Fate.id_only_resend, Table.get?_insert]
    by_cases hid : f.id = id
    · obtain rfl : f.pending = p := Option.some.inj (hold.symm.trans (hid ▸ hp))
      rw [if_pos hid, Fate.only_of_open hopen hid]
      rfl
    · rw [if_neg hid, Fate.only_of_not fun hnow => hid hnow.2]
      exact hold
  · intro id' p' hp' hmine
    have hbefore : ∃ q, s.pending.get? id' = some q ∧ mine q.token = true := by
      have hget : (s.pending.insert id _).get? id' = some p' := hp'
      rw [Table.get?_insert] at hget
      split at hget
      · subst_vars
        cases hget
        exact ⟨p, hp, hmine⟩
      · exact ⟨p', hget, hmine⟩
    obtain ⟨q, hq, hmine'⟩ := hbefore
    obtain ⟨f, hf, hopen, hid⟩ := h.known id' q hq hmine'
    exact ⟨_, List.mem_map.2 ⟨f, hf, rfl⟩, Fate.isOpen_only_resend.trans hopen,
      Fate.id_only_resend.trans hid⟩
  · intro g hg
    obtain ⟨f, hf, rfl⟩ := List.mem_map.1 hg
    rw [Fate.token_only_resend]
    exact h.mine f hf
  · refine List.pairwise_map.2 (h.distinct.imp fun hdistinct hf hg => ?_)
    rw [Fate.isOpen_only_resend] at hf hg
    rw [Fate.id_only_resend, Fate.id_only_resend]
    exact hdistinct hf hg

/-- An id that is free belongs to no open fate. -/
theorem id_ne (h : Followed mine fs s) (free : s.pending.get? id = none) (hf : f ∈ fs)
    (hopen : f.isOpen = true) : f.id ≠ id := by
  rintro rfl
  cases free.symm.trans (h.pending f hf hopen)

/-- A sub-request is entered. -/
theorem entered {d : Draft} (h : Followed mine fs s) (free : s.pending.get? d.id = none)
    (ours : mine d.token = true) (missed : Bool) :
    Followed mine (fs ++ [.enter d timer missed]) (s.entered d.id (d.pending timer)) := by
  constructor
  · intro f hf hopen
    show (s.pending.insert d.id _).get? _ = _
    rcases List.mem_append.1 hf with hf | hf
    · rw [Table.get?_insert_of_ne _ _ (h.id_ne free hf hopen)]
      exact h.pending f hf hopen
    · obtain rfl := List.mem_singleton.1 hf
      exact Table.get?_insert_self _ _ _
  · intro id' p' hp' hmine
    have hget : (s.pending.insert d.id _).get? id' = some p' := hp'
    rw [Table.get?_insert] at hget
    split at hget
    · subst_vars
      exact ⟨_, List.mem_append_right _ List.mem_cons_self, rfl, rfl⟩
    · obtain ⟨f, hf, hopen, hid⟩ := h.known id' p' hget hmine
      exact ⟨f, List.mem_append_left _ hf, hopen, hid⟩
  · intro f hf
    rcases List.mem_append.1 hf with hf | hf
    · exact h.mine f hf
    · obtain rfl := List.mem_singleton.1 hf
      exact ours
  · refine List.pairwise_append.2 ⟨h.distinct, List.pairwise_singleton _ _, ?_⟩
    intro f hf g hg hopen _
    obtain rfl := List.mem_singleton.1 hg
    exact h.id_ne free hf hopen

/-- A sub-request of others is entered. -/
theorem passed {d : Draft} (h : Followed mine fs s) (free : s.pending.get? d.id = none)
    (others : ¬ mine d.token = true) : Followed mine fs (s.entered d.id (d.pending timer)) := by
  refine ⟨fun f hf hopen => ?_, fun id' p' hp' hmine => ?_, h.mine, h.distinct⟩
  · show (s.pending.insert d.id _).get? _ = _
    rw [Table.get?_insert_of_ne _ _ (h.id_ne free hf hopen)]
    exact h.pending f hf hopen
  · have hget : (s.pending.insert d.id _).get? id' = some p' := hp'
    rw [Table.get?_insert] at hget
    split at hget
    · cases hget
      exact absurd hmine others
    · exact h.known id' p' hget hmine

/-- An open fate says what is pending under its id. -/
theorem pending_eq (h : Followed mine fs s) (hp : s.pending.get? id = some p) (hf : f ∈ fs)
    (hopen : f.isOpen = true) (hid : f.id = id) : f.pending = p :=
  Option.some.inj ((h.pending f hf hopen).symm.trans (hid ▸ hp))

/-- Nothing is pending. -/
theorem empty (mine : Token → Bool) (config : Config) : Followed mine [] (.empty config) where
  pending := nofun
  known := fun _ _ hp => by cases hp
  mine := nofun
  distinct := .nil

/-- The pending sub-requests are the same. -/
theorem of_pending (h : Followed mine fs s) (heq : s'.pending = s.pending) :
    Followed mine fs s' where
  pending := heq ▸ h.pending
  known := heq ▸ h.known
  mine := h.mine
  distinct := h.distinct

/-- A sub-request whose fate is open is found by its timer. -/
theorem byTimer (h : Followed mine fs s) (hs : InStep s.byTimer s.pending) (hf : f ∈ fs)
    (hopen : f.isOpen = true) : s.byTimer.get? f.timer = some f.id :=
  (hs _ _).2 ⟨f.pending, h.pending f hf hopen, rfl⟩

/-- The timer of a pending sub-request is that of one open fate. -/
theorem timer_iff (h : Followed mine fs s) (hs : InStep s.byTimer s.pending)
    (hp : s.pending.get? id = some p) (hf : f ∈ fs) (hopen : f.isOpen = true) :
    f.timer = p.timer ↔ f.id = id := by
  constructor
  · intro htimer
    have hid := (hs p.timer id).2 ⟨p, hp, rfl⟩
    rw [← htimer, h.byTimer hs hf hopen] at hid
    exact Option.some.inj hid
  · rintro rfl
    rw [← h.pending_eq hp hf hopen rfl]
    rfl

end Followed

/-! ## Chores and fates -/

section

variable (h : Followed mine fs m.world)

include h

/-- A response from where its sub-request was sent ends that one. -/
theorem map_next_answered {payload : Bytes} {response : Wire.Response}
    (decoded : Wire.Response.decode payload = .ok response)
    (found : m.world.pending.get? response.id.toNat = some p) :
    fs.map (Fate.next m (.reply p.endpoint payload)) =
      fs.map (.only response.id.toNat (.close (.answered response.isError))) := by
  refine List.map_congr_left fun f hf => ?_
  show (match Wire.Response.decode payload with
    | .ok response => _
    | .error _ => f) = _
  rw [decoded]
  dsimp only
  split
  · rfl
  · rename_i hother
    refine (Fate.only_of_not fun hnow => hother ?_).symm
    rw [← h.pending_eq found hf hnow.1 hnow.2]
    rfl

/-- A stray frame ends none. -/
theorem map_next_stray {endpoint : Nat} {payload : Bytes} (stray : Stray m.world endpoint payload) :
    fs.map (Fate.next m (.reply endpoint payload)) = fs := by
  refine map_eq_self fun f hf => ?_
  show (match Wire.Response.decode payload with
    | .ok response => _
    | .error _ => f) = _
  cases decoded : Wire.Response.decode payload with
  | error e => rfl
  | ok response =>
    dsimp only
    split
    · rename_i hendpoint
      refine Fate.only_of_not fun hnow => ?_
      exact stray response decoded f.pending (hnow.2 ▸ h.pending f hf hnow.1) hendpoint
    · rfl

/-- A sub-request that has ended is not given up. -/
theorem map_next_gone (missing : m.world.pending.get? id = none) :
    fs.map (Fate.next m (.giveUp id)) = fs := by
  refine map_eq_self fun f hf => Fate.only_of_not fun hnow => ?_
  exact h.id_ne missing hf hnow.1 hnow.2

/-- A timer that nobody waits for changes nothing. -/
theorem map_next_unknown (hs : InStep m.world.byTimer m.world.pending)
    (unknown : m.world.byTimer.get? timer = none) : fs.map (Fate.next m (.expire timer)) = fs := by
  refine map_eq_self fun f hf => if_neg ?_
  rintro ⟨hopen, rfl⟩
  cases unknown.symm.trans (h.byTimer hs hf hopen)

/-- A timer that fires changes the fate of its sub-request, and no other. -/
theorem map_next_fired (hs : InStep m.world.byTimer m.world.pending)
    (found : m.world.pending.get? id = some p) :
    fs.map (Fate.next m (.expire p.timer)) = fs.map (.only id fun f =>
      if m.world.config.maxRetries ≤ p.retries then f.close .exhausted
      else f.resend m.timers.nextId) := by
  refine List.map_congr_left fun f hf => if_ctx_congr ?_ (fun hnow => ?_) fun _ => rfl
  · exact and_congr_right fun hopen => h.timer_iff hs found hf hopen
  · have hretries : f.retries = p.retries :=
      congrArg Pending.retries (h.pending_eq found hf hnow.1 hnow.2)
    rw [hretries]

theorem map_next_exhausted (hs : InStep m.world.byTimer m.world.pending)
    (found : m.world.pending.get? id = some p)
    (enough : m.world.config.maxRetries ≤ p.retries) :
    fs.map (Fate.next m (.expire p.timer)) = fs.map (.only id (.close .exhausted)) := by
  rw [map_next_fired h hs found]
  simp only [if_pos enough]

theorem map_next_again (hs : InStep m.world.byTimer m.world.pending)
    (found : m.world.pending.get? id = some p)
    (more : p.retries < m.world.config.maxRetries) :
    fs.map (Fate.next m (.expire p.timer)) = fs.map (.only id (.resend m.timers.nextId)) := by
  rw [map_next_fired h hs found]
  simp only [if_neg (Nat.not_le.2 more)]

/-- The end of an endpoint ends the open fates with the ids that are pending there. -/
theorem map_next_close (endpoint : Nat) :
    fs.map (Fate.next m (.close endpoint)) =
      fs.map (.lost ((m.world.sentTo endpoint).map (·.1))) := by
  refine List.map_congr_left fun f hf => if_congr (and_congr_right fun hopen => ?_) rfl rfl
  constructor
  · intro hendpoint
    exact List.mem_map.2 ⟨(f.id, f.pending), mem_sentTo.2 ⟨h.pending f hf hopen, hendpoint⟩, rfl⟩
  · intro hid
    obtain ⟨⟨id, p⟩, he, hsame⟩ := List.mem_map.1 hid
    obtain ⟨found, hendpoint⟩ := mem_sentTo.1 he
    obtain rfl := h.pending_eq found hf hopen hsame.symm
    exact hendpoint

end

namespace Followed

/-- All sub-requests of an endpoint end. -/
theorem close (h : Followed mine fs s) (endpoint : Nat) :
    Followed mine (fs.map (.lost ((s.sentTo endpoint).map (·.1)))) (s.swept (s.sentTo endpoint)) := by
  refine sweep_sentTo _ (P := fun es s' => Followed mine (fs.map (.lost (es.map (·.1)))) s') ?_
    fun swept id p s' h' hp => ?_
  · exact (map_lost_nil fs).symm ▸ h
  · rw [List.map_append, List.map_singleton, ← map_only_lost]
    exact h'.without id p .closed

/-- Whichever chore is done, the tables know what the fates say. -/
theorem acts (h : Followed mine fs m.world) (hs : InStep m.world.byTimer m.world.pending)
    (hacts : Acts self m c s' es cs) (os : List (Occasion κ η τ ν)) :
    Followed mine (Occasion.pass fs (.did m waiting c) ++
      Occasion.opened mine os (.did m waiting c)) s' := by
  cases hacts with
  | enter d timer free new =>
    show Followed mine (fs.map (fun f => f) ++ if mine d.token = true then _ else []) _
    rw [List.map_id']
    split
    · rename_i ours
      exact h.entered free ours _
    · rename_i others
      rw [List.append_nil]
      exact h.passed free others
  | gaveUp found =>
    rw [Occasion.after_of_idle]
    · exact h.without _ _ .refused
    · rfl
  | gone missing =>
    rw [Occasion.after_of_idle, map_next_gone h missing]
    · exact h
    · rfl
  | answered decoded found =>
    rw [Occasion.after_of_idle, map_next_answered h decoded found]
    · exact h.without _ _ _
    · rfl
  | stray stray =>
    rw [Occasion.after_of_idle, map_next_stray h stray]
    · exact h
    · rfl
  | unknown unknown =>
    rw [Occasion.after_of_idle, map_next_unknown h hs unknown]
    · exact h
    · rfl
  | exhausted found enough =>
    rw [Occasion.after_of_idle, map_next_exhausted h hs found enough]
    · exact h.without _ _ _
    · rfl
  | again found more new =>
    rw [Occasion.after_of_idle, map_next_again h hs found more]
    · exact h.resent found _
    · rfl
  | close endpoint =>
    rw [Occasion.after_of_idle, map_next_close h]
    · exact h.close endpoint
    · rfl
  | settle id token outcome =>
    show Followed mine (fs.map (fun f => f) ++ []) _
    rw [List.map_id', List.append_nil]
    cases outcome <;> exact h.of_pending rfl
  | scatter | name | time | schedule | count | sent | refused | cancel | complete =>
    show Followed mine (fs.map (fun f => f) ++ []) _
    rw [List.map_id', List.append_nil]
    exact h.of_pending rfl

/-! ## Which fates a chore is about -/

/-- A sub-request of others makes no difference. -/
theorem only_others (h : Followed mine fs s) (hp : s.pending.get? id = some p)
    (hothers : ¬ mine p.token = true) (u : Fate → Fate) : fs.map (.only id u) = fs := by
  refine map_eq_self fun f hf => Fate.only_of_not ?_
  rintro ⟨hopen, rfl⟩
  obtain rfl := h.pending_eq hp hf hopen rfl
  exact hothers (h.mine f hf)

/-- A pending sub-request has one open fate, and what happens to it happens to no other. -/
theorem place (h : Followed mine fs s) (hp : s.pending.get? id = some p)
    (hmine : mine p.token = true) :
    ∃ before f after, fs = before ++ f :: after ∧ f.isOpen = true ∧ f.id = id ∧ f.pending = p ∧
      ∀ u, fs.map (.only id u) = before ++ u f :: after := by
  obtain ⟨f, hf, hopen, rfl⟩ := h.known id p hp hmine
  obtain ⟨before, after, rfl⟩ := List.append_of_mem hf
  obtain ⟨-, hafter, hbefore⟩ := List.pairwise_append.1 h.distinct
  refine ⟨before, f, after, rfl, hopen, rfl, h.pending_eq hp hf hopen rfl, fun u => ?_⟩
  rw [List.map_append, List.map_cons, Fate.only_of_open hopen rfl]
  congr 1
  · exact map_eq_self fun g hg => Fate.only_of_not fun hnow =>
      hbefore g hg f List.mem_cons_self hnow.1 hopen hnow.2
  · refine congrArg (u f :: ·) (map_eq_self fun g hg => Fate.only_of_not fun hnow => ?_)
    exact (List.pairwise_cons.1 hafter).1 g hg hopen hnow.1 hnow.2.symm

end Followed

end LeaseLock.Fanout
