import Mathlib.Algebra.GroupWithZero.Nat
import LeaseLock.Proofs.Countdown

/-
  LeaseLock: tokens of several armings.
  Tokens stand in the order in which they were handed out, so those from some position on belong to
  the current arming and those before it to earlier ones (`Layered`).  As long as epochs do not
  start over, a token of an earlier arming leaves the countdown as it is, and the countdown of an
  arming is at as many tasks as it has tokens left.  Whatever is done with tokens of earlier armings
  can be left out of a sequence of calls, and nothing else changes (`only_current_tokens_count`).
-/

namespace LeaseLock.TokenPool

variable {p q : TokenPool} {c : Call} {calls before rest : List Call} {base n : Nat}

/-! ## Armings -/

/-- The position from which on tokens belong to the current arming, once a call is done. -/
def Call.border (p : TokenPool) (base : Nat) : Call → Nat
  | .arm _ | .armTokens _ => p.tokens.length
  | _ => base

/-- Whether a call is about a token of an earlier arming. -/
def Call.isStale (base : Nat) : Call → Bool
  | .retried token | .finish token _ => token < base
  | _ => false

/-- The tokens before this position are from earlier armings, all others from the current one. -/
structure Layered (p : TokenPool) (base : Nat) : Prop where
  bound : base ≤ p.tokens.length
  past : ∀ token epoch, token < base → p.live? token = some epoch →
    epoch.toNat < p.countdown.epoch.toNat
  current : p.Current base

theorem layered_empty : empty.Layered 0 where
  bound := Nat.le_refl 0
  past := fun _ _ ht => absurd ht (Nat.not_lt_zero _)
  current := fun _ _ _ hlive => by cases hlive

theorem Call.arms_of_isStale (hc : c.isStale base = true) : c.arms = false := by
  cases c <;> first | rfl | cases hc

theorem Call.border_of_not_arms (hc : c.arms = false) : c.border p base = base := by
  cases c <;> first | rfl | cases hc

namespace Layered

/-- No token is from an arming to come. -/
theorem le_epoch (h : p.Layered base) {token : Nat} {epoch : UInt64}
    (hlive : p.live? token = some epoch) : epoch.toNat ≤ p.countdown.epoch.toNat := by
  by_cases ht : token < base
  · exact Nat.le_of_lt (h.past token epoch ht hlive)
  · exact Nat.le_of_eq (congrArg UInt64.toNat (h.current token epoch (Nat.le_of_not_lt ht) hlive))

theorem of_keeps (h : p.Layered base) (hk : p.Keeps q) : q.Layered base where
  bound := hk.length ▸ h.bound
  past := fun token epoch ht hlive => by
    rw [hk.epoch]
    exact h.past token epoch ht (hk.live token epoch hlive)
  current := fun token epoch ht hlive =>
    (h.current token epoch ht (hk.live token epoch hlive)).trans hk.epoch.symm

/-- An arming begins an epoch of its own, unless epochs start over. -/
theorem armed (h : p.Layered base) (hepoch : p.countdown.epoch.toNat + 1 < 2 ^ 64)
    (hq : q.countdown.epoch = p.countdown.epoch + 1) (hlength : p.tokens.length ≤ q.tokens.length)
    (hold : ∀ token, token < p.tokens.length → q.live? token = p.live? token)
    (hcurrent : q.Current p.tokens.length) : q.Layered p.tokens.length where
  bound := hlength
  past := by
    intro token epoch ht hlive
    rw [hold token ht] at hlive
    have hnext : (p.countdown.epoch + 1).toNat = p.countdown.epoch.toNat + 1 := by
      rw [UInt64.toNat_add]
      exact Nat.mod_eq_of_lt hepoch
    rw [hq, hnext]
    exact Nat.lt_succ_of_le (h.le_epoch hlive)
  current := hcurrent

theorem perform (h : p.Layered base)
    (hepoch : c.arms = true → p.countdown.epoch.toNat + 1 < 2 ^ 64) :
    (p.perform c).2.Layered (c.border p base) := by
  cases hc : c.arms with
  | false =>
    rw [Call.border_of_not_arms hc]
    exact h.of_keeps (keeps_perform hc)
  | true =>
    have hnext := hepoch hc
    cases c with
    | arm count =>
      exact h.armed hnext rfl (Nat.le_refl _) (fun _ _ => rfl) (tally_armed p (.inl rfl)).2
    | armTokens count =>
      refine h.armed hnext rfl ?_ (fun token ht => ?_) (tally_armed p (.inr rfl)).2
      · exact (List.length_append ..).symm ▸ Nat.le_add_right _ _
      · exact (live?_arm p count token).trans (if_pos ht)
    | _ => cases hc

end Layered

/-- The epoch is the number of armings so far. -/
theorem epoch_perform (p : TokenPool) (c : Call) : (p.perform c).2.countdown.epoch =
    p.countdown.epoch + if c.arms then 1 else 0 := by
  cases hc : c.arms with
  | false =>
    rw [if_neg Bool.false_ne_true, UInt64.add_zero]
    exact (keeps_perform hc).epoch
  | true => cases c <;> first | rfl | cases hc

/-- Armings that are still to come leave the epoch below its limit. -/
theorem epoch_room {rest : List Call}
    (h : p.countdown.epoch.toNat + (c :: rest).countP Call.arms < 2 ^ 64) :
    (c.arms = true → p.countdown.epoch.toNat + 1 < 2 ^ 64) ∧
      (p.perform c).2.countdown.epoch.toNat + rest.countP Call.arms < 2 ^ 64 := by
  rw [List.countP_cons] at h
  rw [epoch_perform]
  cases hc : c.arms with
  | false =>
    rw [hc] at h
    rw [if_neg Bool.false_ne_true, UInt64.add_zero]
    exact ⟨nofun, by simpa using h⟩
  | true =>
    rw [hc, if_pos rfl] at h
    have hnext : (p.countdown.epoch + 1).toNat = p.countdown.epoch.toNat + 1 := by
      rw [UInt64.toNat_add]
      exact Nat.mod_eq_of_lt (by show _ < 2 ^ 64; change _ + 1 < _; omega)
    rw [if_pos rfl, hnext]
    exact ⟨fun _ => by omega, by omega⟩

/-! ## Tokens of earlier armings -/

/-- Two pools with the same countdown, and the same tokens of the current arming. -/
structure Alike (base : Nat) (p q : TokenPool) : Prop where
  countdown : q.countdown = p.countdown
  length : q.tokens.length = p.tokens.length
  live : ∀ token, base ≤ token → q.live? token = p.live? token

theorem Alike.refl (base : Nat) (p : TokenPool) : Alike base p p := ⟨rfl, rfl, fun _ _ => rfl⟩

/-- A token of an earlier arming changes nothing but itself. -/
theorem Alike.stale (h : Alike base p q) (hlayered : p.Layered base) (hc : c.isStale base = true) :
    Alike base (p.perform c).2 q := by
  have hpast : ∀ {token epoch}, token < base → p.live? token = some epoch →
      p.countdown.epoch ≠ epoch := by
    rintro token epoch ht hlive rfl
    exact Nat.lt_irrefl _ (hlayered.past token _ ht hlive)
  cases c with
  | retried token =>
    have ht : token < base := of_decide_eq_true hc
    show Alike base (p.retried token).2 q
    cases hlive : p.live? token with
    | none => rwa [retried_of_none hlive]
    | some epoch =>
      rw [retried_of_some hlive, Countdown.retried_of_ne (hpast ht hlive)]
      exact h
  | finish token ending =>
    have ht : token < base := of_decide_eq_true hc
    show Alike base (p.finish token ending.isFailure).2 q
    cases hlive : p.live? token with
    | none => rwa [finish_of_none hlive]
    | some epoch =>
      rw [finish_of_some hlive, Countdown.complete_of_ne (hpast ht hlive)]
      refine ⟨h.countdown, h.length.trans (List.length_set ..).symm, fun other hother => ?_⟩
      rw [live?_set, if_neg fun heq => by omega]
      exact h.live other hother
  | _ => cases hc

theorem Alike.retried (h : Alike base p q) {token : Nat} (ht : base ≤ token) :
    (q.retried token).1 = (p.retried token).1 ∧
      Alike base (p.retried token).2 (q.retried token).2 := by
  have hsame := h.live token ht
  cases htoken : p.live? token with
  | none =>
    rw [retried_of_none htoken, retried_of_none (hsame.trans htoken)]
    exact ⟨rfl, h⟩
  | some epoch =>
    rw [retried_of_some htoken, retried_of_some (hsame.trans htoken), h.countdown]
    exact ⟨rfl, rfl, h.length, h.live⟩

theorem Alike.finish (h : Alike base p q) {token : Nat} (ht : base ≤ token) (failed : Bool) :
    (q.finish token failed).1 = (p.finish token failed).1 ∧
      Alike base (p.finish token failed).2 (q.finish token failed).2 := by
  have hsame := h.live token ht
  cases htoken : p.live? token with
  | none =>
    rw [finish_of_none htoken, finish_of_none (hsame.trans htoken)]
    exact ⟨rfl, h⟩
  | some epoch =>
    rw [finish_of_some htoken, finish_of_some (hsame.trans htoken), h.countdown]
    refine ⟨rfl, rfl, ?_, fun other hother => ?_⟩
    · rw [List.length_set, List.length_set, h.length]
    · rw [live?_set, live?_set, h.live other hother]

/-- Every other call returns the same for both, and leaves them alike. -/
theorem Alike.perform (h : Alike base p q) (hc : c.isStale base = false) :
    (q.perform c).1 = (p.perform c).1 ∧ c.border q base = c.border p base ∧
      Alike (c.border p base) (p.perform c).2 (q.perform c).2 := by
  obtain ⟨hcountdown, hlength, hlive⟩ := h
  cases c with
  | arm count =>
    refine ⟨rfl, hlength, congrArg (Countdown.arm · count) hcountdown, hlength, fun token ht => ?_⟩
    exact (live?_of_le (hlength ▸ ht)).trans (live?_of_le ht).symm
  | armTokens count =>
    refine ⟨?_, hlength, congrArg (Countdown.arm · count) hcountdown, ?_, fun token ht => ?_⟩
    · show Reply.tokens q.tokens.length (q.tokens.length + count) =
        .tokens p.tokens.length (p.tokens.length + count)
      rw [hlength]
    · show (q.tokens ++ _).length = (p.tokens ++ _).length
      rw [List.length_append, List.length_append, List.length_replicate, List.length_replicate,
        hlength]
    · show (q.arm count).2.live? token = (p.arm count).2.live? token
      have hnot : ¬ token < p.tokens.length := Nat.not_lt.2 ht
      rw [live?_arm, live?_arm, hlength, hcountdown, if_neg hnot, if_neg hnot]
  | decrement =>
    exact ⟨congrArg (fun d : Countdown => Reply.counted d.decrement.1) hcountdown, rfl,
      congrArg (fun d : Countdown => d.decrement.2) hcountdown, hlength, hlive⟩
  | markRetry => exact ⟨rfl, rfl, congrArg Countdown.markRetry hcountdown, hlength, hlive⟩
  | markError => exact ⟨rfl, rfl, congrArg Countdown.markError hcountdown, hlength, hlive⟩
  | clearErrors => exact ⟨rfl, rfl, congrArg Countdown.clearErrors hcountdown, hlength, hlive⟩
  | wait =>
    exact ⟨congrArg (fun d : Countdown => Reply.verdict d.verdict) hcountdown, rfl, hcountdown,
      hlength, hlive⟩
  | retried token =>
    obtain ⟨hresult, hafter⟩ := Alike.retried ⟨hcountdown, hlength, hlive⟩
      (Nat.le_of_not_lt (of_decide_eq_false hc))
    exact ⟨congrArg Reply.outstanding hresult, rfl, hafter⟩
  | finish token ending =>
    obtain ⟨hresult, hafter⟩ := Alike.finish ⟨hcountdown, hlength, hlive⟩
      (Nat.le_of_not_lt (of_decide_eq_false hc)) ending.isFailure
    exact ⟨congrArg Reply.finished hresult, rfl, hafter⟩

/-! ## Logs -/

/-- A call with what it returned and with the countdown that it left. -/
structure Entry where
  /-- The call. -/
  call : Call
  /-- What it returned. -/
  reply : Reply
  /-- The countdown afterwards. -/
  countdown : Countdown
  /-- Whether it was about a token of an earlier arming. -/
  isStale : Bool

/-- What calls return, one after another, if the tokens from `base` on belong to the current
arming. -/
def log (p : TokenPool) (base : Nat) : List Call → List Entry
  | [] => []
  | c :: rest =>
    ⟨c, (p.perform c).1, (p.perform c).2.countdown, c.isStale base⟩ ::
      (p.perform c).2.log (c.border p base) rest

/-- The entries that are not about tokens of earlier armings. -/
def fresh (entries : List Entry) : List Entry := entries.filter fun e => !e.isStale

/-- To leave out the calls about tokens of earlier armings changes nothing else. -/
theorem log_fresh (h : Alike base p q) (hlayered : p.Layered base)
    (hepoch : p.countdown.epoch.toNat + calls.countP Call.arms < 2 ^ 64) :
    q.log base ((fresh (p.log base calls)).map (·.call)) = fresh (p.log base calls) ∧
      (q.after ((fresh (p.log base calls)).map (·.call))).countdown =
        (p.after calls).countdown := by
  induction calls generalizing p q base with
  | nil => exact ⟨rfl, h.countdown⟩
  | cons c rest ih =>
    obtain ⟨hnow, hlater⟩ := epoch_room hepoch
    have hlayered' := hlayered.perform (c := c) hnow
    have hafter : p.after (c :: rest) = (p.perform c).2.after rest := rfl
    rw [hafter, fresh, log]
    cases hc : c.isStale base with
    | true =>
      have hbase : c.border p base = base := Call.border_of_not_arms (Call.arms_of_isStale hc)
      rw [List.filter_cons_of_neg (by simp), hbase]
      rw [hbase] at hlayered'
      exact ih (h.stale hlayered hc) hlayered' hlater
    | false =>
      obtain ⟨hreply, hbase, halike⟩ := h.perform hc
      obtain ⟨hlog, hend⟩ := ih halike hlayered' hlater
      rw [List.filter_cons_of_pos (by simp), List.map_cons, log, hreply, hbase, hc]
      rw [halike.countdown]
      exact ⟨congrArg _ hlog, hend⟩

/-! ## Tokens that are left -/

/-- The number of tokens from this position on that are not used up. -/
def left (p : TokenPool) (base : Nat) : Nat := (p.tokens.drop base).countP Option.isSome

/-- To use up a token from this position on leaves one less. -/
theorem left_set {token : Nat} {epoch : UInt64} (d : Countdown)
    (hlive : p.live? token = some epoch) :
    (TokenPool.mk d (p.tokens.set token none)).left base + (if base ≤ token then 1 else 0) =
      p.left base := by
  have hget : p.tokens[token]? = some (some epoch) := by
    unfold live? at hlive
    rwa [Option.join_eq_some_iff] at hlive
  obtain ⟨hlt, heq⟩ := List.getElem?_eq_some_iff.1 hget
  unfold left
  dsimp only
  rw [List.drop_set]
  split
  · rename_i hbefore
    rw [if_neg (Nat.not_le.2 hbefore), Nat.add_zero]
  · rename_i hnot
    have hle : base ≤ token := Nat.le_of_not_lt hnot
    have hindex : token - base < (p.tokens.drop base).length := by
      rw [List.length_drop]
      omega
    have hsome : (p.tokens.drop base)[token - base] = some epoch := by
      rw [List.getElem_drop, ← heq]
      congr 1
      omega
    have hpositive : 0 < (p.tokens.drop base).countP Option.isSome :=
      List.countP_pos_iff.2 ⟨_, List.getElem_mem hindex, by rw [hsome]; rfl⟩
    rw [List.countP_set hindex, hsome, if_pos hle]
    simp
    omega

/-- The countdown is at the tokens of the current arming that are left. -/
theorem counts_perform {epoch : UInt64} (hlayered : p.Layered base)
    (h : p.countdown.Counts epoch (p.left base)) (harms : c.arms = false)
    (hdecrement : c ≠ .decrement) :
    (p.perform c).2.countdown.Counts epoch ((p.perform c).2.left base) := by
  cases c with
  | arm count => cases harms
  | armTokens count => cases harms
  | decrement => exact absurd rfl hdecrement
  | markRetry =>
    show p.countdown.markRetry.Counts _ (p.left base)
    rw [h.markRetry]
    exact ⟨h.epoch, h.outstanding, h.done⟩
  | markError =>
    show p.countdown.markError.Counts _ (p.left base)
    rw [h.markError]
    exact ⟨h.epoch, h.outstanding, h.done⟩
  | clearErrors => exact ⟨h.epoch, h.outstanding, h.done⟩
  | wait => exact h
  | retried token =>
    show (p.retried token).2.countdown.Counts _ ((p.retried token).2.left base)
    cases hlive : p.live? token with
    | none => rwa [retried_of_none hlive]
    | some epoch' =>
      rw [retried_of_some hlive]
      exact h.retried epoch'
  | finish token ending =>
    show (p.finish token _).2.countdown.Counts _ ((p.finish token _).2.left base)
    cases hlive : p.live? token with
    | none => rwa [finish_of_none hlive]
    | some epoch' =>
      rw [finish_of_some hlive]
      have hleft : _ + (if base ≤ token then 1 else 0) = p.left base :=
        left_set (p.countdown.complete epoch' ending.isFailure).2 hlive
      by_cases ht : base ≤ token
      · obtain rfl : epoch' = epoch := (hlayered.current token epoch' ht hlive).trans h.epoch
        rw [if_pos ht] at hleft
        rw [← hleft] at h
        exact h.complete ending.isFailure
      · have hpast := hlayered.past token epoch' (Nat.lt_of_not_le ht) hlive
        have hne : p.countdown.epoch ≠ epoch' := by
          rintro rfl
          exact Nat.lt_irrefl _ hpast
        rw [if_neg ht, Nat.add_zero] at hleft
        rw [hleft, Countdown.complete_of_ne hne]
        exact h

/-- After an arming with tokens and calls that count no task but through tokens, the countdown is
at the tokens of this arming that are left. -/
theorem counts_after {epoch : UInt64} (hlayered : p.Layered base)
    (h : p.countdown.Counts epoch (p.left base)) {calls : List Call}
    (hcalls : ∀ c ∈ calls, c.arms = false ∧ c ≠ .decrement) :
    (p.after calls).countdown.Counts epoch ((p.after calls).left base) ∧
      (p.after calls).tokens.length = p.tokens.length := by
  induction calls generalizing p with
  | nil => exact ⟨h, rfl⟩
  | cons c rest ih =>
    obtain ⟨harms, hdecrement⟩ := hcalls c List.mem_cons_self
    have hkeeps := keeps_perform (p := p) harms
    obtain ⟨hcounts, hlength⟩ := ih (hlayered.of_keeps hkeeps)
      (counts_perform hlayered h harms hdecrement) fun d hd => hcalls d (List.mem_cons_of_mem _ hd)
    exact ⟨hcounts, hlength.trans hkeeps.length⟩

/-! ## Sequences of armings -/

/-- Tokens stay in layers while epochs do not start over. -/
theorem layered_after (h : p.Layered base)
    (hepoch : p.countdown.epoch.toNat + (before ++ rest).countP Call.arms < 2 ^ 64) :
    ∃ base', (p.after before).Layered base' ∧
      (p.after before).countdown.epoch.toNat + rest.countP Call.arms < 2 ^ 64 := by
  induction before generalizing p base with
  | nil => exact ⟨base, h, hepoch⟩
  | cons c before ih =>
    obtain ⟨hnow, hlater⟩ := epoch_room hepoch
    exact ih (h.perform hnow) hlater

theorem left_eq_zero_iff (p : TokenPool) (base : Nat) :
    p.left base = 0 ↔ ∀ token, base ≤ token → p.live? token = none := by
  unfold left
  rw [List.countP_eq_zero]
  constructor
  · intro h token ht
    unfold live?
    rw [Option.join_eq_none_iff, or_iff_not_imp_left]
    intro hsome
    obtain ⟨x, hx⟩ := Option.ne_none_iff_exists'.1 hsome
    have hmem : x ∈ p.tokens.drop base := by
      refine List.mem_of_getElem? (i := token - base) ?_
      rw [List.getElem?_drop, Nat.add_sub_cancel' ht]
      exact hx
    rw [hx, Option.not_isSome_iff_eq_none.1 (h x hmem)]
  · intro h x hx
    obtain ⟨i, hi⟩ := List.mem_iff_getElem?.1 hx
    rw [List.getElem?_drop] at hi
    have hnone := h (base + i) (Nat.le_add_right _ _)
    unfold live? at hnone
    rw [hi] at hnone
    exact Option.not_isSome_iff_eq_none.2 hnone

theorem dropAll_eq (p : TokenPool) : p.dropAll =
    p.after ((List.range p.tokens.length).map fun token => .finish token .dropped) := by
  unfold dropAll after
  rw [List.foldl_map]
  rfl

/-- A token that has been dropped is used up. -/
theorem live?_after_drops (p : TokenPool) {tokens : List Nat} {token : Nat}
    (h : token ∈ tokens ∨ p.live? token = none) :
    (p.after (tokens.map fun token => .finish token .dropped)).live? token = none := by
  induction tokens generalizing p with
  | nil => exact h.resolve_left List.not_mem_nil
  | cons first tokens ih =>
    refine ih (p.perform (.finish first .dropped)).2 (or_iff_not_imp_left.2 fun hnot => ?_)
    show (p.finish first _).2.live? token = none
    cases hlive : p.live? first with
    | none =>
      rw [finish_of_none hlive]
      refine h.elim (fun hmem => ?_) id
      rcases List.mem_cons.1 hmem with rfl | hmem
      · exact hlive
      · exact absurd hmem hnot
    | some epoch =>
      rw [finish_of_some hlive, live?_set]
      split
      · rfl
      · rename_i hne
        exact h.elim (fun hmem => absurd hmem (by simp [hne, hnot])) id

/-- A pool whose last arming handed out `n` tokens, which stand from `base` on. -/
structure Settles (p : TokenPool) (base n : Nat) : Prop where
  tokens : p.tokens.length = base + n
  /-- As many tasks are outstanding as there are tokens left. -/
  outstanding : p.countdown.outstanding = p.left base
  /-- So the countdown is done when all are used up, and not before. -/
  done : p.countdown.done = true ↔ ∀ token, base ≤ token → p.live? token = none
  /-- To drop those that are left is one way. -/
  dropped : p.dropAll.countdown.done = true

/-- An arming with tokens is settled by its tokens alone. -/
theorem settles_after (hlayered : p.Layered base)
    (hepoch : p.countdown.epoch.toNat + 1 < 2 ^ 64) (n : Nat)
    (hrest : ∀ c ∈ rest, c.arms = false ∧ c ≠ .decrement) :
    (p.after (.armTokens n :: rest)).Settles p.tokens.length n := by
  have harmed : ((p.perform (.armTokens n)).2).Layered p.tokens.length :=
    hlayered.perform fun _ => hepoch
  have hlength : (p.perform (.armTokens n)).2.tokens.length = p.tokens.length + n := by
    show (p.tokens ++ _).length = _
    rw [List.length_append, List.length_replicate]
  have hcounts : (p.perform (.armTokens n)).2.countdown.Counts (p.countdown.epoch + 1)
      ((p.perform (.armTokens n)).2.left p.tokens.length) := by
    have hall : (p.perform (.armTokens n)).2.left p.tokens.length = n := by
      show (List.drop p.tokens.length (p.tokens ++ _)).countP _ = n
      rw [List.drop_left, List.countP_replicate]
      rfl
    rw [hall]
    exact Countdown.counts_arm _ _
  have hafter : p.after (.armTokens n :: rest) = (p.perform (.armTokens n)).2.after rest := rfl
  rw [hafter]
  generalize (p.perform (.armTokens n)).2 = q at harmed hlength hcounts
  have hdone : ∀ calls, (∀ c ∈ calls, c.arms = false ∧ c ≠ .decrement) →
      ((q.after calls).countdown.done = true ↔
        ∀ token, p.tokens.length ≤ token → (q.after calls).live? token = none) := by
    intro calls hcalls
    rw [(counts_after harmed hcounts hcalls).1.done, beq_iff_eq, left_eq_zero_iff]
  obtain ⟨hcounts', hlength'⟩ := counts_after harmed hcounts hrest
  refine ⟨hlength'.trans hlength, hcounts'.outstanding, hdone rest hrest, ?_⟩
  rw [dropAll_eq, ← after_append]
  refine (hdone _ fun c hc => ?_).2 fun token _ => ?_
  · rcases List.mem_append.1 hc with hc | hc
    · exact hrest c hc
    · obtain ⟨token, -, rfl⟩ := List.mem_map.1 hc
      exact ⟨rfl, nofun⟩
  · rw [after_append]
    refine live?_after_drops _ ?_
    by_cases ht : token < (q.after rest).tokens.length
    · exact .inl (List.mem_range.2 ht)
    · exact .inr (live?_of_le (Nat.le_of_not_lt ht))

/-- In every sequence of calls with fewer than 2^64 armings: the tasks of an arming with tokens are
completed by its tokens, as long as nobody counts tasks otherwise; and what is done with tokens of
earlier armings makes no difference to what other calls return, nor to the countdown. -/
theorem only_current_tokens_count (calls : List Call)
    (hepochs : calls.countP Call.arms < 2 ^ 64) :
    (∀ before n rest, calls = before ++ .armTokens n :: rest →
      (∀ c ∈ rest, c.arms = false ∧ c ≠ .decrement) →
        (empty.after calls).Settles (empty.after before).tokens.length n) ∧
      empty.log 0 ((fresh (empty.log 0 calls)).map (·.call)) = fresh (empty.log 0 calls) ∧
        (empty.after ((fresh (empty.log 0 calls)).map (·.call))).countdown =
          (empty.after calls).countdown := by
  have hepoch : empty.countdown.epoch.toNat + calls.countP Call.arms < 2 ^ 64 := by
    show 0 + _ < _
    rwa [Nat.zero_add]
  refine ⟨?_, log_fresh (.refl 0 empty) layered_empty hepoch⟩
  rintro before n rest rfl hrest
  obtain ⟨base, hlayered, hlater⟩ := layered_after layered_empty hepoch
  rw [after_append]
  exact settles_after hlayered ((epoch_room hlater).1 rfl) n hrest

/-- A token of the first arming notes a retry and is dropped in the second one, which its own two
tokens settle. -/
theorem only_current_tokens_count_rearmed :
    let calls : List Call := [.armTokens 1, .armTokens 2, .retried 0, .finish 1 .succeeded,
      .finish 0 .dropped, .finish 2 .succeeded, .wait]
    calls.countP Call.arms < 2 ^ 64 ∧ (empty.after calls).Settles 1 2 ∧
      (fresh (empty.log 0 calls)).map (·.call) =
        [.armTokens 1, .armTokens 2, .finish 1 .succeeded, .finish 2 .succeeded, .wait] ∧
      (empty.after [.armTokens 1, .armTokens 2, .finish 1 .succeeded, .finish 2 .succeeded,
        .wait]).countdown = (empty.after calls).countdown ∧
      (empty.after calls).countdown = ⟨0, false, false, true, 2⟩ := by
  intro calls
  have hepochs : calls.countP Call.arms < 2 ^ 64 := by decide
  obtain ⟨hsettles, -, hsame⟩ := only_current_tokens_count calls hepochs
  exact ⟨hepochs, hsettles [.armTokens 1] 2 _ rfl (by decide), rfl, hsame, rfl⟩

end LeaseLock.TokenPool
