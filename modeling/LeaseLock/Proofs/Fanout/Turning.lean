import LeaseLock.Proofs.Fanout.Wheel

/-
  LeaseLock: chores and timers.
  Whichever chore is done, the wheel of the sub-requests goes on (`Turning.acts`).  Meanwhile the errands
  of the fan-out add up: each timer that it has scheduled is one of a sub-request, or still loose, and
  each frame was sent once more than it was sent again, but for the frames that chores have in
  hand (`Booked.acts`).
-/

namespace LeaseLock.Fanout

open Reactor

variable {κ η τ ν : Type} {w : Wiring κ η State τ ν} {me : η} {horizon : Nat}
  {m : Machine κ η State τ ν} {fs fs' : List Fate} {f : Fate} {s s' : State} {c : Chore}
  {cs chores waiting : List Chore} {es new : List (Errand η)} {q q' : TimerQueue η}
  {batch : List (Nat × η)} {gone : List Nat} {os : List (Occasion κ η τ ν)} {id : Nat} {p : Pending}

/-! ## What chores have in hand -/

namespace Chore

/-- The timer that is to be cancelled. -/
def cancels? : Chore → Option Nat
  | .cancel timer => some timer
  | _ => none

/-- The timer that is to be handled. -/
def expires? : Chore → Option Nat
  | .expire timer => some timer
  | _ => none

/-- The frame that is to be sent, and where. -/
def sends? : Chore → Option (Nat × Bytes)
  | .count _ endpoint frame | .send _ endpoint frame => some (endpoint, frame)
  | _ => none

/-- The first timer of a sub-request is to fire in time. -/
def Planned (timeout horizon : Nat) : Chore → Prop
  | .time _ own => own = timeout
  | .schedule _ deadline => deadline ≤ horizon
  | _ => True

end Chore

/-- The wheel, with the timers that chores have in hand. -/
def Turning (me : η) (horizon : Nat) (fs : List Fate) (chores : List Chore) (q : TimerQueue η)
    (batch : List (Nat × η)) (gone : List Nat) : Prop :=
  Wheel me horizon fs (chores.filterMap Chore.loose?) (chores.filterMap Chore.cancels?) q
    ((chores.filterMap Chore.expires?).map (·, me) ++ batch) gone

namespace Turning

theorem perm (h : Turning me horizon fs chores q batch gone) (hp : chores.Perm cs) :
    Turning me horizon fs cs q batch gone :=
  Wheel.perm h (hp.filterMap _) (hp.filterMap _) (((hp.filterMap _).map _).append_right _)

/-- What a chore leaves has the same timers in hand. -/
theorem step (h : Turning me horizon fs (c :: waiting) q batch gone)
    (hl : cs.filterMap Chore.loose? = c.loose?.toList)
    (hc : cs.filterMap Chore.cancels? = c.cancels?.toList)
    (he : cs.filterMap Chore.expires? = c.expires?.toList) :
    Turning me horizon fs (cs ++ waiting) q batch gone := by
  unfold Turning at *
  rw [← List.singleton_append, List.filterMap_append, List.filterMap_append, List.filterMap_append]
    at h
  rw [List.filterMap_append, List.filterMap_append, List.filterMap_append, hl, hc, he]
  cases c <;> exact h

/-- A chore is done that had no timer in hand. -/
theorem rest (h : Turning me horizon fs (c :: waiting) q batch gone)
    (hc : c.loose? = none ∧ c.cancels? = none ∧ c.expires? = none) :
    Turning me horizon fs waiting q batch gone := by
  obtain ⟨hl, hc, he⟩ := hc
  have hrest : Turning me horizon fs ([] ++ waiting) q batch gone :=
    h.step (by rw [hl]; rfl) (by rw [hc]; rfl) (by rw [he]; rfl)
  exact hrest

/-- A sub-request ends, and its timer is to be cancelled. -/
theorem stop (h : Turning me horizon fs chores q batch gone)
    (hf : Followed (fun _ => true) fs s) (hp : s.pending.get? id = some p) (e : Ending)
    (outcome : Outcome) :
    Turning me horizon (fs.map (.only id (.close e))) (stopping id p outcome ++ chores) q batch
      gone := by
  obtain ⟨before, f, after, rfl, hopen, rfl, rfl, hmap⟩ := hf.place hp rfl
  rw [hmap]
  exact Wheel.close h e (fun t ht => List.mem_singleton.1 ht) (.inr List.mem_cons_self)

/-- All sub-requests of an endpoint end. -/
theorem close (h : Turning me horizon fs chores q batch gone) (hf : Followed (fun _ => true) fs s)
    (endpoint : Nat) :
    Turning me horizon (fs.map (.lost ((s.sentTo endpoint).map (·.1))))
      ((s.sentTo endpoint).flatMap (fun e => stopping e.1 e.2 .lost) ++ chores) q batch gone := by
  refine (sweep_sentTo _ (P := fun es s' =>
    Followed (fun _ => true) (fs.map (.lost (es.map (·.1)))) s' ∧
      Turning me horizon (fs.map (.lost (es.map (·.1))))
        ((es.flatMap fun e => stopping e.1 e.2 .lost) ++ chores) q batch gone)
    ⟨?_, ?_⟩ fun swept id p s' ⟨hf', h'⟩ hp => ?_).2
  · exact (map_lost_nil fs).symm ▸ hf
  · exact (map_lost_nil fs).symm ▸ h
  · rw [List.map_append, List.map_singleton, ← map_only_lost, List.flatMap_append,
      List.flatMap_singleton]
    refine ⟨hf'.without id p .closed, (h'.stop hf' hp .closed .lost).perm ?_⟩
    rw [← List.append_assoc]
    exact List.perm_append_comm.append_right _

/-- A sub-request whose timer has fired ends. -/
theorem exhausted (h : Turning me horizon fs (.expire p.timer :: waiting) q batch gone)
    (hf : Followed (fun _ => true) fs s) (hp : s.pending.get? id = some p) :
    Turning me horizon (fs.map (.only id (.close .exhausted))) waiting q batch
      (p.timer :: gone) := by
  obtain ⟨before, f, after, rfl, hopen, rfl, rfl, hmap⟩ := hf.place hp rfl
  rw [hmap]
  have hdead := Wheel.live_of_mem_due h (t := f.timer) List.mem_cons_self
  have hclosed : Wheel me horizon (before ++ f.close .exhausted :: after) _ ([] ++ _) q _ gone :=
    Wheel.close h .exhausted nofun (.inl hdead)
  refine hclosed.handled fun g hg hopen heq => ?_
  have hmine : g.timer ∈ (f.close .exhausted).timers := List.mem_cons.2 (.inl heq)
  obtain rfl := hclosed.owner hg mem_place List.mem_cons_self hmine
  cases hopen

/-- One that may be is sent again. -/
theorem again {deadline : Nat} (h : Turning me horizon fs (.expire p.timer :: waiting) q batch gone)
    (hf : Followed (fun _ => true) fs s) (hp : s.pending.get? id = some p)
    (hle : deadline ≤ horizon) :
    Turning me horizon (fs.map (.only id (.resend q.nextId))) waiting
      (q.prune.schedule deadline me).2 batch (p.timer :: gone) := by
  obtain ⟨before, f, after, rfl, hopen, rfl, rfl, hmap⟩ := hf.place hp rfl
  rw [hmap]
  have hresent := Wheel.resend h hopen List.mem_cons_self hle
  refine hresent.handled fun g hg _ heq => ?_
  have hmine : g.timer ∈ (f.resend q.nextId).timers :=
    List.mem_cons_of_mem _ (List.mem_cons.2 (.inl heq))
  obtain rfl := hresent.owner hg mem_place List.mem_cons_self hmine
  exact Nat.ne_of_gt (Wheel.given_of_mem h mem_place List.mem_cons_self) heq

/-- Whichever chore is done, the wheel goes on. -/
theorem acts (h : Turning me horizon fs (c :: waiting) m.timers batch (os.filterMap Occasion.fired?))
    (hf : Followed (fun _ => true) fs m.world) (hs : InStep m.world.byTimer m.world.pending)
    (hacts : Acts me m c s' es cs) (hw : Winds m.timers es q')
    (hplanned : c.Planned m.world.config.timeout horizon)
    (hle : m.clock + m.world.config.timeout ≤ horizon) :
    Turning me horizon (Occasion.pass fs (.did m waiting c) ++
      Occasion.opened (fun _ => true) os (.did m waiting c)) (cs ++ waiting) q' batch
      ((Occasion.did m waiting c :: os).filterMap Occasion.fired?) := by
  cases hacts with
  | scatter countdown command targets =>
    cases hw
    show Turning me horizon (fs.map (fun f => f) ++ []) _ _ _ (os.filterMap Occasion.fired?)
    rw [List.map_id', List.append_nil]
    exact h.step (filterMap_unnamed (fun _ _ _ _ => rfl) _ _ _)
      (filterMap_unnamed (fun _ _ _ _ => rfl) _ _ _) (filterMap_unnamed (fun _ _ _ _ => rfl) _ _ _)
  | name | time | count | settle =>
    cases hw
    show Turning me horizon (fs.map (fun f => f) ++ []) _ _ _ (os.filterMap Occasion.fired?)
    rw [List.map_id', List.append_nil]
    exact h.step rfl rfl rfl
  | sent | refused =>
    cases hw with
    | sent endpoint frame rest =>
    cases rest
    show Turning me horizon (fs.map (fun f => f) ++ []) _ _ _ (os.filterMap Occasion.fired?)
    rw [List.map_id', List.append_nil]
    exact h.step rfl rfl rfl
  | schedule d deadline =>
    cases hw with
    | scheduled deadline handler rest =>
    cases rest
    show Turning me horizon (fs.map (fun f => f) ++ []) _ _ _ (os.filterMap Occasion.fired?)
    rw [List.map_id', List.append_nil]
    have hsoon : deadline ≤ horizon := hplanned
    exact Wheel.scheduled h hsoon
  | enter d timer free new =>
    cases hw
    show Turning me horizon (fs.map (fun f => f) ++ [_]) _ _ _ (os.filterMap Occasion.fired?)
    rw [List.map_id']
    exact Wheel.entered h
  | cancel timer =>
    cases hw with
    | cancelled id rest =>
    cases rest
    show Turning me horizon (fs.map (fun f => f) ++ []) _ _ _ (os.filterMap Occasion.fired?)
    rw [List.map_id', List.append_nil]
    exact Wheel.cancelled h
  | complete id token failed =>
    cases hw
    show Turning me horizon (fs.map (fun f => f) ++ []) _ _ _ (os.filterMap Occasion.fired?)
    rw [List.map_id', List.append_nil]
    exact h.rest ⟨rfl, rfl, rfl⟩
  | gaveUp found =>
    cases hw
    rw [Occasion.after_of_idle]
    · exact (h.rest ⟨rfl, rfl, rfl⟩).stop hf found .refused .lost
    · rfl
  | gone missing =>
    cases hw
    rw [Occasion.after_of_idle, map_next_gone hf missing]
    · exact h.rest ⟨rfl, rfl, rfl⟩
    · rfl
  | answered decoded found =>
    cases hw
    rw [Occasion.after_of_idle, map_next_answered hf decoded found]
    · exact (h.rest ⟨rfl, rfl, rfl⟩).stop hf found _ _
    · rfl
  | stray stray =>
    cases hw
    rw [Occasion.after_of_idle, map_next_stray hf stray]
    · exact h.rest ⟨rfl, rfl, rfl⟩
    · rfl
  | unknown unknown =>
    cases hw
    rw [Occasion.after_of_idle, map_next_unknown hf hs unknown]
    · refine Wheel.handled h fun f hmem hopen heq => ?_
      cases unknown.symm.trans (heq ▸ hf.byTimer hs hmem hopen)
    · rfl
  | exhausted found enough =>
    cases hw
    rw [Occasion.after_of_idle, map_next_exhausted hf hs found enough]
    · exact h.exhausted hf found
    · rfl
  | again found more new =>
    cases hw with
    | scheduled deadline handler rest =>
    cases rest
    rw [Occasion.after_of_idle, map_next_again hf hs found more]
    · exact h.again hf found hle
    · rfl
  | close endpoint =>
    cases hw
    rw [Occasion.after_of_idle, map_next_close hf]
    · exact (h.rest ⟨rfl, rfl, rfl⟩).close hf endpoint
    · rfl

end Turning

/-! ## Accounts -/

/-- The errands have been those of the sub-requests, but for what chores have in hand. -/
structure Booked (fs : List Fate) (chores : List Chore) (es : List (Errand η)) : Prop where
  timers : (es.filterMap Errand.scheduled?).Perm
    (fs.flatMap Fate.timers ++ chores.filterMap Chore.loose?)
  sends : (es.filterMap Errand.sent? ++ chores.filterMap Chore.sends?).Perm (fs.flatMap Fate.sends)

/-- Accounts of what does not change for a sub-request. -/
theorem flatMap_map_of_eq {β : Type} {g : Fate → List β} {u : Fate → Fate}
    (h : ∀ f, g (u f) = g f) : (fs.map u).flatMap g = fs.flatMap g := by
  rw [List.flatMap_map]
  exact List.flatMap_congr fun f _ => h f

theorem timers_only_close (id : Nat) (e : Ending) (f : Fate) :
    (f.only id (.close e)).timers = f.timers := by
  unfold Fate.only
  split <;> rfl

theorem sends_only_close (id : Nat) (e : Ending) (f : Fate) :
    (f.only id (.close e)).sends = f.sends := by
  unfold Fate.only
  split <;> rfl

theorem timers_lost (ids : List Nat) (f : Fate) : (f.lost ids).timers = f.timers := by
  unfold Fate.lost
  split <;> rfl

theorem sends_lost (ids : List Nat) (f : Fate) : (f.lost ids).sends = f.sends := by
  unfold Fate.lost
  split <;> rfl

/-- Each of many gets its share, and one of them gets more. -/
theorem flatMap_replace {α β : Type} {before after : List α} {a b : α} {g : α → List β} {x : β}
    (hb : g b = x :: g a) :
    ((before ++ b :: after).flatMap g).Perm (x :: (before ++ a :: after).flatMap g) := by
  rw [List.flatMap_append, List.flatMap_cons, List.flatMap_append, List.flatMap_cons, hb]
  exact List.perm_middle

namespace Booked

theorem perm (h : Booked fs chores es) (hp : chores.Perm cs) : Booked fs cs es where
  timers := h.timers.trans ((hp.filterMap _).append_left _)
  sends := ((hp.filterMap _).append_left _).symm.trans h.sends

/-- A chore is done: what it schedules and sends is in hand or is that of a sub-request. -/
theorem step (h : Booked fs (c :: waiting) es)
    (htimers : (fs'.flatMap Fate.timers ++ cs.filterMap Chore.loose?).Perm
      (new.filterMap Errand.scheduled? ++ (fs.flatMap Fate.timers ++ c.loose?.toList)))
    (sends : List (Nat × Bytes))
    (hfates : (fs'.flatMap Fate.sends).Perm (sends ++ fs.flatMap Fate.sends))
    (hsends : (new.filterMap Errand.sent? ++ cs.filterMap Chore.sends?).Perm
      (sends ++ c.sends?.toList)) : Booked fs' (cs ++ waiting) (new ++ es) := by
  have hcons : ∀ {β : Type} (g : Chore → Option β), (c :: waiting).filterMap g =
      (g c).toList ++ waiting.filterMap g := by
    intro β g
    rw [List.filterMap_cons]
    cases g c <;> rfl
  have hbefore := h.timers
  have hsent := h.sends
  rw [hcons] at hbefore hsent
  constructor
  · rw [List.filterMap_append, List.filterMap_append]
    calc List.Perm (new.filterMap Errand.scheduled? ++ es.filterMap Errand.scheduled?)
          (new.filterMap Errand.scheduled? ++ (fs.flatMap Fate.timers ++
            (c.loose?.toList ++ waiting.filterMap Chore.loose?))) := hbefore.append_left _
      List.Perm _ (fs'.flatMap Fate.timers ++ cs.filterMap Chore.loose? ++
            waiting.filterMap Chore.loose?) := by
        rw [← List.append_assoc, ← List.append_assoc, List.append_assoc _ _ c.loose?.toList]
        exact htimers.symm.append_right _
      List.Perm _ _ := by rw [List.append_assoc]
  · rw [List.filterMap_append, List.filterMap_append]
    refine List.perm_iff_count.2 fun x => ?_
    have hold := List.perm_iff_count.1 hsent x
    have hnew := List.perm_iff_count.1 hsends x
    have hall := List.perm_iff_count.1 hfates x
    simp only [List.count_append] at hold hnew hall ⊢
    omega

/-- Neither fates nor what is in hand change. -/
theorem still (h : Booked fs (c :: waiting) es) (hl : cs.filterMap Chore.loose? = c.loose?.toList)
    (hs : cs.filterMap Chore.sends? = c.sends?.toList)
    (htimers : fs'.flatMap Fate.timers = fs.flatMap Fate.timers)
    (hsends : fs'.flatMap Fate.sends = fs.flatMap Fate.sends) :
    Booked fs' (cs ++ waiting) es := by
  have hnew : Booked fs' (cs ++ waiting) ([] ++ es) := by
    refine h.step ?_ [] ?_ ?_
    · rw [htimers, hl]
      rfl
    · rw [hsends]
      rfl
    · rw [hs]
      rfl
  exact hnew

/-- A sub-request is sent again. -/
theorem resent {timer : Nat} (h : Booked fs (.expire p.timer :: waiting) es)
    (hf : Followed (fun _ => true) fs s) (hp : s.pending.get? id = some p) (deadline : Nat) :
    Booked (fs.map (.only id (.resend timer))) (.send id p.endpoint p.frame :: waiting)
      (.scheduled timer deadline me :: es) := by
  obtain ⟨before, f, after, rfl, hopen, rfl, rfl, hmap⟩ := hf.place hp rfl
  rw [hmap]
  show Booked _ ([.send f.id f.endpoint f.frame] ++ waiting) ([.scheduled timer deadline me] ++ es)
  refine h.step ?_ [(f.endpoint, f.frame)] (flatMap_replace rfl) (.refl _)
  show (_ ++ []).Perm (timer :: (_ ++ []))
  rw [List.append_nil, List.append_nil]
  exact flatMap_replace rfl

/-- A sub-request is entered. -/
theorem entered {d : Draft} {timer : Nat} (h : Booked fs (.enter d timer :: waiting) es)
    (missed : Bool) :
    Booked (fs ++ [.enter d timer missed]) (.count d.id d.endpoint d.frame :: waiting) es := by
  show Booked _ ([.count d.id d.endpoint d.frame] ++ waiting) ([] ++ es)
  refine h.step ?_ [(d.endpoint, d.frame)] ?_ (.refl _)
  · rw [List.flatMap_append, List.flatMap_singleton]
    exact .of_eq (List.append_nil _)
  · rw [List.flatMap_append, List.flatMap_singleton]
    exact List.perm_append_comm

/-- Whichever chore is done, it is booked with its errands. -/
theorem acts (h : Booked fs (c :: waiting) es) (hf : Followed (fun _ => true) fs m.world)
    (hs : InStep m.world.byTimer m.world.pending) (hacts : Acts me m c s' new cs) :
    Booked (Occasion.pass fs (.did m waiting c) ++
      Occasion.opened (fun _ => true) os (.did m waiting c)) (cs ++ waiting) (new ++ es) := by
  cases hacts with
  | scatter countdown command targets =>
    show Booked (fs.map (fun f => f) ++ []) _ _
    rw [List.map_id', List.append_nil]
    exact h.still (filterMap_unnamed (fun _ _ _ _ => rfl) _ _ _)
      (filterMap_unnamed (fun _ _ _ _ => rfl) _ _ _) rfl rfl
  | name | time | count | cancel | settle | complete =>
    show Booked (fs.map (fun f => f) ++ []) _ _
    rw [List.map_id', List.append_nil]
    exact h.step (.refl _) [] (.refl _) (.refl _)
  | schedule d deadline =>
    show Booked (fs.map (fun f => f) ++ []) ([.enter d m.timers.nextId] ++ waiting) _
    rw [List.map_id', List.append_nil]
    refine h.step ?_ [] (.refl _) (.refl _)
    show (_ ++ [m.timers.nextId]).Perm ([m.timers.nextId] ++ (_ ++ []))
    rw [List.append_nil]
    exact List.perm_append_comm
  | sent | refused =>
    show Booked (fs.map (fun f => f) ++ []) _ _
    rw [List.map_id', List.append_nil]
    exact h.step (.refl _) [] (.refl _) (.refl _)
  | enter d timer free new =>
    show Booked (fs.map (fun f => f) ++ [_]) _ _
    rw [List.map_id']
    exact h.entered _
  | gaveUp found =>
    rw [Occasion.after_of_idle]
    · exact h.still rfl rfl (flatMap_map_of_eq (timers_only_close _ _))
        (flatMap_map_of_eq (sends_only_close _ _))
    · rfl
  | gone missing =>
    rw [Occasion.after_of_idle, map_next_gone hf missing]
    · exact h.still rfl rfl rfl rfl
    · rfl
  | answered decoded found =>
    rw [Occasion.after_of_idle, map_next_answered hf decoded found]
    · exact h.still rfl rfl (flatMap_map_of_eq (timers_only_close _ _))
        (flatMap_map_of_eq (sends_only_close _ _))
    · rfl
  | stray stray =>
    rw [Occasion.after_of_idle, map_next_stray hf stray]
    · exact h.still rfl rfl rfl rfl
    · rfl
  | unknown unknown =>
    rw [Occasion.after_of_idle, map_next_unknown hf hs unknown]
    · exact h.still rfl rfl rfl rfl
    · rfl
  | exhausted found enough =>
    rw [Occasion.after_of_idle, map_next_exhausted hf hs found enough]
    · exact h.still rfl rfl (flatMap_map_of_eq (timers_only_close _ _))
        (flatMap_map_of_eq (sends_only_close _ _))
    · rfl
  | again found more new =>
    rw [Occasion.after_of_idle, map_next_again hf hs found more]
    · exact h.resent hf found _
    · rfl
  | close endpoint =>
    rw [Occasion.after_of_idle, map_next_close hf]
    · exact h.still (filterMap_stopping (fun _ => rfl) (fun _ _ _ => rfl) _)
        (filterMap_stopping (fun _ => rfl) (fun _ _ _ => rfl) _)
        (flatMap_map_of_eq (timers_lost _)) (flatMap_map_of_eq (sends_lost _))
    · rfl

end Booked

end LeaseLock.Fanout
