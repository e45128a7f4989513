import LeaseLock.Scenario.Network

/-
  LeaseLock: what the route to the server decides.
  With a route a script runs to its end and every operation is answered (`steps_reachable`).
  Without one it runs to its end exactly if it opens no bare connection
  (`steps_unreachable_iff`).
-/

namespace LeaseLock.Scenario.Network

/-- An operation opens a bare connection. -/
def Action.opensBare : Action → Bool
  | connectBare _ => true
  | _ => false

/-- What an operation answers when there is no route, unless it opens a bare connection. -/
def stray (w : World) : Action → Answer × World
  | .connect _ | .connectNowhere => (.notConnected .unreachable, w)
  | .connectDestination _ => (.noDestination .unreachable, w)
  | a => step w a

theorem steps_cons_reachable (w : World) (a : Action) (rest : List Action) :
    steps .reachable w (a :: rest) =
      (steps .reachable (step w a).2 rest).map fun r => ((step w a).1 :: r.1, r.2) := by
  rw [steps]
  · rfl
  all_goals
    intros
    contradiction

theorem steps_cons_unreachable (w : World) {a : Action} (ha : a.opensBare = false)
    (rest : List Action) : steps .unreachable w (a :: rest) =
      (steps .unreachable (stray w a).2 rest).map fun r => ((stray w a).1 :: r.1, r.2) := by
  cases a with
  | connectBare => cases ha
  | _ => rfl

/-- With a route a script runs to its end, and every operation is answered. -/
theorem steps_reachable (w : World) (script : List Action) :
    ∃ answers w', steps .reachable w script = .ok (answers, w') ∧
      answers.length = script.length := by
  induction script generalizing w with
  | nil => exact ⟨[], w, rfl, rfl⟩
  | cons a rest ih =>
    obtain ⟨answers, w', hrest, hlength⟩ := ih (step w a).2
    refine ⟨(step w a).1 :: answers, w', ?_, congrArg Nat.succ hlength⟩
    rw [steps_cons_reachable, hrest]
    rfl

/-- One client waits for a lock until the other releases it: of the two grants one came late. -/
example :
    ((run .reachable [.connect "a", .call "a" .openSession, .call "a" (.openHandle "x"),
        .call "a" (.lock 1 .exclusive), .connect "b", .call "b" .openSession,
        .call "b" (.openHandle "x"), .spawn "b" (.lock 1 .exclusive) "waiting",
        .call "a" (.release 1), .join "waiting"]).toOption.map fun r =>
      (r.1.length, r.2.sessions, r.2.tally.grants, r.2.tally.queued)) = some (10, 2, 2, 1) := by
  decide +kernel

/-- Without a route a script runs to its end exactly if it opens no bare connection. -/
theorem steps_unreachable_iff (w : World) (script : List Action) :
    (∃ r, steps .unreachable w script = .ok r) ↔ script.all (fun a => !a.opensBare) = true := by
  induction script generalizing w with
  | nil => exact ⟨fun _ => rfl, fun _ => ⟨_, rfl⟩⟩
  | cons a rest ih =>
    rw [List.all_cons, Bool.and_eq_true, Bool.not_eq_true']
    cases ha : a.opensBare with
    | true =>
      cases a with
      | connectBare name => exact ⟨fun ⟨_, h⟩ => (nomatch h), fun ⟨h, _⟩ => (nomatch h)⟩
      | _ => cases ha
    | false =>
      rw [steps_cons_unreachable w ha, and_iff_right rfl, ← ih (stray w a).2]
      cases steps .unreachable (stray w a).2 rest with
      | ok r => exact ⟨fun _ => ⟨_, rfl⟩, fun _ => ⟨_, rfl⟩⟩
      | error e => exact ⟨fun ⟨_, h⟩ => (nomatch h), fun ⟨_, h⟩ => (nomatch h)⟩

end LeaseLock.Scenario.Network
