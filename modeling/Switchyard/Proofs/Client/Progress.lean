import Switchyard.Proofs.Client.Evolution

/-! # Sends go on

A send that is not held up comes to a connect or to its end. Every step that it takes by itself leaves
fewer to come, however many idle connections it has to throw away on its way. So whoever has a turn can
end it, and between the turns of a client nobody is in the middle of anything.
-/
namespace Switchyard.Client
open Net
set_option autoImplicit false

theorem Stage.due_eq_zero_iff {stage : Stage} {idle : Nat} :
    stage.due idle = 0 ↔ stage.isSettled = true := by
  rcases stage with _ | _ | _ | _ | _ | _ | _ | _ | _ | ⟨_, _ | _⟩ | ⟨_, _ | _⟩ | _ <;>
    simp [Stage.due, Stage.isSettled]

namespace PooledClient
variable {γ : Type} {c : PooledClient γ} {send : Nat} {stage : Stage}

theorem step_proceed (hStage : c.sends[send]? = some stage) :
    c.step (.proceed send) = c.reach send (c.proceed stage) := by
  change c.proceedSend send = _
  rw [proceedSend, hStage]

theorem getElem?_reach (hStage : c.sends[send]? = some stage) (next : Stage × PooledClient γ) :
    (c.reach send next).sends[send]? = some next.1 :=
  List.getElem?_set_self (List.getElem?_eq_some_iff.mp hStage).1

/-- A connection takes a message of a send only while it is active. -/
theorem queueOn_cases (c : PooledClient γ) (i : Nat) (m : Message) :
    (∃ x k sent, c.connections[i]? = some x ∧ x.send m = .ok (k, sent) ∧
      c.queueOn i m = (.queued i k, c.happens (.on i (.send m)))) ∨
    ∃ cause, c.queueOn i m = (.dropping i (.done (.failed cause)), c) := by
  unfold queueOn
  cases hx : c.connections[i]? with
  | none => exact .inr ⟨_, rfl⟩
  | some x =>
    dsimp only
    cases hSend : x.send m with
    | error cause => exact .inr ⟨cause, rfl⟩
    | ok accepted => exact .inl ⟨x, accepted.1, accepted.2, rfl, hSend, rfl⟩

/-- What a send finds in the pool. -/
inductive Finds (c : PooledClient γ) (m : Message) : Stage × PooledClient γ → Prop
  | taken {entry : Idle Nat} {idle : List (Idle Nat)} (hIdle : c.pool.idle = entry :: idle) :
    Finds c m (.trying entry.object m,
      { c with pool := { c.pool with idle, borrowed := c.pool.borrowed + 1 } })
  | reserved (hIdle : c.pool.idle = []) (hFree : c.pool.borrowed < c.policy.maxTotal) :
    Finds c m (.connecting m, { c with pool.borrowed := c.pool.borrowed + 1 })
  | exhausted (hIdle : c.pool.idle = []) (hFull : c.policy.maxTotal ≤ c.pool.borrowed) :
    Finds c m (.ended (some (.failed (.pool (.exhausted c.policy.maxTotal)))), c.count .exhausted)

theorem finds_seek (c : PooledClient γ) (m : Message) : c.Finds m (c.seek m) := by
  unfold seek Pool.seek
  cases hIdle : c.pool.idle with
  | cons entry idle => exact .taken hIdle
  | nil =>
    by_cases hFree : c.pool.borrowed < c.policy.maxTotal
    · simp only [if_pos hFree]
      exact hIdle ▸ .reserved hIdle hFree
    · simp only [if_neg hFree]
      exact .exhausted hIdle (Nat.le_of_not_lt hFree)

theorem due_proceed (hWaiting : stage.isSettled = false) :
    (c.proceed stage).1.due (c.proceed stage).2.pool.idle.length < stage.due c.pool.idle.length := by
  cases stage with
  | entering m =>
    simp only [proceed]
    split <;> simp [Stage.due]
  | seeking m =>
    have hFinds := c.finds_seek m
    change (c.seek m).1.due (c.seek m).2.pool.idle.length < _
    generalize c.seek m = next at hFinds
    cases hFinds with
    | taken hIdle =>
      simp only [Stage.due, hIdle, List.length_cons]
      omega
    | reserved | exhausted => simp [Stage.due]
  | trying i m =>
    simp only [proceed]
    split <;> simp [Stage.due]
  | opened i m =>
    simp only [proceed]
    split <;> simp [Stage.due]
  | holding i m =>
    change (c.queueOn i m).1.due _ < _
    rcases c.queueOn_cases i m with ⟨x, k, sent, -, -, hQueue⟩ | ⟨cause, hQueue⟩ <;>
      simp [hQueue, Stage.due]
  | queued i k | returning i k =>
    simp only [proceed]
    split <;> simp [Stage.due]
  | putting i k => simp [proceed, Stage.due]
  | dropping i next =>
    cases next <;> simp [proceed, Stage.due, Pool.releaseSlot]
  | leaving i next =>
    cases next with
    | retry m =>
      change 5 * c.pool.idle.length + 3 < 5 * c.pool.idle.length + 4
      exact Nat.lt_succ_self _
    | done reply => simp [proceed, Stage.due, Sequel.stage]
  | connecting | ended => cases hWaiting

theorem doomed_proceed (c : PooledClient γ) (stage : Stage) : (c.proceed stage).2.doomed = c.doomed := by
  cases stage with
  | seeking m =>
    have hFinds := c.finds_seek m
    change (c.seek m).2.doomed = _
    generalize c.seek m = next at hFinds
    cases hFinds <;> rfl
  | holding i m =>
    change (c.queueOn i m).2.doomed = _
    rcases c.queueOn_cases i m with ⟨x, k, sent, -, -, hQueue⟩ | ⟨cause, hQueue⟩ <;> rw [hQueue]
    rfl
  | trying i m | opened i m =>
    simp only [proceed]
    split <;> rfl
  | entering | queued | returning | putting | dropping | leaving | connecting | ended => rfl

theorem sends_step_proceed (c : PooledClient γ) (send other : Nat) (hOther : other ≠ send) :
    (c.step (.proceed send)).sends[other]? = c.sends[other]? := by
  change (c.proceedSend send).sends[other]? = _
  unfold proceedSend
  split
  · exact List.getElem?_set_ne hOther.symm
  · rfl

theorem due_step_lt (hStage : c.sends[send]? = some stage) (hWaiting : stage.isSettled = false) :
    (c.step (.proceed send)).due send < c.due send := by
  have hDue : c.due send = stage.due c.pool.idle.length := by simp [due, hStage]
  have hNext : (c.step (.proceed send)).due send =
      (c.proceed stage).1.due (c.proceed stage).2.pool.idle.length := by
    rw [step_proceed hStage, due, getElem?_reach hStage]
    rfl
  rw [hDue, hNext]
  exact due_proceed hWaiting

theorem step_proceed_of_isSettled (hStage : c.sends[send]? = some stage)
    (hSettled : stage.isSettled = true) : c.step (.proceed send) = c := by
  have hSame : c.proceed stage = (stage, c) := by
    cases stage with
    | connecting | ended => rfl
    | _ => cases hSettled
  obtain ⟨hLt, rfl⟩ := List.getElem?_eq_some_iff.mp hStage
  rw [step_proceed hStage, hSame, reach, List.set_getElem_self hLt]

theorem due_step_proceed (c : PooledClient γ) (send : Nat) :
    (c.step (.proceed send)).due send ≤ c.due send - 1 := by
  cases hStage : c.sends[send]? with
  | none =>
    change (c.proceedSend send).due send ≤ _
    simp [proceedSend, due, hStage]
  | some stage =>
    cases hSettled : stage.isSettled with
    | false => exact Nat.le_sub_one_of_lt (due_step_lt hStage hSettled)
    | true =>
      have hDone : c.due send = 0 := by simp [due, hStage, Stage.due_eq_zero_iff.mpr hSettled]
      rw [step_proceed_of_isSettled hStage hSettled]
      omega

theorem due_run_proceed (c : PooledClient γ) (send n : Nat) :
    (c.run (List.replicate n (.proceed send))).due send ≤ c.due send - n := by
  induction n generalizing c with
  | zero => exact Nat.le_refl _
  | succ n ih =>
    have hFirst := c.due_step_proceed send
    have hRest := ih (c.step (.proceed send))
    rw [List.replicate_succ]
    change ((c.step (.proceed send)).run _).due send ≤ _
    omega

/-- Whether a send waits for its connect or has ended. -/
def IsSettledAt (c : PooledClient γ) (send : Nat) : Prop :=
  ∀ stage, c.sends[send]? = some stage → stage.isSettled = true

theorem isSettledAt_of_due (hDue : c.due send = 0) : c.IsSettledAt send := by
  intro stage hStage
  apply Stage.due_eq_zero_iff.mp
  rwa [due, hStage] at hDue

/-- A send that has the turn comes to a connect or to its end. -/
theorem isSettledAt_finish (c : PooledClient γ) (send : Nat) : (c.finish send).IsSettledAt send := by
  apply isSettledAt_of_due
  have hDue := c.due_run_proceed send (c.due send)
  rw [Nat.sub_self] at hDue
  exact Nat.le_zero.mp hDue

theorem run_proceed_of_isSettledAt (hSettled : c.IsSettledAt send) (n : Nat) :
    c.run (List.replicate n (.proceed send)) = c := by
  have hStep : c.step (.proceed send) = c := by
    cases hStage : c.sends[send]? with
    | none =>
      change c.proceedSend send = c
      simp [proceedSend, hStage]
    | some stage => exact step_proceed_of_isSettled hStage (hSettled stage hStage)
  induction n with
  | zero => rfl
  | succ n ih =>
    rw [List.replicate_succ]
    change (c.step (.proceed send)).run _ = c
    rw [hStep, ih]

theorem finish_eq_of_due_le {n : Nat} (hEnough : c.due send ≤ n) :
    c.run (List.replicate n (.proceed send)) = c.finish send := by
  obtain ⟨more, rfl⟩ := Nat.exists_eq_add_of_le hEnough
  rw [List.replicate_add, run_append]
  exact run_proceed_of_isSettledAt (c.isSettledAt_finish send) more

/-- It makes no difference whether a send begins its turn now or after its next step. -/
theorem finish_step_proceed (c : PooledClient γ) (send : Nat) :
    (c.step (.proceed send)).finish send = c.finish send := by
  have hFewer := c.due_step_proceed send
  rw [← finish_eq_of_due_le hFewer, ← finish_eq_of_due_le (Nat.le_add_right (c.due send) 1),
    List.replicate_succ]
  change _ = (c.step (.proceed send)).run (List.replicate (c.due send) (.proceed send))
  rw [finish_eq_of_due_le hFewer, finish_eq_of_due_le (Nat.le_trans hFewer (Nat.sub_le ..))]

theorem finish_of_isSettled (hStage : c.sends[send]? = some stage) (hSettled : stage.isSettled = true) :
    c.finish send = c := by
  refine run_proceed_of_isSettledAt (fun stage' hStage' => ?_) _
  obtain rfl := Option.some.inj (hStage.symm.trans hStage')
  exact hSettled

/-! What a send does by itself concerns neither the other sends nor a shutdown. -/

/-- What is left as it is when one send goes on. -/
structure Spares (c c' : PooledClient γ) (send : Nat) : Prop where
  sends : ∀ other, other ≠ send → c'.sends[other]? = c.sends[other]?
  length_eq : c'.sends.length = c.sends.length
  doomed_eq : c'.doomed = c.doomed
  phase_eq : c'.phase = c.phase

namespace Spares

theorem refl (c : PooledClient γ) (send : Nat) : Spares c c send := ⟨fun _ _ => rfl, rfl, rfl, rfl⟩

theorem trans {c' c'' : PooledClient γ} (h : Spares c c' send) (h' : Spares c' c'' send) :
    Spares c c'' send where
  sends other hOther := (h'.sends other hOther).trans (h.sends other hOther)
  length_eq := h'.length_eq.trans h.length_eq
  doomed_eq := h'.doomed_eq.trans h.doomed_eq
  phase_eq := h'.phase_eq.trans h.phase_eq

theorem step (c : PooledClient γ) (send : Nat) : Spares c (c.step (.proceed send)) send where
  sends := c.sends_step_proceed send
  length_eq := by
    change (c.proceedSend send).sends.length = _
    unfold proceedSend
    split
    · exact List.length_set
    · rfl
  doomed_eq := by
    change (c.proceedSend send).doomed = _
    unfold proceedSend
    split
    · exact c.doomed_proceed _
    · rfl
  phase_eq := (Serves.proceedSend c send).phase_eq

theorem finish (c : PooledClient γ) (send : Nat) : Spares c (c.finish send) send := by
  unfold PooledClient.finish
  induction c.due send generalizing c with
  | zero => exact refl c send
  | succ n ih =>
    rw [List.replicate_succ]
    exact (step c send).trans (ih _)

theorem isSettledAt {c' : PooledClient γ} {other : Nat} (h : Spares c c' send) (hOther : other ≠ send)
    (hSettled : c.IsSettledAt other) : c'.IsSettledAt other := by
  intro stage hStage
  exact hSettled stage ((h.sends other hOther).symm.trans hStage)

end Spares

/-! Turns. -/

/-- So many sends have gone on one after the other, as far as they could. -/
structure Finishes (c c' : PooledClient γ) (sends : Nat) : Prop where
  settled : ∀ send < sends, c'.IsSettledAt send
  length_eq : c'.sends.length = c.sends.length
  doomed_eq : c'.doomed = c.doomed
  phase_eq : c'.phase = c.phase

theorem finishes_foldl_finish (c : PooledClient γ) (n : Nat) :
    Finishes c ((List.range n).foldl finish c) n := by
  induction n with
  | zero => exact ⟨nofun, rfl, rfl, rfl⟩
  | succ n ih =>
    rw [List.range_succ, List.foldl_append]
    have hSpares := Spares.finish ((List.range n).foldl finish c) n
    constructor
    case settled =>
      intro send hLt
      by_cases hLast : send = n
      · rw [hLast]
        exact isSettledAt_finish _ n
      · exact hSpares.isSettledAt hLast (ih.settled send (by omega))
    case length_eq => exact hSpares.length_eq.trans ih.length_eq
    case doomed_eq => exact hSpares.doomed_eq.trans ih.doomed_eq
    case phase_eq => exact hSpares.phase_eq.trans ih.phase_eq

theorem run_dismiss (c : PooledClient γ) :
    (c.run (c.doomed.map .dismiss)).doomed = [] ∧
      (c.run (c.doomed.map .dismiss)).sends = c.sends ∧
      (c.run (c.doomed.map .dismiss)).phase = c.phase := by
  generalize hDoomed : c.doomed = doomed
  induction doomed generalizing c with
  | nil => exact ⟨hDoomed, rfl, rfl⟩
  | cons i doomed ih =>
    have hStep : c.step (.dismiss i) = { c with doomed }.destroy i := by
      change c.dismiss i = _
      rw [dismiss, if_pos (by simp [hDoomed]), hDoomed, List.erase_cons_head]
    obtain ⟨hNone, hSends, hPhase⟩ := ih (c.step (.dismiss i)) (by rw [hStep]; rfl)
    refine ⟨hNone, hSends.trans ?_, hPhase.trans (Serves.dismiss c i).phase_eq⟩
    rw [hStep]
    rfl

theorem isSettled_iff : c.isSettled = true ↔
    (∀ stage ∈ c.sends, stage.isSettled = true) ∧ c.doomed = [] ∧
      (c.active = true ∨ c.ending = true) ∧ (c.pool.closed = true → c.drained = true) := by
  simp only [isSettled, Bool.and_eq_true, List.all_eq_true, List.isEmpty_iff, Bool.or_eq_true,
    Bool.not_eq_true', and_assoc]
  refine and_congr_right' (and_congr_right' (and_congr_right' ?_))
  cases c.pool.closed <;> simp

/-- Whoever begins a shutdown tells the connections, and whoever closes the pool empties it. -/
theorem phase_resume (c : PooledClient γ) :
    (c.resume.active = true ∨ c.resume.ending = true) ∧
      (c.resume.pool.closed = true → c.resume.drained = true) ∧ c.resume.pool.closed = c.pool.closed := by
  have hCancel : (c.cancel.active = true ∨ c.cancel.ending = true) ∧ c.cancel.pool = c.pool := by
    unfold cancel
    split
    case isTrue hTold => exact ⟨by simpa using hTold, rfl⟩
    case isFalse => exact ⟨.inr rfl, rfl⟩
  obtain ⟨hTold, hPool⟩ := hCancel
  rw [← hPool]
  change (c.cancel.drainPool.active = true ∨ c.cancel.drainPool.ending = true) ∧
    (c.cancel.drainPool.pool.closed = true → c.cancel.drainPool.drained = true) ∧
      c.cancel.drainPool.pool.closed = c.cancel.pool.closed
  unfold drainPool
  split
  case isTrue => exact ⟨hTold, fun _ => rfl, rfl⟩
  case isFalse hOpen =>
    refine ⟨hTold, fun hClosed => ?_, rfl⟩
    simpa [hClosed] using hOpen

theorem settle_spec (c : PooledClient γ) :
    (∀ stage ∈ c.settle.sends, stage.isSettled = true) ∧ c.settle.doomed = [] ∧
      c.settle.phase = c.resume.phase := by
  let finished := (List.range c.resume.sends.length).foldl finish c.resume
  have hFinished : Finishes c.resume finished c.resume.sends.length := c.resume.finishes_foldl_finish _
  obtain ⟨hNone, hSends, hPhase⟩ := finished.run_dismiss
  refine ⟨fun stage hStage => ?_, hNone, hPhase.trans hFinished.phase_eq⟩
  obtain ⟨send, hSend⟩ := List.mem_iff_getElem?.mp (hSends ▸ hStage)
  have hLt := (List.getElem?_eq_some_iff.mp hSend).1
  exact hFinished.settled send (hFinished.length_eq ▸ hLt) stage hSend

theorem isSettled_settle (c : PooledClient γ) : c.settle.isSettled = true := by
  obtain ⟨hSends, hDoomed, hPhase⟩ := c.settle_spec
  obtain ⟨hActive, hEnding, -, hClosed, hDrained⟩ := by
    simpa only [phase, Prod.mk.injEq] using hPhase
  obtain ⟨hTold, hEmptied, -⟩ := c.phase_resume
  rw [isSettled_iff, hActive, hEnding, hClosed, hDrained]
  exact ⟨hSends, hDoomed, hTold, hEmptied⟩

theorem closed_settle (c : PooledClient γ) : c.settle.pool.closed = c.pool.closed := by
  obtain ⟨-, -, hPhase⟩ := c.settle_spec
  obtain ⟨-, -, -, hClosed, -⟩ := by
    simpa only [phase, Prod.mk.injEq] using hPhase
  exact hClosed.trans c.phase_resume.2.2

theorem isSettled_inTurns (hSettled : c.isSettled = true) (turns : List Event) :
    (c.inTurns turns).isSettled = true := by
  induction turns generalizing c with
  | nil => exact hSettled
  | cons event turns ih => exact ih (c.step event).isSettled_settle

theorem exists_settle_eq_run (c : PooledClient γ) : ∃ events, c.settle = c.resume.run events := by
  have hFinish (c : PooledClient γ) (sends : List Nat) :
      ∃ events, sends.foldl finish c = c.run events := by
    induction sends generalizing c with
    | nil => exact ⟨[], rfl⟩
    | cons send sends ih =>
      obtain ⟨events, hRest⟩ := ih (c.finish send)
      exact ⟨_, hRest.trans (run_append c _ events).symm⟩
  let finished := (List.range c.resume.sends.length).foldl finish c.resume
  obtain ⟨events, hFinished⟩ := hFinish c.resume (List.range c.resume.sends.length)
  refine ⟨events ++ finished.doomed.map .dismiss, ?_⟩
  rw [run_append]
  exact congrArg (·.run (finished.doomed.map .dismiss)) hFinished

theorem exists_turn_eq_run (c : PooledClient γ) (event : Event) :
    ∃ events, c.turn event = (c.step event).run events := by
  obtain ⟨events, hSettle⟩ := (c.step event).exists_settle_eq_run
  refine ⟨[.cancel, .drainPool] ++ events, ?_⟩
  rw [run_append]
  exact hSettle

/-- What is done in turns is a run like any other. -/
theorem exists_inTurns_eq_run (c : PooledClient γ) (turns : List Event) :
    ∃ events, c.inTurns turns = c.run events := by
  induction turns generalizing c with
  | nil => exact ⟨[], rfl⟩
  | cons event turns ih =>
    obtain ⟨first, hFirst⟩ := c.exists_turn_eq_run event
    obtain ⟨rest, hRest⟩ := ih (c.turn event)
    refine ⟨event :: first ++ rest, ?_⟩
    rw [run_append]
    change (c.turn event).inTurns turns = ((c.step event).run first).run rest
    rw [← hFirst]
    exact hRest

end PooledClient
end Switchyard.Client
