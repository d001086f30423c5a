import Mathlib.Data.List.Induction
import Mathlib.Data.List.Nodup
import Mathlib.Data.List.Perm.Subperm
import Switchyard.Proofs.Client.PoolConservation
import Switchyard.Proofs.Client.Progress

/-! # The slots of a client

Where the connections of a client are, and for whom the slots of its pool are taken, whoever comes
between the stages of a send. A connection that a send lets go has lost its slot a little before it is
closed, and one that a sweep or a shutdown has taken out of the pool is closed a little later. In between
another send can open a connection of its own.
-/
namespace Switchyard.Client
open Net
set_option autoImplicit false

namespace Stage

/-- The connection that a send has with it. -/
def connection? : Stage → Option Nat
  | trying i _ | opened i _ | holding i _ | queued i _ | returning i _ | putting i _ | dropping i _
  | leaving i _ => some i
  | entering _ | seeking _ | connecting _ | ended _ => none

/-- Whether a slot of the pool is taken for a send. -/
def hasSlot : Stage → Bool
  | trying .. | connecting _ | opened .. | holding .. | queued .. | returning .. | putting ..
  | dropping .. => true
  | entering _ | seeking _ | leaving .. | ended _ => false

/-- Whether a send is about to close a connection without a slot. -/
def isLeaving : Stage → Bool
  | leaving .. => true
  | _ => false

def inProgress : Stage → Bool
  | ended _ => false
  | _ => true

end Stage

section Perm
variable {α : Type} {l : List α} {i : Nat} {a b : α}

theorem perm_set (h : l[i]? = some a) : (a :: l.set i b).Perm (b :: l) := by
  obtain ⟨hLt, rfl⟩ := List.getElem?_eq_some_iff.mp h
  calc
    List.Perm (l[i] :: l.set i b) (l[i] :: b :: l.eraseIdx i) :=
      (List.set_perm_cons_eraseIdx hLt b).cons _
    List.Perm _ (b :: l[i] :: l.eraseIdx i) := .swap ..
    List.Perm _ (b :: l) := (List.getElem_cons_eraseIdx_perm hLt).cons b

end Perm

namespace PooledClient
variable {γ : Type} {c c' : PooledClient γ}

def inHand (c : PooledClient γ) : List Nat := c.sends.filterMap Stage.connection?

/-- The connections that somebody still has. -/
def located (c : PooledClient γ) : List Nat := Pool.objects c.pool.idle ++ c.inHand ++ c.doomed

/-- The connections without a slot that are still to be closed. -/
def departing (c : PooledClient γ) : Nat := c.sends.countP Stage.isLeaving + c.doomed.length

/-- Whether a connection has been opened and is inactive. -/
def IsGone (c : PooledClient γ) (i : Nat) : Prop :=
  ∃ x, c.connections[i]? = some x ∧ x.isActive = false

/-- Nobody but one has a connection, and an active one is never out of sight. Slots are taken for sends,
and there are no more of them than the policy says. -/
structure Accounted (c : PooledClient γ) : Prop where
  distinct : c.located.Nodup
  known : ∀ i ∈ c.located, i < c.connections.length
  present : ∀ (i : Nat) (x : Connection γ), c.connections[i]? = some x → x.isActive = true →
    i ∈ c.located
  slots : c.pool.borrowed = c.sends.countP Stage.hasSlot
  bound : c.pool.idle.length + c.pool.borrowed ≤ c.policy.maxTotal

theorem getElem?_destroy (c : PooledClient γ) (i j : Nat) :
    (c.destroy i).connections[j]? =
      (c.connections[j]?).map fun x => if i = j then x.close.2 else x :=
  c.toFleet.getElem?_onConnection i j .close

theorem isGone_destroy
    (hSound : ∀ x ∈ c.connections, x.handle.closed = true → x.handle.closing = true) {i : Nat}
    (hLt : i < c.connections.length) : (c.destroy i).IsGone i := by
  refine ⟨c.connections[i].close.2, ?_, Connection.isActive_close (hSound _ (List.getElem_mem hLt))⟩
  rw [getElem?_destroy, List.getElem?_eq_getElem hLt, Option.map_some, if_pos rfl]

theorem inHand_reach {send : Nat} {stage : Stage} (next : Stage)
    (hStage : c.sends[send]? = some stage) :
    (stage.connection?.toList ++ (c.sends.set send next).filterMap Stage.connection?).Perm
      (next.connection?.toList ++ c.inHand) := by
  have hPerm := (perm_set (b := next) hStage).filterMap Stage.connection?
  cases hOld : stage.connection? <;> cases hNew : next.connection? <;>
    simpa [List.filterMap_cons, hOld, hNew, inHand] using hPerm

theorem countP_reach (p : Stage → Bool) {send : Nat} {stage : Stage} (next : Stage)
    (hStage : c.sends[send]? = some stage) :
    (c.sends.set send next).countP p + (p stage).toNat = c.sends.countP p + (p next).toNat := by
  have hPerm := (perm_set (b := next) hStage).countP_eq p
  rw [List.countP_cons, List.countP_cons] at hPerm
  cases hOld : p stage <;> cases hNew : p next <;> simpa [hOld, hNew] using hPerm

namespace Accounted

theorem mem_located {send i : Nat} {stage : Stage} (hStage : c.sends[send]? = some stage)
    (hHeld : stage.connection? = some i) : i ∈ c.located := by
  have hInHand : i ∈ c.inHand :=
    List.mem_filterMap.mpr ⟨stage, List.mem_of_getElem? hStage, hHeld⟩
  simp [located, hInHand]

theorem borrowed_pos (h : c.Accounted) {send : Nat} {stage : Stage}
    (hStage : c.sends[send]? = some stage) (hSlot : stage.hasSlot = true) : 0 < c.pool.borrowed := by
  rw [h.slots]
  exact List.countP_pos_iff.mpr ⟨stage, List.mem_of_getElem? hStage, hSlot⟩

/-- Connections are opened, go from one to the other, and are closed when nobody has them any more. -/
theorem next (h : c.Accounted) (hLeads : c.Leads c') (hPolicy : c'.policy = c.policy)
    (gone opened : List Nat) (hPerm : (gone ++ c'.located).Perm (opened ++ c.located))
    (hOpened : List.range c'.connections.length = List.range c.connections.length ++ opened)
    (hGone : ∀ i ∈ gone, c'.IsGone i) (hSlots : c'.pool.borrowed = c'.sends.countP Stage.hasSlot)
    (hBound : c'.pool.idle.length + c'.pool.borrowed ≤ c.policy.maxTotal) : c'.Accounted where
  distinct := by
    have hAll : (List.range c.connections.length ++ opened).Nodup := hOpened ▸ List.nodup_range
    obtain ⟨-, hNew, hApart⟩ := List.nodup_append.mp hAll
    have hBefore : (opened ++ c.located).Nodup := by
      refine List.nodup_append.mpr ⟨hNew, h.distinct, fun i hi j hj hSame => ?_⟩
      exact hApart j (List.mem_range.mpr (h.known j hj)) i hi hSame.symm
    exact (List.nodup_append.mp (hPerm.nodup_iff.mpr hBefore)).2.1
  known i hi := by
    rw [← List.mem_range, hOpened, List.mem_append]
    rcases List.mem_append.mp (hPerm.subset (List.mem_append_right gone hi)) with hNew | hOld
    · exact .inr hNew
    · exact .inl (List.mem_range.mpr (h.known i hOld))
  present i x' hx' hActive := by
    have hBefore : i ∈ opened ++ c.located := by
      have hLt := List.mem_range.mpr (List.getElem?_eq_some_iff.mp hx').1
      rw [hOpened, List.mem_append, List.mem_range] at hLt
      refine List.mem_append.mpr (hLt.symm.imp_right fun hLt => ?_)
      have hx := List.getElem?_eq_getElem hLt
      obtain ⟨events, hEvents⟩ := hLeads.grown.old hx
      obtain rfl := Option.some.inj (hx'.symm.trans hEvents)
      refine h.present i _ hx (Bool.of_not_eq_false fun hInactive => ?_)
      cases hActive.symm.trans (Connection.isActive_run hInactive events)
    refine (List.mem_append.mp (hPerm.symm.subset hBefore)).resolve_left fun hi => ?_
    obtain ⟨y, hy, hInactive⟩ := hGone i hi
    obtain rfl := Option.some.inj (hx'.symm.trans hy)
    cases hActive.symm.trans hInactive
  slots := hSlots
  bound := hPolicy ▸ hBound

section Reach
variable {send : Nat} {stage : Stage} {next : Stage × PooledClient γ}

theorem reach (h : c.Accounted) (hStage : c.sends[send]? = some stage) (hServes : Serves c next.2)
    (hDoomed : next.2.doomed = c.doomed) (gone opened : List Nat)
    (hPerm : (gone ++ next.1.connection?.toList ++ Pool.objects next.2.pool.idle).Perm
      (opened ++ stage.connection?.toList ++ Pool.objects c.pool.idle))
    (hOpened : List.range next.2.connections.length = List.range c.connections.length ++ opened)
    (hGone : ∀ i ∈ gone, next.2.IsGone i)
    (hSlots : next.2.pool.borrowed + stage.hasSlot.toNat = c.pool.borrowed + next.1.hasSlot.toNat)
    (hBound : next.2.pool.idle.length + next.2.pool.borrowed ≤ c.policy.maxTotal) :
    (c.reach send next).Accounted := by
  have hPolicy : next.2.policy = c.policy := congrArg (·.2.2.1) hServes.setup_eq
  refine h.next (hServes.reach send).leads hPolicy gone opened ?_ hOpened hGone ?_ hBound
  · rw [List.perm_iff_count] at hPerm ⊢
    intro i
    have hMoved := hPerm i
    have hHand := (inHand_reach next.1 hStage).count_eq i
    simp only [located, inHand, PooledClient.reach, hDoomed, List.count_append] at hMoved hHand ⊢
    omega
  · have hCount := countP_reach Stage.hasSlot next.1 hStage
    have hBefore := h.slots
    change next.2.pool.borrowed = (c.sends.set send next.1).countP Stage.hasSlot
    omega

/-- A stage that needs nothing of the pool leaves the connection and the slot with the send. -/
theorem reach_of_same (h : c.Accounted) (hStage : c.sends[send]? = some stage)
    (hServes : Serves c next.2) (hDoomed : next.2.doomed = c.doomed) (hPool : next.2.pool = c.pool)
    (hLength : next.2.connections.length = c.connections.length)
    (hConnection : next.1.connection? = stage.connection?)
    (hSlot : next.1.hasSlot = stage.hasSlot) : (c.reach send next).Accounted := by
  refine h.reach hStage hServes hDoomed [] [] ?_ ?_ nofun ?_ ?_
  · rw [hPool, hConnection]
  · rw [hLength, List.append_nil]
  · rw [hPool, hSlot]
  · rw [hPool]
    exact h.bound

/-- A send that gives its slot back may go on with its connection for a little while. -/
theorem release (h : c.Accounted) (hStage : c.sends[send]? = some stage) (hServes : Serves c next.2)
    (hDoomed : next.2.doomed = c.doomed) (hPool : next.2.pool = c.pool.releaseSlot)
    (hLength : next.2.connections.length = c.connections.length)
    (hConnection : next.1.connection? = stage.connection?) (hSlot : stage.hasSlot = true)
    (hNone : next.1.hasSlot = false) : (c.reach send next).Accounted := by
  have hPos := h.borrowed_pos hStage hSlot
  have hBound := h.bound
  refine h.reach hStage hServes hDoomed [] [] ?_ ?_ nofun ?_ ?_
  · rw [hPool, hConnection]
    exact .refl _
  · rw [hLength, List.append_nil]
  · rw [hPool, hSlot, hNone]
    change c.pool.borrowed - 1 + 1 = c.pool.borrowed + 0
    omega
  · rw [hPool]
    change c.pool.idle.length + (c.pool.borrowed - 1) ≤ _
    omega

theorem proceed (h : c.Accounted) (hOrderly : c.Orderly) (hStage : c.sends[send]? = some stage) :
    (c.reach send (c.proceed stage)).Accounted := by
  have hServes := Serves.proceed c stage
  have hDoomed := c.doomed_proceed stage
  cases stage with
  | seeking m =>
    change Serves c (c.seek m).2 at hServes
    change (c.seek m).2.doomed = _ at hDoomed
    change (c.reach send (c.seek m)).Accounted
    have hFinds := c.finds_seek m
    have hBound := h.bound
    generalize c.seek m = next at hFinds hServes hDoomed
    cases hFinds with
    | taken hIdle =>
      refine h.reach hStage hServes hDoomed [] [] ?_ ?_ nofun rfl ?_
      · simp [hIdle, Stage.connection?, Pool.objects]
      · exact (List.append_nil _).symm
      · rw [hIdle, List.length_cons, Nat.add_assoc, Nat.add_comm 1] at hBound
        exact hBound
    | reserved hIdle hFree =>
      refine h.reach hStage hServes hDoomed [] [] ?_ ?_ nofun rfl ?_
      · simp [Stage.connection?]
      · exact (List.append_nil _).symm
      · rw [hIdle]
        change 0 + (c.pool.borrowed + 1) ≤ _
        omega
    | exhausted => exact h.reach_of_same hStage hServes rfl rfl rfl rfl rfl
  | holding i m =>
    change Serves c (c.queueOn i m).2 at hServes
    change (c.reach send (c.queueOn i m)).Accounted
    rcases c.queueOn_cases i m with ⟨x, k, sent, -, -, hQueue⟩ | ⟨cause, hQueue⟩
    · rw [hQueue] at hServes ⊢
      exact h.reach_of_same hStage hServes rfl rfl (Fleet.length_step rfl) rfl rfl
    · rw [hQueue]
      exact h.reach_of_same hStage (.refl c) rfl rfl rfl rfl rfl
  | putting i k =>
    have hPos := h.borrowed_pos hStage rfl
    have hBound := h.bound
    refine h.reach hStage hServes rfl [] [] ?_ ?_ nofun ?_ ?_
    · rfl
    · exact (List.append_nil _).symm
    · change c.pool.borrowed - 1 + 1 = c.pool.borrowed + 0
      omega
    · change c.pool.idle.length + 1 + (c.pool.borrowed - 1) ≤ _
      omega
  | dropping i next => exact h.release hStage hServes rfl rfl rfl rfl rfl rfl
  | leaving i next =>
    have hNext : next.stage.connection? = none ∧ next.stage.hasSlot = false := by
      cases next <;> exact ⟨rfl, rfl⟩
    refine h.reach hStage hServes rfl [i] [] ?_ ?_ ?_ ?_ h.bound
    · change ([i] ++ next.stage.connection?.toList ++ _).Perm _
      rw [hNext.1]
      rfl
    · rw [List.append_nil]
      exact congrArg List.range (Fleet.length_step rfl)
    · intro j hj
      obtain rfl := List.mem_singleton.mp hj
      exact isGone_destroy hOrderly.sound (h.known j (mem_located hStage rfl))
    · change c.pool.borrowed + 0 = c.pool.borrowed + next.stage.hasSlot.toNat
      rw [hNext.2]
      rfl
  | entering m | queued i k | returning i k =>
    simp only [PooledClient.proceed]
    split <;> exact h.reach_of_same hStage (.refl c) rfl rfl rfl rfl rfl
  | trying i m | opened i m =>
    simp only [PooledClient.proceed]
    split
    · exact h.reach_of_same hStage (.count c _) rfl rfl rfl rfl rfl
    · exact h.reach_of_same hStage (.refl c) rfl rfl rfl rfl rfl
  | connecting m | ended reply => exact h.reach_of_same hStage (.refl c) rfl rfl rfl rfl rfl

theorem connected (h : c.Accounted) {m : Message} (hStage : c.sends[send]? = some (.connecting m))
    (result : Except ConnectError Unit) : (c.reach send (c.connected m result)).Accounted := by
  have hServes := Serves.connected c m result
  cases result with
  | ok opened =>
    refine h.reach hStage hServes rfl [] [c.connections.length] ?_ ?_ nofun rfl
      h.bound
    · rfl
    · rw [← List.range_succ]
      exact congrArg List.range List.length_append
  | error cause => exact h.release hStage hServes rfl rfl rfl rfl rfl rfl

theorem abandoned (h : c.Accounted) {m : Message} (hStage : c.sends[send]? = some (.connecting m)) :
    (c.reach send (.ended none, { c with pool := c.pool.releaseSlot })).Accounted := by
  have hServes : Serves c { c with pool := c.pool.releaseSlot } := ⟨⟨[], rfl, nofun⟩, rfl, rfl⟩
  exact h.release hStage hServes rfl rfl rfl rfl rfl rfl

end Reach

/-- A step that moves connections about in the pool, or out of it. -/
theorem of_perm (h : c.Accounted) (hLeads : c.Leads c') (hPolicy : c'.policy = c.policy)
    (hPerm : c'.located.Perm c.located) (hLength : c'.connections.length = c.connections.length)
    (hSlots : c'.pool.borrowed = c'.sends.countP Stage.hasSlot)
    (hBound : c'.pool.idle.length + c'.pool.borrowed ≤ c.policy.maxTotal) : c'.Accounted :=
  h.next hLeads hPolicy [] [] hPerm (by rw [hLength, List.append_nil]) nofun hSlots
    hBound

theorem beginSend (h : c.Accounted) (m : Message) : (c.beginSend m).Accounted := by
  have hEnter : (c.enter m).connection? = none ∧ (c.enter m).hasSlot = false := by
    unfold PooledClient.enter
    split <;> exact ⟨rfl, rfl⟩
  refine h.of_perm ⟨[], rfl, nofun⟩ rfl ?_ rfl ?_ h.bound
  · simp [located, inHand, PooledClient.beginSend, List.filterMap_append, hEnter]
  · change c.pool.borrowed = (c.sends ++ [c.enter m]).countP Stage.hasSlot
    simpa [List.countP_append, hEnter] using h.slots

theorem sweep (h : c.Accounted) (late : List Nat) : (c.sweep late).Accounted := by
  have hPerm := Pool.takeDoomed_perm c.policy (fun i => c.isUsable i && !late.contains i)
    c.scheduler.now c.pool
  have hLength := hPerm.length_eq
  have hBound := h.bound
  refine h.of_perm ⟨[], rfl, nofun⟩ rfl ?_ rfl h.slots ?_
  · rw [List.perm_iff_count] at hPerm ⊢
    intro i
    have hCount := hPerm i
    simp only [located, inHand, PooledClient.sweep, List.count_append] at hCount ⊢
    omega
  · simp only [Pool.objects, List.length_append, List.length_map] at hLength
    change (c.pool.takeDoomed _ _ _).2.idle.length + c.pool.borrowed ≤ _
    omega

theorem dismissed (h : c.Accounted) (hOrderly : c.Orderly) {i : Nat} (hDoomed : i ∈ c.doomed) :
    ({ c with doomed := c.doomed.erase i }.destroy i).Accounted := by
  have hPerm := List.perm_cons_erase hDoomed
  refine h.next (Serves.on c i .close).leads rfl [i] [] ?_ ?_ ?_ h.slots h.bound
  · rw [List.perm_iff_count] at hPerm ⊢
    intro j
    have hCount := hPerm j
    simp only [located, inHand, destroy, happens, List.count_append, List.count_cons,
      List.count_nil] at hCount ⊢
    omega
  · rw [List.append_nil]
    exact congrArg List.range (Fleet.length_step rfl)
  · intro j hj
    obtain rfl := List.mem_singleton.mp hj
    have hKnown := h.known j (by simp [located, hDoomed])
    exact isGone_destroy (c := { c with doomed := c.doomed.erase j }) hOrderly.sound hKnown

theorem drained (h : c.Accounted) : ({ c with
    pool := c.pool.drain.2, doomed := c.doomed ++ c.pool.drain.1, drained := true }).Accounted := by
  have hBound := h.bound
  refine h.of_perm ⟨[], rfl, nofun⟩ rfl ?_ rfl h.slots ?_
  · rw [List.perm_iff_count]
    intro i
    simp only [located, inHand, Pool.drain, Pool.objects, List.map_nil, List.count_append,
      List.count_nil]
    omega
  · change 0 + c.pool.borrowed ≤ _
    omega

theorem rests (h : c.Accounted) (hRests : Rests c c') (hChanges : Changes c c') : c'.Accounted := by
  have hPolicy : c'.policy = c.policy := congrArg (·.2.2.1) hChanges.setup_eq
  refine h.of_perm hChanges.leads hPolicy ?_ hRests.length_eq ?_ ?_
  · rw [located, inHand, hRests.idle_eq, hRests.sends_eq, hRests.doomed_eq]
    exact .refl _
  · rw [hRests.borrowed_eq, hRests.sends_eq]
    exact h.slots
  · rw [hRests.borrowed_eq, hRests.idle_eq]
    exact h.bound

theorem step (h : c.Accounted) (hOrderly : c.Orderly) (event : Event) : (c.step event).Accounted := by
  have hChanges := c.changes_step event
  have hActs := c.acts_step event
  generalize c.step event = c' at hChanges hActs
  cases hActs with
  | begun m => exact h.beginSend m
  | proceeded hStage => exact h.proceed hOrderly hStage
  | connected hStage result => exact h.connected hStage result
  | abandoned hStage => exact h.abandoned hStage
  | swept late => exact h.sweep late
  | dismissed hDoomed => exact h.dismissed hOrderly hDoomed
  | drained => exact h.drained
  | rests hRests => exact h.rests hRests hChanges

theorem start (s : Config.ClientSettings) (codec : Codec γ) (fresh : γ) :
    (ofSettings s codec fresh).Accounted where
  distinct := .nil
  known := nofun
  present := nofun
  slots := rfl
  bound := Nat.zero_le _

theorem run (h : c.Accounted) (hOrderly : c.Orderly) (events : List Event) :
    (c.run events).Accounted := by
  induction events generalizing c with
  | nil => exact h
  | cons event events ih => exact ih (h.step hOrderly event) (hOrderly.step event)

/-! What a state of this kind is like. -/

theorem place (h : c.Accounted) {i : Nat} {x : Connection γ} (hx : c.connections[i]? = some x) :
    c.located.count i = 1 ∨ c.located.count i = 0 ∧ x.isActive = false := by
  by_cases hLocated : i ∈ c.located
  · exact .inl (List.count_eq_one_of_mem h.distinct hLocated)
  · refine .inr ⟨List.count_eq_zero.mpr hLocated, Bool.of_not_eq_true fun hActive => ?_⟩
    exact hLocated (h.present i x hx hActive)

end Accounted

theorem length_filter_range (xs : List (Connection γ)) :
    ((List.range xs.length).filter fun i => (xs[i]?).any (·.isActive)).length =
      (xs.filter (·.isActive)).length := by
  induction xs using List.reverseRecOn with
  | nil => rfl
  | append_singleton xs x ih =>
    have hOld : (List.range xs.length).filter (fun i => ((xs ++ [x])[i]?).any (·.isActive)) =
        (List.range xs.length).filter fun i => (xs[i]?).any (·.isActive) := by
      apply List.filter_congr
      intro i hi
      rw [List.getElem?_append_left (List.mem_range.mp hi)]
    rw [List.length_append, List.length_singleton, List.range_succ, List.filter_append, hOld,
      List.filter_append, List.length_append, List.length_append, ih]
    cases hActive : x.isActive <;> simp [hActive]

theorem length_filterMap_connection? (sends : List Stage) :
    (sends.filterMap Stage.connection?).length ≤
      sends.countP Stage.hasSlot + sends.countP Stage.isLeaving := by
  induction sends with
  | nil => exact Nat.zero_le _
  | cons stage sends ih =>
    rw [List.filterMap_cons, List.countP_cons, List.countP_cons]
    cases stage <;> simp [Stage.connection?, Stage.hasSlot, Stage.isLeaving] <;> omega

theorem Accounted.activeConnections_le (h : c.Accounted) :
    c.activeConnections ≤ c.policy.maxTotal + c.departing := by
  have hPlaced : (List.range c.connections.length).filter c.isUsable ⊆ c.located := by
    intro i hi
    obtain ⟨-, hUsable⟩ := List.mem_filter.mp hi
    obtain ⟨x, hx, hActive⟩ := (Option.any_eq_true _ _).mp hUsable
    exact h.present i x hx hActive
  have hDistinct : ((List.range c.connections.length).filter c.isUsable).Nodup :=
    List.nodup_range.filter c.isUsable
  have hLength := (List.subperm_of_subset hDistinct hPlaced).length_le
  have hHand : c.inHand.length ≤ _ := length_filterMap_connection? c.sends
  have hSlots := h.slots
  have hBound := h.bound
  rw [located, List.length_append, List.length_append, Pool.objects, List.length_map] at hLength
  rw [activeConnections, ← length_filter_range, departing]
  change ((List.range c.connections.length).filter c.isUsable).length ≤ _
  omega

/-- Between turns a send in progress has a slot, and no connection is about to be closed. -/
theorem counts_of_isSettled (hSettled : c.isSettled = true) :
    c.sends.countP Stage.hasSlot = c.sends.countP Stage.inProgress ∧ c.departing = 0 := by
  obtain ⟨hSends, hDoomed, -, -⟩ := isSettled_iff.mp hSettled
  constructor
  · apply List.countP_congr
    intro stage hStage
    have hSettled := hSends stage hStage
    cases stage <;> simp_all [Stage.isSettled, Stage.hasSlot, Stage.inProgress]
  · have hNone : c.sends.countP Stage.isLeaving = 0 := by
      rw [List.countP_eq_zero]
      intro stage hStage hLeaves
      have hSettled := hSends stage hStage
      cases stage <;> simp_all [Stage.isSettled, Stage.isLeaving]
    rw [departing, hNone, hDoomed]
    rfl

section Proceed
variable {send i : Nat} {m : Message} {stage : Stage}

theorem step_entering (hStage : c.sends[send]? = some (.entering m)) :
    let c' := c.step (.proceed send)
    c'.pool = c.pool ∧ c'.sends[send]? =
      some (if c.pool.closed then .ended (some (.failed (.pool .closed))) else .seeking m) := by
  intro c'
  have hStep : c' = c.reach send (c.proceed (.entering m)) := step_proceed hStage
  rw [hStep]
  exact ⟨rfl, getElem?_reach hStage _⟩

theorem step_trying (hTest : c.policy.testOnBorrow = true)
    (hStage : c.sends[send]? = some (.trying i m)) :
    (c.step (.proceed send)).sends[send]? =
      some (if c.isUsable i then .holding i m else .dropping i (.retry m)) := by
  have hPasses : c.passes c.policy.testOnBorrow i = c.isUsable i := by
    simp [passes, Pool.passes, hTest]
  rw [step_proceed hStage, getElem?_reach hStage, proceed, hPasses]
  split <;> rfl

theorem step_opened (hTest : c.policy.testOnCreate = true)
    (hStage : c.sends[send]? = some (.opened i m)) :
    (c.step (.proceed send)).sends[send]? =
      some (if c.isUsable i then .holding i m
        else .dropping i (.done (.failed (.pool .invalidOnCreate)))) := by
  have hPasses : c.passes c.policy.testOnCreate i = c.isUsable i := by
    simp [passes, Pool.passes, hTest]
  rw [step_proceed hStage, getElem?_reach hStage, proceed, hPasses]
  split <;> rfl

theorem step_holding (hStage : c.sends[send]? = some (.holding i m)) :
    (∃ x k, c.connections[i]? = some x ∧ x.isActive = true ∧
      (c.step (.proceed send)).sends[send]? = some (.queued i k) ∧
      ((c.step (.proceed send)).connections[i]?).bind (·.contents[k]?) = some m.content) ∨
    ∃ cause, (c.step (.proceed send)).sends[send]? = some (.dropping i (.done (.failed cause))) ∧
      (c.step (.proceed send)).connections = c.connections := by
  have hStep : c.step (.proceed send) = c.reach send (c.queueOn i m) := step_proceed hStage
  rcases c.queueOn_cases i m with ⟨x, k, sent, hx, hSend, hQueue⟩ | ⟨cause, hQueue⟩
  · left
    obtain ⟨hOpen, hActive, rfl, hSent⟩ := Connection.send_eq_ok hSend
    have hNew : (c.step (.proceed send)).connections[i]? = some sent := by
      rw [hStep, hQueue]
      refine (c.toFleet.getElem?_onConnection i i _).trans ?_
      rw [hx, Option.map_some, if_pos rfl, Connection.step_send_of_ok c.codec hSend]
    refine ⟨x, x.messages.length, hx, ?_, ?_, ?_⟩
    · simp [Connection.isActive, Connection.hasEnded, hOpen, hActive]
    · rw [hStep, hQueue]
      exact getElem?_reach hStage _
    · rw [hNew, Option.bind_some, hSent]
      simp [Connection.contents, Message.content]
  · right
    rw [hStep, hQueue]
    exact ⟨cause, getElem?_reach hStage _, rfl⟩

theorem Accounted.step_of_connection? (h : c.Accounted) (hOrderly : c.Orderly)
    (hStage : c.sends[send]? = some stage) (hHeld : stage.connection? = some i) :
    ((c.step (.proceed send)).sends[send]?).bind Stage.connection? = some i ∨
      i ∈ Pool.objects (c.step (.proceed send)).pool.idle ∨ (c.step (.proceed send)).IsGone i := by
  rw [step_proceed hStage, getElem?_reach hStage, Option.bind_some]
  cases stage with
  | putting j k =>
    obtain rfl := Option.some.inj hHeld
    exact .inr (.inl (List.mem_cons_self))
  | leaving j next =>
    obtain rfl := Option.some.inj hHeld
    exact .inr (.inr (isGone_destroy hOrderly.sound (h.known j (Accounted.mem_located hStage rfl))))
  | holding j m =>
    left
    change (c.queueOn j m).1.connection? = some i
    rcases c.queueOn_cases j m with ⟨x, k, sent, -, -, hQueue⟩ | ⟨cause, hQueue⟩ <;> rw [hQueue] <;>
      exact hHeld
  | trying j m | opened j m | queued j k | returning j k =>
    left
    simp only [PooledClient.proceed]
    split <;> exact hHeld
  | dropping j next => exact .inl hHeld
  | entering | seeking | connecting | ended => cases hHeld

/-- A send takes the connection that came back last, or a slot for one of its own, or there is none. -/
theorem Accounted.step_seeking (h : c.Accounted) (hStage : c.sends[send]? = some (.seeking m)) :
    let c' := c.step (.proceed send)
    (∃ i, Pool.objects c.pool.idle = i :: Pool.objects c'.pool.idle ∧
      c'.sends[send]? = some (.trying i m) ∧ c'.pool.borrowed = c.pool.borrowed + 1) ∨
    (c.pool.idle = [] ∧ c.pool.borrowed < c.policy.maxTotal ∧
      c'.sends[send]? = some (.connecting m) ∧ c'.pool.borrowed = c.pool.borrowed + 1) ∨
    (c.pool.idle = [] ∧ c.pool.borrowed = c.policy.maxTotal ∧ c'.pool = c.pool ∧
      c'.sends[send]? = some (.ended (some (.failed (.pool (.exhausted c.policy.maxTotal)))))) := by
  have hStep : c.step (.proceed send) = c.reach send (c.seek m) := step_proceed hStage
  have hBound := h.bound
  rw [hStep]
  have hReach := getElem?_reach hStage (c.seek m)
  have hFinds := c.finds_seek m
  generalize c.seek m = next at hReach hFinds
  cases hFinds with
  | taken hIdle => exact .inl ⟨_, congrArg Pool.objects hIdle, hReach, rfl⟩
  | reserved hIdle hFree => exact .inr (.inl ⟨hIdle, hFree, hReach, rfl⟩)
  | exhausted hIdle hFull => exact .inr (.inr ⟨hIdle, by omega, rfl, hReach⟩)

/-- A send that has waited for a connect has a new connection, or it is over and its slot is free. -/
theorem Accounted.step_connecting (h : c.Accounted) (hStage : c.sends[send]? = some (.connecting m)) :
    (c.step (.connected send (.ok ()))).sends[send]? = some (.opened c.connections.length m) ∧
    (∀ cause, let c' := c.step (.connected send (.error cause))
      c'.sends[send]? = some (.ended (some (.failed (.pool (.create (.ofConnect cause)))))) ∧
        c'.pool.borrowed + 1 = c.pool.borrowed) ∧
    let c' := c.step (.abandon send)
    c'.sends[send]? = some (.ended none) ∧ c'.pool.borrowed + 1 = c.pool.borrowed := by
  have hPos := h.borrowed_pos hStage rfl
  have hStep (result : Except ConnectError Unit) :
      c.step (.connected send result) = c.reach send (c.connected m result) := by
    change c.connectSend send result = _
    rw [connectSend, hStage]
  have hAbandon : c.step (.abandon send) =
      c.reach send (.ended none, { c with pool := c.pool.releaseSlot }) := by
    change c.abandonSend send = _
    rw [abandonSend, hStage]
  refine ⟨?_, fun cause => ?_, ?_⟩
  · rw [hStep]
    exact getElem?_reach hStage _
  · rw [hStep]
    exact ⟨getElem?_reach hStage _, Nat.sub_add_cancel hPos⟩
  · rw [hAbandon]
    exact ⟨getElem?_reach hStage _, Nat.sub_add_cancel hPos⟩

end Proceed

/-- How the slots of a pool, the sends of a client and its connections stand to each other. -/
structure SlotsFollow (workers : Nat) (c : PooledClient γ) : Prop where
  /-- Between turns every send in progress has a slot. -/
  settled : c.isSettled = true →
    c.activeConnections ≤ workers ∧ c.pool.borrowed = c.sends.countP Stage.inProgress
  slots : c.pool.borrowed = c.sends.countP Stage.hasSlot
  bound : c.pool.idle.length + c.pool.borrowed ≤ workers
  /-- Beyond the workers there are only connections that have lost their slots and are about to be
  closed. -/
  active_le : c.activeConnections ≤ workers + c.departing
  /-- A connection is in the pool, with one send or about to be closed, or it is closed. -/
  place : ∀ (i : Nat) (x : Connection γ), c.connections[i]? = some x →
    c.located.count i = 1 ∨ c.located.count i = 0 ∧ x.isActive = false
  entering : ∀ (send : Nat) (m : Message), c.sends[send]? = some (.entering m) →
    let c' := c.step (.proceed send)
    c'.pool = c.pool ∧ c'.sends[send]? =
      some (if c.pool.closed then .ended (some (.failed (.pool .closed))) else .seeking m)
  seeking : ∀ (send : Nat) (m : Message), c.sends[send]? = some (.seeking m) →
    let c' := c.step (.proceed send)
    (∃ i, Pool.objects c.pool.idle = i :: Pool.objects c'.pool.idle ∧
      c'.sends[send]? = some (.trying i m) ∧ c'.pool.borrowed = c.pool.borrowed + 1) ∨
    (c.pool.idle = [] ∧ c.pool.borrowed < workers ∧
      c'.sends[send]? = some (.connecting m) ∧ c'.pool.borrowed = c.pool.borrowed + 1) ∨
    (c.pool.idle = [] ∧ c.pool.borrowed = workers ∧ c'.pool = c.pool ∧
      c'.sends[send]? = some (.ended (some (.failed (.pool (.exhausted workers))))))
  connecting : ∀ (send : Nat) (m : Message), c.sends[send]? = some (.connecting m) →
    (c.step (.connected send (.ok ()))).sends[send]? = some (.opened c.connections.length m) ∧
    (∀ cause, let c' := c.step (.connected send (.error cause))
      c'.sends[send]? = some (.ended (some (.failed (.pool (.create (.ofConnect cause)))))) ∧
        c'.pool.borrowed + 1 = c.pool.borrowed) ∧
    let c' := c.step (.abandon send)
    c'.sends[send]? = some (.ended none) ∧ c'.pool.borrowed + 1 = c.pool.borrowed
  /-- A connection that comes from the pool or is new is of use to a send only while it is active. -/
  trying : ∀ (send i : Nat) (m : Message), c.sends[send]? = some (.trying i m) →
    (c.step (.proceed send)).sends[send]? =
      some (if c.isUsable i then .holding i m else .dropping i (.retry m))
  opened : ∀ (send i : Nat) (m : Message), c.sends[send]? = some (.opened i m) →
    (c.step (.proceed send)).sends[send]? =
      some (if c.isUsable i then .holding i m
        else .dropping i (.done (.failed (.pool .invalidOnCreate))))
  /-- A connection takes a message while it is active, and otherwise refuses it. -/
  holding : ∀ (send i : Nat) (m : Message), c.sends[send]? = some (.holding i m) →
    let c' := c.step (.proceed send)
    (∃ x k, c.connections[i]? = some x ∧ x.isActive = true ∧
      c'.sends[send]? = some (.queued i k) ∧
      (c'.connections[i]?).bind (·.contents[k]?) = some m.content) ∨
    ∃ cause, c'.sends[send]? = some (.dropping i (.done (.failed cause))) ∧
      c'.connections = c.connections
  /-- A send lets go of a connection when it puts it into the pool or closes it, and not before. -/
  lets_go : ∀ (send i : Nat) (stage : Stage), c.sends[send]? = some stage →
    stage.connection? = some i → let c' := c.step (.proceed send)
    (c'.sends[send]?).bind Stage.connection? = some i ∨
      i ∈ Pool.objects c'.pool.idle ∨ c'.IsGone i
  /-- Every step of a send that does not wait brings it nearer to a connect or to its end. -/
  progress : ∀ (send : Nat) (stage : Stage), c.sends[send]? = some stage → stage.isSettled = false →
    (c.step (.proceed send)).due send < c.due send
  finish : ∀ (send : Nat) (stage : Stage), (c.finish send).sends[send]? = some stage →
    stage.isSettled = true
  /-- Nothing is ever written on a connection that is inactive. -/
  retired : ∀ (i : Nat) (x : Connection γ), c.connections[i]? = some x → x.isActive = false →
    ∀ later journal, ∃ moves, let course := (⟨x, journal⟩ : Course γ).run c.codec moves
      (c.run later).connections[i]? = some course.connection ∧ Retired ⟨x, journal⟩ course

theorem Accounted.slotsFollow (h : c.Accounted) (hOrderly : c.Orderly)
    (hBorrow : c.policy.testOnBorrow = true) (hCreate : c.policy.testOnCreate = true) :
    SlotsFollow c.policy.maxTotal c where
  settled hSettled := by
    have hActive := h.activeConnections_le
    obtain ⟨hCounts, hNone⟩ := counts_of_isSettled hSettled
    rw [hNone] at hActive
    exact ⟨hActive, h.slots.trans hCounts⟩
  slots := h.slots
  bound := h.bound
  active_le := h.activeConnections_le
  place _ _ hx := h.place hx
  entering _ _ hStage := step_entering hStage
  seeking _ _ hStage := h.step_seeking hStage
  connecting _ _ hStage := h.step_connecting hStage
  trying _ _ _ hStage := step_trying hBorrow hStage
  opened _ _ _ hStage := step_opened hCreate hStage
  holding _ _ _ hStage := step_holding hStage
  lets_go _ _ _ hStage hHeld := h.step_of_connection? hOrderly hStage hHeld
  progress _ _ hStage hWaiting := due_step_lt hStage hWaiting
  finish send := c.isSettledAt_finish send
  retired i x hx hInactive later journal := by
    obtain ⟨moves, hx'⟩ := c.connection_run hx later
    refine ⟨moves, ?_, (Retired.refl hInactive).run moves⟩
    rw [Course.connection_run]
    exact hx'

/-- While a sweep is about to close a connection, another send opens its own. -/
example :
    let c := (ofSettings { workers := 1, minEvictableIdleMillis := 1 } .lines ()).run
      ([.send (.new [97] ⟨0⟩), .proceed 0, .proceed 0, .connected 0 (.ok ())] ++
        List.replicate 5 (.proceed 0) ++ [.elapse ⟨1000000⟩, .sweep [], .send (.new [98] ⟨0⟩), .proceed 1,
          .proceed 1, .connected 1 (.ok ())])
    c.activeConnections = 2 ∧ c.departing = 1 := by
  decide +kernel

end PooledClient
end Switchyard.Client
