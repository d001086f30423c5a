import Switchyard.Proofs.Client.Evolution

/-! # Where a reply comes from

A reply names the connection that has brought it, and a client finds its connections by their numbers. So
whoever has a reply can give up the connection it came from, and no other.
-/
namespace Switchyard.Client
open Net
set_option autoImplicit false

namespace Connection
variable {γ : Type}

@[simp] theorem id_close (c : Connection γ) : c.close.2.id = c.id := c.handle.isLater_close.id

theorem id_run (codec : Codec γ) (c : Connection γ) (events : List ConnectionEvent) :
    (c.run codec events).id = c.id := by
  induction events generalizing c with
  | nil => rfl
  | cons event events ih => exact (ih (c.step codec event)).trans (c.isLater_step codec event).id

theorem given_of_settle {given : Nat → Option Outcome} {messages : List Message} {k : Nat} {outcome : Outcome}
    (hUndone : (messages[k]?).bind (·.outcome) = none)
    (hDone : ((settle given messages)[k]?).bind (·.outcome) = some outcome) : given k = some outcome := by
  rw [getElem?_settle] at hDone
  cases hMessage : messages[k]? with
  | none => simp [hMessage] at hDone
  | some m =>
    have hOpen : m.outcome = none := by simpa [hMessage] using hUndone
    simpa [hMessage, hOpen] using hDone

/-- A message that gets its reply when the task goes on gets it from this connection. -/
theorem connection_eq_of_reply {codec : Codec γ} {c : Connection γ} {k : Nat} {reply : Response}
    (hUndone : (c.messages[k]?).bind (·.outcome) = none)
    (hReply : ((c.step codec .turn).messages[k]?).bind (·.outcome) = some (.ok (some reply))) :
    reply.connection = c.id := by
  rcases c.livesOn_or_endsWith codec .turn with ⟨-, given, hGives, hMessages, -⟩ | hEnds
  · have hNobody : c.joins .turn = [] := rfl
    rw [hMessages, hNobody, List.append_nil] at hReply
    have hGiven := given_of_settle hUndone hReply
    cases hGives with
    | nothing => cases hGiven
    | reply =>
      cases (one_eq_some.mp hGiven).2
      rfl
  · -- The end of a connection dismisses its messages, and a dismissal is no reply.
    obtain ⟨-, own, termination, hEnds, -, hMessages⟩ := hEnds
    rw [hMessages] at hReply
    cases hEnds.dismissal (given_of_settle hUndone hReply)

end Connection

namespace PooledClient
variable {γ : Type} {c c' : PooledClient γ}

/-- Connections are numbered in the order in which they were opened, from one. -/
def IsNumbered (c : PooledClient γ) : Prop :=
  ∀ (i : Nat) (x : Connection γ), c.connections[i]? = some x → x.id = ⟨i + 1⟩

theorem IsNumbered.changes (h : IsNumbered c) (hChanges : Changes c c') : IsNumbered c' := by
  intro i x' hx'
  obtain ⟨events, rfl⟩ := hChanges.grown.origin i x' hx'
  rw [Connection.id_run]
  cases hx : c.connections[i]? with
  | none => rfl
  | some x => exact h i x hx

theorem isNumbered_run (s : Config.ClientSettings) (codec : Codec γ) (fresh : γ) (events : List Event) :
    IsNumbered ((PooledClient.ofSettings s codec fresh).run events) := by
  have hStart : IsNumbered (PooledClient.ofSettings s codec fresh) := nofun
  generalize PooledClient.ofSettings s codec fresh = c at hStart
  induction events generalizing c with
  | nil => exact hStart
  | cons event events ih => exact ih (c.step event) (hStart.changes (c.changes_step event))

/-- What is left of a client when it gives up the connection of this name. -/
def without (c : PooledClient γ) (id : ConnectionId) : PooledClient γ :=
  { c with connections := c.connections.map fun x => if x.id = id then x.close.2 else x }

theorem getElem?_without (c : PooledClient γ) (id : ConnectionId) (i : Nat) :
    (c.without id).connections[i]? = (c.connections[i]?).map fun x => if x.id = id then x.close.2 else x :=
  List.getElem?_map ..

/-- The number of a connection tells its place. -/
theorem IsNumbered.destroy (h : IsNumbered c) (i : Nat) : c.destroy i = c.without ⟨i + 1⟩ := by
  have hSame : (c.connections.modify i fun x => x.close.2) =
      c.connections.map fun x => if x.id = ⟨i + 1⟩ then x.close.2 else x := by
    refine List.ext_getElem? fun j => ?_
    rw [List.getElem?_modify, List.getElem?_map]
    cases hx : c.connections[j]? with
    | none => rfl
    | some x =>
      have hPlace : x.id = ⟨i + 1⟩ ↔ i = j := by
        rw [h j x hx]
        simp [eq_comm]
      simp [hPlace, apply_ite some]
  -- a close starts no timer
  have hClose : c.toFleet.step (.on i .close) = c.toFleet.onConnection i .close := rfl
  change { c with toFleet := c.toFleet.step (.on i .close) } = _
  rw [hClose]
  exact congrArg (fun connections => { c with connections }) hSame

/-- A message that has waited gets its reply when the task of its connection goes on. -/
def Arrives (c : PooledClient γ) (i k : Nat) (reply : Response) : Prop :=
  c.outcome? (.pending i k) = none ∧ (c.step (.on i .turn)).outcome? (.pending i k) = some (.ok (some reply))

theorem connections_turn (c : PooledClient γ) (i : Nat) :
    (c.step (.on i .turn)).connections = c.connections.modify i fun x => x.step c.codec .turn := by
  obtain ⟨hConnections, hCodec, -⟩ := c.connections_startTimer i .turn
  change ((c.startTimer i .turn).onConnection i .turn).connections = _
  rw [Fleet.onConnection, hConnections, hCodec]

theorem Arrives.exists_connection {i k : Nat} {reply : Response} (h : Arrives c i k reply) :
    ∃ x, c.connections[i]? = some x ∧ reply.connection = x.id := by
  obtain ⟨hBefore, hAfter⟩ := h
  rw [outcome?, connections_turn, List.getElem?_modify_eq] at hAfter
  rw [outcome?] at hBefore
  cases hx : c.connections[i]? with
  | none => simp [hx] at hAfter
  | some x =>
    simp only [hx, Option.bind_some] at hBefore hAfter
    exact ⟨x, rfl, Connection.connection_eq_of_reply hBefore hAfter⟩

/-- A reply has arrived over the connection at a place, whatever the client has done before and since. -/
def HasArrived (c : PooledClient γ) (i : Nat) (reply : Response) : Prop :=
  ∃ (s : Config.ClientSettings) (codec : Codec γ) (fresh : γ) (past more : List Event) (k : Nat),
    Arrives ((PooledClient.ofSettings s codec fresh).run past) i k reply ∧
      c = (PooledClient.ofSettings s codec fresh).run (past ++ .on i .turn :: more)

/-- Whoever gives up the connection that a reply names closes the one it came over, and leaves the others
alone. -/
theorem HasArrived.destroy {i : Nat} {reply : Response} (h : HasArrived c i reply) :
    c.destroy (reply.connection.number - 1) = c.without reply.connection ∧
      ∃ x, (c.without reply.connection).connections[i]? = some x ∧ x.id = reply.connection ∧
        x.handle.closed = true ∧ x.isActive = false := by
  obtain ⟨s, codec, fresh, past, more, k, hArrives, rfl⟩ := h
  obtain ⟨y, hy, hOrigin⟩ := hArrives.exists_connection
  have hName : reply.connection = ⟨i + 1⟩ := hOrigin.trans (isNumbered_run s codec fresh past i y hy)
  obtain ⟨events, hx⟩ := connection_run _ hy (.on i .turn :: more)
  rw [← run_append] at hx
  have hId : (y.run ((PooledClient.ofSettings s codec fresh).run past).codec events).id = reply.connection :=
    (Connection.id_run _ y events).trans hOrigin.symm
  have hNumbered := isNumbered_run s codec fresh (past ++ .on i .turn :: more)
  have hOrderly := (Orderly.start s codec fresh).run (past ++ .on i .turn :: more)
  have hSound := hOrderly.sound _ (List.mem_of_getElem? hx)
  generalize y.run _ events = x at hx hId hSound
  refine ⟨?_, x.close.2, ?_, x.id_close.trans hId, x.handle.closed_close, Connection.isActive_close hSound⟩
  · rw [hName]
    exact hNumbered.destroy i
  · rw [getElem?_without, hx, Option.map_some, if_pos hId]

end PooledClient
end Switchyard.Client
