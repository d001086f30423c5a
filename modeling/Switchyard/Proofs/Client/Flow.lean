import Switchyard.Proofs.Client.Journal

/-! # What flows through a connection

The bytes of a connection with the state of its codec, apart from its messages: what payloads were
encoded to, what has arrived, and which replies have been cut from that. An event does at most one
thing to them.
-/
namespace Switchyard.Client
open Net
set_option autoImplicit false

structure Flow (γ : Type) where
  codec : γ
  incoming : Bytes
  encoded : List Bytes
  frames : List Bytes

def Course.flow {γ : Type} (t : Course γ) : Flow γ :=
  { codec := t.connection.codec, incoming := t.connection.incoming, encoded := t.journal.encoded
    frames := t.journal.frames }

/-- What an event does to the bytes of a connection. -/
inductive Flows {γ : Type} (codec : Codec γ) (t : Course γ) : ConnectionEvent → Flow γ → Prop
  | still {event : ConnectionEvent} (hUnread : ∀ data, event = .received data →
      t.connection.awaited ≠ .read) : Flows codec t event t.flow
  | entered {k : Nat} {m : Message} {bytes : Bytes} {state : γ} (hNext : t.connection.next = .take k m)
    (hEncode : codec.encode t.connection.codec m.payload = .ok (bytes, state)) :
    Flows codec t .turn { t.flow with codec := state, encoded := t.journal.encoded ++ [bytes] }
  | cut {payload rest : Bytes} {state : γ} (hNext : t.connection.next = .decode)
    (hDecoded : t.connection.decoded codec = .ok (some (payload, rest, state))) :
    Flows codec t .turn
      { t.flow with codec := state, incoming := rest, frames := t.journal.frames ++ [payload] }
  | received {data : Bytes} (hAwaited : t.connection.awaited = .read) :
    Flows codec t (.received data) { t.flow with incoming := t.connection.incoming ++ data }

theorem Flows.of_eq {γ : Type} {codec : Codec γ} {t : Course γ} {event : ConnectionEvent}
    {flow : Flow γ} (hUnread : ∀ data, event = .received data → t.connection.awaited ≠ .read) (h : flow = t.flow) :
    Flows codec t event flow :=
  h ▸ .still hUnread

namespace Course
variable {γ : Type} {codec : Codec γ} {t : Course γ}

@[simp] theorem flow_complete (c : Connection γ) (j : Journal) (k : Nat) (outcome : Outcome) :
    (⟨c.complete k outcome, j⟩ : Course γ).flow = (⟨c, j⟩ : Course γ).flow := by
  rw [Connection.complete_eq]
  rfl

@[simp] theorem flow_finish (c : Connection γ) (j : Journal) (termination : Termination) :
    (⟨c.finish termination, j⟩ : Course γ).flow = (⟨c, j⟩ : Course γ).flow := by
  rw [Connection.finish_eq]
  rfl

@[simp] theorem flow_shut (c : Connection γ) (j : Journal) :
    (⟨c.shut, j⟩ : Course γ).flow = (⟨c, j⟩ : Course γ).flow := by
  unfold Connection.shut
  cases c.writing with
  | none => exact flow_finish c j .closed
  | some k => exact (flow_finish _ j .closed).trans (flow_complete c j k _)

@[simp] theorem flow_deliver (c : Connection γ) (j : Journal) (payload : Bytes) :
    (⟨c.deliver payload, j⟩ : Course γ).flow = (⟨c, j⟩ : Course γ).flow := by
  cases hDue : c.pending with
  | nil => rw [Connection.deliver_of_nil hDue, flow_finish]
  | cons k others =>
    rw [Connection.deliver_of_cons hDue, flow_complete]
    rfl

theorem flows_take {k : Nat} {m : Message} (hNext : t.connection.next = .take k m) :
    Flows codec t .turn (t.step codec .turn).flow := by
  unfold step Connection.step Journal.record Connection.turn Connection.begin Journal.take
  simp only [hNext]
  cases hEncode : codec.encode t.connection.codec m.payload with
  | error cause =>
    simp only [flow_finish, flow_complete]
    refine .of_eq nofun ?_
    cases m.expectsResponse <;> rfl
  | ok encoded =>
    obtain ⟨bytes, state⟩ := encoded
    cases m.expectsResponse <;> exact .entered hNext hEncode

theorem flows_decode (hNext : t.connection.next = .decode) :
    Flows codec t .turn (t.step codec .turn).flow := by
  unfold step Connection.step Journal.record Connection.turn Connection.decode Journal.cut
  simp only [hNext]
  cases hDecoded : t.connection.decoded codec with
  | error cause => exact .of_eq nofun (flow_finish _ _ _)
  | ok found =>
    cases found with
    | none =>
      simp only
      split
      · exact .of_eq nofun (flow_finish _ _ _)
      · exact .still nofun
    | some frame =>
      obtain ⟨payload, rest, state⟩ := frame
      simp only [flow_deliver]
      exact .cut hNext hDecoded

theorem flows_turn : Flows codec t .turn (t.step codec .turn).flow := by
  cases hNext : t.connection.next with
  | take k m => exact flows_take hNext
  | decode => exact flows_decode hNext
  | rest | leave | shut =>
    refine .of_eq nofun ?_
    simp [step, Connection.step, Connection.turn, Journal.record, hNext]

theorem flows_step (event : ConnectionEvent) : Flows codec t event (t.step codec event).flow := by
  cases event with
  | turn => exact flows_turn
  | send m =>
    cases hSend : t.connection.send m with
    | error cause => exact .of_eq nofun (by rw [step_send_of_error codec hSend])
    | ok accepted =>
      rw [step_send_of_ok codec hSend]
      obtain ⟨-, -, -, hSent⟩ := Connection.send_eq_ok hSend
      exact .of_eq nofun (by rw [hSent]; rfl)
  | complete k outcome => exact .of_eq nofun (flow_complete _ _ _ _)
  | close | cancelParent | dropSender => exact .still nofun
  | expire k =>
    obtain ⟨handle, hExpire⟩ := t.connection.expire_connection k []
    have hStep : t.step codec (.expire k) = ⟨(t.connection.expire k []).2.1, t.journal⟩ := rfl
    exact .of_eq nofun (by rw [hStep, hExpire]; rfl)
  | written n =>
    unfold step Connection.step Connection.written Journal.record
    simp only
    split <;> exact .still nofun
  | flushed =>
    refine .of_eq nofun ?_
    unfold step Connection.step Connection.flushed Journal.record
    cases t.connection.awaited with
    | nothing | write | read => rfl
    | flush =>
      cases t.connection.writing with
      | none => rfl
      | some k =>
        simp only
        split
        · rfl
        · rw [flow_complete]
          rfl
  | writeFailed cause =>
    refine .of_eq nofun ?_
    unfold step Connection.step Connection.writeFailed Journal.record
    simp only
    split
    case h_3 => rfl
    all_goals
      rw [flow_finish]
      split
      · rfl
      · rw [flow_complete]
  | received data =>
    unfold step Connection.step Connection.received Journal.record
    simp only
    split
    case isTrue hAwaited => exact .received hAwaited
    case isFalse hUnread => exact .still fun _ _ => hUnread
  | readFailed cause =>
    refine .of_eq nofun ?_
    unfold step Connection.step Connection.readFailed Journal.record
    simp only
    split
    · rw [flow_finish]
    · rfl

end Course

namespace Journal
variable {γ : Type}

@[simp] theorem wire_take (codec : Codec γ) (state : γ) (j : Journal) (k : Nat) (m : Message) :
    (j.take codec state k m).wire = j.wire := by
  unfold take
  cases m.expectsResponse <;> cases codec.encode state m.payload <;> rfl

@[simp] theorem wire_cut (decoded : Decoded γ) (j : Journal) : (j.cut decoded).wire = j.wire := by
  unfold cut
  split <;> rfl

/-- What the transport has taken it has taken. -/
theorem wire_record (codec : Codec γ) (c : Connection γ) (j : Journal) (event : ConnectionEvent) :
    j.wire <+: (j.record codec c event).wire := by
  cases event with
  | written n =>
    unfold record
    simp only
    split
    · exact List.prefix_append _ _
    · exact List.prefix_rfl
  | turn => cases hNext : c.next <;> simp [record, hNext]
  | send m | flushed =>
    unfold record
    simp only
    split <;> exact List.prefix_rfl
  | complete | close | cancelParent | dropSender | expire | writeFailed | received | readFailed =>
    exact List.prefix_rfl

end Journal
end Switchyard.Client
