import Switchyard.Proofs.Rest.AssemblyLog

/-! # Requests take turns

Behind an emission the assembler waits until it is told that the request has been answered. Only three
things end that wait in another way: a fatal failure, the end of the connection, and a body that cannot be
decoded, which is refused as if no request were being handled.
-/
namespace Switchyard.Rest
set_option autoImplicit false

open AssemblyEntry

namespace AssemblyEntry

/-- After which an emitted request no longer holds up the next. -/
inductive Releases : AssemblyEntry → Prop
  | finish : Releases ⟨.finish, none⟩
  | connectionInactive : Releases ⟨.connectionInactive, none⟩
  | decodeFailure (cause : String) :
      Releases ⟨.event (.decodeFailure cause), some (.reject (.decode cause))⟩
  | fatal (event : HttpEvent) (cause : Error) : Releases ⟨.event event, some (.fatal cause)⟩

/-- By which a request comes in or goes out. -/
inductive Admits : AssemblyEntry → Prop
  | head (head : Head) : Admits (accepted head)
  | emission (assembled : AssembledRequest) : Admits (emission assembled)

theorem Releases.not_admits {e : AssemblyEntry} (h : e.Releases) : ¬e.Admits := by
  rintro (head | assembled) <;> cases h

end AssemblyEntry

namespace Assembler

theorem stage_of_emit {a : Assembler} {call : AssemblyCall} {assembled : AssembledRequest}
    (h : (a.call call).1 = some (.emit assembled)) : (a.call call).2.stage = .complete := by
  obtain rfl := eq_finish_of_emit h
  obtain ⟨stage, pending, body⟩ := a
  cases stage with
  | idle | complete => cases pending <;> cases h
  | headersReceived | bodyAccumulating =>
    cases pending with
    | none => cases h
    | some accepted => rfl

theorem releases_of_complete {a : Assembler} (h : a.stage = .complete) (call : AssemblyCall) :
    (a.entry call).Releases := by
  obtain ⟨stage, pending, body⟩ := a
  cases h
  cases call with
  | finish => exact .finish
  | connectionInactive => exact .connectionInactive
  | event event =>
    cases event with
    | head head => exact .fatal _ _
    | chunk data => exact .fatal _ _
    | decodeFailure cause => exact .decodeFailure cause
    | finish => cases pending <;> exact .fatal _ _

end Assembler

structure TakesTurns (t : Assembly) : Prop where
  waits : ∀ before assembled, t.log = before ++ [emission assembled] → t.assembler.stage = .complete
  released : ∀ before assembled next after,
    t.log = before ++ emission assembled :: next :: after → next.Releases

namespace TakesTurns
variable {t : Assembly}

theorem start : TakesTurns .start where
  waits before assembled hLog := by simp [Assembly.start] at hLog
  released before assembled next after hLog := by simp [Assembly.start] at hLog

theorem step (h : TakesTurns t) (call : AssemblyCall) : TakesTurns (t.step call) where
  waits before assembled hLog := by
    obtain ⟨-, hEntry⟩ := List.append_inj' hLog rfl
    exact Assembler.stage_of_emit (AssemblyEntry.mk.inj (List.cons.inj hEntry).1).2
  released before assembled next after hLog := by
    rcases List.eq_nil_or_concat after with rfl | ⟨after, last, rfl⟩
    · -- The new entry is the one behind the emission, with which the log had ended until then.
      have hSplit : t.log ++ [t.assembler.entry call] = (before ++ [emission assembled]) ++ [next] :=
        hLog.trans (by simp)
      obtain ⟨hOlder, hEntry⟩ := List.append_inj' hSplit rfl
      rw [← (List.cons.inj hEntry).1]
      exact Assembler.releases_of_complete (h.waits before assembled hOlder) call
    · have hSplit : t.log ++ [t.assembler.entry call] =
          (before ++ emission assembled :: next :: after) ++ [last] := hLog.trans (by simp)
      exact h.released before assembled next after (List.append_inj' hSplit rfl).1

theorem run (h : TakesTurns t) (calls : List AssemblyCall) : TakesTurns (t.run calls) := by
  induction calls generalizing t with
  | nil => exact h
  | cons call calls ih => exact ih (h.step call)

/-- What was emitted is given up before anything else comes in or goes out. -/
theorem exists_release (h : TakesTurns t) {before between after : List AssemblyEntry}
    {first : AssembledRequest} {second : AssemblyEntry} (hAdmits : second.Admits)
    (hLog : t.log = before ++ emission first :: between ++ second :: after) :
    ∃ next rest, between = next :: rest ∧ next.Releases := by
  cases between with
  | nil => exact absurd hAdmits (h.released before first second after (by simpa using hLog)).not_admits
  | cons next rest =>
    exact ⟨next, rest, rfl, h.released before first next (rest ++ second :: after) (by simpa using hLog)⟩

end TakesTurns

/-- Whatever an assembler is asked, the call behind an emission ends the wait for its answer, and unless
it does so by a failure, or because the connection or the body is gone, it is the word that the request
has been answered. Until then no other request is accepted or emitted. -/
theorem requests_take_turns (calls : List AssemblyCall) :
    let t := Assembly.start.run calls
    t.log.map (·.call) = calls ∧
    (∀ before assembled next after, t.log = before ++ emission assembled :: next :: after →
      next.Releases) ∧
    ∀ before first between second after, t.log = before ++ emission first :: between ++ second :: after →
      second.Admits → (∀ e ∈ between, e.call ≠ .connectionInactive) →
      (∀ e ∈ between, ∀ cause, e.answer ≠ some (.fatal cause)) →
      (∀ e ∈ between.head?, ∀ cause, e.call ≠ .event (.decodeFailure cause)) →
        between.head? = some ⟨.finish, none⟩ := by
  intro t
  have hTurns : TakesTurns t := TakesTurns.start.run calls
  refine ⟨Assembly.map_call_run .start calls, hTurns.released, ?_⟩
  intro before first between second after hLog hAdmits hActive hMild hDecoded
  obtain ⟨next, rest, rfl, hReleases⟩ := hTurns.exists_release hAdmits hLog
  cases hReleases with
  | finish => rfl
  | connectionInactive => exact absurd rfl (hActive _ List.mem_cons_self)
  | decodeFailure cause => exact absurd rfl (hDecoded _ rfl cause)
  | fatal event cause => exact absurd rfl (hMild _ List.mem_cons_self cause)

/-- One request, its answer, and another request. -/
def answered : List AssemblyCall :=
  [.event (.head (rootHead "GET")), .event .finish, .finish, .event (.head (rootHead "PUT")),
    .event .finish]

theorem requests_take_turns_answered :
    let log := (Assembly.start.run answered).log
    let between := [(⟨.finish, none⟩ : AssemblyEntry)]
    ∃ before first second after, log = before ++ emission first :: between ++ second :: after ∧
      second.Admits ∧ (∀ e ∈ between, e.call ≠ .connectionInactive) ∧
      (∀ e ∈ between, ∀ cause, e.answer ≠ some (.fatal cause)) ∧
      (∀ e ∈ between.head?, ∀ cause, e.call ≠ .event (.decodeFailure cause)) ∧
        between.head? = some ⟨.finish, none⟩ := by
  obtain ⟨-, -, hTurns⟩ := requests_take_turns answered
  have hAdmits : (accepted (rootHead "PUT")).Admits := .head _
  have hActive : ∀ e ∈ [(⟨.finish, none⟩ : AssemblyEntry)], e.call ≠ .connectionInactive := by simp
  have hMild : ∀ e ∈ [(⟨.finish, none⟩ : AssemblyEntry)], ∀ cause, e.answer ≠ some (.fatal cause) := by
    simp
  have hDecoded : ∀ e ∈ [(⟨.finish, none⟩ : AssemblyEntry)].head?, ∀ cause,
      e.call ≠ .event (.decodeFailure cause) := by simp
  exact ⟨[_], _, _, [_], rfl, hAdmits, hActive, hMild, hDecoded,
    hTurns [_] _ _ _ [_] rfl hAdmits hActive hMild hDecoded⟩

/-- A request is emitted, a failure to decode comes behind it, and then another request. -/
def interrupted : List AssemblyCall :=
  [.event (.head (rootHead "GET")), .event .finish, .event (.decodeFailure "late"),
    .event (.head (rootHead "PUT")), .event .finish]

/-- Two requests are emitted though the first is never answered, and nothing fatal happens. -/
theorem emitted_while_handled :
    let log := (Assembly.start.run interrupted).log
    (∀ call ∈ interrupted, call ≠ .finish ∧ call ≠ .connectionInactive) ∧
    (∀ e ∈ log, ∀ cause, e.answer ≠ some (.fatal cause)) ∧
    ∃ before first between second, log = before ++ emission first :: between ++ [emission second] := by
  refine ⟨by simp [interrupted], ?_, [_], _, [_, _], _, rfl⟩
  intro e he cause
  rcases he with _ | ⟨_, _ | ⟨_, _ | ⟨_, _ | ⟨_, _ | ⟨_, he⟩⟩⟩⟩⟩
  case tail.tail.tail.tail.tail => cases he
  all_goals
    intro hFatal
    cases hFatal

end Switchyard.Rest
