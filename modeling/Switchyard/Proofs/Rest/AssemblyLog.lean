import Mathlib.Data.List.Induction
import Switchyard.Rest.Assembly

/-! # What an assembler emits

Beside an assembler runs a log of what it was asked and what it answered. A request is under way in a
log if nothing but pieces of its body has come behind its head. Whether one is, the assembler shows by
its own state, and it emits a request with the head and the pieces that the log has of it.
-/
namespace Switchyard.Rest
set_option autoImplicit false

inductive AssemblyCall where
  | event (event : HttpEvent)
  | finish
  | connectionInactive

/-- Only events are answered. -/
structure AssemblyEntry where
  call : AssemblyCall
  answer : Option AssemblyAction

namespace AssemblyEntry

def accepted (head : Head) : AssemblyEntry := ⟨.event (.head head), some .pending⟩

def emission (assembled : AssembledRequest) : AssemblyEntry := ⟨.event .finish, some (.emit assembled)⟩

def data (e : AssemblyEntry) : Bytes :=
  match e.call with
  | .event (.chunk data) => data
  | _ => []

/-- What may come between a head and the end of its body. -/
inductive Continues : AssemblyEntry → Prop
  | chunk (data : Bytes) : Continues ⟨.event (.chunk data), some .pending⟩
  | finish : Continues ⟨.finish, none⟩

theorem not_continues_accepted (head : Head) : ¬(accepted head).Continues := nofun

theorem emission_ne_accepted (assembled : AssembledRequest) (head : Head) :
    emission assembled ≠ accepted head := by
  intro h
  cases h

theorem not_continues_emission (assembled : AssembledRequest) : ¬(emission assembled).Continues := by
  intro h
  cases h

theorem accepted_injective {head head' : Head} (h : accepted head = accepted head') : head = head' := by
  cases h
  rfl

end AssemblyEntry

open AssemblyEntry

/-- The pieces of bodies in a log, in order. -/
def bodyIn (log : List AssemblyEntry) : Bytes := log.flatMap data

/-- The last accepted head of a log is this one, this body has come since, and nothing else has. -/
def Underway (log : List AssemblyEntry) (head : Head) (body : Bytes) : Prop :=
  ∃ earlier later, log = earlier ++ accepted head :: later ∧ (∀ e ∈ later, e.Continues) ∧
    body = bodyIn later

namespace Underway
variable {log : List AssemblyEntry} {entry : AssemblyEntry} {head head' : Head} {body body' : Bytes}

theorem not_nil : ¬Underway [] head body := by
  rintro ⟨earlier, later, hLog, -⟩
  simp at hLog

theorem accept (log : List AssemblyEntry) (head : Head) : Underway (log ++ [accepted head]) head [] :=
  ⟨log, [], rfl, nofun, rfl⟩

theorem extend (h : Underway log head body) (hContinues : entry.Continues) :
    Underway (log ++ [entry]) head (body ++ entry.data) := by
  obtain ⟨earlier, later, rfl, hLater, rfl⟩ := h
  refine ⟨earlier, later ++ [entry], by simp, fun e he => ?_, by simp [bodyIn]⟩
  rcases List.mem_append.mp he with hOld | hNew
  · exact hLater e hOld
  · exact List.mem_singleton.mp hNew ▸ hContinues

/-- What the last entry of a log has done to the request under way. -/
theorem of_append (h : Underway (log ++ [entry]) head body) :
    entry = accepted head ∧ body = [] ∨
      entry.Continues ∧ ∃ body', Underway log head body' ∧ body = body' ++ entry.data := by
  obtain ⟨earlier, later, hLog, hLater, rfl⟩ := h
  rcases List.eq_nil_or_concat later with rfl | ⟨later, last, rfl⟩
  · obtain ⟨-, hEntry⟩ := List.append_inj' hLog rfl
    exact .inl ⟨(List.cons.inj hEntry).1, rfl⟩
  · rw [List.concat_eq_append] at hLog hLater ⊢
    rw [← List.cons_append, ← List.append_assoc] at hLog
    obtain ⟨rfl, hEntry⟩ := List.append_inj' hLog rfl
    obtain rfl := (List.cons.inj hEntry).1
    refine .inr ⟨hLater entry (by simp), bodyIn later, ⟨earlier, later, rfl, fun e he => ?_, rfl⟩, ?_⟩
    · exact hLater e (List.mem_append_left _ he)
    · simp [bodyIn]

theorem not_of_break (hAccepted : ∀ head, entry ≠ accepted head) (hContinues : ¬entry.Continues) :
    ¬Underway (log ++ [entry]) head body := by
  intro h
  rcases h.of_append with ⟨hEntry, -⟩ | ⟨hEntry, -⟩
  · exact hAccepted head hEntry
  · exact hContinues hEntry

theorem unique (h : Underway log head body) (h' : Underway log head' body') :
    head = head' ∧ body = body' := by
  -- From the back: the last entry is the head of both, or continues both.
  induction log using List.reverseRecOn generalizing body body' with
  | nil => exact absurd h not_nil
  | append_singleton log entry ih =>
    rcases h.of_append with ⟨hEntry, rfl⟩ | ⟨hContinues, older, hOlder, rfl⟩
    · rcases h'.of_append with ⟨hEntry', rfl⟩ | ⟨hContinues', -⟩
      · exact ⟨accepted_injective (hEntry.symm.trans hEntry'), rfl⟩
      · exact absurd (hEntry ▸ hContinues') (not_continues_accepted head)
    · rcases h'.of_append with ⟨hEntry', -⟩ | ⟨-, older', hOlder', rfl⟩
      · exact absurd (hEntry' ▸ hContinues) (not_continues_accepted head')
      · obtain ⟨rfl, rfl⟩ := ih hOlder hOlder'
        exact ⟨rfl, rfl⟩

/-- A request that is under way has its head behind whatever would have ended it. -/
theorem behind {first second : List AssemblyEntry} (hAccepted : ∀ head, entry ≠ accepted head)
    (hContinues : ¬entry.Continues) (h : Underway (first ++ entry :: second) head body) :
    Underway second head body := by
  induction second using List.reverseRecOn generalizing body with
  | nil => exact absurd h (not_of_break hAccepted hContinues)
  | append_singleton second last ih =>
    rw [← List.cons_append, ← List.append_assoc] at h
    rcases h.of_append with ⟨rfl, rfl⟩ | ⟨hLast, older, hOlder, rfl⟩
    · exact accept second head
    · exact (ih hOlder).extend hLast

end Underway

namespace Assembler

def call (a : Assembler) : AssemblyCall → Option AssemblyAction × Assembler
  | .event event =>
    let (action, a) := a.onEvent event
    (some action, a)
  | .finish => (none, a.finish)
  | .connectionInactive => (none, a.connectionInactive)

def entry (a : Assembler) (call : AssemblyCall) : AssemblyEntry := ⟨call, (a.call call).1⟩

theorem eq_finish_of_emit {a : Assembler} {call : AssemblyCall} {assembled : AssembledRequest}
    (h : (a.call call).1 = some (.emit assembled)) : call = .event .finish := by
  cases call with
  | finish | connectionInactive => cases h
  | event event =>
    have hAction : (a.onEvent event).1 = .emit assembled := Option.some.inj h
    cases event with
    | finish => rfl
    | decodeFailure cause => cases hAction
    | head head =>
      unfold onEvent onHead at hAction
      simp only at hAction
      repeat' split at hAction
      all_goals cases hAction
    | chunk data =>
      unfold onEvent onChunk at hAction
      simp only at hAction
      split at hAction <;> cases hAction

end Assembler

structure Assembly where
  assembler : Assembler
  log : List AssemblyEntry

namespace Assembly

def start : Assembly := ⟨.empty, []⟩

def step (t : Assembly) (call : AssemblyCall) : Assembly :=
  ⟨(t.assembler.call call).2, t.log ++ [t.assembler.entry call]⟩

def run (t : Assembly) (calls : List AssemblyCall) : Assembly := calls.foldl step t

theorem map_call_run (t : Assembly) (calls : List AssemblyCall) :
    (t.run calls).log.map (·.call) = t.log.map (·.call) ++ calls := by
  induction calls generalizing t with
  | nil => simp [run]
  | cons call calls ih =>
    have hLater := ih (t.step call)
    rw [step, List.map_append, List.append_assoc] at hLater
    exact hLater

end Assembly

/-- What the state of an assembler says of its log. -/
inductive Shows (log : List AssemblyEntry) : Assembler → Prop
  | resting {stage : Stage} (hStage : stage = .idle ∨ stage = .complete)
    (hNone : ∀ head body, ¬Underway log head body) : Shows log ⟨stage, none, []⟩
  | underway {stage : Stage} {head : Head} {request : Request} {body : Bytes}
    (hStage : stage = .headersReceived ∧ body = [] ∨ stage = .bodyAccumulating)
    (hRequest : head.request = .ok request) (hUnderway : Underway log head body) :
    Shows log ⟨stage, some (head, request), body⟩

namespace Shows
variable {log : List AssemblyEntry} {a : Assembler}

theorem empty_of_break {entry : AssemblyEntry} (hAccepted : ∀ head, entry ≠ accepted head)
    (hContinues : ¬entry.Continues) : Shows (log ++ [entry]) .empty :=
  .resting (.inl rfl) fun _ _ => Underway.not_of_break hAccepted hContinues

theorem head (h : Shows log a) (head : Head) :
    Shows (log ++ [a.entry (.event (.head head))]) (a.call (.event (.head head))).2 := by
  cases h with
  | underway hStage hRequest hUnderway =>
    rcases hStage with ⟨rfl, rfl⟩ | rfl <;> exact empty_of_break nofun nofun
  | resting hStage hNone =>
    rcases hStage with rfl | rfl
    case inr => exact empty_of_break nofun nofun
    case inl =>
      unfold Assembler.entry Assembler.call Assembler.onEvent Assembler.onHead
      simp only
      split
      case isTrue => exact empty_of_break nofun nofun
      case isFalse =>
        cases hRequest : head.request with
        | ok request => exact .underway (.inl ⟨rfl, rfl⟩) hRequest (.accept log head)
        | error cause => exact empty_of_break nofun nofun

theorem chunk (h : Shows log a) (data : Bytes) :
    Shows (log ++ [a.entry (.event (.chunk data))]) (a.call (.event (.chunk data))).2 := by
  cases h with
  | resting hStage hNone => rcases hStage with rfl | rfl <;> exact empty_of_break nofun nofun
  | underway hStage hRequest hUnderway =>
    have hLonger := hUnderway.extend (.chunk data)
    rcases hStage with ⟨rfl, rfl⟩ | rfl <;> exact .underway (.inr rfl) hRequest hLonger

theorem bodyEnd (h : Shows log a) :
    Shows (log ++ [a.entry (.event .finish)]) (a.call (.event .finish)).2 := by
  cases h with
  | resting hStage hNone => rcases hStage with rfl | rfl <;> exact empty_of_break nofun nofun
  | underway hStage hRequest hUnderway =>
    rcases hStage with ⟨rfl, rfl⟩ | rfl <;>
      exact .resting (.inr rfl) fun _ _ => Underway.not_of_break nofun nofun

theorem finish (h : Shows log a) : Shows (log ++ [a.entry .finish]) (a.call .finish).2 := by
  cases h with
  | resting hStage hNone =>
    -- The entry would continue a request, but there is none that it could continue.
    have hStill : ∀ head body, ¬Underway (log ++ [⟨.finish, none⟩]) head body := by
      intro head body hUnderway
      rcases hUnderway.of_append with ⟨hEntry, -⟩ | ⟨-, older, hOlder, -⟩
      · cases hEntry
      · exact hNone head older hOlder
    rcases hStage with rfl | rfl <;> exact .resting (.inl rfl) hStill
  | underway hStage hRequest hUnderway =>
    have hStill := hUnderway.extend .finish
    rw [data, List.append_nil] at hStill
    rcases hStage with ⟨rfl, rfl⟩ | rfl
    · exact .underway (.inl ⟨rfl, rfl⟩) hRequest hStill
    · exact .underway (.inr rfl) hRequest hStill

theorem step {t : Assembly} (h : Shows t.log t.assembler) (call : AssemblyCall) :
    Shows (t.step call).log (t.step call).assembler := by
  cases call with
  | event event =>
    cases event with
    | head head => exact h.head head
    | chunk data => exact h.chunk data
    | finish => exact h.bodyEnd
    | decodeFailure cause => exact empty_of_break nofun nofun
  | finish => exact h.finish
  | connectionInactive => exact empty_of_break nofun nofun

theorem run {t : Assembly} (h : Shows t.log t.assembler) (calls : List AssemblyCall) :
    Shows (t.run calls).log (t.run calls).assembler := by
  induction calls generalizing t with
  | nil => exact h
  | cons call calls ih => exact ih (h.step call)

theorem start : Shows Assembly.start.log Assembly.start.assembler :=
  .resting (.inl rfl) fun _ _ => Underway.not_nil

theorem emit_iff (h : Shows log a) {call : AssemblyCall} {assembled : AssembledRequest} :
    (a.call call).1 = some (.emit assembled) ↔
      call = .event .finish ∧ Underway log assembled.head assembled.body ∧
        assembled.head.request = .ok assembled.request := by
  constructor
  · intro hEmit
    obtain rfl := Assembler.eq_finish_of_emit hEmit
    cases h with
    | resting hStage hNone => rcases hStage with rfl | rfl <;> cases hEmit
    | underway hStage hRequest hUnderway =>
      rcases hStage with ⟨rfl, rfl⟩ | rfl <;> cases hEmit <;> exact ⟨rfl, hUnderway, hRequest⟩
  · obtain ⟨head, body, request⟩ := assembled
    rintro ⟨rfl, hUnderway, hRequest⟩
    cases h with
    | resting hStage hNone => exact absurd hUnderway (hNone head body)
    | underway hStage hRequest' hUnderway' =>
      obtain ⟨rfl, rfl⟩ := hUnderway.unique hUnderway'
      cases hRequest.symm.trans hRequest'
      rcases hStage with ⟨rfl, rfl⟩ | rfl <;> rfl

theorem pending_iff (h : Shows log a) :
    a.pending.isSome = true ↔ a.stage = .headersReceived ∨ a.stage = .bodyAccumulating := by
  cases h with
  | resting hStage hNone => rcases hStage with rfl | rfl <;> simp
  | underway hStage hRequest hUnderway => rcases hStage with ⟨rfl, -⟩ | rfl <;> simp

theorem body_eq_nil (h : Shows log a) (hStage : a.stage ≠ .bodyAccumulating) : a.body = [] := by
  cases h with
  | resting => rfl
  | underway hEither hRequest hUnderway =>
    rcases hEither with ⟨-, hEmpty⟩ | hLater
    · exact hEmpty
    · exact absurd hLater hStage

end Shows

/-- Every emission in a log is of the request that was under way there. -/
def EmitsWhole (log : List AssemblyEntry) : Prop :=
  ∀ before call assembled after, log = before ++ ⟨call, some (.emit assembled)⟩ :: after →
    call = .event .finish ∧ Underway before assembled.head assembled.body ∧
      assembled.head.request = .ok assembled.request

theorem EmitsWhole.step {t : Assembly} (h : EmitsWhole t.log) (hShows : Shows t.log t.assembler)
    (call : AssemblyCall) : EmitsWhole (t.step call).log := by
  intro before call' assembled after hLog
  rcases List.eq_nil_or_concat after with rfl | ⟨after, last, rfl⟩
  · obtain ⟨rfl, hEntry⟩ := List.append_inj' hLog rfl
    obtain ⟨rfl, hEmit⟩ := AssemblyEntry.mk.inj (List.cons.inj hEntry).1
    exact hShows.emit_iff.mp hEmit
  · rw [List.concat_eq_append, ← List.cons_append, ← List.append_assoc] at hLog
    obtain ⟨hOlder, -⟩ := List.append_inj' hLog rfl
    exact h before call' assembled after hOlder

theorem EmitsWhole.run {t : Assembly} (h : EmitsWhole t.log) (hShows : Shows t.log t.assembler)
    (calls : List AssemblyCall) : EmitsWhole (t.run calls).log := by
  induction calls generalizing t with
  | nil => exact h
  | cons call calls ih => exact ih (h.step hShows call) (hShows.step call)

/-- Whatever an assembler is asked in whatever order, it emits whole requests: the last head it has
accepted, with the pieces that came since, if nothing came between that breaks a request off. No head
is emitted twice, for behind an emission a new one has to be accepted. A request is pending exactly
while one is under way, and a body is kept only while its pieces arrive. -/
theorem emissions_are_whole (calls : List AssemblyCall) :
    let t := Assembly.start.run calls
    t.log.map (·.call) = calls ∧
    (∀ before call assembled after, t.log = before ++ ⟨call, some (.emit assembled)⟩ :: after →
      call = .event .finish ∧ Underway before assembled.head assembled.body ∧
        assembled.head.request = .ok assembled.request) ∧
    (∀ before first between second after,
      t.log = before ++ emission first :: between ++ emission second :: after →
        Underway between second.head second.body) ∧
    (∀ assembled, Underway t.log assembled.head assembled.body →
      assembled.head.request = .ok assembled.request →
        (t.assembler.onEvent .finish).1 = .emit assembled) ∧
    (t.assembler.pending.isSome = true ↔
      t.assembler.stage = .headersReceived ∨ t.assembler.stage = .bodyAccumulating) ∧
    (t.assembler.stage ≠ .bodyAccumulating → t.assembler.body = []) := by
  intro t
  have hShows : Shows t.log t.assembler := Shows.start.run calls
  have hWhole : EmitsWhole t.log := by
    refine EmitsWhole.run (fun before call assembled after hLog => ?_) Shows.start calls
    simp [Assembly.start] at hLog
  refine ⟨Assembly.map_call_run .start calls, hWhole, fun before first between second after hLog => ?_,
    fun assembled hUnderway hRequest => ?_, hShows.pending_iff, hShows.body_eq_nil⟩
  · obtain ⟨-, hUnderway, -⟩ := hWhole _ _ _ _ hLog
    exact hUnderway.behind (emission_ne_accepted first) (not_continues_emission first)
  · exact Option.some.inj (hShows.emit_iff.mpr ⟨rfl, hUnderway, hRequest⟩)

def rootHead (method : String) : Head := ⟨method, ⟨"/", "/"⟩, []⟩

/-- A second head breaks the first request off and is accepted when it comes again. -/
def brokenOff : List AssemblyCall :=
  [.event (.head (rootHead "GET")), .event (.chunk [1, 2]), .event (.head (rootHead "PUT")),
    .event (.head (rootHead "PUT")), .event (.chunk [3]), .finish, .event (.chunk [4])]

theorem emissions_are_whole_brokenOff :
    ((Assembly.start.run brokenOff).assembler.onEvent .finish).1 =
      .emit { head := rootHead "PUT", body := [3, 4], request := ⟨.put, []⟩ } := by
  obtain ⟨-, -, -, hEmits, -⟩ := emissions_are_whole brokenOff
  have hLater : ∀ e ∈ (Assembly.start.run brokenOff).log.drop 4, e.Continues := by
    intro e he
    rcases he with _ | ⟨_, _ | ⟨_, _ | ⟨_, he⟩⟩⟩
    · exact .chunk [3]
    · exact .finish
    · exact .chunk [4]
    · cases he
  exact hEmits _ ⟨(Assembly.start.run brokenOff).log.take 3, _, rfl, hLater, rfl⟩ rfl

end Switchyard.Rest
