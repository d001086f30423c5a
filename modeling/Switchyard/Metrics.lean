/-! # Metrics

What the platform counts. Counters only grow; the number of active pairings goes up and down.
-/
namespace Switchyard
set_option autoImplicit false

inductive BorrowOutcome where
  | created
  | reused
  | exhausted
  | createFailed
deriving DecidableEq, Repr

inductive Direction where
  | upstream
  | downstream
deriving DecidableEq, Repr

inductive Metric where
  | poolBorrows (outcome : BorrowOutcome)
  | responseTimeouts
  | responses (status : Nat)
  | relayedBytes (direction : Direction)
  | activePairings
deriving DecidableEq, Repr

def BorrowOutcome.label : BorrowOutcome → String
  | created => "created"
  | reused => "reused"
  | exhausted => "exhausted"
  | createFailed => "create_failed"

def Direction.label : Direction → String
  | upstream => "upstream"
  | downstream => "downstream"

def Metric.name : Metric → String
  | poolBorrows outcome => "pool_borrows_total\x7boutcome=" ++ outcome.label ++ "\x7d"
  | responseTimeouts => "client_response_timeouts_total"
  | responses status => "rest_responses_total\x7bstatus=" ++ toString status ++ "\x7d"
  | relayedBytes direction => "proxy_bytes_total\x7bdirection=" ++ direction.label ++ "\x7d"
  | activePairings => "proxy_active_pairings"

/-- The metrics touched so far, each once. -/
abbrev Metrics := List (Metric × Int)

namespace Metrics

def add (metrics : Metrics) (metric : Metric) (amount : Int) : Metrics :=
  match metrics with
  | [] => [(metric, amount)]
  | (known, value) :: rest =>
    if known = metric then (known, value + amount) :: rest
    else (known, value) :: add rest metric amount

def count (metrics : Metrics) (metric : Metric) : Metrics := metrics.add metric 1

def get (metrics : Metrics) (metric : Metric) : Int :=
  ((metrics.find? (·.1 = metric)).map (·.2)).getD 0

@[simp] theorem get_add_self (metrics : Metrics) (metric : Metric) (amount : Int) :
    (metrics.add metric amount).get metric = metrics.get metric + amount := by
  induction metrics with
  | nil => simp [add, get]
  | cons entry rest ih =>
    by_cases h : entry.1 = metric
    · simp [add, get, h]
    · simpa [add, get, h] using ih

theorem get_add_of_ne (metrics : Metrics) {metric other : Metric} (hOther : metric ≠ other) (amount : Int) :
    (metrics.add metric amount).get other = metrics.get other := by
  induction metrics with
  | nil => simp [add, get, hOther]
  | cons entry rest ih =>
    by_cases h : entry.1 = metric
    · simp [add, get, h, hOther]
    · by_cases hEntry : entry.1 = other
      · simp [add, get, hEntry, hOther.symm]
      · simpa [add, get, h, hEntry] using ih

end Metrics
end Switchyard
