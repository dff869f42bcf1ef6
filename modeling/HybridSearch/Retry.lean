import HybridSearch.Number.Binary64

/-!
# Retrying

A call that fails for a passing reason is made again after a pause, and the pauses grow. Only
failures that say so of themselves are passing ones.

* `RetryPolicy.delayAfter`: the pause after a failed call.
* `RetryPolicy.run`: the calls with the pauses between them.
-/
namespace HybridSearch

abbrev Nanoseconds := Nat

namespace Nanoseconds

def perSecond : Nat :=
  1000000000

def ofMilliseconds (n : Nat) : Nanoseconds :=
  n * 1000000

def milliseconds (n : Nanoseconds) : Nat :=
  (n + 999999) / 1000000

def longestWait : Nat :=
  30 * 365 * 24 * 60 * 60 * 1000

def waited (n : Nanoseconds) : Nat :=
  min n.milliseconds longestWait

/-- A span in seconds. The whole seconds and the fraction are rounded before they are added. -/
def toSeconds (n : Nanoseconds) : Binary64 :=
  (Binary64.ofInt (n / perSecond : Nat)).add
    ((Binary64.ofInt (n % perSecond : Nat)).div (Binary64.ofInt perSecond))

/-- The span nearest to a number of seconds. What is not above zero is no time at all. -/
def ofSeconds (x : Binary64) : Nanoseconds :=
  if 0 < x.units then Number.roundHalfEven (x.size * perSecond) Binary64.unitsPerOne else 0

end Nanoseconds

/-- How often a call is made, and how long the pauses are. -/
structure RetryPolicy where
  attempts : Nat
  initialDelay : Nanoseconds
  maxDelay : Nanoseconds
  factor : Binary64
  deriving DecidableEq

namespace RetryPolicy

def connect : RetryPolicy :=
  ⟨5, .ofMilliseconds 200, .ofMilliseconds 2000, Binary64.ofInt 2⟩

/-- For commands that only read. -/
def query : RetryPolicy :=
  ⟨3, .ofMilliseconds 50, .ofMilliseconds 500, Binary64.ofInt 2⟩

instance : Inhabited RetryPolicy := ⟨connect⟩

def withAttempts (p : RetryPolicy) (attempts : Nat) : RetryPolicy :=
  { p with attempts := max attempts 1 }

def maxExponent : Nat := 32

def delayAfter (p : RetryPolicy) (failed : Nat) : Nanoseconds :=
  let exponent := min (failed - 1) maxExponent
  let delay := p.initialDelay.toSeconds.mul (p.factor.pow exponent)
  if !delay.isFinite || p.maxDelay.toSeconds.atMost delay then p.maxDelay
  else .ofSeconds delay

/-- Makes a call, and again after a passing failure, with at most `left` calls after the first one;
`failed` is the number of the first call. -/
def runFrom [Monad m] (p : RetryPolicy) (transient : ε → Bool) (pause : Nanoseconds → m Unit)
    (call : m (Except ε α)) : (left failed : Nat) → m (Except ε α)
  | 0, _ => call
  | left + 1, failed => do
    match ← call with
    | .ok value => return .ok value
    | .error e =>
      if transient e then
        pause (p.delayAfter failed)
        runFrom p transient pause call left (failed + 1)
      else return .error e

/-- Makes a call until it succeeds, fails for good, or has been made often enough. The last outcome
is the result. -/
def run [Monad m] (p : RetryPolicy) (transient : ε → Bool) (pause : Nanoseconds → m Unit)
    (call : m (Except ε α)) : m (Except ε α) :=
  p.runFrom transient pause call (max p.attempts 1 - 1) 1

end RetryPolicy
end HybridSearch
