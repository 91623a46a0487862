import AkesoDlp.Server.RateLimiter
import Mathlib.Data.Set.Card

/-!
# Reclaiming idle buckets

The tokens of a bucket are refilled when it is used, so `_cleanup` reads the
tokens of the last call, however long ago that was. A run records every call,
admitted or not, and every cleanup with the registry that it found.
-/

namespace AkesoDlp.Server.BucketReclaim

open Lib

/-- A call of `allow` by its pair and the time of its `consume`. -/
abbrev CallLog := List (BucketKey × ℚ)

/-- A run of `_cleanup`: what it found, when, and the calls until then. -/
structure Sweep where
  before : RateLimitRegistry
  time : ℚ
  calls : CallLog

def Sweep.after (w : Sweep) : RateLimitRegistry := w.before.cleanup w.time

variable {limits : RateLimits} {r : RateLimitRegistry} {s s' : ReclaimState} {act : RateAct}

end AkesoDlp.Server.BucketReclaim
