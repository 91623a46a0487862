import Mathlib.Algebra.Order.Ring.Rat
import Mathlib.Tactic.FieldSimp
import AkesoDlp.Lib.TSys
import AkesoDlp.Lib.TokenBucket

/-!
# The gRPC rate limiter

A token bucket for each agent and method, made on the first call and removed by
the periodic cleanup. Numbers are rationals, so the refill is exact. A call reads
the clock up to four times.
-/

namespace AkesoDlp.Server

open Lib

/-! ## The buckets -/

structure TokenBucket where
  capacity : ℚ
  refillRate : ℚ
  tokens : ℚ
  lastRefill : ℚ
deriving DecidableEq, Repr

/-- `__post_init__` -/
def TokenBucket.new (capacity refillRate now : ℚ) : TokenBucket where
  capacity := capacity
  refillRate := refillRate
  tokens := capacity
  lastRefill := now

def TokenBucket.consume (b : TokenBucket) (now : ℚ) (n : ℚ := 1) : Bool × TokenBucket :=
  let elapsed := now - b.lastRefill
  let tokens := min b.capacity (b.tokens + elapsed * b.refillRate)
  if tokens ≥ n then (true, { b with tokens := tokens - n, lastRefill := now })
  else (false, { b with tokens := tokens, lastRefill := now })

/-! ## The registry -/

/-- The environment variables, in requests a minute. -/
structure RateLimits where
  heartbeat : Int := 60
  detect : Int := 120
  incident : Int := 60
  default : Int := 120
deriving DecidableEq, Repr

/-- `_METHOD_LIMITS` -/
def RateLimits.methodLimits (limits : RateLimits) : List (String × Int) :=
  [("/akesodlp.AkesoDLPService/Heartbeat", limits.heartbeat),
    ("/akesodlp.AkesoDLPService/DetectContent", limits.detect),
    ("/akesodlp.AkesoDLPService/ReportIncident", limits.incident),
    ("/akesodlp.AkesoDLPService/ReportDiscoverResults", limits.incident)]

/-- `_METHOD_LIMITS.get(method, _DEFAULT_LIMIT)` -/
def RateLimits.limitFor (limits : RateLimits) (method : String) : Int :=
  (limits.methodLimits.lookup method).getD limits.default

/-- An agent id and a method. -/
abbrev BucketKey := String × String

structure RateLimitRegistry where
  buckets : BucketKey → Option TokenBucket
  lastCleanup : ℚ
  cleanupInterval : ℚ := 300

/-- What `time.monotonic` returns in one call, in order: for a new bucket, in
`consume`, in the check for the cleanup and in `_cleanup`. -/
structure Readings where
  created : ℚ
  consumed : ℚ
  checked : ℚ
  cleaned : ℚ
  created_le : created ≤ consumed
  consumed_le : consumed ≤ checked
  checked_le : checked ≤ cleaned

namespace RateLimitRegistry

def new (now : ℚ) : RateLimitRegistry where
  buckets _ := none
  lastCleanup := now

def setBucket (r : RateLimitRegistry) (key : BucketKey) (b : TokenBucket) : RateLimitRegistry :=
  { r with buckets := Function.update r.buckets key (some b) }

def getOrCreate (limits : RateLimits) (r : RateLimitRegistry) (key : BucketKey) (method : String)
    (now : ℚ) : TokenBucket :=
  match r.buckets key with
  | some b => b
  | none =>
      let rpm : ℚ := limits.limitFor method
      TokenBucket.new rpm (rpm / 60) now

/-- `_cleanup` -/
def cleanup (r : RateLimitRegistry) (now : ℚ) : RateLimitRegistry :=
  { r with
    lastCleanup := now
    buckets := fun key =>
      (r.buckets key).filter fun b => !decide (b.tokens ≥ b.capacity - 1 / 10) }

/-- The first two statements of `allow`; the dictionary holds the bucket by reference. -/
def consumeFor (limits : RateLimits) (r : RateLimitRegistry) (agentId method : String)
    (t : Readings) :
    Bool × RateLimitRegistry :=
  let key := (agentId, method)
  let (allowed, bucket) := (r.getOrCreate limits key method t.created).consume t.consumed
  (allowed, r.setBucket key bucket)

def cleanupDue (r : RateLimitRegistry) (now : ℚ) : Bool :=
  now - r.lastCleanup > r.cleanupInterval

def allow (limits : RateLimits) (r : RateLimitRegistry) (agentId method : String) (t : Readings) :
    Bool × RateLimitRegistry :=
  let (allowed, r) := r.consumeFor limits agentId method t
  (allowed, if r.cleanupDue t.checked then r.cleanup t.cleaned else r)

end RateLimitRegistry

/-! ## Runs -/

inductive RateAct
  | allow (agentId method : String) (t : Readings)
  | cleanup (now : ℚ)

/-- The registry, the last reading of the clock, and the calls admitted so far. -/
structure RateState where
  registry : RateLimitRegistry
  now : ℚ
  admitted : List (BucketKey × ℚ) := []

namespace RateState

def times (s : RateState) (key : BucketKey) : List ℚ :=
  (s.admitted.filter fun e => e.1 = key).map fun e => e.2

theorem times_admitted (r : RateLimitRegistry) (now t : ℚ) (allowed : Bool) (key : BucketKey)
    (log : List (BucketKey × ℚ)) :
    times ⟨r, now, if allowed then (key, t) :: log else log⟩ key =
      if allowed then t :: times ⟨r, now, log⟩ key else times ⟨r, now, log⟩ key := by
  cases allowed <;> simp [times]

def start (now : ℚ) : RateState where
  registry := RateLimitRegistry.new now
  now := now

end RateState

def rateStep (limits : RateLimits) (s : RateState) : RateAct → Option RateState
  | .allow agentId method t =>
      if s.now ≤ t.created then
        let (allowed, registry) := s.registry.allow limits agentId method t
        some
          { registry := registry
            now := t.cleaned
            admitted :=
              if allowed then ((agentId, method), t.consumed) :: s.admitted else s.admitted }
      else none
  | .cleanup now =>
      if s.now ≤ now then some { s with registry := s.registry.cleanup now, now := now } else none

def rateSys (limits : RateLimits) : TSys RateState RateAct where
  init s := ∃ now, s = RateState.start now
  step := rateStep limits

/-- In every window of length `T`, at most the capacity and the refill of `T`. -/
def WindowsBounded (limits : RateLimits) (agentId method : String) (s : RateState) : Prop :=
  ∀ a T : ℚ, 0 ≤ T →
    (Bucket.countIn (s.times (agentId, method)) a (a + T) : ℚ) ≤
      limits.limitFor method + limits.limitFor method / 60 * T

/-- The registry on which a step starts a cleanup. -/
def sweeps (limits : RateLimits) (s : RateState) : RateAct → Option RateLimitRegistry
  | .allow agentId method t =>
      let r := (s.registry.consumeFor limits agentId method t).2
      if r.cleanupDue t.checked then some r else none
  | .cleanup _ => some s.registry

/-- No cleanup that the step runs finds the bucket of a pair with limit 1 almost full. -/
def SparesBucket (limits : RateLimits) (agentId method : String) (s : RateState) (act : RateAct) :
    Prop :=
  ∀ r ∈ sweeps limits s act, ∀ b ∈ r.buckets (agentId, method),
    2 ≤ limits.limitFor method ∨ b.tokens < 9 / 10

/-! ## One bucket -/

/-- The bucket is one of the limit, and covers the log of its pair. -/
structure TokenBucket.Covers (b : TokenBucket) (limit : ℚ) (log : List ℚ) : Prop where
  capacity : b.capacity = limit
  refillRate : b.refillRate = limit / 60
  covered : Bucket.Covered limit (limit / 60) log b.tokens b.lastRefill

/-- The last call left a token less than a full bucket, or was refused. -/
structure TokenBucket.Fits (b : TokenBucket) (limit : ℚ) (log : List ℚ) : Prop
    extends b.Covers limit log where
  used : b.tokens ≤ limit - 1 ∨ b.tokens < 1

namespace TokenBucket

variable {b : TokenBucket} {limit now : ℚ} {log : List ℚ}

theorem covers_new (hlimit : 0 ≤ limit) : (new limit (limit / 60) now).Covers limit [] where
  capacity := rfl
  refillRate := rfl
  covered := Bucket.Covered.start hlimit (by positivity) now

@[simp] theorem consume_lastRefill (b : TokenBucket) (now n : ℚ) :
    (b.consume now n).2.lastRefill = now := by
  simp only [consume]
  split <;> rfl

theorem fits_consume (h : b.Covers limit log) (hpast : b.lastRefill ≤ now) (hlimit : 0 ≤ limit) :
    (b.consume now).2.Fits limit (if (b.consume now).1 then now :: log else log) := by
  have hrate : 0 ≤ limit / 60 := by positivity
  have hrefill := h.covered.refill hlimit hrate hpast
  have hle := min_le_left limit (b.tokens + (now - b.lastRefill) * (limit / 60))
  simp only [consume, h.capacity, h.refillRate]
  generalize min limit (b.tokens + (now - b.lastRefill) * (limit / 60)) = tokens at hrefill hle ⊢
  by_cases htoken : 1 ≤ tokens
  · rw [if_pos htoken]
    refine ⟨⟨rfl, rfl, hrefill.take hrate htoken⟩, .inl ?_⟩
    exact sub_le_sub_right hle 1
  · rw [if_neg htoken]
    exact ⟨⟨rfl, rfl, hrefill⟩, .inr (not_le.mp htoken)⟩

/-- The cleanup leaves a bucket that it may not take for full. -/
theorem Fits.kept {n : Int} (h : b.Fits n log) (hpos : 0 < n) (hspare : 2 ≤ n ∨ b.tokens < 9 / 10) :
    b.tokens < b.capacity - 1 / 10 := by
  have hone : (1 : ℚ) ≤ n := by exact_mod_cast hpos
  rw [h.capacity]
  rcases h.used with hused | hused
  · linarith
  · rcases hspare with htwo | hspare
    · have htwo' : (2 : ℚ) ≤ n := by exact_mod_cast htwo
      linarith
    · linarith

end TokenBucket

/-! ## The invariant of a run -/

/-- A pair without a bucket was never admitted; a bucket fits the pair's log. -/
structure BucketFits (limits : RateLimits) (agentId method : String) (s : RateState) : Prop where
  absent : s.registry.buckets (agentId, method) = none → s.times (agentId, method) = []
  fits : ∀ b ∈ s.registry.buckets (agentId, method),
    b.Fits (limits.limitFor method) (s.times (agentId, method)) ∧ b.lastRefill ≤ s.now

namespace BucketFits

variable {limits : RateLimits} {agentId method : String} {s : RateState}

theorem start (now : ℚ) : BucketFits limits agentId method (RateState.start now) where
  absent _ := rfl
  fits b hb := by simp [RateState.start, RateLimitRegistry.new] at hb

/-- What matters of a state are the pair's bucket, its log and the clock. -/
theorem congr (h : BucketFits limits agentId method s) {s' : RateState} (hnow : s.now ≤ s'.now)
    (hbucket : s'.registry.buckets (agentId, method) = s.registry.buckets (agentId, method))
    (htimes : s'.times (agentId, method) = s.times (agentId, method)) :
    BucketFits limits agentId method s' where
  absent hnone := by rw [htimes, h.absent (hbucket ▸ hnone)]
  fits b hb := by
    rw [htimes]
    rw [hbucket] at hb
    exact ⟨(h.fits b hb).1, (h.fits b hb).2.trans hnow⟩

theorem covers_getOrCreate (h : BucketFits limits agentId method s)
    (hlimit : 0 < limits.limitFor method) {now : ℚ} (hnow : s.now ≤ now) :
    let b := s.registry.getOrCreate limits (agentId, method) method now
    b.Covers (limits.limitFor method) (s.times (agentId, method)) ∧ b.lastRefill ≤ now := by
  simp only [RateLimitRegistry.getOrCreate]
  split
  case h_1 b hb =>
    exact ⟨(h.fits b hb).1.toCovers, (h.fits b hb).2.trans hnow⟩
  case h_2 hnone =>
    rw [h.absent hnone]
    exact ⟨TokenBucket.covers_new (by exact_mod_cast hlimit.le), le_rfl⟩

theorem consumeFor (h : BucketFits limits agentId method s) (hlimit : 0 < limits.limitFor method)
    (caller called : String) (t : Readings) (hnow : s.now ≤ t.created) :
    BucketFits limits agentId method
      { registry := (s.registry.consumeFor limits caller called t).2
        now := t.cleaned
        admitted :=
          if (s.registry.consumeFor limits caller called t).1
          then ((caller, called), t.consumed) :: s.admitted else s.admitted } := by
  have hclock : s.now ≤ t.cleaned :=
    ((hnow.trans t.created_le).trans t.consumed_le).trans t.checked_le
  by_cases hkey : (caller, called) = (agentId, method)
  · obtain ⟨rfl, rfl⟩ := Prod.mk.inj hkey
    obtain ⟨hcovers, hpast⟩ := h.covers_getOrCreate hlimit hnow
    have hfits := TokenBucket.fits_consume hcovers (hpast.trans t.created_le)
      (by exact_mod_cast hlimit.le)
    refine ⟨fun hnone => ?_, fun b hb => ?_⟩
    · simp [RateLimitRegistry.consumeFor, RateLimitRegistry.setBucket] at hnone
    · simp only [RateLimitRegistry.consumeFor, RateLimitRegistry.setBucket, Function.update_self,
        Option.mem_some_iff] at hb
      subst hb
      refine ⟨?_, ?_⟩
      · rw [RateState.times_admitted]
        exact hfits
      · rw [TokenBucket.consume_lastRefill]
        exact t.consumed_le.trans t.checked_le
  · refine h.congr hclock ?_ ?_
    · simp only [RateLimitRegistry.consumeFor, RateLimitRegistry.setBucket]
      exact Function.update_of_ne (Ne.symm hkey) _ _
    · simp only [RateState.times]
      split
      · rw [List.filter_cons_of_neg (by simpa using hkey)]
      · rfl

theorem cleanup (h : BucketFits limits agentId method s) (hlimit : 0 < limits.limitFor method)
    (hspare : ∀ b ∈ s.registry.buckets (agentId, method),
      2 ≤ limits.limitFor method ∨ b.tokens < 9 / 10) (cleaned : ℚ) {now : ℚ} (hnow : s.now ≤ now) :
    BucketFits limits agentId method
      { s with registry := s.registry.cleanup cleaned, now := now } := by
  refine h.congr hnow ?_ rfl
  simp only [RateLimitRegistry.cleanup]
  cases hbucket : s.registry.buckets (agentId, method) with
  | none => rfl
  | some b =>
      have hkept := (h.fits b hbucket).1.kept hlimit (hspare b hbucket)
      exact Option.filter_some_pos (by simpa [lt_sub_iff_add_lt] using hkept)

theorem step (h : BucketFits limits agentId method s) (hlimit : 0 < limits.limitFor method)
    {act : RateAct} (hspare : SparesBucket limits agentId method s act) {s' : RateState}
    (hstep : rateStep limits s act = some s') : BucketFits limits agentId method s' := by
  cases act with
  | allow caller called t =>
      simp only [rateStep, Option.ite_none_right_eq_some, Option.some.injEq] at hstep
      obtain ⟨hnow, rfl⟩ := hstep
      have hadmit := h.consumeFor hlimit caller called t hnow
      simp only [SparesBucket, sweeps] at hspare
      simp only [RateLimitRegistry.allow]
      split
      case isTrue hdue =>
        rw [if_pos hdue] at hspare
        exact hadmit.cleanup hlimit (hspare _ rfl) t.cleaned le_rfl
      case isFalse =>
        exact hadmit
  | cleanup now =>
      simp only [rateStep, Option.ite_none_right_eq_some, Option.some.injEq] at hstep
      obtain ⟨hnow, rfl⟩ := hstep
      exact h.cleanup hlimit (hspare _ rfl) now hnow

theorem windowsBounded (h : BucketFits limits agentId method s)
    (hlimit : 0 < limits.limitFor method) : WindowsBounded limits agentId method s := by
  intro a T hT
  have hrate : (0 : ℚ) ≤ limits.limitFor method := by exact_mod_cast hlimit.le
  cases hbucket : s.registry.buckets (agentId, method) with
  | none =>
      rw [h.absent hbucket]
      simp only [Bucket.countIn, List.countP_nil, Nat.cast_zero]
      positivity
  | some b =>
      have hwindow := (h.fits b hbucket).1.covered.windows a (a + T) (le_add_of_nonneg_right hT)
      rwa [add_sub_cancel_left] at hwindow

end BucketFits

theorem bucketFits_inductive (limits : RateLimits) (agentId method : String)
    (hlimit : 0 < limits.limitFor method) :
    (rateSys limits).InductiveBy (SparesBucket limits agentId method)
      (BucketFits limits agentId method) where
  init := by
    rintro s ⟨now, rfl⟩
    exact BucketFits.start now
  step s act s' h hspare hstep := h.step hlimit hspare hstep

/-! ## The bound -/

theorem windowsBounded_invariantBy (limits : RateLimits) (agentId method : String)
    (hlimit : 0 < limits.limitFor method) :
    (rateSys limits).InvariantBy (SparesBucket limits agentId method)
      (WindowsBounded limits agentId method) := fun s hs =>
  ((bucketFits_inductive limits agentId method hlimit).invariant s hs).windowsBounded hlimit

private def readingsAt (time : ℚ) : Readings :=
  ⟨time, time, time, time, le_rfl, le_rfl, le_rfl⟩

private def heartbeats (times : List ℚ) : List RateAct :=
  times.map fun time => .allow "agent" "/akesodlp.AkesoDLPService/Heartbeat" (readingsAt time)

/-- Two heartbeats at once exhaust a limit of 2; half a minute later there is a
token again. -/
theorem windowsBounded_heartbeats :
    ∃ s, (rateSys { heartbeat := 2 }).run (RateState.start 0) (heartbeats [1, 1, 2, 31]) = some s ∧
      s.times ("agent", "/akesodlp.AkesoDLPService/Heartbeat") = [31, 1, 1] ∧
      WindowsBounded { heartbeat := 2 } "agent" "/akesodlp.AkesoDLPService/Heartbeat" s := by
  have hrun : ((rateSys { heartbeat := 2 }).run (RateState.start 0)
      (heartbeats [1, 1, 2, 31])).map
        (fun s => s.times ("agent", "/akesodlp.AkesoDLPService/Heartbeat")) = some [31, 1, 1] := by
    decide +kernel
  obtain ⟨s, hs, htimes⟩ := Option.map_eq_some_iff.mp hrun
  refine ⟨s, hs, htimes, ?_⟩
  refine windowsBounded_invariantBy { heartbeat := 2 } "agent" _ (by decide) s ?_
  refine TSys.reachableBy_run (.init ⟨0, rfl⟩) _ (TSys.runOk_of_forall ?_ _) hs
  exact fun _ _ _ _ _ _ _ => .inl (by decide)

/-- With a limit of 1 a refused call at 301 leaves 0.9 tokens and runs the cleanup,
which takes the bucket for full: the next call finds a new one. -/
theorem not_windowsBounded_invariant :
    ¬ ∀ (limits : RateLimits) (agentId method : String), 0 < limits.limitFor method →
        (rateSys limits).InvariantBy (fun _ _ => True) (WindowsBounded limits agentId method) := by
  intro hclaim
  have hrun : ((rateSys { heartbeat := 1 }).run (RateState.start 0)
      (heartbeats [247, 301, 301])).map
        (fun s => s.times ("agent", "/akesodlp.AkesoDLPService/Heartbeat")) = some [301, 247] := by
    decide +kernel
  obtain ⟨s, hs, htimes⟩ := Option.map_eq_some_iff.mp hrun
  have hstart : (rateSys { heartbeat := 1 }).Reachable (RateState.start 0) := .init ⟨0, rfl⟩
  have hreach := TSys.reachable_run hstart _ hs
  have hbound := hclaim { heartbeat := 1 } "agent" "/akesodlp.AkesoDLPService/Heartbeat" (by decide)
    s hreach 247 54 (by norm_num)
  rw [htimes] at hbound
  have hlimit : RateLimits.limitFor { heartbeat := 1 }
      "/akesodlp.AkesoDLPService/Heartbeat" = 1 := by decide
  rw [hlimit] at hbound
  norm_num [Bucket.countIn] at hbound

end AkesoDlp.Server
