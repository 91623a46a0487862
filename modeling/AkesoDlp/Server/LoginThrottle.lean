import AkesoDlp.Lib.TSys
import AkesoDlp.Server.Auth

/-!
# Login throttling while requests overlap

`login` checks the limiter, awaits the user's row and then, without another
await, verifies the password and records the failure. Requests of one client
address overlap at that await, so a run is a sequence of first halves, second
halves and failed queries. All requests of a run lie in one limiter window and
none has the right password.
-/

namespace AkesoDlp.Server.LoginThrottle

open Lib Auth

variable (env : AuthEnv) (clientIp : String)

/-- What `login` does once it has the user's row. -/
def resumeLogin (s : AuthState) (user : Option User) (password newRefresh : String) (now : Nat) :
    Handled :=
  match user.filter fun u => env.verifyPassword password u.passwordHash with
  | none => (recordAttempt s clientIp now, .error ⟨401, "Invalid username or password"⟩)
  | some u =>
      if !u.isActive then (s, .error ⟨403, "Account is disabled"⟩)
      else if u.mfaEnabled then
        (s, .ok { mfaChallengeToken := some (createMfaChallengeToken env u.id now) })
      else issueTokens env (resetAttempts s clientIp) u newRefresh now

/-- `login` is its two halves, one right after the other. -/
theorem login_eq (s : AuthState) (username password newRefresh : String) (now : Nat) :
    login env s username password clientIp newRefresh now =
      if (checkLimit env s clientIp now).2 then
        ((checkLimit env s clientIp now).1,
          .error ⟨429, "Too many login attempts. Try again later."⟩)
      else
        resumeLogin env clientIp (checkLimit env s clientIp now).1
          (getUserByUsername (checkLimit env s clientIp now).1 username) password newRefresh now :=
  rfl

/-- A request that has passed the check. -/
structure LoginRequest where
  number : Nat
  username : String
  password : String
deriving DecidableEq, Repr

/-- The limiter with the rest of the server's state, the requests that await
their row, the number of calls of `verify_password` so far and the clock. -/
structure LoginState where
  auth : AuthState
  waiting : List LoginRequest
  verifications : Nat
  clock : Nat

inductive LoginAction
  | arrive (request : LoginRequest) (now : Nat)
  | resume (request : LoginRequest) (user : Option User) (newRefresh : String) (now : Nat)
  | queryFails (request : LoginRequest) (now : Nat)

def LoginAction.time : LoginAction → Nat
  | .arrive _ now => now
  | .resume _ _ _ now => now
  | .queryFails _ now => now

/-- The request has no row or the wrong password. -/
def wrongPassword (request : LoginRequest) (user : Option User) : Bool :=
  user.all fun u => !env.verifyPassword request.password u.passwordHash

/-- One step of one request. A missing row is not verified. -/
def loginStep (s : LoginState) : LoginAction → Option LoginState
  | .arrive request now =>
      let (auth, full) := checkLimit env s.auth clientIp now
      some { s with
        auth := auth
        waiting := if full then s.waiting else request :: s.waiting
        clock := now }
  | .resume request user newRefresh now =>
      if s.waiting.contains request && wrongPassword env request user then
        some {
          auth := (resumeLogin env clientIp s.auth user request.password newRefresh now).1
          waiting := s.waiting.erase request
          verifications := s.verifications + user.toList.length
          clock := now }
      else none
  | .queryFails request now =>
      some { s with waiting := s.waiting.erase request, clock := now }

/-- The runs in the window that begins at `start`. -/
def logins (start : Nat) : TSys LoginState LoginAction where
  init := fun s => s.waiting = [] ∧ s.verifications = 0 ∧ s.clock = start
  step := fun s a =>
    if s.clock ≤ a.time ∧ a.time < start + env.windowSeconds then loginStep env clientIp s a
    else none

/-- The password is verified only where the check would still pass. -/
def StillAllowed (s : LoginState) : LoginAction → Prop
  | .resume _ (some _) _ now => (checkLimit env s.auth clientIp now).2 = false
  | _ => True

variable {env clientIp}

/-- The attempts recorded since the window began. -/
def recorded (clientIp : String) (start : Nat) (s : LoginState) : List Nat :=
  (s.auth.attempts clientIp).filter fun t => start ≤ t

/-- Every verification of the window is on record, and there are no more than
the limit. -/
structure Throttled (env : AuthEnv) (clientIp : String) (start : Nat) (s : LoginState) : Prop where
  clock : start ≤ s.clock
  recorded : s.verifications ≤ (recorded clientIp start s).length
  limited : s.verifications ≤ env.maxAttempts

/-- Pruning drops nothing that was recorded in the window. -/
theorem filter_checkLimit {s : AuthState} {start now : Nat} (hstart : start ≤ now)
    (hnow : now < start + env.windowSeconds) :
    (((checkLimit env s clientIp now).1.attempts clientIp).filter fun t => start ≤ t) =
      (s.attempts clientIp).filter fun t => start ≤ t := by
  simp only [checkLimit, Function.update_self, List.filter_filter]
  apply List.filter_congr
  intro t _
  by_cases ht : start ≤ t
  · have hrecent : now - t < env.windowSeconds := by omega
    simp [ht, hrecent]
  · simp [ht]

/-- Where the check passes, fewer attempts than the limit are on record. -/
theorem recorded_lt_of_checkLimit {s : LoginState} {start now : Nat} (hstart : start ≤ now)
    (hnow : now < start + env.windowSeconds)
    (h : (checkLimit env s.auth clientIp now).2 = false) :
    (recorded clientIp start s).length < env.maxAttempts := by
  have hrecent : ((checkLimit env s.auth clientIp now).1.attempts clientIp).length <
      env.maxAttempts := by
    simp only [checkLimit, decide_eq_false_iff_not, Nat.not_le] at h
    simpa only [checkLimit, Function.update_self] using h
  have hle := List.length_filter_le (fun t => decide (start ≤ t))
    ((checkLimit env s.auth clientIp now).1.attempts clientIp)
  rw [filter_checkLimit hstart hnow] at hle
  exact Nat.lt_of_le_of_lt hle hrecent

/-- A failed verification is recorded in the same step. -/
theorem resumeLogin_wrong {s : AuthState} {request : LoginRequest} {user : Option User}
    {newRefresh : String} {now : Nat} (h : wrongPassword env request user = true) :
    (resumeLogin env clientIp s user request.password newRefresh now).1 =
      recordAttempt s clientIp now := by
  have hnone : (user.filter fun u =>
      env.verifyPassword request.password u.passwordHash) = none := by
    cases user with
    | none => rfl
    | some u =>
        simp only [wrongPassword, Option.all_some, Bool.not_eq_true'] at h
        simp [Option.filter, h]
  rw [resumeLogin, hnone]

theorem recorded_recordAttempt {s : AuthState} {start now : Nat} (h : start ≤ now) :
    ((recordAttempt s clientIp now).attempts clientIp).filter (fun t => start ≤ t) =
      (s.attempts clientIp).filter (fun t => start ≤ t) ++ [now] := by
  simp [recordAttempt, List.filter_append, h]

/-- A check prunes, so it takes nothing off the record of the window. -/
theorem Throttled.arrive {s : LoginState} {start now : Nat} (hs : Throttled env clientIp start s)
    (hclock : start ≤ now) (hnow : now < start + env.windowSeconds)
    (waiting : List LoginRequest) :
    Throttled env clientIp start
      ⟨(checkLimit env s.auth clientIp now).1, waiting, s.verifications, now⟩ where
  clock := hclock
  recorded := by
    rw [LoginThrottle.recorded, filter_checkLimit hclock hnow]
    exact hs.recorded
  limited := hs.limited

/-- A wrong password is verified at most once and recorded. -/
theorem Throttled.resume {s : LoginState} {start now : Nat} {user : Option User}
    (hs : Throttled env clientIp start s) (hclock : start ≤ now)
    (hroom : user ≠ none → (LoginThrottle.recorded clientIp start s).length < env.maxAttempts)
    (waiting : List LoginRequest) :
    Throttled env clientIp start ⟨recordAttempt s.auth clientIp now, waiting,
      s.verifications + user.toList.length, now⟩ where
  clock := hclock
  recorded := by
    rw [LoginThrottle.recorded, recorded_recordAttempt hclock, List.length_append]
    have hone : user.toList.length ≤ 1 := by cases user <;> simp
    exact Nat.add_le_add hs.recorded hone
  limited := by
    cases user with
    | none => exact hs.limited
    | some u => exact Nat.lt_of_le_of_lt hs.recorded (hroom (Option.some_ne_none u))

theorem throttled_inductive (env : AuthEnv) (clientIp : String) (start : Nat) :
    (logins env clientIp start).InductiveBy (StillAllowed env clientIp)
      (Throttled env clientIp start) where
  init := by
    rintro s ⟨-, hnone, hclock⟩
    refine ⟨Nat.le_of_eq hclock.symm, ?_, ?_⟩
    · rw [hnone]
      exact Nat.zero_le _
    · rw [hnone]
      exact Nat.zero_le _
  step := by
    intro s a s' hs hok hstep
    obtain ⟨⟨htime, hnow⟩, hstep⟩ := Option.ite_none_right_eq_some.mp hstep
    have hclock : start ≤ a.time := Nat.le_trans hs.clock htime
    cases a with
    | arrive request now =>
        rw [loginStep, Option.some.injEq] at hstep
        subst hstep
        exact hs.arrive hclock hnow _
    | resume request user newRefresh now =>
        simp only [loginStep, Option.ite_none_right_eq_some, Bool.and_eq_true,
          Option.some.injEq] at hstep
        obtain ⟨⟨-, hwrong⟩, rfl⟩ := hstep
        rw [resumeLogin_wrong hwrong]
        refine hs.resume hclock ?_ _
        intro hne
        cases user with
        | none => exact absurd rfl hne
        | some u => exact recorded_lt_of_checkLimit hclock hnow hok
    | queryFails request now =>
        rw [loginStep, Option.some.injEq] at hstep
        subst hstep
        exact ⟨hclock, hs.recorded, hs.limited⟩

/-- In a run in which the check would still pass whenever a password is
verified, no more passwords are verified than the limit. -/
theorem verifications_le_of_stillAllowed {env : AuthEnv} {clientIp : String} {start : Nat}
    {s : LoginState}
    (h : (logins env clientIp start).ReachableBy (StillAllowed env clientIp) s) :
    s.verifications ≤ env.maxAttempts :=
  ((throttled_inductive env clientIp start).invariant s h).limited

/-- A guess at the password of alice. -/
def guess (number : Nat) : LoginRequest := ⟨number, "alice", "guess"⟩

def quiet : LoginState where
  auth := aliceOnly.state
  waiting := []
  verifications := 0
  clock := 0

/-- Both guesses pass the check before one of them is recorded. -/
theorem verifications_le_two_guesses :
    ∃ s, (logins sampleEnv "10.0.0.1" 0).run quiet
        [.arrive (guess 0) 0, .arrive (guess 1) 0, .resume (guess 0) (some alice) "t" 1,
          .resume (guess 1) (some alice) "t" 1] = some s ∧
      s.verifications = 2 ∧ s.verifications ≤ sampleEnv.maxAttempts := by
  have h : (logins sampleEnv "10.0.0.1" 0).ReachableBy (StillAllowed sampleEnv "10.0.0.1") quiet :=
    .init ⟨rfl, rfl, rfl⟩
  have h := h.step (a := LoginAction.arrive (guess 0) 0) trivial rfl
  have h := h.step (a := LoginAction.arrive (guess 1) 0) trivial rfl
  have h := h.step (a := LoginAction.resume (guess 0) (some alice) "t" 1) rfl rfl
  have h := h.step (a := LoginAction.resume (guess 1) (some alice) "t" 1) rfl rfl
  exact ⟨_, rfl, rfl, verifications_le_of_stillAllowed h⟩

/-- Six guesses pass the check before the first of them is recorded. -/
def burst : List LoginAction :=
  (List.range 6).map (fun number => .arrive (guess number) 0) ++
    (List.range 6).map fun number => .resume (guess number) (some alice) "t" 1

theorem burst_verified :
    ¬ ∀ env clientIp start s, (logins env clientIp start).Reachable s →
      s.verifications ≤ env.maxAttempts := by
  intro h
  have hrun : ∃ s, (logins sampleEnv "10.0.0.1" 0).run quiet burst = some s ∧
      s.verifications = 6 := ⟨_, rfl, rfl⟩
  obtain ⟨s, hs, hsix⟩ := hrun
  have hle := h sampleEnv "10.0.0.1" 0 s (TSys.reachable_run (.init ⟨rfl, rfl, rfl⟩) _ hs)
  rw [hsix] at hle
  exact absurd hle (by decide)

end AkesoDlp.Server.LoginThrottle
