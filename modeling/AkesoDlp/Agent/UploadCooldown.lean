import AkesoDlp.Agent.StdInt
import AkesoDlp.Lib.Cooldown
import Mathlib.Algebra.Order.Group.Int

/-!
# Recently seen uploads

`BrowserUploadMonitor::IsRecentlySeen` keeps the time of the last upload of each path, and
drops what is more than twice the cooldown old. Twice the cooldown is an `int`.
-/

namespace AkesoDlp.Agent

open Lib

namespace BrowserUploadMonitor

/-- An upload event: the path, and the time of the steady clock in nanoseconds. -/
abbrev Upload := Cooldown.Visit StdString Int

/-- `duration_cast<seconds>(now - then).count()`, which truncates. -/
def secondsBetween (now t : Int) : Int := (now - t).tdiv 1000000000

/-- `cooldown_seconds_ * 2`, which wraps around. -/
def doubled (cooldownSeconds : Int) : Int :=
  (cooldownSeconds * 2 + 2147483648) % 4294967296 - 2147483648

/-- `recent_files_[path] = now`. -/
def setRecent (recentFiles : List Upload) (e : Upload) : List Upload :=
  e :: recentFiles.filter fun it => it.key ≠ e.key

/-- The result, and `recent_files_` afterwards. -/
def isRecentlySeen (cooldownSeconds : Int) (recentFiles : List Upload) (e : Upload) :
    Bool × List Upload :=
  let recentFiles := recentFiles.filter fun it =>
    !decide (secondsBetween e.time it.time > doubled cooldownSeconds)
  match recentFiles.find? fun it => it.key = e.key with
  | some it =>
      if secondsBetween e.time it.time < cooldownSeconds then (true, recentFiles)
      else (false, setRecent recentFiles e)
  | none => (false, setRecent recentFiles e)

/-! ## What is suppressed -/

def young (cooldownSeconds now t : Int) : Bool := secondsBetween now t < cooldownSeconds

def keep (cooldownSeconds now t : Int) : Bool :=
  !decide (secondsBetween now t > doubled cooldownSeconds)

theorem isRecentlySeen_eq (cooldownSeconds : Int) :
    isRecentlySeen cooldownSeconds =
      Cooldown.visit (young cooldownSeconds) (keep cooldownSeconds) := by
  funext recentFiles e
  cases hfind : (recentFiles.filter fun it => keep cooldownSeconds e.time it.time).find?
      fun it => it.key = e.key with
  | some it =>
      rw [Cooldown.visit]
      simp only [hfind, young, decide_eq_true_eq]
      simp only [keep] at hfind
      simp only [isRecentlySeen, hfind, keep, setRecent]
  | none =>
      rw [Cooldown.visit]
      simp only [hfind]
      simp only [keep] at hfind
      simp only [isRecentlySeen, hfind, keep, setRecent]

/-- The same without dropping anything. -/
def isRecentlySeenUnpruned (cooldownSeconds : Int) :
    List Upload → Upload → Bool × List Upload :=
  Cooldown.visit (young cooldownSeconds) fun _ _ => true

/-- The cooldown in nanoseconds. -/
def nanoseconds (cooldownSeconds : Int) : Int := cooldownSeconds * 1000000000

/-- An upload is suppressed exactly if an upload of its path was accepted less than the cooldown
before it, so that accepted uploads of a path lie apart; and nothing that is dropped matters. -/
structure PerPathCooldown (cooldownSeconds : Int) (events : List Upload) : Prop where
  suppressed : Cooldown.decisions (isRecentlySeen cooldownSeconds) [] events =
    Cooldown.decisions (Cooldown.history (nanoseconds cooldownSeconds)) [] events
  apart : (Cooldown.accepted (isRecentlySeen cooldownSeconds) [] events).Pairwise fun a b =>
    a.key = b.key → nanoseconds cooldownSeconds ≤ b.time - a.time
  unpruned : Cooldown.decisions (isRecentlySeen cooldownSeconds) [] events =
    Cooldown.decisions (isRecentlySeenUnpruned cooldownSeconds) [] events

/-- No two uploads of a path are less than the cooldown apart. -/
def PathsApart (cooldownSeconds : Int) (events : List Upload) : Prop :=
  events.Pairwise fun a b => a.key = b.key → nanoseconds cooldownSeconds ≤ b.time - a.time

instance (cooldownSeconds : Int) (events : List Upload) :
    Decidable (PathsApart cooldownSeconds events) :=
  inferInstanceAs (Decidable (events.Pairwise _))

section

variable {cooldownSeconds : Int} {events : List Upload}

theorem young_iff {now t : Int} (h : t ≤ now) :
    young cooldownSeconds now t = true ↔ now - t < nanoseconds cooldownSeconds := by
  rw [young, secondsBetween, nanoseconds, decide_eq_true_eq,
    Int.tdiv_eq_ediv_of_nonneg (Int.sub_nonneg_of_le h)]
  omega

/-- As long as the product does not wrap around, what is dropped is too old to matter. -/
theorem rules (hc : cooldownSeconds < 2 ^ 30) : Cooldown.Rules (nanoseconds cooldownSeconds)
    (young cooldownSeconds) (keep cooldownSeconds) where
  young_iff := young_iff
  keep_of_young := by
    intro now t hle hyoung
    rw [nanoseconds] at hyoung
    rw [keep, secondsBetween, doubled, Int.tdiv_eq_ediv_of_nonneg (Int.sub_nonneg_of_le hle)]
    rw [Bool.not_eq_true', decide_eq_false_iff_not]
    omega

variable (cooldownSeconds) in
theorem rules_unpruned :
    Cooldown.Rules (nanoseconds cooldownSeconds) (young cooldownSeconds) fun _ _ => true where
  young_iff := young_iff
  keep_of_young _ _ := rfl

/-- What the table holds while the uploads still to come are later. -/
def Earlier (recent events : List Upload) : Prop :=
  (∀ a ∈ recent, ∀ b ∈ events, a.time ≤ b.time) ∧ events.Pairwise fun a b => a.time ≤ b.time

/-- A negative limit drops everything, so that nothing is suppressed. -/
theorem accepted_of_wrapped (hc : 2 ^ 30 ≤ cooldownSeconds) (hint : IsInt32 cooldownSeconds)
    (hordered : events.Pairwise fun a b => a.time ≤ b.time) :
    Cooldown.accepted (isRecentlySeen cooldownSeconds) [] events = events := by
  have hdropped {now t : Int} (h : t ≤ now) : keep cooldownSeconds now t = false := by
    rw [keep, secondsBetween, doubled, Int.tdiv_eq_ediv_of_nonneg (Int.sub_nonneg_of_le h),
      Bool.not_eq_false', decide_eq_true_eq]
    omega
  have hearlier : Earlier [] events := ⟨List.forall_mem_nil _, hordered⟩
  refine (Cooldown.run_of_free Earlier ?_ hearlier).2
  rintro recent v vs ⟨hrecent, hvs⟩
  rw [List.pairwise_cons] at hvs
  have hnone : ∀ a ∈ recent, keep cooldownSeconds v.time a.time = true → a.key = v.key →
      young cooldownSeconds v.time a.time = false := by
    intro a ha hkeep
    rw [hdropped (hrecent a ha v List.mem_cons_self)] at hkeep
    cases hkeep
  obtain ⟨hfree, hmem⟩ := Cooldown.visit_of_free hnone
  rw [isRecentlySeen_eq]
  refine ⟨hfree, fun a ha b hb => ?_, hvs.2⟩
  rcases hmem a ha with rfl | ha
  · exact hvs.1 b hb
  · exact hrecent a ha b (List.mem_cons_of_mem _ hb)

/-- The table holds earlier uploads, none of which is close to one of its path. -/
def Apart (cooldownSeconds : Int) (recent events : List Upload) : Prop :=
  Earlier recent events ∧ PathsApart cooldownSeconds events ∧
    ∀ a ∈ recent, ∀ b ∈ events, a.key = b.key → nanoseconds cooldownSeconds ≤ b.time - a.time

theorem Apart.tail {recent recent' : List Upload} {v : Upload}
    (h : Apart cooldownSeconds recent (v :: events))
    (hmem : ∀ a ∈ recent', a = v ∨ a ∈ recent) : Apart cooldownSeconds recent' events := by
  obtain ⟨⟨hearlier, hordered⟩, hpaths, hapart⟩ := h
  rw [PathsApart, List.pairwise_cons] at hpaths
  rw [List.pairwise_cons] at hordered
  refine ⟨⟨fun a ha b hb => ?_, hordered.2⟩, hpaths.2, fun a ha b hb => ?_⟩
  · rcases hmem a ha with rfl | ha
    · exact hordered.1 b hb
    · exact hearlier a ha b (List.mem_cons_of_mem _ hb)
  · rcases hmem a ha with rfl | ha
    · exact hpaths.1 b hb
    · exact hapart a ha b (List.mem_cons_of_mem _ hb)

/-- Whatever the table drops, it does not suppress uploads that lie apart. -/
theorem visit_of_apart (hordered : events.Pairwise fun a b => a.time ≤ b.time)
    (h : PathsApart cooldownSeconds events) (kept : Int → Int → Bool) :
    Cooldown.decisions (Cooldown.visit (young cooldownSeconds) kept) [] events =
        events.map (fun _ => false) ∧
      Cooldown.accepted (Cooldown.visit (young cooldownSeconds) kept) [] events = events := by
  have hapart : Apart cooldownSeconds [] events :=
    ⟨⟨List.forall_mem_nil _, hordered⟩, h, List.forall_mem_nil _⟩
  refine Cooldown.run_of_free (Apart cooldownSeconds) ?_ hapart
  intro recent v vs hinv
  have hold : ∀ a ∈ recent, kept v.time a.time = true → a.key = v.key →
      young cooldownSeconds v.time a.time = false := by
    intro a ha _ hkey
    have hle := hinv.1.1 a ha v List.mem_cons_self
    have hfar := hinv.2.2 a ha v List.mem_cons_self hkey
    rw [Bool.eq_false_iff, ne_eq, young_iff hle]
    omega
  obtain ⟨hfree, hmem⟩ := Cooldown.visit_of_free hold
  exact ⟨hfree, hinv.tail hmem⟩

theorem history_of_apart (hordered : events.Pairwise fun a b => a.time ≤ b.time)
    (h : PathsApart cooldownSeconds events) :
    Cooldown.decisions (Cooldown.history (nanoseconds cooldownSeconds)) [] events =
      events.map (fun _ => false) := by
  have hapart : Apart cooldownSeconds [] events :=
    ⟨⟨List.forall_mem_nil _, hordered⟩, h, List.forall_mem_nil _⟩
  refine (Cooldown.run_of_free (Apart cooldownSeconds) ?_ hapart).1
  intro past v vs hinv
  have hfree : ¬ Cooldown.Suppressed (nanoseconds cooldownSeconds) past v := by
    rintro ⟨a, ha, hkey, hclose⟩
    have hfar := hinv.2.2 a ha v List.mem_cons_self hkey
    omega
  rw [Cooldown.history, if_neg hfree]
  exact ⟨rfl, hinv.tail fun a ha => List.mem_cons.mp ha⟩

/-- For uploads in the order of time, the cooldown is one exactly if twice the cooldown fits
an `int`, or there is nothing to suppress. -/
theorem perPathCooldown_iff (hint : IsInt32 cooldownSeconds)
    (hordered : events.Pairwise fun a b => a.time ≤ b.time) :
    PerPathCooldown cooldownSeconds events ↔
      cooldownSeconds < 2 ^ 30 ∨ PathsApart cooldownSeconds events := by
  constructor
  · intro h
    refine or_iff_not_imp_left.mpr fun hlarge => ?_
    have hall := h.apart
    rwa [accepted_of_wrapped (by omega) hint hordered] at hall
  · rintro (hc | hapart)
    · obtain ⟨hdecisions, haccepted⟩ := Cooldown.decisions_visit (rules hc) hordered
      have hunpruned := (Cooldown.decisions_visit (rules_unpruned cooldownSeconds) hordered).1
      rw [← isRecentlySeen_eq] at hdecisions haccepted
      refine ⟨hdecisions, ?_, hdecisions.trans hunpruned.symm⟩
      rw [haccepted]
      exact Cooldown.accepted_history_apart
    · obtain ⟨hdecisions, haccepted⟩ := visit_of_apart hordered hapart (keep cooldownSeconds)
      have hunpruned := (visit_of_apart hordered hapart fun _ _ => true).1
      rw [← isRecentlySeen_eq] at hdecisions haccepted
      refine ⟨hdecisions.trans (history_of_apart hordered hapart).symm, ?_,
        hdecisions.trans hunpruned.symm⟩
      rw [haccepted]
      exact hapart

end

section examples

/-- A file that the browser reads twice within a second. -/
private def readTwice : List Upload := [⟨str "C:\\plan.txt", 0⟩, ⟨str "C:\\plan.txt", 999999999⟩]

theorem perPathCooldown_thirty : PerPathCooldown 30 readTwice :=
  (perPathCooldown_iff (by decide) (by decide)).mpr (.inl (by decide))

/-- With a cooldown of 34 years the file is scanned again at once. -/
theorem not_perPathCooldown_wrapped :
    ¬ ∀ cooldownSeconds events, IsInt32 cooldownSeconds →
      (events.Pairwise fun a b => a.time ≤ b.time) → PerPathCooldown cooldownSeconds events := by
  intro h
  have hexact := (h 1073741824 readTwice (by decide) (by decide)).suppressed
  exact absurd hexact (by decide)

end examples

end BrowserUploadMonitor

end AkesoDlp.Agent
