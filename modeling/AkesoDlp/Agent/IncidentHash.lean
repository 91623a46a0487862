import AkesoDlp.Agent.IncidentQueue
import AkesoDlp.Agent.StdInt
import AkesoDlp.Lib.Lists

/-!
# Which incidents the queue takes for duplicates

`ComputeHash` hashes seven fields with a bar between each two. Two incidents
have the same hash exactly when their fields fall into the same pieces at the
bars, those between the fields and those in them.
-/

namespace AkesoDlp.Agent

open Lib

/-- The fields of the hash, as text. -/
def QueuedIncident.hashedFields (i : QueuedIncident) : List StdString :=
  [i.policyName, i.fileName, i.filePath, i.user, str (toString i.matchCount), i.channel,
    i.actionTaken]

/-- Each field cut at its bars. -/
def QueuedIncident.pieces (i : QueuedIncident) : List StdString :=
  i.hashedFields.flatMap fun field => field.splitOn 124

theorem blob_eq_intercalate (i : QueuedIncident) : i.blob = [124].intercalate i.hashedFields := by
  have hbar : str "|" = [124] := by decide
  simp [QueuedIncident.blob, QueuedIncident.hashedFields, hbar, List.intercalate_cons_cons]

theorem blob_eq_iff {a b : QueuedIncident} : a.blob = b.blob ↔ a.pieces = b.pieces := by
  rw [blob_eq_intercalate, blob_eq_intercalate]
  exact intercalate_eq_iff 124 (List.cons_ne_nil _ _) (List.cons_ne_nil _ _)

/-- Storing `a` never makes the queue refuse `b`: neither right away nor when
only some of the rows are left. -/
def NeverSuppresses (sha256 : StdString → StdString) (a b : QueuedIncident) : Prop :=
  ∀ (q q' : IncidentQueue) (env env' : QueueEnv), env.sha256 = sha256 → env'.sha256 = sha256 →
    (q.enqueue env a).1 = true → (q.enqueue env' b).1 = true → q'.isOpen = true →
    q'.rows.map (·.hash) ⊆ (q.enqueue env a).2.rows.map (·.hash) →
    (q'.enqueue env' b).1 = true

namespace IncidentQueue

variable {q : IncidentQueue} {env : QueueEnv} {i : QueuedIncident}

theorem isDuplicate_iff {hash : StdString} :
    q.isDuplicate hash = true ↔ cStr hash ∈ q.rows.map (·.hash) := by
  simp [isDuplicate]

/-- `Enqueue` accepts what is not in the table. -/
theorem enqueue_true_iff :
    (q.enqueue env i).1 = true ↔
      q.isOpen = true ∧ cStr (computeHash env i) ∉ q.rows.map (·.hash) := by
  rw [← isDuplicate_iff]
  unfold enqueue
  cases q.isOpen with
  | false => simp
  | true => cases q.isDuplicate (computeHash env i) <;> simp

/-- After that the table has the new hash and otherwise old ones. -/
theorem hashes_enqueue (h : (q.enqueue env i).1 = true) :
    cStr (computeHash env i) ∈ (q.enqueue env i).2.rows.map (·.hash) ∧
    ∀ hash ∈ (q.enqueue env i).2.rows.map (·.hash),
      hash ∈ q.rows.map (·.hash) ∨ hash = cStr (computeHash env i) := by
  obtain ⟨hopen, hnew⟩ := enqueue_true_iff.mp h
  have hduplicate : q.isDuplicate (computeHash env i) = false :=
    Bool.eq_false_iff.mpr fun hdup => hnew (isDuplicate_iff.mp hdup)
  unfold enqueue
  simp only [hopen, hduplicate, Bool.not_true, Bool.false_eq_true, if_false, List.map_append,
    List.map_cons, List.map_nil, List.mem_append, List.mem_singleton]
  refine ⟨.inr rfl, ?_⟩
  rintro hash (hold | hnewest)
  · refine .inl ?_
    split at hold
    · exact (List.filter_sublist.map _).subset hold
    · exact hold
  · exact .inr hnewest

end IncidentQueue

/-- Exactly when two incidents are kept apart, for a hash that keeps the texts of
the two apart and is written in hex digits. -/
theorem neverSuppresses_iff {sha256 : StdString → StdString} {a b : QueuedIncident}
    (hinj : sha256 a.blob = sha256 b.blob → a.blob = b.blob) (hhex : ∀ text, 0 ∉ sha256 text) :
    NeverSuppresses sha256 a b ↔ a.pieces ≠ b.pieces := by
  rw [ne_eq, ← blob_eq_iff]
  constructor
  · -- with one text, `b` is refused by an empty queue that has taken `a`
    intro hnever heq
    let env : QueueEnv := { QueueEnv.fallback 0 with sha256 := sha256 }
    let q : IncidentQueue := { isOpen := true }
    have haccepts : ∀ i, (q.enqueue env i).1 = true :=
      fun i => IncidentQueue.enqueue_true_iff.mpr ⟨rfl, List.not_mem_nil⟩
    have hstored := (IncidentQueue.hashes_enqueue (haccepts a)).1
    have hfresh := hnever q (q.enqueue env a).2 env env rfl rfl (haccepts a) (haccepts b) rfl
      (List.Subset.refl _)
    refine (IncidentQueue.enqueue_true_iff.mp hfresh).2 ?_
    have hhash : computeHash env b = computeHash env a := congrArg sha256 heq.symm
    rw [hhash]
    exact hstored
  · intro hne q q' env env' henv henv' ha hb hopen hrows
    rw [IncidentQueue.enqueue_true_iff] at hb ⊢
    refine ⟨hopen, fun hmem => ?_⟩
    -- the row in the way is an old one or that of `a`
    obtain hold | hnew := (IncidentQueue.hashes_enqueue ha).2 _ (hrows hmem)
    · exact hb.2 hold
    · unfold computeHash at hnew
      rw [henv, henv', cStr_eq_self (hhex _), cStr_eq_self (hhex _)] at hnew
      exact hne (hinj hnew.symm)

/-! ## Texts without bars -/

/-- The seven fields are those of the other incident. -/
def QueuedIncident.SameFields (a b : QueuedIncident) : Prop :=
  a.policyName = b.policyName ∧ a.fileName = b.fileName ∧ a.filePath = b.filePath ∧
    a.user = b.user ∧ a.matchCount = b.matchCount ∧ a.channel = b.channel ∧
    a.actionTaken = b.actionTaken

theorem sameFields_iff {a b : QueuedIncident} :
    a.SameFields b ↔ a.hashedFields = b.hashedFields := by
  have hcount : str (toString a.matchCount) = str (toString b.matchCount) ↔
      a.matchCount = b.matchCount := str_injective.eq_iff.trans toString_int_injective.eq_iff
  simp only [QueuedIncident.SameFields, QueuedIncident.hashedFields, List.cons.injEq, hcount,
    and_true]

/-- If no field but the last has a bar, different fields are different pieces. -/
theorem pieces_ne_of_no_bar {a b : QueuedIncident}
    (ha : ∀ field ∈ a.hashedFields.dropLast, 124 ∉ field)
    (hb : ∀ field ∈ b.hashedFields.dropLast, 124 ∉ field) (h : ¬ a.SameFields b) :
    a.pieces ≠ b.pieces := by
  have hpieces : ∀ i : QueuedIncident, (∀ field ∈ i.hashedFields.dropLast, 124 ∉ field) →
      i.pieces = i.hashedFields.dropLast ++ i.actionTaken.splitOn 124 := by
    intro i hi
    have hsingle : (i.hashedFields.dropLast.flatMap fun field => field.splitOn 124) =
        i.hashedFields.dropLast.flatMap fun field => [field] :=
      List.flatMap_congr fun field hfield => List.splitOn_eq_singleton (hi field hfield)
    rw [QueuedIncident.pieces, ← List.flatMap_singleton' i.hashedFields.dropLast, ← hsingle]
    simp [QueuedIncident.hashedFields]
  intro heq
  rw [hpieces a ha, hpieces b hb] at heq
  obtain ⟨hfields, hlast⟩ := List.append_inj heq rfl
  have haction := congrArg [124].intercalate hlast
  rw [List.intercalate_splitOn, List.intercalate_splitOn] at haction
  refine h (sameFields_iff.mpr ?_)
  have hsplit : ∀ i : QueuedIncident, i.hashedFields = i.hashedFields.dropLast ++ [i.actionTaken] :=
    fun i => rfl
  rw [hsplit a, hsplit b, hfields, haction]

/-! ## A bar in a policy's name -/

theorem hexDigit_ne_zero (n : UInt64) : hexDigit (n &&& 15) ≠ 0 := by
  have hdigit : ∀ k < 16, hexDigit (UInt64.ofNat k) ≠ 0 := by decide
  have hsmall : (n &&& 15).toNat < 16 := by
    rw [UInt64.toNat_and]
    exact Nat.lt_succ_of_le Nat.and_le_right
  have hne := hdigit _ hsmall
  rwa [UInt64.ofNat_toNat] at hne

theorem zero_notMem_djb2 (text : StdString) : 0 ∉ djb2 text := by
  intro hmem
  obtain ⟨i, -, hi⟩ := List.mem_map.mp hmem
  exact hexDigit_ne_zero _ hi

def pciIncident : QueuedIncident where
  policyName := str "PCI"
  fileName := str "a.txt"
  filePath := str "/share/a.txt"
  user := str "alice"
  matchCount := 1
  channel := str "discover"
  actionTaken := str "log"

theorem neverSuppresses_bob :
    NeverSuppresses djb2 pciIncident { pciIncident with user := str "bob" } :=
  (neverSuppresses_iff (by decide +kernel) zero_notMem_djb2).mpr (by decide)

/-- The incident of policy `PCI|HR` for `a.txt`, and that of policy `PCI` for `HR|a.txt`. -/
theorem not_neverSuppresses_bar :
    ¬ NeverSuppresses djb2 { pciIncident with policyName := str "PCI|HR" }
      { pciIncident with fileName := str "HR|a.txt" } := by
  intro hnever
  refine (neverSuppresses_iff (fun _ => ?_) zero_notMem_djb2).mp hnever ?_ <;> decide

end AkesoDlp.Agent
