import AkesoDlp.Agent.StdInt
import Mathlib.Logic.Function.Basic
import Mathlib.Data.List.Nodup
import Mathlib.Data.List.Perm.Subperm

/-!
# The policy cache

`PolicyCache` over an open SQLite database with the tables `policies` and
`metadata`. Any statement of `StorePolicies` can fail. A failing statement has
no effect and leaves the transaction open, or it undoes the transaction, as with
SQLITE_FULL or SQLITE_IOERR; then the statements after it commit on their own, and
COMMIT has nothing to end. The protobuf classes are a parameter: what is serialized
is parsed back, and a definition with an id takes at least one byte.
-/

namespace AkesoDlp.Agent

/-- What the cache uses of `akesodlp::PolicyDefinition`. -/
structure PolicyCodec (P : Type*) where
  policyId : P → StdString
  name : P → StdString
  serializeToString : P → Option (List UInt8)
  parseFromArray : List UInt8 → Option P
  parse_serialize : ∀ p bytes, serializeToString p = some bytes → parseFromArray bytes = some p
  serialize_ne_nil : ∀ p bytes, policyId p ≠ [] → serializeToString p = some bytes → bytes ≠ []

/-- A row of `policies`; `policy_id` is the primary key. -/
structure CachedPolicy where
  policyId : StdString
  name : StdString
  data : List UInt8
deriving DecidableEq, Repr

/-- The database. -/
structure CacheDb where
  policies : List CachedPolicy
  metadata : StdString → Option StdString

inductive Fault
  | works
  | fails
  /-- The statement fails, and the transaction with it. -/
  | undoes
deriving DecidableEq, Repr

/-- Which statements of one call fail. -/
structure StoreFaults where
  begin : Bool
  delete : Fault
  prepareInsert : Bool
  /-- The INSERT of the `i`-th policy. -/
  insert : Nat → Fault
  writeVersion : Fault
  writeLastSync : Fault
  commit : Bool

/-- The database as the connection sees it, and what it was before BEGIN; `none` without
a transaction. -/
structure Connection where
  db : CacheDb
  before : Option CacheDb

namespace Connection

/-- ROLLBACK, which fails without a transaction. -/
def rollback (c : Connection) : Connection := ⟨c.before.getD c.db, none⟩

def statement (c : Connection) (fault : Fault) (effect : CacheDb → CacheDb) : Connection :=
  match fault with
  | .works => { c with db := effect c.db }
  | .fails => c
  | .undoes => c.rollback

end Connection

variable {P : Type*} (codec : PolicyCodec P)

/-- INSERT OR REPLACE. -/
def CacheDb.put (db : CacheDb) (key value : StdString) : CacheDb :=
  { db with metadata := Function.update db.metadata (cStr key) (some (cStr value)) }

/-- `SetMetadata`. -/
def setMetadata (fault : Fault) (c : Connection) (key value : StdString) : Connection :=
  c.statement fault (·.put key value)

/-- `GetMetadata`: empty when there is no such key. -/
def getMetadata (db : CacheDb) (key : StdString) : StdString :=
  ((db.metadata (cStr key)).map cStr).getD []

/-- `GetVersion`. -/
def getVersion (db : CacheDb) : Int :=
  let val := getMetadata db (str "policy_version")
  if val = [] then 0 else (stoi val).getD 0

/-- `LoadPolicies`: rows with an empty blob or one that does not parse are
skipped. -/
def loadPolicies (db : CacheDb) : List P :=
  db.policies.filterMap fun row => if row.data = [] then none else codec.parseFromArray row.data

/-- One INSERT: it fails on its own or on the primary key. -/
def insertPolicy (fault : Fault) (c : Connection) (p : P) : Connection :=
  match codec.serializeToString p with
  | none => c
  | some data =>
      let row := ⟨cStr (codec.policyId p), cStr (codec.name p), data⟩
      c.statement fault fun db =>
        if db.policies.any fun r => r.policyId == row.policyId then db
        else { db with policies := db.policies ++ [row] }

/-- The loop over the policies: a failed INSERT is logged and passed over. -/
def insertPolicies (faults : Nat → Fault) : Connection → List P → Connection
  | c, [] => c
  | c, p :: ps =>
      insertPolicies (fun i => faults (i + 1)) (insertPolicy codec (faults 0) c p) ps

/-- `StorePolicies`: its result and the database it leaves. -/
def storePolicies (faults : StoreFaults) (lastSync : StdString) (db : CacheDb) (version : Int)
    (ps : List P) : Bool × CacheDb :=
  if faults.begin then (false, db)
  else
    let c := Connection.statement ⟨db, some db⟩ faults.delete fun db => { db with policies := [] }
    if faults.delete ≠ .works then (false, c.rollback.db)
    else if faults.prepareInsert then (false, c.rollback.db)
    else
      let c := insertPolicies codec faults.insert c ps
      -- the results of both writes are ignored
      let c := setMetadata faults.writeVersion c (str "policy_version") (toStdString version)
      let c := setMetadata faults.writeLastSync c (str "last_sync") lastSync
      -- COMMIT fails without a transaction
      if faults.commit || c.before.isNone then (false, c.rollback.db) else (true, c.db)

/-- The call kept everything and said no, or stored exactly the new policies and
version and said yes. -/
def AllOrNothing (db : CacheDb) (version : Int) (ps : List P) (result : Bool × CacheDb) : Prop :=
  (result.1 = false ∧ (∀ p, p ∈ loadPolicies codec result.2 ↔ p ∈ loadPolicies codec db) ∧
    getVersion result.2 = getVersion db) ∨
  (result.1 = true ∧ (∀ p, p ∈ loadPolicies codec result.2 ↔ p ∈ ps) ∧
    getVersion result.2 = version)

/-! ## What the INSERTs leave -/

variable {codec}

/-- The key that an INSERT binds. -/
def PolicyCodec.key (codec : PolicyCodec P) (p : P) : StdString := cStr (codec.policyId p)

/-- The row that an INSERT adds. -/
def PolicyCodec.row (codec : PolicyCodec P) (p : P) : CachedPolicy :=
  ⟨codec.key p, cStr (codec.name p), (codec.serializeToString p).getD []⟩

/-- The policies whose INSERT takes effect, over a table with the keys `keys`. -/
def kept (codec : PolicyCodec P) (faults : Nat → Fault) (keys : List StdString) :
    List P → List P
  | [] => []
  | p :: ps =>
      if faults 0 ≠ .works ∨ codec.key p ∈ keys then kept codec (fun i => faults (i + 1)) keys ps
      else p :: kept codec (fun i => faults (i + 1)) (keys ++ [codec.key p]) ps

variable (codec) in
theorem kept_sublist (faults : Nat → Fault) (keys : List StdString) (ps : List P) :
    (kept codec faults keys ps).Sublist ps := by
  induction ps generalizing faults keys with
  | nil => exact List.Sublist.slnil
  | cons p ps ih =>
      rw [kept]
      split
      · exact (ih _ _).cons p
      · exact (ih _ _).cons_cons p

theorem key_notMem_of_mem_kept {faults : Nat → Fault} {keys : List StdString} {ps : List P} {p : P}
    (h : p ∈ kept codec faults keys ps) : codec.key p ∉ keys := by
  induction ps generalizing faults keys with
  | nil => cases h
  | cons q ps ih =>
      rw [kept] at h
      split at h
      · exact ih h
      · next hnot =>
        rcases List.mem_cons.mp h with rfl | h
        · exact (not_or.mp hnot).2
        · exact fun hkey => ih h (List.mem_append_left _ hkey)

theorem forall_lt_succ_length {q : Nat → Prop} {p : P} {ps : List P} :
    (∀ i < (p :: ps).length, q i) ↔ q 0 ∧ ∀ i < ps.length, q (i + 1) := by
  rw [List.length_cons, Nat.forall_lt_succ_left]

/-- All INSERTs take effect when none fails and the keys are new and distinct. -/
theorem kept_eq_self_iff (faults : Nat → Fault) (keys : List StdString) (ps : List P) :
    kept codec faults keys ps = ps ↔
      (∀ i < ps.length, faults i = .works) ∧ (ps.map codec.key).Nodup ∧
        ∀ p ∈ ps, codec.key p ∉ keys := by
  induction ps generalizing faults keys with
  | nil => simp [kept]
  | cons p ps ih =>
      rw [kept, forall_lt_succ_length, List.map_cons, List.nodup_cons, List.forall_mem_cons]
      by_cases hskip : faults 0 ≠ .works ∨ codec.key p ∈ keys
      · -- the policy is passed over, and the list is shorter than it should be
        rw [if_pos hskip]
        refine iff_of_false (fun heq => ?_) ?_
        · have hlen := (kept_sublist codec (fun i => faults (i + 1)) keys ps).length_le
          rw [heq, List.length_cons] at hlen
          omega
        · rintro ⟨⟨hworks, -⟩, -, hkey, -⟩
          exact hskip.elim (absurd hworks) hkey
      · rw [if_neg hskip, List.cons.injEq, ih]
        obtain ⟨hworks, hkey⟩ := not_or.mp hskip
        rw [not_not] at hworks
        simp only [true_and, hworks, hkey, not_false_eq_true, List.mem_append, List.mem_singleton,
          not_or, List.mem_map, not_exists, not_and, forall_and]
        tauto

/-- No INSERT takes effect when each fails or finds its key. -/
theorem kept_eq_nil_iff (faults : Nat → Fault) (keys : List StdString) (ps : List P) :
    kept codec faults keys ps = [] ↔
      ∀ j p, ps[j]? = some p → faults j ≠ .works ∨ codec.key p ∈ keys := by
  induction ps generalizing faults with
  | nil => simp [kept]
  | cons p ps ih =>
      rw [kept]
      constructor
      · intro h j q hj
        split at h
        · next hskip =>
          cases j with
          | zero =>
              obtain rfl := Option.some.inj hj
              exact hskip
          | succ j => exact (ih _).mp h j q hj
        · cases h
      · intro h
        rw [if_pos (h 0 p rfl)]
        exact (ih _).mpr fun j q hj => h (j + 1) q hj

/-- The rows that the INSERTs add. -/
def CacheDb.add (db : CacheDb) (rows : List CachedPolicy) : CacheDb :=
  { db with policies := db.policies ++ rows }

def CacheDb.keys (db : CacheDb) : List StdString := db.policies.map (·.policyId)

theorem insertPolicy_eq {fault : Fault} {c : Connection} {p : P}
    (hser : (codec.serializeToString p).isSome = true) :
    insertPolicy codec fault c p = c.statement fault fun db =>
      if codec.key p ∈ db.keys then db else db.add [codec.row p] := by
  obtain ⟨data, hdata⟩ := Option.isSome_iff_exists.mp hser
  have hrow : (⟨cStr (codec.policyId p), cStr (codec.name p), data⟩ : CachedPolicy) =
      codec.row p := by
    simp [PolicyCodec.row, PolicyCodec.key, hdata]
  have hany : ∀ db : CacheDb, (db.policies.any fun r => r.policyId == codec.key p) = true ↔
      codec.key p ∈ db.keys := by
    intro db
    rw [List.any_eq_true, CacheDb.keys, List.mem_map]
    simp only [beq_iff_eq]
  simp only [insertPolicy, hdata, hrow]
  congr 1
  funext db
  exact if_congr (hany db) rfl rfl

/-- The loop where no failure undoes a transaction. -/
theorem insertPolicies_eq {faults : Nat → Fault} {c : Connection} {ps : List P}
    (hser : ∀ p ∈ ps, (codec.serializeToString p).isSome = true)
    (h : c.before = none ∨ ∀ i < ps.length, faults i ≠ .undoes) :
    insertPolicies codec faults c ps =
      { c with db := c.db.add ((kept codec faults c.db.keys ps).map codec.row) } := by
  induction ps generalizing faults c with
  | nil => simp [insertPolicies, kept, CacheDb.add]
  | cons p ps ih =>
      rw [List.forall_mem_cons] at hser
      rw [forall_lt_succ_length] at h
      rw [insertPolicies, insertPolicy_eq hser.1, kept]
      -- without a transaction there is nothing to undo
      have hskip : faults 0 ≠ .works → c.statement (faults 0) (fun db =>
          if codec.key p ∈ db.keys then db else db.add [codec.row p]) = c := by
        intro hne
        cases hfault : faults 0 with
        | works => exact absurd hfault hne
        | fails => rfl
        | undoes =>
            have hnone : c.before = none := h.resolve_right fun hall => hall.1 hfault
            obtain ⟨db, before⟩ := c
            obtain rfl : before = none := hnone
            rfl
      by_cases hworks : faults 0 = .works
      · by_cases hkey : codec.key p ∈ c.db.keys
        · rw [if_pos (.inr hkey), hworks, Connection.statement, if_pos hkey]
          exact ih hser.2 (h.imp_right And.right)
        · have hnew : ¬ (faults 0 ≠ .works ∨ codec.key p ∈ c.db.keys) :=
            not_or.mpr ⟨not_not.mpr hworks, hkey⟩
          have hrest := ih (c := { c with db := c.db.add [codec.row p] }) hser.2
            (h.imp_right And.right)
          rw [if_neg hnew, hworks, Connection.statement, if_neg hkey, hrest]
          simp [CacheDb.add, CacheDb.keys, PolicyCodec.row]
      · rw [if_pos (.inl hworks), hskip hworks]
        exact ih hser.2 (h.imp_right And.right)

/-- The first INSERT whose failure undoes the transaction, and the loop after it. -/
theorem insertPolicies_undone {faults : Nat → Fault} {c : Connection} {before : CacheDb}
    {ps : List P} (hser : ∀ p ∈ ps, (codec.serializeToString p).isSome = true)
    (hbefore : c.before = some before) (h : ∃ i < ps.length, faults i = .undoes) :
    ∃ k, faults k = .undoes ∧ (∀ i < k, faults i ≠ .undoes) ∧
      insertPolicies codec faults c ps =
        insertPolicies codec (fun i => faults (i + (k + 1))) ⟨before, none⟩ (ps.drop (k + 1)) := by
  induction ps generalizing faults c with
  | nil =>
      obtain ⟨i, hi, -⟩ := h
      cases hi
  | cons p ps ih =>
      rw [List.forall_mem_cons] at hser
      rw [insertPolicies, insertPolicy_eq hser.1]
      by_cases hundoes : faults 0 = .undoes
      · refine ⟨0, hundoes, fun i hi => absurd hi (Nat.not_lt_zero i), ?_⟩
        rw [hundoes, Connection.statement, Connection.rollback, hbefore]
        rfl
      · obtain ⟨i, hi, hfault⟩ := h
        cases i with
        | zero => exact absurd hfault hundoes
        | succ i =>
            have hstays : (c.statement (faults 0) fun db =>
                if codec.key p ∈ db.keys then db else db.add [codec.row p]).before =
                  some before := by
              cases hfirst : faults 0 with
              | works => exact hbefore
              | fails => exact hbefore
              | undoes => exact absurd hfirst hundoes
            obtain ⟨k, hk, hfirst, heq⟩ := @ih (fun i => faults (i + 1)) _ hser.2 hstays
              ⟨i, Nat.lt_of_succ_lt_succ hi, hfault⟩
            refine ⟨k + 1, hk, fun i hi => ?_, heq⟩
            cases i with
            | zero => exact hundoes
            | succ i => exact hfirst i (Nat.lt_of_succ_lt_succ hi)

/-- Rows of serializable policies with ids load as these policies. -/
theorem loadPolicies_map_row {ps : List P} (metadata : StdString → Option StdString)
    (hser : ∀ p ∈ ps, (codec.serializeToString p).isSome = true)
    (hid : ∀ p ∈ ps, codec.policyId p ≠ []) :
    loadPolicies codec ⟨ps.map codec.row, metadata⟩ = ps := by
  induction ps with
  | nil => rfl
  | cons p ps ih =>
      rw [List.forall_mem_cons] at hser hid
      obtain ⟨data, hdata⟩ := Option.isSome_iff_exists.mp hser.1
      have hne := codec.serialize_ne_nil p data hid.1 hdata
      have hparse := codec.parse_serialize p data hdata
      have ih := ih hser.2 hid.2
      simp only [loadPolicies] at ih ⊢
      simp [PolicyCodec.row, hdata, hne, hparse, ih]

theorem loadPolicies_add (db : CacheDb) (rows : List CachedPolicy) :
    loadPolicies codec (db.add rows) =
      loadPolicies codec db ++ loadPolicies codec ⟨rows, db.metadata⟩ :=
  List.filterMap_append ..

/-! ## The version -/

theorem zero_notMem_toStdString (n : Int) : 0 ∉ toStdString n := by
  have hdigits : 0 ∉ decimal n.natAbs := fun h => by
    have := isDigit_of_mem_decimal 0 h
    revert this
    decide
  rw [toStdString]
  split
  · rw [List.mem_cons, not_or]
    exact ⟨by decide, hdigits⟩
  · exact hdigits

theorem toStdString_ne_nil (n : Int) : toStdString n ≠ [] := by
  rw [toStdString]
  split
  · exact List.cons_ne_nil _ _
  · exact decimal_ne_nil _

theorem getMetadata_put_of_ne {db : CacheDb} {key key' value : StdString}
    (h : cStr key' ≠ cStr key) : getMetadata (db.put key value) key' = getMetadata db key' := by
  simp [getMetadata, CacheDb.put, Function.update_of_ne h]

theorem getMetadata_put {db : CacheDb} {key value : StdString} :
    getMetadata (db.put key value) key = cStr value := by
  simp [getMetadata, CacheDb.put]

/-- Writing the time of the sync leaves the version alone. -/
theorem getVersion_put_lastSync {db : CacheDb} {value : StdString} :
    getVersion (db.put (str "last_sync") value) = getVersion db := by
  rw [getVersion, getMetadata_put_of_ne (by decide), getVersion]

theorem getVersion_put_version {db : CacheDb} {version : Int} (h : IsInt32 version) :
    getVersion (db.put (str "policy_version") (toStdString version)) = version := by
  rw [getVersion, getMetadata_put, cStr_eq_self (zero_notMem_toStdString version),
    if_neg (toStdString_ne_nil version), stoi_toStdString h, Option.getD_some]

/-- The two writes after the loop. -/
def writeMetadata (faults : StoreFaults) (lastSync : StdString) (version : Int) (c : Connection) :
    Connection :=
  setMetadata faults.writeLastSync
    (setMetadata faults.writeVersion c (str "policy_version") (toStdString version))
    (str "last_sync") lastSync

variable {faults : StoreFaults} {lastSync : StdString} {version : Int} {c : Connection}
  {db : CacheDb} {ps : List P}

/-- A statement where no failure undoes a transaction. -/
theorem statement_eq {fault : Fault} {effect : CacheDb → CacheDb}
    (h : c.before = none ∨ fault ≠ .undoes) :
    c.statement fault effect = { c with db := if fault = .works then effect c.db else c.db } := by
  obtain ⟨db, before⟩ := c
  cases fault with
  | works => rfl
  | fails => rfl
  | undoes =>
      obtain rfl : before = none := h.resolve_right fun hne => hne rfl
      rfl

variable (codec faults lastSync) in
theorem writeMetadata_kept (hversion : IsInt32 version)
    (h : c.before = none ∨ (faults.writeVersion ≠ .undoes ∧ faults.writeLastSync ≠ .undoes)) :
    (writeMetadata faults lastSync version c).before = c.before ∧
      loadPolicies codec (writeMetadata faults lastSync version c).db = loadPolicies codec c.db ∧
      getVersion (writeMetadata faults lastSync version c).db =
        if faults.writeVersion = .works then version else getVersion c.db := by
  have hwrite : ∀ db : CacheDb, getVersion
      (if faults.writeLastSync = .works then db.put (str "last_sync") lastSync else db) =
        getVersion db := by
    intro db
    split
    · exact getVersion_put_lastSync
    · rfl
  have hfirst : c.statement faults.writeVersion
      (·.put (str "policy_version") (toStdString version)) =
        { c with db := if faults.writeVersion = .works then
          c.db.put (str "policy_version") (toStdString version) else c.db } :=
    statement_eq (h.imp_right And.left)
  have hsecond : ∀ db : CacheDb, Connection.statement ⟨db, c.before⟩ faults.writeLastSync
      (·.put (str "last_sync") lastSync) = ⟨if faults.writeLastSync = .works then
        db.put (str "last_sync") lastSync else db, c.before⟩ :=
    fun _ => statement_eq (h.imp_right And.right)
  rw [writeMetadata, setMetadata, setMetadata, hfirst, hsecond]
  refine ⟨rfl, ?_, ?_⟩
  · split <;> split <;> rfl
  · rw [hwrite]
    split
    · exact getVersion_put_version hversion
    · rfl

variable (codec lastSync version) in
theorem writeMetadata_undone (hbefore : c.before = some db)
    (h : faults.writeVersion = .undoes ∨ faults.writeLastSync = .undoes) :
    (writeMetadata faults lastSync version c).before = none ∧
      loadPolicies codec (writeMetadata faults lastSync version c).db = loadPolicies codec db ∧
      getVersion (writeMetadata faults lastSync version c).db = getVersion db := by
  obtain ⟨current, before⟩ := c
  obtain rfl : before = some db := hbefore
  unfold writeMetadata setMetadata
  cases hfirst : faults.writeVersion with
  | undoes =>
      have hrolled : Connection.statement ⟨current, some db⟩ .undoes
          (·.put (str "policy_version") (toStdString version)) = ⟨db, none⟩ := rfl
      rw [hrolled, statement_eq (.inl rfl)]
      refine ⟨rfl, ?_, ?_⟩
      · split <;> rfl
      · split
        · exact getVersion_put_lastSync
        · rfl
  | works =>
      rw [h.resolve_left (by rw [hfirst]; decide)]
      exact ⟨rfl, rfl, rfl⟩
  | fails =>
      rw [h.resolve_left (by rw [hfirst]; decide)]
      exact ⟨rfl, rfl, rfl⟩

/-! ## All or nothing -/

/-- The call is stopped before the INSERTs and rolled back. -/
def StoreFaults.stops (faults : StoreFaults) : Bool :=
  faults.begin || decide (faults.delete ≠ .works) || faults.prepareInsert

/-- The connection before COMMIT. -/
def attempt (codec : PolicyCodec P) (faults : StoreFaults) (lastSync : StdString) (db : CacheDb)
    (version : Int) (ps : List P) : Connection :=
  writeMetadata faults lastSync version
    (insertPolicies codec faults.insert ⟨{ db with policies := [] }, some db⟩ ps)

/-- What the call leaves once it has got to COMMIT. -/
def finish (codec : PolicyCodec P) (faults : StoreFaults) (lastSync : StdString) (db : CacheDb)
    (version : Int) (ps : List P) : Bool × CacheDb :=
  let c := attempt codec faults lastSync db version ps
  if faults.commit || c.before.isNone then (false, c.rollback.db) else (true, c.db)

theorem storePolicies_eq (faults : StoreFaults) (lastSync : StdString) (db : CacheDb)
    (version : Int) (ps : List P) :
    storePolicies codec faults lastSync db version ps =
      if faults.stops then (false, db)
      else finish codec faults lastSync db version ps := by
  unfold storePolicies StoreFaults.stops finish attempt
  cases faults.begin <;> cases faults.delete <;> cases faults.prepareInsert <;> rfl

/-- The rows are those that `StorePolicies` has written. -/
def CacheDb.Cached (codec : PolicyCodec P) (db : CacheDb) : Prop :=
  ∀ row ∈ db.policies, ∃ p, (codec.serializeToString p).isSome = true ∧ row = codec.row p

/-- A policy that loads has its key in the table. -/
theorem key_mem_of_loads (h : db.Cached codec) {p : P} (hp : p ∈ loadPolicies codec db) :
    codec.key p ∈ db.keys := by
  obtain ⟨row, hrow, hparse⟩ := List.mem_filterMap.mp hp
  obtain ⟨q, hq, rfl⟩ := h row hrow
  obtain ⟨data, hdata⟩ := Option.isSome_iff_exists.mp hq
  have hdata' : (codec.row q).data = data := by
    simp [PolicyCodec.row, hdata]
  rw [hdata'] at hparse
  split at hparse
  · cases hparse
  · obtain rfl := Option.some.inj ((codec.parse_serialize q data hdata).symm.trans hparse)
    exact List.mem_map.mpr ⟨codec.row q, hrow, rfl⟩

/-- An INSERT before the `j`-th has undone the transaction. -/
def StoreFaults.UndoneBefore (faults : StoreFaults) (j : Nat) : Prop :=
  ∃ i < j, faults.insert i = .undoes

/-- A failing statement undoes the transaction. -/
def StoreFaults.Undone (faults : StoreFaults) (n : Nat) : Prop :=
  faults.UndoneBefore n ∨ faults.writeVersion = .undoes ∨ faults.writeLastSync = .undoes

/-- After that, no INSERT of an id that is not cached works, and no write of another version. -/
structure NothingAfter (codec : PolicyCodec P) (faults : StoreFaults) (db : CacheDb)
    (version : Int) (ps : List P) : Prop where
  inserts : ∀ j p, ps[j]? = some p → faults.UndoneBefore j →
    faults.insert j ≠ .works ∨ cStr (codec.policyId p) ∈ db.policies.map (·.policyId)
  version : faults.UndoneBefore ps.length →
    faults.writeVersion ≠ .works ∨ getVersion db = version

/-- Without an undone transaction: the condition at COMMIT. -/
def AllWorks (codec : PolicyCodec P) (faults : StoreFaults) (db : CacheDb) (version : Int)
    (ps : List P) : Prop :=
  (∀ i < ps.length, faults.insert i = .works) ∧
    (ps.map fun p => cStr (codec.policyId p)).Nodup ∧
      (faults.writeVersion = .works ∨ getVersion db = version)

/-- The loads of a call whose INSERTs go into a table of their own. -/
theorem loads_kept (hid : ∀ p ∈ ps, codec.policyId p ≠ [])
    (hser : ∀ p ∈ ps, (codec.serializeToString p).isSome = true) (fault : Nat → Fault)
    (keys : List StdString) (metadata : StdString → Option StdString) :
    loadPolicies codec ⟨(kept codec fault keys ps).map codec.row, metadata⟩ =
      kept codec fault keys ps := by
  have hsub := kept_sublist codec fault keys ps
  exact loadPolicies_map_row metadata (fun p hp => hser p (hsub.subset hp))
    fun p hp => hid p (hsub.subset hp)

variable (lastSync db) in
/-- An INSERT undoes the transaction: the old cache stays, with what the INSERTs after it and
the write of the version add. -/
theorem attempt_undoneBefore (hversion : IsInt32 version)
    (hid : ∀ p ∈ ps, codec.policyId p ≠ [])
    (hser : ∀ p ∈ ps, (codec.serializeToString p).isSome = true)
    (h : faults.UndoneBefore ps.length) :
    ∃ k, faults.insert k = .undoes ∧ (∀ i < k, faults.insert i ≠ .undoes) ∧
      (attempt codec faults lastSync db version ps).before = none ∧
      loadPolicies codec (attempt codec faults lastSync db version ps).db =
        loadPolicies codec db ++
          kept codec (fun i => faults.insert (i + (k + 1))) db.keys (ps.drop (k + 1)) ∧
      getVersion (attempt codec faults lastSync db version ps).db =
        if faults.writeVersion = .works then version else getVersion db := by
  obtain ⟨k, hk, hfirst, heq⟩ :=
    insertPolicies_undone (c := ⟨{ db with policies := [] }, some db⟩) hser rfl h
  have hdrop : ∀ p ∈ ps.drop (k + 1), p ∈ ps := fun p hp => List.mem_of_mem_drop hp
  rw [insertPolicies_eq (fun p hp => hser p (hdrop p hp)) (.inl rfl)] at heq
  obtain ⟨hbefore, hloads, hver⟩ := writeMetadata_kept codec faults lastSync hversion
    (.inl (congrArg Connection.before heq))
  refine ⟨k, hk, hfirst, ?_, ?_, ?_⟩
  · rw [attempt, hbefore, heq]
  · rw [attempt, hloads, heq, loadPolicies_add,
      loads_kept (fun p hp => hid p (hdrop p hp)) fun p hp => hser p (hdrop p hp)]
  · rw [attempt, hver, heq]
    rfl

theorem nothingAfter_iff {k : Nat} (hk : faults.insert k = .undoes)
    (hfirst : ∀ i < k, faults.insert i ≠ .undoes) (hlength : k < ps.length) :
    NothingAfter codec faults db version ps ↔
      kept codec (fun i => faults.insert (i + (k + 1))) db.keys (ps.drop (k + 1)) = [] ∧
        (faults.writeVersion ≠ .works ∨ getVersion db = version) := by
  rw [kept_eq_nil_iff]
  constructor
  · rintro ⟨hinserts, hversion⟩
    refine ⟨fun j p hj => ?_, hversion ⟨k, hlength, hk⟩⟩
    rw [List.getElem?_drop, Nat.add_comm] at hj
    exact hinserts (j + (k + 1)) p hj ⟨k, by omega, hk⟩
  · rintro ⟨hinserts, hversion⟩
    refine ⟨?_, fun _ => hversion⟩
    rintro j p hj ⟨i, hij, hi⟩
    have hki : k ≤ i := Nat.le_of_not_lt fun hlt => hfirst i hlt hi
    have hsplit : j - (k + 1) + (k + 1) = j := by omega
    have hrest := hinserts (j - (k + 1)) p (by rw [List.getElem?_drop, Nat.add_comm, hsplit, hj])
    rwa [hsplit] at hrest

/-- The table holds exactly the new policies when all INSERTs take effect. -/
theorem loads_iff (fault : Nat → Fault) (hnd : (ps.map codec.policyId).Nodup) :
    (∀ p, p ∈ kept codec fault [] ps ↔ p ∈ ps) ↔
      (∀ i < ps.length, fault i = .works) ∧ (ps.map codec.key).Nodup := by
  have hsub := kept_sublist codec fault [] ps
  have hself : kept codec fault [] ps = ps ↔
      (∀ i < ps.length, fault i = .works) ∧ (ps.map codec.key).Nodup := by
    rw [kept_eq_self_iff]
    simp
  rw [← hself]
  constructor
  · intro h
    have hnodup : ps.Nodup := hnd.of_map
    exact hsub.eq_of_length_le ((hnodup.subperm fun p hp => (h p).mpr hp).length_le)
  · intro h p
    rw [h]

section

variable (hdb : db.Cached codec) (hversion : IsInt32 version)
  (hnd : (ps.map codec.policyId).Nodup) (hid : ∀ p ∈ ps, codec.policyId p ≠ [])
  (hser : ∀ p ∈ ps, (codec.serializeToString p).isSome = true)

include hdb hversion hid hser in
/-- Where an INSERT undoes the transaction, the call says no, and only what works after that
INSERT is stored. -/
theorem allOrNothing_undoneBefore (h : faults.UndoneBefore ps.length) :
    AllOrNothing codec db version ps (finish codec faults lastSync db version ps) ↔
      NothingAfter codec faults db version ps := by
  obtain ⟨k, hk, hfirst, hbefore, hloads, hver⟩ :=
    attempt_undoneBefore lastSync db hversion hid hser h
  obtain ⟨i, hi, hfault⟩ := h
  have hlength : k < ps.length :=
    Nat.lt_of_le_of_lt (Nat.le_of_not_lt fun hlt => hfirst i hlt hfault) hi
  -- COMMIT finds no transaction
  have hfinish : finish codec faults lastSync db version ps =
      (false, (attempt codec faults lastSync db version ps).db) := by
    rw [finish, hbefore, Option.isNone_none, Bool.or_true, if_pos rfl, Connection.rollback,
      hbefore, Option.getD_none]
  rw [hfinish, nothingAfter_iff hk hfirst hlength]
  simp only [AllOrNothing, hloads, hver, true_and, Bool.false_eq_true, false_and, or_false]
  refine and_congr ?_ ?_
  · constructor
    · intro h
      refine List.eq_nil_iff_forall_not_mem.mpr fun p hp => ?_
      exact key_notMem_of_mem_kept hp
        (key_mem_of_loads hdb ((h p).mp (List.mem_append_right _ hp)))
    · intro h p
      rw [h, List.append_nil]
  · split
    · next hworks => simp [hworks, eq_comm]
    · next hnot => simp [hnot]

section

variable (hnever : ∀ i < ps.length, faults.insert i ≠ .undoes)
include hser hnever

variable (db) in
/-- Where no INSERT undoes the transaction, the loop goes over an empty table. -/
theorem insertPolicies_kept :
    insertPolicies codec faults.insert ⟨{ db with policies := [] }, some db⟩ ps =
      ⟨CacheDb.add { db with policies := [] }
        ((kept codec faults.insert [] ps).map codec.row), some db⟩ :=
  insertPolicies_eq hser (.inr hnever)

/-- A write of the metadata undoes it: the old cache is back. -/
theorem allOrNothing_undoneMetadata
    (h : faults.writeVersion = .undoes ∨ faults.writeLastSync = .undoes) :
    AllOrNothing codec db version ps (finish codec faults lastSync db version ps) := by
  have hbefore := congrArg Connection.before (insertPolicies_kept db hser hnever)
  obtain ⟨hnone, hloads, hver⟩ := writeMetadata_undone codec lastSync version hbefore h
  refine .inl ?_
  rw [finish, attempt, hnone, Option.isNone_none, Bool.or_true, if_pos rfl, Connection.rollback,
    hnone, Option.getD_none]
  exact ⟨rfl, fun p => by rw [hloads], hver⟩

include hversion hnd hid in
/-- With the transaction in place, COMMIT decides. -/
theorem allOrNothing_kept
    (h : ¬ (faults.writeVersion = .undoes ∨ faults.writeLastSync = .undoes)) :
    AllOrNothing codec db version ps (finish codec faults lastSync db version ps) ↔
      faults.commit = true ∨ AllWorks codec faults db version ps := by
  have hloop := insertPolicies_kept db hser hnever
  obtain ⟨hkept, hloads, hver⟩ := writeMetadata_kept codec faults lastSync hversion
    (.inr (not_or.mp h)) (c := insertPolicies codec faults.insert
      ⟨{ db with policies := [] }, some db⟩ ps)
  have hattempt : (attempt codec faults lastSync db version ps).before = some db := by
    rw [attempt, hkept, hloop]
  have hnew : loadPolicies codec (attempt codec faults lastSync db version ps).db =
      kept codec faults.insert [] ps := by
    rw [attempt, hloads, hloop, loadPolicies_add, loads_kept hid hser]
    rfl
  have hnewVersion : getVersion (attempt codec faults lastSync db version ps).db =
      if faults.writeVersion = .works then version else getVersion db := by
    rw [attempt, hver, hloop]
    rfl
  rw [finish, hattempt, Option.isNone_some, Bool.or_false]
  cases hcommit : faults.commit with
  | true =>
      refine iff_of_true (.inl ?_) (.inl rfl)
      rw [if_pos rfl, Connection.rollback, hattempt]
      exact ⟨rfl, fun _ => Iff.rfl, rfl⟩
  | false =>
      simp only [Bool.false_eq_true, if_false, AllOrNothing, hnew, hnewVersion, false_and,
        false_or, true_and, Bool.true_eq_false, loads_iff faults.insert hnd, AllWorks, and_assoc]
      refine and_congr_right fun _ => and_congr_right fun _ => ?_
      split
      · next hworks => simp [hworks]
      · next hnot => simp [hnot]

end

end

/-- `StorePolicies` is all-or-nothing exactly when it stops before the INSERTs; or a failing
statement undoes the transaction and nothing works after it that the cache does not have
already; or COMMIT fails; or every INSERT and the version take effect. -/
theorem storePolicies_allOrNothing_iff (faults : StoreFaults) (lastSync : StdString)
    (db : CacheDb) (hdb : db.Cached codec) {version : Int} (hversion : IsInt32 version)
    {ps : List P} (hnd : (ps.map codec.policyId).Nodup) (hid : ∀ p ∈ ps, codec.policyId p ≠ [])
    (hser : ∀ p ∈ ps, (codec.serializeToString p).isSome = true) :
    AllOrNothing codec db version ps (storePolicies codec faults lastSync db version ps) ↔
      faults.stops = true ∨
        (faults.Undone ps.length ∧ NothingAfter codec faults db version ps) ∨
          (¬ faults.Undone ps.length ∧
            (faults.commit = true ∨ AllWorks codec faults db version ps)) := by
  rw [storePolicies_eq]
  cases hstops : faults.stops with
  | true => exact iff_of_true (.inl ⟨rfl, fun _ => Iff.rfl, rfl⟩) (.inl rfl)
  | false =>
      simp only [Bool.false_eq_true, if_false, false_or]
      by_cases hinsert : faults.UndoneBefore ps.length
      · have hundone : faults.Undone ps.length := .inl hinsert
        rw [allOrNothing_undoneBefore hdb hversion hid hser hinsert]
        simp [hundone]
      · have hnever : ∀ i < ps.length, faults.insert i ≠ .undoes :=
          fun i hi hfault => hinsert ⟨i, hi, hfault⟩
        by_cases hmeta : faults.writeVersion = .undoes ∨ faults.writeLastSync = .undoes
        · have hafter : NothingAfter codec faults db version ps := by
            refine ⟨?_, fun h => absurd h hinsert⟩
            rintro j p hj ⟨i, hij, hi⟩
            exact absurd hi (hnever i (hij.trans (List.getElem?_eq_some_iff.mp hj).1))
          exact iff_of_true (allOrNothing_undoneMetadata hser hnever hmeta)
            (.inl ⟨.inr hmeta, hafter⟩)
        · have hundone : ¬ faults.Undone ps.length := not_or.mpr ⟨hinsert, hmeta⟩
          rw [allOrNothing_kept hversion hnd hid hser hnever hmeta]
          simp [hundone]

/-- The rows on both sides of the transaction. -/
def Connection.Cached (codec : PolicyCodec P) (c : Connection) : Prop :=
  c.db.Cached codec ∧ ∀ before, c.before = some before → before.Cached codec

theorem Connection.Cached.rollback (h : c.Cached codec) : c.rollback.Cached codec := by
  refine ⟨?_, fun _ hnone => by cases hnone⟩
  rw [Connection.rollback]
  cases hbefore : c.before with
  | none => exact h.1
  | some before => exact h.2 before hbefore

theorem Connection.Cached.statement (h : c.Cached codec) (fault : Fault)
    {effect : CacheDb → CacheDb} (heffect : (effect c.db).Cached codec) :
    (c.statement fault effect).Cached codec := by
  cases fault with
  | works => exact ⟨heffect, h.2⟩
  | fails => exact h
  | undoes => exact h.rollback

theorem cached_insertPolicies (fault : Nat → Fault) (h : c.Cached codec)
    (hser : ∀ p ∈ ps, (codec.serializeToString p).isSome = true) :
    (insertPolicies codec fault c ps).Cached codec := by
  induction ps generalizing fault c with
  | nil => exact h
  | cons p ps ih =>
      rw [List.forall_mem_cons] at hser
      refine ih _ ?_ hser.2
      rw [insertPolicy_eq hser.1]
      refine h.statement _ ?_
      split
      · exact h.1
      · intro row hrow
        rcases List.mem_append.mp hrow with hold | hnew
        · exact h.1 row hold
        · exact ⟨p, hser.1, List.mem_singleton.mp hnew⟩

/-- What `StorePolicies` leaves is again a cache of its own rows. -/
theorem cached_storePolicies (faults : StoreFaults) (lastSync : StdString) (db : CacheDb)
    (hdb : db.Cached codec) (version : Int) {ps : List P}
    (hser : ∀ p ∈ ps, (codec.serializeToString p).isSome = true) :
    (storePolicies codec faults lastSync db version ps).2.Cached codec := by
  have hstart : Connection.Cached codec ⟨{ db with policies := [] }, some db⟩ := by
    refine ⟨fun row hrow => ?_, fun before hbefore => ?_⟩
    · cases hrow
    · exact Option.some.inj hbefore ▸ hdb
  have hloop := cached_insertPolicies faults.insert hstart hser
  have hfirst : (setMetadata faults.writeVersion
      (insertPolicies codec faults.insert ⟨{ db with policies := [] }, some db⟩ ps)
      (str "policy_version") (toStdString version)).Cached codec := hloop.statement _ hloop.1
  have hattempt : (attempt codec faults lastSync db version ps).Cached codec :=
    hfirst.statement _ hfirst.1
  rw [storePolicies_eq]
  split
  · exact hdb
  · unfold finish
    dsimp only
    split
    · exact hattempt.rollback.1
    · exact hattempt.1

/-! ## A cache of bare ids -/

/-- A definition that sets nothing but a short `policy_id`. -/
abbrev BareId := { id : StdString // id.length < 128 }

/-- Its wire format: tag, length, bytes; nothing when the id is empty. -/
def bareIdCodec : PolicyCodec BareId where
  policyId := fun p => p.val
  name := fun _ => []
  serializeToString := fun p =>
    if p.val = [] then some [] else some (10 :: UInt8.ofNat p.val.length :: p.val)
  parseFromArray := fun bytes =>
    match bytes with
    | [] => some ⟨[], by decide⟩
    | tag :: n :: rest =>
        if h : rest.length < 128 then
          if tag = 10 ∧ n.toNat = rest.length then some ⟨rest, h⟩ else none
        else none
    | _ => none
  parse_serialize := by
    rintro ⟨id, hlen⟩ bytes h
    by_cases hid : id = []
    · subst hid
      cases h
      rfl
    · rw [if_neg hid, Option.some.injEq] at h
      subst h
      have hbyte : (UInt8.ofNat id.length).toNat = id.length :=
        UInt8.toNat_ofNat_of_lt' (Nat.lt_trans hlen (by decide))
      simp [hlen, hbyte]
  serialize_ne_nil := by
    rintro ⟨id, hlen⟩ bytes hid h
    rw [if_neg hid, Option.some.injEq] at h
    rw [← h]
    exact List.cons_ne_nil _ _

def policyA : BareId := ⟨[97], by decide⟩

def policyB : BareId := ⟨[98], by decide⟩

def noFaults : StoreFaults where
  begin := false
  delete := .works
  prepareInsert := false
  insert := fun _ => .works
  writeVersion := .works
  writeLastSync := .works
  commit := false

def emptyCache : CacheDb := ⟨[], fun _ => none⟩

theorem cached_emptyCache : emptyCache.Cached bareIdCodec := by
  intro row hrow
  cases hrow

/-- The disk is full at the first INSERT, and stays so. -/
def fullDisk : StoreFaults :=
  { noFaults with
    insert := fun i => if i = 0 then .undoes else .fails
    writeVersion := .fails
    writeLastSync := .fails }

/-- Without faults two policies and their version are stored; on a full disk nothing is. -/
theorem storePolicies_allOrNothing_noFaults :
    AllOrNothing bareIdCodec emptyCache 5 [policyA, policyB]
        (storePolicies bareIdCodec noFaults [] emptyCache 5 [policyA, policyB]) ∧
      AllOrNothing bareIdCodec emptyCache 5 [policyA, policyB]
        (storePolicies bareIdCodec fullDisk [] emptyCache 5 [policyA, policyB]) := by
  constructor
  · refine (storePolicies_allOrNothing_iff noFaults [] emptyCache cached_emptyCache (by decide)
      (by decide) (by decide) (by decide)).mpr (.inr (.inr ⟨?_, .inr ⟨?_, by decide, .inl rfl⟩⟩))
    · rintro (⟨i, -, hi⟩ | hi | hi) <;> cases hi
    · exact fun _ _ => rfl
  · refine (storePolicies_allOrNothing_iff fullDisk [] emptyCache cached_emptyCache (by decide)
      (by decide) (by decide) (by decide)).mpr
      (.inr (.inl ⟨.inl ⟨0, by decide, rfl⟩, ⟨?_, fun _ => .inl (by decide)⟩⟩))
    rintro j p - ⟨i, hij, -⟩
    have hfails : fullDisk.insert j = .fails := if_neg (Nat.ne_of_gt (Nat.zero_lt_of_lt hij))
    refine .inl ?_
    rw [hfails]
    decide

/-- The INSERT of the second policy fails: the call commits the first one and
says yes. -/
theorem storePolicies_partial :
    ¬ ∀ (faults : StoreFaults) (db : CacheDb) (version : Int) (ps : List BareId),
      db.Cached bareIdCodec → IsInt32 version → (ps.map bareIdCodec.policyId).Nodup →
      (∀ p ∈ ps, bareIdCodec.policyId p ≠ []) →
      (∀ p ∈ ps, (bareIdCodec.serializeToString p).isSome = true) →
      AllOrNothing bareIdCodec db version ps
        (storePolicies bareIdCodec faults [] db version ps) := by
  intro h
  let faults : StoreFaults := { noFaults with insert := fun i => if i = 1 then .fails else .works }
  have hload : loadPolicies bareIdCodec
      (storePolicies bareIdCodec faults [] emptyCache 5 [policyA, policyB]).2 = [policyA] := rfl
  rcases h faults emptyCache 5 [policyA, policyB] cached_emptyCache (by decide) (by decide)
    (by decide) (by decide) with ⟨hno, -⟩ | ⟨-, hall, -⟩
  · cases hno
  · rw [hload] at hall
    exact absurd ((hall policyB).mpr (by decide)) (by decide)

-- the first INSERT undoes the transaction, the second one commits on its own
example :
    (storePolicies bareIdCodec
      { noFaults with insert := fun i => if i = 0 then .undoes else .works } [] emptyCache 5
      [policyA, policyB]).1 = false ∧
    loadPolicies bareIdCodec (storePolicies bareIdCodec
      { noFaults with insert := fun i => if i = 0 then .undoes else .works } [] emptyCache 5
      [policyA, policyB]).2 = [policyB] :=
  ⟨rfl, rfl⟩

end AkesoDlp.Agent
