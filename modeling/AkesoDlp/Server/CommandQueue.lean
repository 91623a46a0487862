import AkesoDlp.Lib.TSys
import AkesoDlp.Lib.Lists
import Mathlib.Logic.Function.Basic
import Mathlib.Algebra.Group.Nat.Defs

/-!
# The command queue

`CommandQueue` keeps one list of commands per key of a Python dictionary and
one under `"__broadcast__"`. `enqueue` and `drain` hold the lock from start to
end, so any interleaving of calls is a sequence of them. The log of all
`enqueue` calls and the position of each agent's last `drain` in it say what
every agent should have been given.
-/

namespace AkesoDlp.Server

open Lib

/-- A `uuid.UUID`. -/
abbrev Uuid := BitVec 128

instance : LawfulBEq Uuid := inferInstance

/-- `str` of a UUID: its 32 hexadecimal digits in groups of 8, 4, 4, 4, 12. -/
def Uuid.toStr (u : Uuid) : String :=
  let digits := (List.range 32).map fun i => Nat.digitChar (u.toNat / 16 ^ (31 - i) % 16)
  let group := fun start len => (digits.drop start).take len
  String.ofList (group 0 8 ++ ['-'] ++ group 8 4 ++ ['-'] ++ group 12 4 ++ ['-'] ++ group 16 4 ++
    ['-'] ++ group 20 12)

theorem eq_of_hexDigits {a b n : Nat} (ha : a < 16 ^ n) (hb : b < 16 ^ n)
    (h : ∀ k < n, a / 16 ^ k % 16 = b / 16 ^ k % 16) : a = b := by
  have hmod : ∀ m ≤ n, a % 16 ^ m = b % 16 ^ m := by
    intro m hm
    induction m with
    | zero => rw [Nat.pow_zero, Nat.mod_one, Nat.mod_one]
    | succ m ih => rw [Nat.mod_pow_succ, Nat.mod_pow_succ, ih (by omega), h m (by omega)]
  have heq := hmod n (Nat.le_refl n)
  rwa [Nat.mod_eq_of_lt ha, Nat.mod_eq_of_lt hb] at heq

theorem digitChar_inj {a b : Nat} (ha : a < 16) (hb : b < 16)
    (h : Nat.digitChar a = Nat.digitChar b) : a = b := by
  have hall : ∀ i : Fin 16, ∀ j : Fin 16, Nat.digitChar i = Nat.digitChar j → i = j := by decide
  exact congrArg Fin.val (hall ⟨a, ha⟩ ⟨b, hb⟩ h)

/-- The groups of `toStr` hold all digits. -/
theorem eq_of_groups {l m : List Char} (hl : l.length = 32) (hm : m.length = 32)
    (h : l.take 8 ++ ['-'] ++ (l.drop 8).take 4 ++ ['-'] ++ (l.drop 12).take 4 ++ ['-'] ++
        (l.drop 16).take 4 ++ ['-'] ++ (l.drop 20).take 12 =
      m.take 8 ++ ['-'] ++ (m.drop 8).take 4 ++ ['-'] ++ (m.drop 12).take 4 ++ ['-'] ++
        (m.drop 16).take 4 ++ ['-'] ++ (m.drop 20).take 12) : l = m := by
  have split : ∀ k : List Char, k.length = 32 → k = k.take 8 ++ ((k.drop 8).take 4 ++
      ((k.drop 12).take 4 ++ ((k.drop 16).take 4 ++ (k.drop 20).take 12))) := by
    intro k hk
    have hlast : (k.drop 20).take 12 = k.drop 20 := List.take_of_length_le (by simp [hk])
    have hdrop : ∀ i, k.drop i = (k.drop i).take 4 ++ k.drop (i + 4) := by
      intro i
      rw [← List.drop_drop, List.take_append_drop]
    rw [hlast, ← hdrop 16, ← hdrop 12, ← hdrop 8, List.take_append_drop]
  simp only [List.append_assoc] at h
  obtain ⟨h1, h⟩ := List.append_inj h (by simp [hl, hm])
  obtain ⟨h2, h⟩ := List.append_inj (List.append_cancel_left h) (by simp [hl, hm])
  obtain ⟨h3, h⟩ := List.append_inj (List.append_cancel_left h) (by simp [hl, hm])
  obtain ⟨h4, h⟩ := List.append_inj (List.append_cancel_left h) (by simp [hl, hm])
  rw [split l hl, split m hm, h1, h2, h3, h4, List.append_cancel_left h]

/-- The digits of a UUID, the first one first. -/
theorem Uuid.digits_of_toStr {u v : Uuid} (h : u.toStr = v.toStr) :
    (List.range 32).map (fun i => Nat.digitChar (u.toNat / 16 ^ (31 - i) % 16)) =
      (List.range 32).map (fun i => Nat.digitChar (v.toNat / 16 ^ (31 - i) % 16)) :=
  eq_of_groups (by simp) (by simp) (String.ofList_injective h)

theorem Uuid.toStr_injective : Function.Injective Uuid.toStr := by
  intro u v h
  apply BitVec.eq_of_toNat_eq
  refine eq_of_hexDigits (n := 32) (by have := u.isLt; omega) (by have := v.isLt; omega) ?_
  intro k hk
  have hchar := congrArg (fun l => l[31 - k]?) (Uuid.digits_of_toStr h)
  simp only [List.getElem?_map, List.getElem?_range (show 31 - k < 32 by omega),
    Option.map_some, Option.some.injEq, show 31 - (31 - k) = k by omega] at hchar
  exact digitChar_inj (Nat.mod_lt _ (by omega)) (Nat.mod_lt _ (by omega)) hchar

/-- What callers use as dictionary keys. Python compares a UUID and a string as
unequal, whatever they spell. -/
inductive AgentKey
  | str (s : String)
  | uuid (u : Uuid)
deriving DecidableEq, Repr

/-- `if agent_id:`. -/
def AgentKey.truthy : AgentKey → Bool
  | .str s => !s.isEmpty
  | .uuid _ => true

def broadcastKey : AgentKey := .str "__broadcast__"

/-- `self._queues`. -/
structure CommandQueue (α : Type*) where
  queues : AgentKey → Option (List α)

namespace CommandQueue

variable {α : Type*}

def empty : CommandQueue α := ⟨fun _ => none⟩

/-- The list under a key; `defaultdict(list)` makes a missing one empty. -/
def pending (q : CommandQueue α) (key : AgentKey) : List α := (q.queues key).getD []

/-- The key that a command is stored under. -/
def storeKey : Option AgentKey → AgentKey
  | some agentId => if agentId.truthy then agentId else broadcastKey
  | none => broadcastKey

def enqueue (q : CommandQueue α) (agentId : Option AgentKey) (command : α) : CommandQueue α :=
  let key := storeKey agentId
  ⟨Function.update q.queues key (some (q.pending key ++ [command]))⟩

/-- `self._queues.pop(key, [])`. -/
def pop (q : CommandQueue α) (key : AgentKey) : List α × CommandQueue α :=
  (q.pending key, ⟨Function.update q.queues key none⟩)

def drain (q : CommandQueue α) (agentId : AgentKey) : List α × CommandQueue α :=
  let (cmds, q) := q.pop agentId
  let (broadcast, q) := q.pop broadcastKey
  (cmds ++ broadcast, q)

theorem pending_enqueue (q : CommandQueue α) (agentId : Option AgentKey) (command : α)
    (key : AgentKey) :
    (q.enqueue agentId command).pending key =
      if key = storeKey agentId then q.pending key ++ [command] else q.pending key := by
  by_cases hkey : key = storeKey agentId
  · subst hkey
    simp [enqueue, pending]
  · simp [enqueue, pending, hkey]

theorem drain_fst (q : CommandQueue α) {agentId : AgentKey} (h : agentId ≠ broadcastKey) :
    (q.drain agentId).1 = q.pending agentId ++ q.pending broadcastKey := by
  simp [drain, pop, pending, Function.update_of_ne h.symm]

theorem mem_drain_fst {q : CommandQueue α} {agentId : AgentKey} {command : α}
    (h : command ∈ (q.drain agentId).1) :
    command ∈ q.pending agentId ∨ command ∈ q.pending broadcastKey := by
  simp only [drain, pop, List.mem_append] at h
  refine h.imp_right fun h => ?_
  by_cases hkey : agentId = broadcastKey
  · simp [hkey, pending] at h
  · simpa [pending, Function.update_of_ne (Ne.symm hkey)] using h

theorem pending_drain (q : CommandQueue α) (agentId key : AgentKey) :
    (q.drain agentId).2.pending key =
      if key = agentId ∨ key = broadcastKey then [] else q.pending key := by
  by_cases hb : key = broadcastKey
  · simp [drain, pop, pending, hb]
  · rw [if_congr (or_iff_left hb) rfl rfl]
    simp only [drain, pop, pending, Function.update_of_ne hb]
    by_cases hk : key = agentId
    · simp [hk]
    · simp [hk]

end CommandQueue

/-! ## Runs of enqueues and drains -/

/-- A command as it was enqueued. -/
structure Entry (α : Type*) where
  target : Option AgentKey
  command : α

def Entry.isBroadcast {α : Type*} (e : Entry α) : Bool := e.target.isNone

def Entry.isFor {α : Type*} (key : AgentKey) (e : Entry α) : Bool := decide (e.target = some key)

/-- The commands addressed to an agent, in enqueue order. -/
def addressedTo {α : Type*} (key : AgentKey) (log : List (Entry α)) : List α :=
  (log.filter fun e => e.isFor key || e.isBroadcast).map (·.command)

theorem addressedTo_append {α : Type*} (key : AgentKey) (log log' : List (Entry α)) :
    addressedTo key (log ++ log') = addressedTo key log ++ addressedTo key log' := by
  simp [addressedTo]

/-- The queue with its history: every `enqueue` so far, what each agent's drains
have returned, and the length of the log at each agent's last drain and at the
last drain of anyone. -/
structure QueueState (α : Type*) where
  queue : CommandQueue α
  log : List (Entry α)
  received : AgentKey → List α
  mark : AgentKey → Nat
  lastDrain : Nat

def QueueState.start {α : Type*} : QueueState α where
  queue := .empty
  log := []
  received := fun _ => []
  mark := fun _ => 0
  lastDrain := 0

inductive QueueAction (α : Type*)
  | enqueue (agentId : Option AgentKey) (command : α)
  | drain (agentId : AgentKey)

variable {α : Type*}

def queueStep (s : QueueState α) : QueueAction α → Option (QueueState α)
  | .enqueue agentId command =>
      some { s with
        queue := s.queue.enqueue agentId command
        log := s.log ++ [⟨agentId, command⟩] }
  | .drain agentId =>
      let (cmds, queue) := s.queue.drain agentId
      some { s with
        queue := queue
        received := Function.update s.received agentId (s.received agentId ++ cmds)
        mark := Function.update s.mark agentId s.log.length
        lastDrain := s.log.length }

def commandQueue : TSys (QueueState α) (QueueAction α) where
  init := fun s => s = QueueState.start
  step := queueStep

/-- Every agent has been given exactly the commands that were addressed to it
before its last drain, each once and in enqueue order. -/
def AllDelivered (s : QueueState α) : Prop :=
  ∀ key, s.received key = addressedTo key (s.log.take (s.mark key))

/-- The steps that lose nothing: a command is for a proper agent id or for all;
and when an agent drains, no broadcast it has not seen has been drained by
another one, and of what it has not seen no broadcast precedes a command for
itself. -/
def DrainsFairly (s : QueueState α) : QueueAction α → Prop
  | .enqueue agentId _ => ∀ key, agentId = some key → key.truthy = true ∧ key ≠ broadcastKey
  | .drain key =>
      key ≠ broadcastKey ∧
        (∀ e ∈ (s.log.take s.lastDrain).drop (s.mark key), e.isBroadcast = false) ∧
        (s.log.drop (s.mark key)).Pairwise fun e e' => e.isBroadcast = true → e'.isFor key = false

structure QueueInv (s : QueueState α) : Prop where
  /-- The list of an agent is what was enqueued for it since its last drain. -/
  own : ∀ key, key ≠ broadcastKey →
    s.queue.pending key = ((s.log.drop (s.mark key)).filter (Entry.isFor key)).map (·.command)
  /-- The broadcast list is what was broadcast since anyone's last drain. -/
  broadcast : s.queue.pending broadcastKey =
    ((s.log.drop s.lastDrain).filter Entry.isBroadcast).map (·.command)
  mark_le : ∀ key, s.mark key ≤ s.lastDrain
  lastDrain_le : s.lastDrain ≤ s.log.length
  delivered : AllDelivered s

theorem queueInv_start : QueueInv (QueueState.start : QueueState α) where
  own := fun _ _ => rfl
  broadcast := rfl
  mark_le := fun _ => Nat.le_refl _
  lastDrain_le := Nat.le_refl _
  delivered := fun _ => rfl

theorem queueInv_enqueue {s : QueueState α} (hs : QueueInv s) {agentId : Option AgentKey}
    {command : α} (hok : DrainsFairly s (.enqueue agentId command)) :
    QueueInv { s with
      queue := s.queue.enqueue agentId command, log := s.log ++ [⟨agentId, command⟩] } where
  own := by
    intro key hkey
    have hmark := Nat.le_trans (hs.mark_le key) hs.lastDrain_le
    rw [CommandQueue.pending_enqueue, hs.own key hkey, List.drop_append_of_le_length hmark,
      List.filter_append, List.map_append]
    cases agentId with
    | none => simp [CommandQueue.storeKey, hkey, Entry.isFor]
    | some key' =>
        rw [CommandQueue.storeKey, if_pos (hok key' rfl).1]
        by_cases heq : key = key'
        · simp [heq, Entry.isFor]
        · simp [heq, Ne.symm heq, Entry.isFor]
  broadcast := by
    rw [CommandQueue.pending_enqueue, hs.broadcast, List.drop_append_of_le_length hs.lastDrain_le,
      List.filter_append, List.map_append]
    cases agentId with
    | none => rfl
    | some key =>
        obtain ⟨htruthy, hne⟩ := hok key rfl
        simp [CommandQueue.storeKey, htruthy, Ne.symm hne, Entry.isBroadcast]
  mark_le := hs.mark_le
  lastDrain_le := by
    rw [List.length_append]
    exact Nat.le_add_right_of_le hs.lastDrain_le
  delivered := by
    intro key
    have hmark := Nat.le_trans (hs.mark_le key) hs.lastDrain_le
    rw [hs.delivered key, List.take_append_of_le_length hmark]

/-- The broadcasts since the last drain of anyone are those since the agent's
own when none was drained in between. -/
theorem filter_broadcast_drop {s : QueueState α} {key : AgentKey}
    (hle : s.mark key ≤ s.lastDrain)
    (hmissed : ∀ e ∈ (s.log.take s.lastDrain).drop (s.mark key), e.isBroadcast = false) :
    (s.log.drop (s.mark key)).filter Entry.isBroadcast =
      (s.log.drop s.lastDrain).filter Entry.isBroadcast := by
  have hsplit : s.log.drop (s.mark key) =
      (s.log.take s.lastDrain).drop (s.mark key) ++ s.log.drop s.lastDrain := by
    conv_lhs => rw [← List.take_append_drop s.lastDrain s.log]
    rw [List.drop_append, List.length_take]
    by_cases hlen : s.lastDrain ≤ s.log.length
    · rw [Nat.min_eq_left hlen, Nat.sub_eq_zero_of_le hle, List.drop_zero]
    · rw [List.drop_eq_nil_of_le (Nat.le_of_not_le hlen), List.drop_nil]
  have hnone : ((s.log.take s.lastDrain).drop (s.mark key)).filter Entry.isBroadcast = [] :=
    List.filter_eq_nil_iff.mpr fun e he => by simp [hmissed e he]
  rw [hsplit, List.filter_append, hnone, List.nil_append]

/-- What a fair drain returns: everything addressed to the agent since its last
one. -/
theorem drain_fst_of_fair {s : QueueState α} (hs : QueueInv s) {key : AgentKey}
    (hok : DrainsFairly s (.drain key)) :
    (s.queue.drain key).1 = addressedTo key (s.log.drop (s.mark key)) := by
  obtain ⟨hkey, hmissed, horder⟩ := hok
  rw [CommandQueue.drain_fst _ hkey, hs.own key hkey, hs.broadcast,
    ← filter_broadcast_drop (hs.mark_le key) hmissed, ← List.map_append, addressedTo,
    filter_append_filter_of_pairwise _ horder]
  intro e _ hfor
  rw [Entry.isFor, decide_eq_true_eq] at hfor
  simp [Entry.isBroadcast, hfor]

theorem queueInv_drain {s : QueueState α} (hs : QueueInv s) {key : AgentKey}
    (hok : DrainsFairly s (.drain key)) :
    QueueInv { s with
      queue := (s.queue.drain key).2
      received := Function.update s.received key (s.received key ++ (s.queue.drain key).1)
      mark := Function.update s.mark key s.log.length
      lastDrain := s.log.length } where
  own := by
    intro key' hkey'
    rw [CommandQueue.pending_drain]
    by_cases heq : key' = key
    · simp [heq]
    · simp [heq, hkey', hs.own key' hkey']
  broadcast := by
    rw [CommandQueue.pending_drain]
    simp
  mark_le := by
    intro key'
    by_cases heq : key' = key
    · simp [heq]
    · simpa [heq] using Nat.le_trans (hs.mark_le key') hs.lastDrain_le
  lastDrain_le := Nat.le_refl _
  delivered := by
    intro key'
    by_cases heq : key' = key
    · subst heq
      simp only [Function.update_self, List.take_length]
      rw [drain_fst_of_fair hs hok, hs.delivered, ← addressedTo_append, List.take_append_drop]
    · simp only [Function.update_of_ne heq]
      exact hs.delivered key'

theorem queueInv_inductive :
    (commandQueue : TSys (QueueState α) _).InductiveBy DrainsFairly QueueInv where
  init := fun s hs => hs ▸ queueInv_start
  step := by
    intro s a s' hs hok hstep
    have h : queueStep s a = some s' := hstep
    cases a with
    | enqueue agentId command =>
        rw [queueStep, Option.some.injEq] at h
        exact h ▸ queueInv_enqueue hs hok
    | drain key =>
        rw [queueStep, Option.some.injEq] at h
        exact h ▸ queueInv_drain hs hok

/-- In every run of fair drains, every agent is given exactly what was addressed
to it. -/
theorem drain_delivers {s : QueueState α}
    (h : (commandQueue : TSys (QueueState α) _).ReachableBy DrainsFairly s) : AllDelivered s :=
  (queueInv_inductive.invariant s h).delivered

/-- An agent that is alone gets its command and the broadcast after it. -/
theorem drain_delivers_alone :
    ∃ s, (commandQueue : TSys (QueueState String) _).run QueueState.start
        [.enqueue (some (.str "a")) "run_discover", .enqueue none "update", .drain (.str "a")] =
          some s ∧
      s.received (.str "a") = ["run_discover", "update"] ∧ AllDelivered s := by
  have h : (commandQueue : TSys (QueueState String) _).ReachableBy DrainsFairly _ := .init rfl
  have h := h.step (a := QueueAction.enqueue (some (.str "a")) "run_discover")
    (fun key hkey => by cases hkey; decide) rfl
  have h := h.step (a := QueueAction.enqueue none "update") (fun key hkey => nomatch hkey) rfl
  have h := h.step (a := QueueAction.drain (.str "a"))
    ⟨by decide, by decide, by decide⟩ rfl
  exact ⟨_, rfl, rfl, drain_delivers h⟩

/-- Two agents and a broadcast: the first one to poll takes it away from the
other. -/
theorem broadcast_reaches_one :
    ¬ ∀ s : QueueState String, commandQueue.Reachable s → AllDelivered s := by
  intro h
  have hrun : ∃ s, (commandQueue : TSys (QueueState String) _).run QueueState.start
        [.enqueue none "update", .drain (.str "a"), .drain (.str "b")] = some s ∧
      s.received (.str "b") = [] ∧
      addressedTo (.str "b") (s.log.take (s.mark (.str "b"))) = ["update"] :=
    ⟨_, rfl, rfl, rfl⟩
  obtain ⟨s, hs, hnothing, haddressed⟩ := hrun
  have := h s (TSys.reachable_run (TSys.ReachableBy.init rfl) _ hs) (.str "b")
  rw [hnothing, haddressed] at this
  cases this

end AkesoDlp.Server
