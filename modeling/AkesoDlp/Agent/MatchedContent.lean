import AkesoDlp.Lib.JsonText
import AkesoDlp.Lib.JsonWeight
import AkesoDlp.Agent.DiscoverScanner
import AkesoDlp.Agent.IncidentQueue
import AkesoDlp.Agent.Pipeline
import AkesoDlp.Agent.StdInt

/-!
# The incidents that the pipeline queues

The four handlers build an incident for a violation, each with a JSON text for
`matched_content`. The strings go into the text between quotation marks as they
are, so it is read back exactly when none of them needs an escape.
-/

namespace AkesoDlp.Agent

open Lib

/-! ## The incidents -/

structure ClipboardContent where
  text : StdString := []
  sourcePid : Nat := 0
  sourceProcess : StdString := []
  sequenceNumber : Nat := 0
deriving DecidableEq, Repr

structure BrowserUploadEvent where
  filePath : StdString := []
  browserPid : Nat := 0
  browserName : StdString := []
  fileSize : Int := 0
deriving DecidableEq, Repr

/-- `VolumeToChannel` -/
def volumeToChannel : VolumeType → StdString
  | .removable => str "usb"
  | .network => str "network_share"
  | .fixed => str "endpoint"
  | .unknown => str "endpoint"

/-- `path.substr(path.find_last_of("/\\") + 1)`, or the path if there is none. -/
def lastComponent (path : StdString) : StdString :=
  (path.reverse.takeWhile fun b => !(b == 47 || b == 92)).reverse

/-- One record of the loop over the matches. -/
def matchJson (m : DetectionMatch) : StdString :=
  str "\x7b\"type\":\"" ++ m.analyzerName ++ str "\"," ++
    str "\"label\":\"" ++ m.label ++ str "\"," ++ str "\"count\":1\x7d"

/-- The loop, from index `i` on: a comma before each record but the first. -/
def appendMatches : (i : Nat) → List DetectionMatch → StdString
  | _, [] => []
  | i, m :: ms =>
      if i < 10 then
        (if i > 0 then str "," else []) ++ matchJson m ++ appendMatches (i + 1) ms
      else []

/-- `matches_json` up to the closing bracket, in all four handlers. -/
def matchesJson (v : PolicyViolation) : StdString :=
  str "\x7b\"matches\":[" ++ appendMatches 0 v.matches

/-- `QueueIncident`; `filePath` is the path as UTF-8. -/
def queueIncident (filePath : StdString) (volumeType : VolumeType) (v : PolicyViolation)
    (actionTaken : StdString) : QueuedIncident where
  policyName := v.policyName
  severity := severityToString v.severity
  channel := volumeToChannel volumeType
  sourceType := str "endpoint"
  fileName := lastComponent filePath
  filePath := filePath
  user := []
  matchCount := v.matchCount
  actionTaken := actionTaken
  matchedContent := matchesJson v ++ str "]\x7d"

/-- `QueueClipboardIncident` -/
def queueClipboardIncident (clip : ClipboardContent) (v : PolicyViolation)
    (actionTaken : StdString) : QueuedIncident where
  policyName := v.policyName
  severity := severityToString v.severity
  channel := str "clipboard"
  sourceType := str "endpoint"
  fileName := str "clipboard"
  filePath := str "clipboard (source: " ++ clip.sourceProcess ++ str ", pid: " ++
    toStdString clip.sourcePid ++ str ")"
  user := []
  matchCount := v.matchCount
  actionTaken := actionTaken
  matchedContent := matchesJson v ++ str "]\x7d"

/-- The incident of `OnBrowserUpload`. -/
def browserUploadIncident (event : BrowserUploadEvent) (v : PolicyViolation)
    (actionStr : StdString) : QueuedIncident where
  policyName := v.policyName
  severity := severityToString v.severity
  channel := str "browser_upload"
  sourceType := str "endpoint"
  fileName := lastComponent event.filePath
  filePath := event.filePath
  user := event.browserName ++ str " (pid: " ++ toStdString event.browserPid ++ str ")"
  matchCount := v.matchCount
  actionTaken := actionStr
  matchedContent := matchesJson v ++ str "]\x7d"

/-- The incident of `OnDiscoverFile`. -/
def discoverIncident (event : DiscoverFileEvent) (v : PolicyViolation)
    (actionStr : StdString) : QueuedIncident where
  policyName := v.policyName
  severity := severityToString v.severity
  channel := str "discover"
  sourceType := str "discover"
  fileName := event.fileName
  filePath := event.filePath
  user := event.fileOwner
  matchCount := v.matchCount
  actionTaken := actionStr
  matchedContent := matchesJson v ++ str "],\"file_owner\":\"" ++ event.fileOwner ++ str "\"," ++
    str "\"modification_date\":\"" ++ event.modificationDate ++ str "\"\x7d"

/-! ## Reading an incident back -/

def decodePair (entry : Json) : Option (StdString × StdString) := do
  let type ← (entry.get (str "type")).bind Json.asStr
  let label ← (entry.get (str "label")).bind Json.asStr
  some (type, label)

def decodePairs (v : Json) : Option (List (StdString × StdString)) := do
  let entries ← (v.get (str "matches")).bind Json.asArr
  entries.mapM decodePair

def firstPairs (v : PolicyViolation) : List (StdString × StdString) :=
  (v.matches.take 10).map fun m => (m.analyzerName, m.label)

/-- The text is JSON and decodes to the pairs, and to the strings under other keys. -/
def DecodesTo (text : StdString) (pairs extras : List (StdString × StdString)) : Prop :=
  ∃ v, Json.parse text = some v ∧ decodePairs v = some pairs ∧
    ∀ e ∈ extras, (v.get e.1).bind Json.asStr = some e.2

/-- What may stand in the text as it is: UTF-8 without quotation marks, backslashes
and control characters. -/
def PlainMatches (v : PolicyViolation) : Prop :=
  ∀ m ∈ v.matches.take 10, Json.PlainStr m.analyzerName ∧ Json.PlainStr m.label

/-! ## The text is that of a JSON value -/

def entryValue (m : DetectionMatch) : Json :=
  .obj [(str "type", .str m.analyzerName), (str "label", .str m.label), (str "count", .num [49])]

def evidenceValue (v : PolicyViolation) (extras : List (StdString × StdString)) : Json :=
  .obj ((str "matches", .arr ((v.matches.take 10).map entryValue)) ::
    extras.map fun e => (e.1, .str e.2))

theorem matchJson_eq (m : DetectionMatch) : matchJson m = (entryValue m).render := by
  have hopen : str "\x7b\"type\":\"" = 123 :: 34 :: (str "type" ++ [34, 58, 34]) := rfl
  have hlabel : str "\"label\":\"" = 34 :: (str "label" ++ [34, 58, 34]) := rfl
  have hcount : str "\"count\":1\x7d" = 34 :: (str "count" ++ [34, 58, 49, 125]) := rfl
  have hcomma : str "\"," = [34, 44] := rfl
  simp [matchJson, entryValue, Json.render, Json.renderMembers, hopen, hlabel, hcount, hcomma]

theorem appendMatches_succ (i : Nat) (ms : List DetectionMatch) :
    appendMatches (i + 1) ms =
      (ms.take (9 - i)).flatMap fun m => 44 :: (entryValue m).render := by
  induction ms generalizing i with
  | nil => simp [appendMatches]
  | cons m ms ih =>
      have hcomma : str "," = [44] := rfl
      rw [appendMatches, ih, if_pos (Nat.succ_pos i), matchJson_eq, hcomma]
      by_cases hi : i + 1 < 10
      · have htake : 9 - i = 9 - (i + 1) + 1 := by omega
        rw [if_pos hi, htake, List.take_succ_cons, List.flatMap_cons]
        simp
      · have htake : 9 - i = 0 := by omega
        rw [if_neg hi, htake]
        simp

theorem appendMatches_zero (ms : List DetectionMatch) :
    appendMatches 0 ms = Json.renderElements ((ms.take 10).map entryValue) := by
  cases ms with
  | nil => simp [appendMatches, Json.renderElements]
  | cons m ms =>
      rw [appendMatches, appendMatches_succ, matchJson_eq, List.take_succ_cons, List.map_cons,
        Json.renderElements_cons, List.flatMap_map]
      simp

theorem matchesJson_close (v : PolicyViolation) :
    matchesJson v ++ str "]\x7d" = (evidenceValue v []).render := by
  have hopen : str "\x7b\"matches\":[" = 123 :: 34 :: (str "matches" ++ [34, 58, 91]) := rfl
  have hclose : str "]\x7d" = [93, 125] := rfl
  simp [matchesJson, evidenceValue, Json.render, Json.renderMembers, hopen, hclose,
    appendMatches_zero]

/-- The keys that only `OnDiscoverFile` adds. -/
def discoverExtras (event : DiscoverFileEvent) : List (StdString × StdString) :=
  [(str "file_owner", event.fileOwner), (str "modification_date", event.modificationDate)]

theorem discoverIncident_matchedContent (event : DiscoverFileEvent) (v : PolicyViolation)
    (actionStr : StdString) :
    (discoverIncident event v actionStr).matchedContent =
      (evidenceValue v (discoverExtras event)).render := by
  have hopen : str "\x7b\"matches\":[" = 123 :: 34 :: (str "matches" ++ [34, 58, 91]) := rfl
  have howner : str "],\"file_owner\":\"" = 93 :: 44 :: 34 :: (str "file_owner" ++ [34, 58, 34]) :=
    rfl
  have hdate : str "\"modification_date\":\"" = 34 :: (str "modification_date" ++ [34, 58, 34]) :=
    rfl
  have hcomma : str "\"," = [34, 44] := rfl
  have hclose : str "\"\x7d" = [34, 125] := rfl
  simp [discoverIncident, discoverExtras, matchesJson, evidenceValue, Json.render,
    Json.renderMembers, hopen, howner, hdate, hcomma, hclose, appendMatches_zero]

/-! ## Plain strings are read back -/

theorem plainStr_keys : ∀ key ∈ ["type", "label", "count", "matches", "file_owner",
    "modification_date"], Json.PlainStr (str key) := by
  decide +kernel

theorem plain_entryValue {m : DetectionMatch} (htype : Json.PlainStr m.analyzerName)
    (hlabel : Json.PlainStr m.label) : (entryValue m).Plain := by
  have hone : Json.IsNumber [49] := Json.isNumber_of_digits (by decide +kernel) (by decide)
  simp only [entryValue, Json.Plain, Json.PlainMembers, and_true]
  exact ⟨plainStr_keys _ (by simp), htype, plainStr_keys _ (by simp), hlabel,
    plainStr_keys _ (by simp), hone⟩

theorem plain_evidenceValue {v : PolicyViolation} {extras : List (StdString × StdString)}
    (hmatches : PlainMatches v) (hextras : ∀ e ∈ extras, Json.PlainStr e.1 ∧ Json.PlainStr e.2) :
    (evidenceValue v extras).Plain := by
  have hentries : ∀ ms : List DetectionMatch,
      (∀ m ∈ ms, Json.PlainStr m.analyzerName ∧ Json.PlainStr m.label) →
        Json.PlainElements (ms.map entryValue) := by
    intro ms hms
    induction ms with
    | nil => simp [Json.PlainElements]
    | cons m ms ih =>
        rw [List.forall_mem_cons] at hms
        rw [List.map_cons, Json.PlainElements]
        exact ⟨plain_entryValue hms.1.1 hms.1.2, ih hms.2⟩
  have hmembers : Json.PlainMembers (extras.map fun e => (e.1, Json.str e.2)) := by
    induction extras with
    | nil => simp [Json.PlainMembers]
    | cons e extras ih =>
        rw [List.forall_mem_cons] at hextras
        rw [List.map_cons, Json.PlainMembers, Json.Plain]
        exact ⟨hextras.1.1, hextras.1.2, ih hextras.2⟩
  simp only [evidenceValue, Json.Plain, Json.PlainMembers]
  exact ⟨plainStr_keys _ (by simp), hentries _ hmatches, hmembers⟩

theorem decodePair_entryValue (m : DetectionMatch) :
    decodePair (entryValue m) = some (m.analyzerName, m.label) := by
  have htype : str "count" ≠ str "type" ∧ str "label" ≠ str "type" := by decide
  have hlabel : str "count" ≠ str "label" := by decide
  simp [decodePair, entryValue, Json.get, Json.lookup, Json.asStr, htype, hlabel]

/-- The keys of the extras are different from each other and from `matches`. -/
def ProperKeys (extras : List (StdString × StdString)) : Prop :=
  (str "matches" :: extras.map Prod.fst).Nodup ∧
    ∀ e ∈ extras, Json.PlainStr e.1 ∧ Json.weight e.1 = 0

theorem decodePairs_evidenceValue (v : PolicyViolation)
    {extras : List (StdString × StdString)} (hkeys : ProperKeys extras) :
    decodePairs (evidenceValue v extras) = some (firstPairs v) ∧
      ∀ e ∈ extras, ((evidenceValue v extras).get e.1).bind Json.asStr = some e.2 := by
  have hnodup : (((str "matches", Json.arr ((v.matches.take 10).map entryValue)) ::
      extras.map fun e => (e.1, Json.str e.2)).map Prod.fst).Nodup := by
    simpa [Function.comp_def] using hkeys.1
  refine ⟨?_, fun e he => ?_⟩
  · have hmapM : ∀ ms : List DetectionMatch,
        (ms.map entryValue).mapM decodePair = some (ms.map fun m => (m.analyzerName, m.label)) := by
      intro ms
      induction ms with
      | nil => rfl
      | cons m ms ih => simp [decodePair_entryValue, ih]
    rw [decodePairs, evidenceValue, Json.get, Json.lookup_of_mem hnodup List.mem_cons_self]
    exact hmapM _
  · have hmem := List.mem_cons_of_mem
      (str "matches", Json.arr ((v.matches.take 10).map entryValue))
      (List.mem_map_of_mem (f := fun e => (e.1, Json.str e.2)) he)
    rw [evidenceValue, Json.get, Json.lookup_of_mem hnodup hmem]
    rfl

/-! ## What is read back is plain -/

/-- All strings that go into the text. -/
def fields (pairs extras : List (StdString × StdString)) : List StdString :=
  (pairs.flatMap fun p => [p.1, p.2]) ++ extras.map Prod.snd

theorem sum_fields (f : StdString → Nat) (pairs extras : List (StdString × StdString)) :
    ((fields pairs extras).map f).sum =
      (pairs.map fun p => f p.1 + f p.2).sum + (extras.map fun e => f e.2).sum := by
  have hpairs : ((pairs.flatMap fun p => [p.1, p.2]).map f).sum =
      (pairs.map fun p => f p.1 + f p.2).sum := by
    induction pairs with
    | nil => rfl
    | cons p pairs ih =>
        simp only [List.flatMap_cons, List.map_append, List.sum_append, ih, List.map_cons,
          List.sum_cons, List.map_nil, List.sum_nil]
        omega
  rw [fields, List.map_append, List.sum_append, hpairs, List.map_map]
  rfl

theorem weight_entryValue (m : DetectionMatch) :
    Json.weight (entryValue m).render = Json.weight m.analyzerName + Json.weight m.label := by
  have hkeys : Json.weight (str "type") = 0 ∧ Json.weight (str "label") = 0 ∧
      Json.weight (str "count") = 0 := by decide
  have hone : Json.weight (Json.num [49]).render = 0 := rfl
  simp [entryValue, Json.weight_render_obj, Json.weight_render_str, hkeys, hone]

theorem weight_evidenceValue (v : PolicyViolation) {extras : List (StdString × StdString)}
    (hkeys : ProperKeys extras) :
    Json.weight (evidenceValue v extras).render =
      ((fields (firstPairs v) extras).map Json.weight).sum := by
  have hkey : Json.weight (str "matches") = 0 := by decide
  have hextras : ∀ e ∈ extras, Json.weight e.1 + Json.weight e.2 = Json.weight e.2 := by
    intro e he
    rw [(hkeys.2 e he).2, Nat.zero_add]
  simp only [evidenceValue, Json.weight_render_obj, List.map_cons, List.sum_cons, hkey,
    Json.weight_render_arr, List.map_map, Function.comp_def, weight_entryValue,
    Json.weight_render_str]
  rw [List.map_congr_left hextras, sum_fields, firstPairs, List.map_map, Nat.zero_add]
  rfl

theorem decodePair_cases {entry : Json} {p : StdString × StdString}
    (h : decodePair entry = some p) (hutf8 : entry.IsUtf8) :
    Json.cost p.1 + Json.cost p.2 ≤ entry.strCost ∧
      (Utf8.decodeStrict p.1).isSome ∧ (Utf8.decodeStrict p.2).isSome := by
  obtain ⟨type, htype, h⟩ := Option.bind_eq_some_iff.mp h
  obtain ⟨label, hlabel, h⟩ := Option.bind_eq_some_iff.mp h
  cases h
  obtain ⟨t, hget, ht⟩ := Option.bind_eq_some_iff.mp htype
  obtain ⟨l, hget', hl⟩ := Option.bind_eq_some_iff.mp hlabel
  obtain ⟨ms, rfl, hlookup⟩ := Json.eq_obj_of_get hget
  have hlookup' : Json.lookup (str "label") ms = some l := hget'
  rw [Json.asStr_eq_some.mp ht] at hlookup
  rw [Json.asStr_eq_some.mp hl] at hlookup'
  rw [Json.IsUtf8] at hutf8
  have hkeys : [str "type", str "label"].Nodup := by decide
  have hcost := Json.sum_costAt_le hkeys ms
  have hutf8' := Json.isUtf8_lookup hlookup hutf8
  have hutf8'' := Json.isUtf8_lookup hlookup' hutf8
  simp only [List.map_cons, List.map_nil, List.sum_cons, List.sum_nil, Json.costAt, hlookup,
    hlookup', Option.map_some, Option.getD_some, Json.strCost] at hcost
  rw [Json.IsUtf8] at hutf8' hutf8''
  rw [Json.strCost]
  exact ⟨by omega, hutf8', hutf8''⟩

theorem decodeEntries_cases {entries : List Json} {pairs : List (StdString × StdString)}
    (h : entries.mapM decodePair = some pairs) (hutf8 : Json.IsUtf8Elements entries) :
    (pairs.map fun p => Json.cost p.1 + Json.cost p.2).sum ≤ Json.strCostElements entries ∧
      ∀ p ∈ pairs, (Utf8.decodeStrict p.1).isSome ∧ (Utf8.decodeStrict p.2).isSome := by
  induction entries generalizing pairs with
  | nil =>
      cases h
      exact ⟨Nat.zero_le _, fun p hp => absurd hp List.not_mem_nil⟩
  | cons entry entries ih =>
      rw [List.mapM_cons] at h
      obtain ⟨p, hp, h⟩ := Option.bind_eq_some_iff.mp h
      obtain ⟨ps, hps, h⟩ := Option.bind_eq_some_iff.mp h
      cases h
      rw [Json.IsUtf8Elements] at hutf8
      obtain ⟨hone, hutf8p⟩ := decodePair_cases hp hutf8.1
      obtain ⟨hmore, hutf8s⟩ := ih hps hutf8.2
      rw [Json.strCostElements, List.map_cons, List.sum_cons]
      exact ⟨by omega, List.forall_mem_cons.mpr ⟨hutf8p, hutf8s⟩⟩

/-- What a text that decodes to these strings costs at least. -/
theorem decoded_cases {v : Json} {pairs extras : List (StdString × StdString)}
    (hutf8 : v.IsUtf8) (hpairs : decodePairs v = some pairs)
    (hextras : ∀ e ∈ extras, (v.get e.1).bind Json.asStr = some e.2)
    (hnodup : (str "matches" :: extras.map Prod.fst).Nodup) :
    ((fields pairs extras).map Json.cost).sum ≤ v.strCost ∧
      ∀ s ∈ fields pairs extras, (Utf8.decodeStrict s).isSome := by
  obtain ⟨entries, hentries, hmapM⟩ := Option.bind_eq_some_iff.mp hpairs
  obtain ⟨w, hget, hw⟩ := Option.bind_eq_some_iff.mp hentries
  obtain ⟨ms, rfl, hlookup⟩ := Json.eq_obj_of_get hget
  rw [Json.asArr_eq_some.mp hw] at hlookup
  have hlookupE : ∀ e ∈ extras, Json.lookup e.1 ms = some (.str e.2) := by
    intro e he
    obtain ⟨u, hu, hstr⟩ := Option.bind_eq_some_iff.mp (hextras e he)
    rw [Json.asStr_eq_some.mp hstr] at hu
    exact hu
  rw [Json.IsUtf8] at hutf8
  have hentriesUtf8 := Json.isUtf8_lookup hlookup hutf8
  rw [Json.IsUtf8] at hentriesUtf8
  obtain ⟨hcost, hpairsUtf8⟩ := decodeEntries_cases hmapM hentriesUtf8
  refine ⟨?_, ?_⟩
  · have hsum := Json.sum_costAt_le hnodup ms
    have hat : ∀ e ∈ extras, Json.costAt e.1 ms = Json.cost e.2 := by
      intro e he
      rw [Json.costAt, hlookupE e he, Option.map_some, Option.getD_some, Json.strCost]
    have hatMatches : Json.costAt (str "matches") ms = Json.strCostElements entries := by
      rw [Json.costAt, hlookup, Option.map_some, Option.getD_some, Json.strCost]
    rw [List.map_cons, List.sum_cons, hatMatches, List.map_map] at hsum
    have hsumE : (extras.map ((fun key => Json.costAt key ms) ∘ Prod.fst)).sum =
        (extras.map fun e => Json.cost e.2).sum :=
      congrArg List.sum (List.map_congr_left hat)
    rw [sum_fields, Json.strCost]
    omega
  · intro s hs
    rcases List.mem_append.mp hs with hs | hs
    · obtain ⟨p, hp, hs⟩ := List.mem_flatMap.mp hs
      obtain ⟨hfst, hsnd⟩ := hpairsUtf8 p hp
      simp only [List.mem_cons, List.not_mem_nil, or_false] at hs
      rcases hs with rfl | rfl
      · exact hfst
      · exact hsnd
    · obtain ⟨e, he, rfl⟩ := List.mem_map.mp hs
      have hstr := Json.isUtf8_lookup (hlookupE e he) hutf8
      rwa [Json.IsUtf8] at hstr

/-- The text says what it should exactly if every string in it is plain. -/
theorem decodesTo_iff (v : PolicyViolation) {extras : List (StdString × StdString)}
    (hkeys : ProperKeys extras) :
    DecodesTo (evidenceValue v extras).render (firstPairs v) extras ↔
      PlainMatches v ∧ ∀ e ∈ extras, Json.PlainStr e.2 := by
  constructor
  · rintro ⟨w, hparse, hpairs, hextras⟩
    obtain ⟨hcost, hutf8⟩ := Json.strCost_parse_le hparse
    obtain ⟨hsum, hdecoded⟩ := decoded_cases hutf8 hpairs hextras hkeys.1
    rw [weight_evidenceValue v hkeys] at hcost
    have hplain := Json.forall_plain_of_sum_le (hsum.trans hcost)
    have hall : ∀ s ∈ fields (firstPairs v) extras, Json.PlainStr s :=
      fun s hs => ⟨hplain s hs, hdecoded s hs⟩
    refine ⟨fun m hm => ?_, fun e he => ?_⟩
    · have hpair : (m.analyzerName, m.label) ∈ firstPairs v := List.mem_map_of_mem hm
      refine ⟨hall _ (List.mem_append_left _ ?_), hall _ (List.mem_append_left _ ?_)⟩
      · exact List.mem_flatMap.mpr ⟨_, hpair, List.mem_cons_self⟩
      · exact List.mem_flatMap.mpr ⟨_, hpair, List.mem_cons_of_mem _ List.mem_cons_self⟩
    · exact hall _ (List.mem_append_right _ (List.mem_map_of_mem he))
  · rintro ⟨hmatches, hextras⟩
    have hplain := plain_evidenceValue hmatches fun e he => ⟨(hkeys.2 e he).1, hextras e he⟩
    obtain ⟨hpairs, hget⟩ := decodePairs_evidenceValue v hkeys
    exact ⟨_, Json.parse_render hplain, hpairs, hget⟩

theorem properKeys_nil : ProperKeys [] := by
  refine ⟨by simp, fun e he => absurd he List.not_mem_nil⟩

theorem properKeys_discoverExtras (event : DiscoverFileEvent) :
    ProperKeys (discoverExtras event) := by
  refine ⟨?_, ?_⟩
  · simp only [discoverExtras, List.map_cons, List.map_nil]
    decide
  · have hweight : Json.weight (str "file_owner") = 0 ∧
        Json.weight (str "modification_date") = 0 := by decide
    intro e he
    simp only [discoverExtras, List.mem_cons, List.not_mem_nil, or_false] at he
    rcases he with rfl | rfl
    · exact ⟨plainStr_keys _ (by simp), hweight.1⟩
    · exact ⟨plainStr_keys _ (by simp), hweight.2⟩

/-! ## The four handlers -/

theorem matchedContent_faithful_iff (v : PolicyViolation) (actionTaken : StdString) :
    (∀ filePath volumeType,
      DecodesTo (queueIncident filePath volumeType v actionTaken).matchedContent (firstPairs v) [] ↔
        PlainMatches v) ∧
    (∀ clip,
      DecodesTo (queueClipboardIncident clip v actionTaken).matchedContent (firstPairs v) [] ↔
        PlainMatches v) ∧
    (∀ event,
      DecodesTo (browserUploadIncident event v actionTaken).matchedContent (firstPairs v) [] ↔
        PlainMatches v) ∧
    (∀ event,
      DecodesTo (discoverIncident event v actionTaken).matchedContent (firstPairs v)
          [(str "file_owner", event.fileOwner),
            (str "modification_date", event.modificationDate)] ↔
        PlainMatches v ∧ Json.PlainStr event.fileOwner ∧ Json.PlainStr event.modificationDate) := by
  have hplain : DecodesTo (matchesJson v ++ str "]\x7d") (firstPairs v) [] ↔ PlainMatches v := by
    rw [matchesJson_close, decodesTo_iff v properKeys_nil]
    exact and_iff_left fun e he => absurd he List.not_mem_nil
  refine ⟨fun _ _ => hplain, fun _ => hplain, fun _ => hplain, fun event => ?_⟩
  rw [discoverIncident_matchedContent]
  refine (decodesTo_iff v (properKeys_discoverExtras event)).trans (and_congr_right fun _ => ?_)
  simp [discoverExtras]

/-- A violation by a regular expression whose label is its source. -/
private def digitsViolation : PolicyViolation where
  triggered := true
  «matches» :=
    [{ patternId := 1, analyzerName := str "regex", label := str "\\d\x7b3\x7d",
       matchedText := str "123" }]

theorem not_matchedContent_faithful :
    ¬ ∀ (v : PolicyViolation) (filePath actionTaken : StdString) (volumeType : VolumeType),
        DecodesTo (queueIncident filePath volumeType v actionTaken).matchedContent
          (firstPairs v) [] := by
  intro hclaim
  obtain ⟨w, hparse, -⟩ := hclaim digitsViolation [] [] .fixed
  have hnone : (Json.parse (queueIncident [] .fixed digitsViolation []).matchedContent).isSome =
      false := by
    decide +kernel
  rw [hparse] at hnone
  cases hnone

end AkesoDlp.Agent
