import AkesoDlp.Agent.StdString
import AkesoDlp.Lib.JsonLayout
import AkesoDlp.Lib.TSys

/-!
# The uninstall password

`--set-uninstall-password` writes a random salt and a salted hash to the key file, and
`--uninstall` reads them back. Nothing checks that the write went through, and the file is
emptied before it.
-/

namespace AkesoDlp.Agent.UninstallPassword

open Lib

/-! ## The key file -/

/-- Two digits a byte, as `std::hex` with `setw(2)` and `setfill('0')` writes it. -/
def toHex (bytes : List UInt8) : StdString :=
  bytes.flatMap fun b => [Json.hexDigit (b.toNat / 16), Json.hexDigit (b.toNat % 16)]

/-- `':'`, `'\n'`, `'\r'` and `' '`. -/
def colon : UInt8 := 58
def newline : UInt8 := 10
def return' : UInt8 := 13
def space : UInt8 := 32

/-- `salt << ":" << hash << std::endl`, in text mode. -/
def keyText (salt hash : StdString) : StdString :=
  salt ++ colon :: hash ++ [return', newline]

/-- Text mode: a carriage return before a line feed is not seen. -/
def readText : StdString → StdString
  | [] => []
  | [b] => [b]
  | b :: b' :: rest =>
      if b = return' ∧ b' = newline then newline :: readText rest else b :: readText (b' :: rest)

/-- The first line, without its end. -/
def getline (text : StdString) : StdString := text.takeWhile (· ≠ newline)

def isTrimmed (b : UInt8) : Bool := b = newline ∨ b = return' ∨ b = space

/-- The loop over `back()`. -/
def trimEnd (s : StdString) : StdString := s.reverse.dropWhile isTrimmed |>.reverse

/-- The parts before and after the first colon. -/
def splitColon (line : StdString) : Option (StdString × StdString) :=
  match line.dropWhile (· ≠ colon) with
  | [] => none
  | _ :: rest => some (line.takeWhile (· ≠ colon), rest)

/-! ## Setting and verifying -/

/-- What the calls of `SetUninstallPassword` come back with. -/
structure SetOutcome where
  /-- `BCryptGenRandom`. -/
  salt : Option { l : List UInt8 // l.length = 16 }
  /-- The hash of BCrypt. -/
  hashed : Bool
  /-- The directory is there, and the file is opened. -/
  opened : Bool
  /-- The number of bytes that get into the file. -/
  written : Nat

/-- What the calls of `--uninstall` come back with. -/
structure UninstallOutcome where
  /-- The file can be read. -/
  opened : Bool
  hashed : Bool

section

-- the hash of BCrypt, of 32 bytes
variable (sha256 : StdString → { l : List UInt8 // l.length = 32 })

/-- `HashPassword`; empty where BCrypt fails. -/
def hashPassword (hashed : Bool) (salt password : StdString) : StdString :=
  if hashed then toHex (sha256 (salt ++ password)).val else []

/-- `SetUninstallPassword`: the key file afterwards, and the result. -/
def setUninstallPassword (file : Option StdString) (password : StdString) (o : SetOutcome) :
    Option StdString × Bool :=
  if password.isEmpty then (file, false)
  else
    match o.salt with
    | none => (file, false)
    | some salt =>
        let hash := hashPassword sha256 o.hashed (toHex salt.val) password
        if hash.isEmpty then (file, false)
        else if o.opened then (some ((keyText (toHex salt.val) hash).take o.written), true)
        else (file, false)

/-- `HasUninstallPassword`. -/
def hasUninstallPassword (file : Option StdString) : Bool :=
  match file with
  | none => false
  | some content => 0 < content.length

/-- `VerifyUninstallPassword`. -/
def verifyUninstallPassword (file : Option StdString) (password : StdString)
    (o : UninstallOutcome) : Bool :=
  match file with
  | none => true
  | some content =>
      if !hasUninstallPassword file then true
      else if !o.opened then true
      else
        match splitColon (getline (readText content)) with
        | none => false
        | some (salt, hash) =>
            let computed := hashPassword sha256 o.hashed salt password
            !computed.isEmpty && computed == trimEnd hash

/-- The branch `--uninstall` of `main`, up to `UninstallService`. -/
def uninstallAllowed (file : Option StdString) (password : StdString) (o : UninstallOutcome) :
    Bool :=
  if hasUninstallPassword file then
    !password.isEmpty && verifyUninstallPassword sha256 file password o
  else true

/-! ## Runs -/

/-- A password that was reported as set, and how much of its file was written. -/
structure Written where
  salt : { l : List UInt8 // l.length = 16 }
  password : StdString
  count : Nat

structure State where
  file : Option StdString
  last : Option Written

/-- `--set-uninstall-password`. -/
structure Command where
  password : StdString
  outcome : SetOutcome

def step (s : State) (c : Command) : Option State :=
  let r := setUninstallPassword sha256 s.file c.password c.outcome
  some {
    file := r.1
    last := match r.2, c.outcome.salt with
      | true, some salt => some ⟨salt, c.password, c.outcome.written⟩
      | _, _ => s.last }

/-- The key file of an installation, from before a password is set. -/
def keyFile : TSys State Command where
  init := fun s => s = ⟨none, none⟩
  step := step sha256

/-- What `SetUninstallPassword` writes, if all of it is written. -/
def Written.text (w : Written) : StdString :=
  keyText (toHex w.salt.val) (toHex (sha256 (toHex w.salt.val ++ w.password)).val)

end

/-! ## The file that is read -/

theorem hexDigit_spec : ∀ v < 16, Json.hexDigit v ≠ colon ∧ isTrimmed (Json.hexDigit v) = false ∧
    Json.hexDigit v ≠ return' ∧ Json.hexDigit v ≠ newline := by
  decide

/-- The digits are none of the signs of the file. -/
theorem toHex_spec {bytes : List UInt8} {b : UInt8} (h : b ∈ toHex bytes) :
    b ≠ colon ∧ isTrimmed b = false ∧ b ≠ return' ∧ b ≠ newline := by
  obtain ⟨a, -, hb⟩ := List.mem_flatMap.mp h
  have hlt := a.toNat_lt
  simp only [List.mem_cons, List.not_mem_nil, or_false] at hb
  rcases hb with rfl | rfl
  · exact hexDigit_spec _ (by omega)
  · exact hexDigit_spec _ (by omega)

theorem length_toHex (bytes : List UInt8) : (toHex bytes).length = 2 * bytes.length := by
  induction bytes with
  | nil => rfl
  | cons b bytes ih =>
      rw [toHex, List.flatMap_cons, List.length_append, ← toHex, ih]
      simp only [List.length_cons, List.length_nil]
      omega

theorem toHex_injective : Function.Injective toHex := by
  have hdigit : ∀ v < 16, ∀ w < 16, Json.hexDigit v = Json.hexDigit w → v = w := by decide
  intro s t h
  have hlength := congrArg List.length h
  rw [length_toHex, length_toHex] at hlength
  induction s generalizing t with
  | nil => exact (List.eq_nil_of_length_eq_zero (by rw [List.length_nil] at hlength; omega)).symm
  | cons b s ih =>
      cases t with
      | nil =>
          rw [List.length_cons, List.length_nil] at hlength
          omega
      | cons b' t =>
          simp only [toHex, List.flatMap_cons, List.cons_append, List.nil_append,
            List.cons.injEq] at h
          obtain ⟨hhigh, hlow, hrest⟩ := h
          have hb := b.toNat_lt
          have hb' := b'.toNat_lt
          have h₁ := hdigit _ (by omega) _ (by omega) hhigh
          have h₂ := hdigit _ (by omega) _ (by omega) hlow
          have heq : b = b' := UInt8.toNat_inj.mp (by omega)
          rw [List.length_cons, List.length_cons] at hlength
          rw [heq, ih hrest (by omega)]

theorem readText_append {s : StdString} (h : return' ∉ s) (t : StdString) :
    readText (s ++ t) = s ++ readText t := by
  induction s with
  | nil => rfl
  | cons b s ih =>
      rw [List.mem_cons, not_or] at h
      cases hrest : s ++ t with
      | nil =>
          obtain ⟨rfl, rfl⟩ := List.append_eq_nil_iff.mp hrest
          rfl
      | cons b' rest =>
          rw [List.cons_append, hrest, readText, if_neg fun hb => h.1 hb.1.symm, ← hrest, ih h.2,
            List.cons_append]

theorem getline_append {s : StdString} (h : newline ∉ s) (t : StdString) :
    getline (s ++ t) = s ++ getline t :=
  List.takeWhile_append_of_pos fun _ hb => decide_eq_true (ne_of_mem_of_not_mem hb h)

/-- The first line of a file that breaks off; what may be left of its end is trimmed. -/
theorem line_take {body : StdString} (hreturn : return' ∉ body) (hnewline : newline ∉ body)
    (count : Nat) : ∃ ending, (∀ b ∈ ending, isTrimmed b = true) ∧ colon ∉ ending ∧
      getline (readText ((body ++ [return', newline]).take count)) = body.take count ++ ending := by
  have hline (ending : StdString) : getline (readText (body.take count ++ ending)) =
      body.take count ++ getline (readText ending) := by
    rw [readText_append fun h => hreturn (List.mem_of_mem_take h),
      getline_append fun h => hnewline (List.mem_of_mem_take h)]
  rw [List.take_append, hline]
  match count - body.length with
  | 0 => exact ⟨[], nofun, nofun, rfl⟩
  | 1 => exact ⟨[return'], List.forall_mem_singleton.mpr rfl, by decide, rfl⟩
  | n + 2 => exact ⟨[], nofun, nofun, rfl⟩

theorem splitColon_append {salt : StdString} (h : colon ∉ salt) (rest : StdString) :
    splitColon (salt ++ colon :: rest) = some (salt, rest) := by
  have hsalt : ∀ b ∈ salt, decide (b ≠ colon) = true := fun b hb =>
    decide_eq_true (ne_of_mem_of_not_mem hb h)
  rw [splitColon, List.dropWhile_append_of_pos hsalt, List.takeWhile_append_of_pos hsalt]
  simp

theorem splitColon_eq_none {line : StdString} (h : colon ∉ line) : splitColon line = none := by
  have hdrop : line.dropWhile (· ≠ colon) = [] :=
    List.dropWhile_eq_nil_iff.mpr fun b hb => decide_eq_true (ne_of_mem_of_not_mem hb h)
  rw [splitColon, hdrop]

theorem trimEnd_append {hash ending : StdString} (hhash : ∀ b ∈ hash, isTrimmed b = false)
    (hending : ∀ b ∈ ending, isTrimmed b = true) : trimEnd (hash ++ ending) = hash := by
  have hkept : hash.reverse.dropWhile isTrimmed = hash.reverse := by
    cases hrev : hash.reverse with
    | nil => rfl
    | cons b rest =>
        have hb : b ∈ hash := List.mem_reverse.mp (hrev ▸ List.mem_cons_self)
        rw [List.dropWhile_cons_of_neg (by simp [hhash b hb])]
  rw [trimEnd, List.reverse_append,
    List.dropWhile_append_of_pos fun b hb => hending b (List.mem_reverse.mp hb), hkept,
    List.reverse_reverse]

/-! ## What is allowed -/

/-- What is read of a key file that breaks off. -/
theorem splitColon_take (salt hash : StdString) (hsalt : colon ∉ salt)
    (hhash : ∀ b ∈ hash, isTrimmed b = false) (hreturn : return' ∉ salt ++ hash)
    (hnewline : newline ∉ salt ++ hash) (count : Nat) :
    (splitColon (getline (readText ((keyText salt hash).take count)))).map
        (fun parts => (parts.1, trimEnd parts.2)) =
      if salt.length < count then some (salt, hash.take (count - (salt.length + 1))) else none := by
  rw [List.mem_append, not_or] at hreturn hnewline
  have hbody {c : UInt8} (hs : c ∉ salt) (hh : c ∉ hash) (hc : c ≠ colon) :
      c ∉ salt ++ colon :: hash := by
    simp [hs, hh, hc]
  obtain ⟨ending, htrimmed, hcolon, hline⟩ := line_take
    (hbody hreturn.1 hreturn.2 (by decide)) (hbody hnewline.1 hnewline.2 (by decide)) count
  rw [keyText, hline]
  split
  · next hlt =>
    have hcount : count - salt.length = count - (salt.length + 1) + 1 := by omega
    rw [List.take_append, List.take_of_length_le (Nat.le_of_lt hlt), hcount,
      List.take_succ_cons, List.append_assoc, List.cons_append, splitColon_append hsalt,
      Option.map_some,
      trimEnd_append (fun b hb => hhash b (List.mem_of_mem_take hb)) htrimmed]
  · next hle =>
    rw [List.take_append_of_le_length (Nat.le_of_not_lt hle), splitColon_eq_none, Option.map_none]
    rw [List.mem_append, not_or]
    exact ⟨fun h => hsalt (List.mem_of_mem_take h), hcolon⟩

variable {sha256 : StdString → { l : List UInt8 // l.length = 32 }}

theorem hashPassword_eq {hashed : Bool} {salt password : StdString} {hash : List UInt8}
    (hlength : hash.length = 32) (count : Nat) :
    (!(hashPassword sha256 hashed salt password).isEmpty &&
        hashPassword sha256 hashed salt password == (toHex hash).take count) = true ↔
      hashed = true ∧ 64 ≤ count ∧ (sha256 (salt ++ password)).val = hash := by
  cases hashed with
  | false => simp [hashPassword]
  | true =>
      have hcomputed : (toHex (sha256 (salt ++ password)).val).length = 64 := by
        rw [length_toHex, (sha256 (salt ++ password)).property]
      have hne : (toHex (sha256 (salt ++ password)).val).isEmpty = false := by
        rw [List.isEmpty_eq_false_iff, ← List.length_pos_iff]
        omega
      rw [hashPassword, if_pos rfl, hne, Bool.not_false, Bool.true_and, beq_iff_eq]
      have hfull : (toHex hash).length = 64 := by rw [length_toHex, hlength]
      constructor
      · intro heq
        have hle := congrArg List.length heq
        rw [hcomputed, List.length_take, hfull] at hle
        have hcount : 64 ≤ count := by omega
        rw [List.take_of_length_le (by omega)] at heq
        exact ⟨rfl, hcount, toHex_injective heq⟩
      · rintro ⟨-, hcount, heq⟩
        rw [heq, List.take_of_length_le (by omega)]

/-- The file holds what was written of the last password. -/
structure Inv (sha256 : StdString → { l : List UInt8 // l.length = 32 }) (s : State) : Prop where
  file : s.file = s.last.map fun w => (w.text sha256).take w.count

theorem inv_step {s s' : State} {c : Command} (h : Inv sha256 s)
    (hstep : step sha256 s c = some s') : Inv sha256 s' := by
  obtain ⟨password, salt, hashed, opened, written⟩ := c
  obtain rfl := Option.some.inj hstep
  constructor
  simp only [setUninstallPassword]
  cases password with
  | nil => exact h.file
  | cons b password =>
      cases salt with
      | none => exact h.file
      | some salt =>
          cases hashed with
          | false => exact h.file
          | true =>
              cases opened with
              | false =>
                  simp only [List.isEmpty_cons, Bool.false_eq_true, ↓reduceIte, ite_self]
                  exact h.file
              | true =>
                  have hne : (hashPassword sha256 true (toHex salt.val) (b :: password)).isEmpty =
                      false := by
                    rw [hashPassword, if_pos rfl, List.isEmpty_eq_false_iff, ← List.length_pos_iff,
                      length_toHex, (sha256 _).property]
                    decide
                  simp only [List.isEmpty_cons, hne, Bool.false_eq_true, ↓reduceIte]
                  rfl

theorem inv_inductive : (keyFile sha256).InductiveBy (fun _ _ => True) (Inv sha256) where
  init := by
    rintro s rfl
    exact ⟨rfl⟩
  step := fun _ _ _ h _ hstep => inv_step h hstep

theorem hasUninstallPassword_text (w : Written) :
    hasUninstallPassword (some ((w.text sha256).take w.count)) = decide (0 < w.count) := by
  have hlength : 0 < (w.text sha256).length := by
    rw [Written.text, keyText, List.length_append]
    exact Nat.lt_add_left _ Nat.zero_lt_two
  rw [hasUninstallPassword, List.length_take]
  exact decide_eq_decide.mpr (by omega)

theorem verify_text (w : Written) (hcount : 0 < w.count) (password : StdString)
    (o : UninstallOutcome) :
    verifyUninstallPassword sha256 (some ((w.text sha256).take w.count)) password o = true ↔
      o.opened = false ∨ 97 ≤ w.count ∧ o.hashed = true ∧
        sha256 (toHex w.salt.val ++ password) = sha256 (toHex w.salt.val ++ w.password) := by
  have hsalt : (toHex w.salt.val).length = 32 := by rw [length_toHex, w.salt.property]
  have hparts := splitColon_take (toHex w.salt.val)
    (toHex (sha256 (toHex w.salt.val ++ w.password)).val)
    (fun h => (toHex_spec h).1 rfl) (fun b hb => (toHex_spec hb).2.1)
    (by simpa using ⟨fun h => (toHex_spec h).2.2.1 rfl, fun h => (toHex_spec h).2.2.1 rfl⟩)
    (by simpa using ⟨fun h => (toHex_spec h).2.2.2 rfl, fun h => (toHex_spec h).2.2.2 rfl⟩) w.count
  rw [verifyUninstallPassword, hasUninstallPassword_text, decide_eq_true hcount]
  cases hopened : o.opened with
  | false => simp
  | true =>
      rw [hsalt] at hparts
      simp only [Bool.not_true, Bool.false_eq_true, ↓reduceIte, Bool.true_eq_false, false_or]
      split
      · next hnone =>
        rw [Written.text] at hnone
        rw [hnone, Option.map_none] at hparts
        split at hparts
        · cases hparts
        · refine iff_of_false Bool.false_ne_true ?_
          rintro ⟨hle, -⟩
          omega
      · next salt hash hsome =>
        rw [Written.text] at hsome
        rw [hsome, Option.map_some] at hparts
        split at hparts
        · obtain ⟨rfl, htrim⟩ := Prod.mk.inj (Option.some.inj hparts)
          rw [htrim, hashPassword_eq (sha256 _).property, ← Subtype.ext_iff]
          constructor
          · rintro ⟨hhashed, hcount, heq⟩
            exact ⟨by omega, hhashed, heq⟩
          · rintro ⟨hcount, hhashed, heq⟩
            exact ⟨hhashed, by omega, heq⟩
        · cases hparts

/-- Over every run of password changes, whatever fails in them and wherever the writing breaks
off: the service can be uninstalled with a password exactly if no byte of a key file has been
written since the last change that reported success, or the file cannot be read, or it was
written to the end of the hash and the password hashes to it. A change that fails leaves the
password before it; one that is cut off takes it away without a report. -/
theorem uninstall_allowed_iff {s : State} (h : (keyFile sha256).Reachable s)
    (password : StdString) (o : UninstallOutcome) :
    uninstallAllowed sha256 s.file password o = true ↔
      ∀ w, s.last = some w → 0 < w.count → password ≠ [] ∧
        (o.opened = false ∨ 97 ≤ w.count ∧ o.hashed = true ∧
          sha256 (toHex w.salt.val ++ password) = sha256 (toHex w.salt.val ++ w.password)) := by
  have hfile := (inv_inductive.invariant s h).file
  rw [uninstallAllowed, hfile]
  cases hlast : s.last with
  | none => simp [hasUninstallPassword]
  | some w =>
      rw [Option.map_some]
      by_cases hcount : w.count = 0
      · simp [hcount, hasUninstallPassword]
      · have hpos : 0 < w.count := Nat.pos_of_ne_zero hcount
        rw [hasUninstallPassword_text, if_pos (decide_eq_true hpos), Bool.and_eq_true,
          verify_text w hpos]
        simp [hpos]

def sampleSalt : { l : List UInt8 // l.length = 16 } :=
  ⟨[0, 1, 2, 3, 4, 5, 6, 7, 8, 9, 10, 11, 12, 13, 14, 15], rfl⟩

/-- The hashes of the salt with two passwords. -/
def sampleSha256 (input : StdString) : { l : List UInt8 // l.length = 32 } :=
  if input = toHex sampleSalt.val ++ str "Secret" then
    ⟨[252, 127, 243, 255, 93, 8, 35, 24, 7, 70, 175, 75, 16, 225, 55, 87, 95, 179, 17, 43, 26, 80,
    186, 201, 17, 29, 95, 147, 234, 40, 225, 206], rfl⟩
  else if input = toHex sampleSalt.val ++ str "guess" then
    ⟨[209, 33, 13, 168, 89, 242, 9, 200, 42, 66, 189, 83, 30, 27, 14, 111, 241, 8, 251, 88, 69, 35,
    147, 157, 137, 135, 55, 78, 179, 55, 182, 26], rfl⟩
  else ⟨List.replicate 32 0, rfl⟩

/-- A password is set, a change of it fails, and neither an empty password nor a wrong one
uninstalls. -/
theorem uninstall_allowed_iff_set : ∃ s, (keyFile sampleSha256).run ⟨none, none⟩
    [⟨str "Secret", some sampleSalt, true, true, 99⟩, ⟨str "guess", none, true, true, 99⟩] =
      some s ∧
    uninstallAllowed sampleSha256 s.file [] ⟨true, true⟩ = false ∧
    uninstallAllowed sampleSha256 s.file (str "guess") ⟨true, true⟩ = false ∧
    (uninstallAllowed sampleSha256 s.file (str "Secret") ⟨true, true⟩ = true ↔
      ∀ w, s.last = some w → 0 < w.count → str "Secret" ≠ [] ∧
        (true = false ∨ 97 ≤ w.count ∧ true = true ∧
          sampleSha256 (toHex w.salt.val ++ str "Secret") =
            sampleSha256 (toHex w.salt.val ++ w.password))) :=
  ⟨_, rfl, by decide +kernel, by decide +kernel, uninstall_allowed_iff (TSys.reachable_run
    (TSys.ReachableBy.init rfl)
    [⟨str "Secret", some sampleSalt, true, true, 99⟩, ⟨str "guess", none, true, true, 99⟩] rfl)
    (str "Secret") ⟨true, true⟩⟩

end AkesoDlp.Agent.UninstallPassword
