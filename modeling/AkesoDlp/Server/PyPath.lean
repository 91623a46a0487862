import Mathlib.Data.List.Basic

/-!
# Python strings and paths

A `str` is the list of its characters. `lower` acts on ASCII: what the server
compares with a lowered name has no letter that another character lowers to.
Paths are those of `pathlib` and of `posixpath` and `ntpath` on Linux.
-/

namespace AkesoDlp.Server.Inspector

abbrev PyStr := List Char

/-- The characters of a literal. -/
def py (s : String) : PyStr := s.toList

/-- `str(n)` of a natural number. -/
def decimal (n : Nat) : PyStr := Nat.toDigits 10 n

/-- `str(n)` of an integer. -/
def strInt : Int → PyStr
  | .ofNat n => decimal n
  | .negSucc n => '-' :: decimal (n + 1)

/-- `str.lower`. -/
def lower (s : PyStr) : PyStr := s.map Char.toLower

/-- `str.isspace` of one character. -/
def isSpace (c : Char) : Bool :=
  let n := c.toNat
  (9 ≤ n && n ≤ 13) || (28 ≤ n && n ≤ 32) || n == 0x85 || n == 0xA0 || n == 0x1680 ||
    (0x2000 ≤ n && n ≤ 0x200A) || n == 0x2028 || n == 0x2029 || n == 0x202F || n == 0x205F ||
    n == 0x3000

/-- `not s.strip()`. -/
def isBlank (s : PyStr) : Bool := s.all isSpace

/-- `PurePosixPath(path).name`: the last part that is neither empty nor a dot. -/
def pathName (path : PyStr) : PyStr :=
  ((path.splitOn '/').filter fun part => part != [] && part != py ".").getLast?.getD []

/-- `PurePosixPath(path).suffix`: from the last dot of the name on, unless the dot
is its first or its last character. -/
def pathSuffix (path : PyStr) : PyStr :=
  let name := pathName path
  let tail := (name.reverse.takeWhile (· != '.')).reverse
  if tail ≠ [] ∧ tail.length + 1 < name.length then '.' :: tail else []

/-- `posixpath.isabs`. -/
def posixIsabs (path : PyStr) : Bool := (py "/").isPrefixOf path

/-- `ntpath.isabs`. -/
def ntIsabs (path : PyStr) : Bool :=
  let s := (path.take 3).map fun c => if c = '/' then '\\' else c
  (py "\\").isPrefixOf s || (py ":\\").isPrefixOf (s.drop 1)

/-- The names that `_WINDOWS_RESERVED` looks for, in lower case. -/
def windowsReserved : List PyStr :=
  [py "con", py "prn", py "aux", py "nul"] ++
    (py "123456789").flatMap fun digit => [py "com" ++ [digit], py "lpt" ++ [digit]]

/-- `_WINDOWS_RESERVED.match`: `$` also matches before a newline at the end. -/
def matchesWindowsReserved (part : PyStr) : Bool :=
  windowsReserved.any fun name =>
    name.isPrefixOf (lower part) &&
      (part.drop name.length == [] || part.drop name.length == py "\n" ||
        (py ".").isPrefixOf (part.drop name.length))

/-- `_validate_member_path`: the text of the `PathTraversalError` that it raises. -/
def validateMemberPath (repr : PyStr → PyStr) (name : PyStr) : Option PyStr :=
  if isBlank name then some (py "Empty archive member name")
  else if posixIsabs name || ntIsabs name then
    some (py "Absolute path in archive: " ++ repr name)
  else
    let parts := (name.map fun c => if c = '\\' then '/' else c).splitOn '/'
    parts.findSome? fun part =>
      if part = py ".." then some (py "Path traversal in archive: " ++ repr name)
      else if matchesWindowsReserved part then
        some (py "Reserved Windows name in archive: " ++ repr name)
      else none

example : pathName (py "a/b/report.tar.gz") = py "report.tar.gz" ∧
    pathSuffix (py "a/b/report.tar.gz") = py ".gz" ∧ pathSuffix (py ".profile") = [] := by decide

example : (validateMemberPath id (py "docs\\..\\x")).isSome = true ∧
    (validateMemberPath id (py "a/Aux.txt")).isSome = true ∧
    validateMemberPath id (py "a/console.txt") = none := by decide

/-! ## Suffixes -/

/-- Nothing but a dot lowers to a dot. -/
theorem toLower_eq_dot {c : Char} (h : c.toLower = '.') : c = '.' := by
  unfold Char.toLower at h
  split at h
  · next hupper =>
      have hval := congrArg Char.val h
      simp only at hval
      grind
  · exact h

/-- What follows the last slash is the last part. -/
theorem splitOn_append (front : PyStr) {file : PyStr} (hslash : '/' ∉ file) :
    ∃ parts start, (front ++ file).splitOn '/' = parts ++ [start ++ file] := by
  induction front with
  | nil =>
      refine ⟨[], [], List.splitOnP_eq_singleton fun c hc => ?_⟩
      rw [beq_eq_false_iff_ne]
      rintro rfl
      exact hslash hc
  | cons c front ih =>
      obtain ⟨parts, start, heq⟩ := ih
      unfold List.splitOn at heq ⊢
      rw [List.cons_append, List.splitOnP_cons_eq_if_modifyHead, heq]
      by_cases hc : (c == '/') = true
      · rw [if_pos hc]
        exact ⟨[] :: parts, start, rfl⟩
      · rw [if_neg hc]
        cases parts with
        | nil => exact ⟨[], c :: start, rfl⟩
        | cons part parts => exact ⟨(c :: part) :: parts, start, rfl⟩

theorem pathName_append (front : PyStr) {file : PyStr} (hslash : '/' ∉ file)
    (hlength : 1 < file.length) : ∃ start, pathName (front ++ file) = start ++ file := by
  obtain ⟨parts, start, heq⟩ := splitOn_append front hslash
  refine ⟨start, ?_⟩
  have hkept : ((start ++ file != []) && (start ++ file != py ".")) = true := by
    have hlong : 1 < (start ++ file).length := by
      rw [List.length_append]
      omega
    rw [Bool.and_eq_true, bne_iff_ne, bne_iff_ne]
    exact ⟨fun h => by simp [h] at hlong, fun h => by simp [h, py] at hlong⟩
  have hlast : [start ++ file].filter (fun part => part != [] && part != py ".") =
      [start ++ file] := List.filter_cons_of_pos hkept
  rw [pathName, heq, List.filter_append, hlast, List.getLast?_concat, Option.getD_some]

/-- The suffix of a name that does not start with its last dot. -/
theorem pathSuffix_append (front : PyStr) {stem tail : PyStr} (hstem : stem ≠ [])
    (htail : tail ≠ []) (hslash : '/' ∉ stem ++ '.' :: tail) (hdot : '.' ∉ tail) :
    pathSuffix (front ++ (stem ++ '.' :: tail)) = '.' :: tail := by
  have hstem_pos := List.length_pos_iff.mpr hstem
  obtain ⟨start, hname⟩ := pathName_append front hslash (by simp; omega)
  have htake : ((start ++ (stem ++ '.' :: tail)).reverse.takeWhile (· != '.')).reverse = tail := by
    have hrev : (start ++ (stem ++ '.' :: tail)).reverse =
        tail.reverse ++ '.' :: (start ++ stem).reverse := by simp
    have hall : ∀ c ∈ tail.reverse, (c != '.') = true := by
      intro c hc
      rw [bne_iff_ne]
      rintro rfl
      exact hdot (List.mem_reverse.mp hc)
    rw [hrev, List.takeWhile_append_of_pos hall, List.takeWhile_cons_of_neg (by decide),
      List.append_nil, List.reverse_reverse]
  simp only [pathSuffix, hname, htake]
  rw [if_pos ⟨htail, by simp; omega⟩]

/-- A name that ends, in any case, in a stem and an extension has this suffix. -/
theorem lower_pathSuffix {filename stem tail : PyStr} (hstem : stem ≠ []) (htail : tail ≠ [])
    (hslash : '/' ∉ stem ++ '.' :: tail) (hdot : '.' ∉ tail)
    (h : stem ++ '.' :: tail <:+ lower filename) : lower (pathSuffix filename) = '.' :: tail := by
  obtain ⟨front, happend⟩ := h
  obtain ⟨front, file, rfl, -, hfile⟩ := List.map_eq_append_iff.mp happend.symm
  obtain ⟨stem', rest, rfl, rfl, hrest⟩ := List.map_eq_append_iff.mp hfile
  obtain ⟨dot, tail', rfl, hdot', rfl⟩ := List.map_eq_cons_iff.mp hrest
  obtain rfl := toLower_eq_dot hdot'
  have hslash' : '/' ∉ stem' ++ '.' :: tail' := by
    intro hmem
    have hlower := List.mem_map_of_mem (f := Char.toLower) hmem
    rw [List.map_append, List.map_cons] at hlower
    exact hslash hlower
  rw [pathSuffix_append front (fun hnil => hstem (congrArg _ hnil))
    (fun hnil => htail (congrArg _ hnil)) hslash'
    fun hmem => hdot (List.mem_map_of_mem (f := Char.toLower) hmem)]
  rfl

end AkesoDlp.Server.Inspector
