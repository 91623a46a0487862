import AkesoDlp.Agent.ContainerTree
import AkesoDlp.Agent.TextEncodings

/-!
# The leaves of nested containers

A printable leaf is extracted as it is, whichever way its type is taken; so its text is
found if the containers around it are opened, whatever the other members are. The levels
of `ExtractZip` bound how deep these may be.
-/

namespace AkesoDlp.Agent

/-! ## Printable leaves -/

section

variable {options : ExtractionOptions} {text : StdString}

theorem stringRuns_printable (hmax : 0 < options.maxTextSize)
    (h : ∀ b ∈ text, isPrintable b = true) (run : StdString) :
    stringRuns options text [] run = ([], run ++ text) := by
  induction text generalizing run with
  | nil => rw [stringRuns, List.append_nil]
  | cons b rest ih =>
      rw [List.forall_mem_cons] at h
      rw [stringRuns, List.length_nil, if_pos hmax, if_pos h.1, ih h.2,
        List.append_assoc, List.singleton_append]

theorem extractBinaryStrings_printable (h : PrintableLeaf options text) (hne : text ≠ [])
    (filename : StdString) :
    extractBinaryStrings options text filename = extractedResult text filename .unknown := by
  have hmax : 0 < options.maxTextSize :=
    Nat.lt_of_lt_of_le (List.length_pos_iff.mpr hne) h.size
  have hprintable : ∀ b ∈ text, isPrintable b = true := by
    intro b hb
    obtain ⟨hlow, hhigh⟩ := h.printable b hb
    simp [isPrintable, hlow, hhigh]
  rw [extractBinaryStrings, if_neg hne, stringRuns_printable hmax hprintable]
  simp only [List.nil_append, if_pos h.run, if_neg hne]

/-- No byte order mark starts with a printable character. -/
theorem take_ne_of_printable (h : ∀ b ∈ text, 0x20 ≤ b ∧ b ≤ 0x7E) (mark : UInt8)
    (hmark : ¬ (0x20 ≤ mark ∧ mark ≤ 0x7E)) (n : Nat) (rest : StdString) :
    text.take n ≠ mark :: rest := by
  intro heq
  exact hmark (h mark (List.mem_of_mem_take (heq ▸ List.mem_cons_self)))

theorem detectEncoding_printable (h : ∀ b ∈ text, 0x20 ≤ b ∧ b ≤ 0x7E) :
    detectEncoding text = .ascii := by
  have hbom : detectBom text = none := by
    unfold detectBom
    rw [if_neg (take_ne_of_printable h 0xFF (by decide) _ _),
      if_neg (take_ne_of_printable h 0x00 (by decide) _ _),
      if_neg (take_ne_of_printable h 0xFF (by decide) _ _),
      if_neg (take_ne_of_printable h 0xFE (by decide) _ _),
      if_neg (take_ne_of_printable h 0xEF (by decide) _ _)]
  have hzero : ∀ b ∈ text, b ≠ 0 := by
    rintro b hb rfl
    exact absurd (h 0 hb) (by decide)
  have hutf16 : detectUtf16 text = none := detectUtf16_of_no_nul hzero
  have hhigh : ((text.take 4096).any fun b => decide (0x7F < b)) = false := by
    rw [List.any_eq_false]
    intro b hb
    have hle := (h b (List.mem_of_mem_take hb)).2
    rw [decide_eq_true_eq, UInt8.not_lt]
    exact UInt8.le_trans hle (by decide)
  rw [detectEncoding, hbom, hutf16]
  simp only [Option.or_none, hhigh]
  rfl

theorem extractPlainText_printable (h : PrintableLeaf options text) (hne : text ≠ [])
    (filename : StdString) :
    extractPlainText options text filename = extractedResult text filename .document := by
  have hconvert : convertToUtf8 text .ascii = text :=
    if_neg (take_ne_of_printable h.printable 0xEF (by decide) _ _)
  rw [extractPlainText, if_neg hne, detectEncoding_printable h.printable, hconvert,
    List.take_of_length_le h.size]

/-- However its type is taken, a leaf that is not opened is extracted as it is. -/
theorem extractMember_printable (h : PrintableLeaf options text) (hne : text ≠ [])
    (type : FileTypeResult) (filename memberName : StdString) :
    ∃ result ∈ extractMember options type text filename memberName,
      result.success = true ∧ result.text = text := by
  have hresult : ∃ category, extractMember options type text filename memberName =
      [extractedResult text memberName category] := by
    simp only [extractMember, extractPlainText_printable h hne,
      extractBinaryStrings_printable h hne]
    split
    · exact ⟨.document, if_pos ⟨rfl, hne⟩⟩
    · exact ⟨.unknown, if_pos ⟨rfl, hne⟩⟩
  obtain ⟨category, hresult⟩ := hresult
  rw [hresult]
  exact ⟨_, List.mem_singleton_self _, rfl, rfl⟩

/-! ## The dispatch -/

/-- The types of ZIP containers, with which `Extract` goes to `ExtractZip`. -/
def IsZipFormat (type : FileTypeResult) : Prop :=
  (type.typeName, type.category) ∈
    [("ZIP", FileCategory.archive), ("JAR", .archive), ("APK", .archive), ("DOCX", .document),
      ("XLSX", .spreadsheet), ("PPTX", .presentation), ("ODT", .document), ("ODS", .spreadsheet),
      ("ODP", .presentation)]

instance (type : FileTypeResult) : Decidable (IsZipFormat type) :=
  inferInstanceAs (Decidable (_ ∈ _))

theorem extract_zip {inflate : Inflate} {detector : FileTypeDetector} {type : FileTypeResult}
    (h : IsZipFormat type) {data : StdString}
    (hdata : data ≠ []) (hsize : data.length ≤ options.maxTextSize) (filename : StdString) :
    extract options inflate detector data type filename =
      extractZip options inflate detector options.maxZipDepth.toNat data filename := by
  obtain ⟨typeName, category, confidence⟩ := type
  rw [extract, if_neg hdata, List.take_of_length_le hsize]
  simp only [IsZipFormat, List.mem_cons, List.not_mem_nil, or_false, Prod.mk.injEq] at h
  rcases h with ⟨rfl, rfl⟩ | ⟨rfl, rfl⟩ | ⟨rfl, rfl⟩ | ⟨rfl, rfl⟩ | ⟨rfl, rfl⟩ | ⟨rfl, rfl⟩ |
    ⟨rfl, rfl⟩ | ⟨rfl, rfl⟩ | ⟨rfl, rfl⟩ <;> simp

end

/-! ## Trees -/

section

variable (options : ExtractionOptions) (inflate : Inflate) (detector : FileTypeDetector)

/-- A printable leaf is not taken for a container, and a nested container with one is
recognised as one that is opened. -/
def MemberHeader.TakenRight (header : MemberHeader) : ContainerTree → Prop
  | .leaf text => PrintableLeaf options text →
      reopens (memberType detector text header.name) = false
  | .directory => True
  | .container members tail =>
      (∃ text ∈ (ContainerTree.container members tail).leaves, PrintableLeaf options text) →
        reopens (memberType detector (ContainerTree.container members tail).bytes header.name) =
          true

namespace ContainerTree

mutual

/-- The containers around the printable leaves are opened, and none of these leaves. -/
def Reopened : ContainerTree → Prop
  | leaf _ => True
  | directory => True
  | container members _ => AllReopened members

def AllReopened : List (MemberHeader × ContainerTree) → Prop
  | [] => True
  | (header, tree) :: rest =>
      (header.TakenRight options detector tree ∧ tree.Reopened) ∧ AllReopened rest

end

theorem allReopened_iff (members : List (MemberHeader × ContainerTree)) :
    AllReopened options detector members ↔
      ∀ member ∈ members, member.1.TakenRight options detector member.2 ∧
        member.2.Reopened options detector := by
  induction members with
  | nil => simp [AllReopened]
  | cons member rest ih =>
      obtain ⟨header, tree⟩ := member
      rw [AllReopened, ih, List.forall_mem_cons]

variable {options inflate detector}

/-- A tree with a leaf that is not empty has data. -/
theorem bytes_ne_nil {tree : ContainerTree} {text : StdString} (htext : text ∈ tree.leaves)
    (hne : text ≠ []) : tree.bytes ≠ [] := by
  cases tree with
  | leaf own =>
      rw [leaves, List.mem_singleton] at htext
      exact htext ▸ hne
  | directory => simp [leaves] at htext
  | container members tail =>
      cases members with
      | nil => simp [leaves, leavesOf] at htext
      | cons member rest =>
          obtain ⟨header, tree⟩ := member
          simp [bytes, records, MemberHeader.record]

/-- The results of a container are those of its entries. -/
theorem mem_extractZip {levels : Nat} {data filename : StdString} {entry : ZipEntry}
    {result : MemberResult} (hdata : data ≠ []) (hentry : entry ∈ parseZipDirectory options data)
    (hresult : result ∈ extractEntry options inflate detector
      (extractZip options inflate detector levels) data filename entry) :
    result ∈ extractZip options inflate detector (levels + 1) data filename := by
  rw [extractZip, if_neg hdata]
  dsimp only
  rw [if_neg (List.ne_nil_of_mem hentry)]
  exact List.mem_flatMap.mpr ⟨entry, hentry, hresult⟩

/-- A printable leaf is found, as long as there are levels for the containers. -/
theorem extractZip_finds {levels : Nat} {members : List (MemberHeader × ContainerTree)}
    {tail : StdString} (h : (container members tail).WellFormed options inflate)
    (hdepth : (container members tail).depth ≤ levels)
    (hreopened : (container members tail).Reopened options detector) (filename : StdString)
    {text : StdString} (htext : text ∈ (container members tail).leaves)
    (hprintable : PrintableLeaf options text) (hne : text ≠ []) :
    ∃ result ∈ extractZip options inflate detector levels (container members tail).bytes filename,
      result.success = true ∧ text <:+: result.text := by
  induction levels generalizing members tail filename with
  | zero => simp [depth] at hdepth
  | succ levels ih =>
      have hdata := bytes_ne_nil htext hne
      have hparse := parseZipDirectory_container h
      rw [WellFormed] at h
      rw [Reopened, allReopened_iff] at hreopened
      rw [leaves, mem_leavesOf] at htext
      obtain ⟨⟨header, tree⟩, hmem, htext⟩ := htext
      obtain ⟨-, -, hwell⟩ := (allWellFormed_iff ..).mp h.2.2 _ hmem
      obtain ⟨htaken, hreopen⟩ := hreopened _ hmem
      have hbytes := bytes_ne_nil htext hne
      have hkind : tree.IsDirectory = false := by
        cases tree with
        | directory => exact absurd rfl hbytes
        | leaf own => rfl
        | container inner innerTail => rfl
      obtain ⟨entry, hentry, hname, hdecompressed⟩ := exists_entry h.2.2 [] tail hmem hbytes hkind
      have hfound : ∃ result ∈ extractEntry options inflate detector
          (extractZip options inflate detector levels) (container members tail).bytes filename
          entry,
          result.success = true ∧ text <:+: result.text := by
        rw [List.nil_append, ← bytes] at hdecompressed
        simp only [extractEntry, hdecompressed, hname, if_neg hbytes]
        cases tree with
        | directory => exact absurd rfl hbytes
        | leaf own =>
            obtain rfl : text = own := List.mem_singleton.mp htext
            have htaken : reopens (memberType detector text header.name) = false :=
              htaken hprintable
            rw [bytes, if_neg (by rw [htaken]; exact Bool.false_ne_true)]
            obtain ⟨result, hresult, hsuccess, heq⟩ :=
              extractMember_printable hprintable hne _ header.name _
            refine ⟨result, hresult, hsuccess, ?_⟩
            rw [heq]
        | container inner innerTail =>
            have htaken : reopens (memberType detector (container inner innerTail).bytes
              header.name) = true := htaken ⟨text, htext, hprintable⟩
            rw [if_pos htaken]
            refine ih hwell ?_ hreopen _ htext
            have hle := depth_le_depthOf hmem
            rw [depth] at hdepth
            exact Nat.le_of_lt_succ (Nat.lt_of_le_of_lt hle (Nat.lt_of_succ_le hdepth))
      obtain ⟨result, hresult, hrest⟩ := hfound
      exact ⟨result, mem_extractZip hdata (hparse ▸ hentry) hresult, hrest⟩

variable (options inflate detector)

/-- A container that is recognised, with everything within the options. -/
structure InScope (tree : ContainerTree) (filename : StdString) : Prop where
  container : ∃ members tail, tree = .container members tail
  recognised : IsZipFormat (detector.detect tree.bytes filename)
  wellFormed : tree.WellFormed options inflate
  size : tree.bytes.length ≤ options.maxTextSize
  depth : (tree.depth : Int) ≤ options.maxZipDepth

/-- The text of every printable leaf occurs in a successful result. -/
def FindsLeaves (tree : ContainerTree) (filename : StdString) : Prop :=
  ∀ text ∈ tree.leaves, PrintableLeaf options text →
    ∃ result ∈ extract options inflate detector tree.bytes
      (detector.detect tree.bytes filename) filename, result.success = true ∧ text <:+: result.text

/-- `Extract` finds every printable leaf if it opens the containers around it and does not
take it for one; an empty leaf is printable only where no run is asked for. -/
theorem findsLeaves_of_reopened (tree : ContainerTree) (filename : StdString)
    (h : InScope options inflate detector tree filename)
    (hreopened : tree.Reopened options detector)
    (hempty : options.minStringRun = 0 → [] ∉ tree.leaves) :
    FindsLeaves options inflate detector tree filename := by
  obtain ⟨⟨members, tail, rfl⟩, hrecognised, hwell, hsize, hdepth⟩ := h
  intro text htext hprintable
  have hne : text ≠ [] := by
    rintro rfl
    exact hempty (Nat.le_zero.mp hprintable.run) htext
  rw [extract_zip hrecognised (bytes_ne_nil htext hne) hsize]
  have hlevels : (container members tail).depth ≤ options.maxZipDepth.toNat := by omega
  exact extractZip_finds hwell hlevels hreopened filename htext hprintable hne

end ContainerTree

end

/-! ## A package in an archive -/

/-- The raw deflate stream of `secret`. -/
def deflatedSecret : StdString := [43, 78, 77, 46, 74, 45, 1, 0]

def inflateSecret : Inflate := fun stream room =>
  if stream = deflatedSecret ∧ 6 ≤ room then some (str "secret") else none

/-- One deflated file in a container. -/
def packed (name : String) : ContainerTree :=
  .container [({ name := str name, deflated := some deflatedSecret }, .leaf (str "secret"))]
    [0x50, 0x4B, 0x01, 0x02]

/-- A stored container in a container, beside a picture. -/
def wrapped (name : String) (inner : ContainerTree) : ContainerTree :=
  .container
    [({ name := str name }, inner),
      ({ name := str "logo.png" }, .leaf [0x89, 0x50, 0x4E, 0x47, 10])]
    [0x50, 0x4B, 0x01, 0x02]

theorem printable_secret : PrintableLeaf {} (str "secret") where
  run := by decide
  size := by decide
  printable := by
    have hprintable : (str "secret").all (fun b => decide (0x20 ≤ b ∧ b ≤ 0x7E)) = true := by
      decide
    exact fun b hb => of_decide_eq_true (List.all_eq_true.mp hprintable b hb)

theorem wellFormed_packed {name : String}
    (hname : str name ≠ [] ∧ (str name).getLast? ≠ some 47 ∧ (str name).length < 256 ^ 2) :
    (packed name).WellFormed {} inflateSecret := by
  have hcount : 1 ≤ ExtractionOptions.entryLimit {} := by decide
  have hextra : 0 < 256 ^ 2 := by decide
  have hcompressed : 8 < 256 ^ 4 := by decide
  refine ⟨hcount, by decide, ⟨⟨hname.2.2, hextra, by decide, hcompressed, ?_⟩,
    ⟨hname.1, hname.2.1⟩, trivial⟩, trivial⟩
  rintro stream ⟨⟩
  exact ⟨by decide, by decide, by decide⟩

theorem wellFormed_wrapped {name : String} {inner : ContainerTree}
    (hname : str name ≠ [] ∧ (str name).getLast? ≠ some 47 ∧ (str name).length < 256 ^ 2)
    (hcontainer : ∃ members tail, inner = .container members tail)
    (hsize : inner.bytes.length < 256 ^ 4) (h : inner.WellFormed {} inflateSecret) :
    (wrapped name inner).WellFormed {} inflateSecret := by
  obtain ⟨members, tail, rfl⟩ := hcontainer
  have hcount : 2 ≤ ExtractionOptions.entryLimit {} := by decide
  have hextra : 0 < 256 ^ 2 := by decide
  refine ⟨hcount, by decide, ⟨⟨hname.2.2, hextra, hsize, hsize, ?_⟩, ⟨hname.1, hname.2.1⟩, h⟩,
    ⟨⟨by decide, hextra, by decide, by decide, ?_⟩, ⟨by decide, by decide⟩, trivial⟩, trivial⟩
  · rintro stream ⟨⟩
  · rintro stream ⟨⟩

theorem findsLeaves_sample :
    (wrapped "inner.zip" (packed "a.txt")).FindsLeaves {} inflateSecret .stable (str "a.zip") := by
  refine ContainerTree.findsLeaves_of_reopened {} inflateSecret .stable
    (wrapped "inner.zip" (packed "a.txt")) (str "a.zip")
    ⟨⟨_, _, rfl⟩, by decide +kernel, ?_, by decide +kernel, by decide⟩ ?_ (by decide)
  · exact wellFormed_wrapped (by decide) ⟨_, _, rfl⟩ (by decide +kernel)
      (wellFormed_packed (by decide))
  · have hinner : reopens (memberType .stable (packed "a.txt").bytes (str "inner.zip")) = true := by
      decide +kernel
    have hleaf : reopens (memberType .stable (str "secret") (str "a.txt")) = false := by
      decide +kernel
    have hpicture : reopens (memberType .stable [0x89, 0x50, 0x4E, 0x47, 10] (str "logo.png")) =
        false := by
      decide +kernel
    exact ⟨⟨fun _ => hinner, ⟨fun _ => hleaf, trivial⟩, trivial⟩,
      ⟨fun _ => hpicture, trivial⟩, trivial⟩

/-- A Word document in an archive is in scope, but is not opened. -/
theorem not_findsLeaves_document :
    ContainerTree.InScope {} inflateSecret .stable
        (wrapped "report.docx" (packed "word/document.xml")) (str "a.zip") ∧
      IsZipFormat (FileTypeDetector.stable.detectFromContent (packed "word/document.xml").bytes) ∧
      ¬ (wrapped "report.docx" (packed "word/document.xml")).FindsLeaves {} inflateSecret .stable
        (str "a.zip") := by
  refine ⟨⟨⟨_, _, rfl⟩, by decide +kernel, ?_, by decide +kernel, by decide⟩, by decide +kernel, ?_⟩
  · exact wellFormed_wrapped (by decide) ⟨_, _, rfl⟩ (by decide +kernel)
      (wellFormed_packed (by decide))
  · intro h
    obtain ⟨result, hresult, hsuccess, hfound⟩ := h (str "secret") (by decide) printable_secret
    have hnone : ∀ result ∈ extract {} inflateSecret .stable
        (wrapped "report.docx" (packed "word/document.xml")).bytes
        (FileTypeDetector.stable.detect
          (wrapped "report.docx" (packed "word/document.xml")).bytes (str "a.zip"))
        (str "a.zip"), ¬ str "secret" <:+: result.text := by
      decide +kernel
    exact hnone result hresult hfound

end AkesoDlp.Agent
