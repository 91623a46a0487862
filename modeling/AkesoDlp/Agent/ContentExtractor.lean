import AkesoDlp.Agent.FileTypeDetector
import AkesoDlp.Agent.Pipeline
import AkesoDlp.Lib.LittleEndian

/-!
# Text extraction on the agent

`content_extractor.cpp`: the dispatch on the file type, plain text with its encodings,
the members of ZIP containers, and printable strings. zlib is a parameter.
-/

namespace AkesoDlp.Agent

open Lib

structure ExtractionOptions where
  maxTextSize : Nat := 52428800
  maxZipDepth : Int := 2
  maxZipEntry : Nat := 10485760
  maxZipEntries : Int := 100
  minStringRun : Nat := 6
deriving DecidableEq, Repr

/-- An `ExtractionResult` with all its fields. -/
structure MemberResult extends ExtractionResult where
  error : String := ""
  sourceName : StdString
  sourceType : FileCategory
deriving DecidableEq, Repr

def failedResult (error : String) (sourceName : StdString) (sourceType : FileCategory) :
    MemberResult :=
  { error := error, sourceName := sourceName, sourceType := sourceType }

def extractedResult (text sourceName : StdString) (sourceType : FileCategory) : MemberResult :=
  { success := true, text := text, sourceName := sourceName, sourceType := sourceType }

/-! ## Encodings -/

inductive Encoding
  | utf8
  | utf16LE
  | utf16BE
  | utf32LE
  | utf32BE
  | latin1
  | ascii
deriving DecidableEq, Repr

/-- The pairs of bytes; an odd last byte is dropped. -/
def bytePairs : StdString → List (UInt8 × UInt8)
  | a :: b :: rest => (a, b) :: bytePairs rest
  | _ => []

/-- The check for multi-byte sequences, with so many continuation bytes due. -/
def validUtf8 : Nat → StdString → Bool
  | _, [] => true
  | 0, b :: rest =>
      if b ≤ 0x7F then validUtf8 0 rest
      else if b &&& 0xE0 = 0xC0 then validUtf8 1 rest
      else if b &&& 0xF0 = 0xE0 then validUtf8 2 rest
      else if b &&& 0xF8 = 0xF0 then validUtf8 3 rest
      else false
  | cont + 1, b :: rest => b &&& 0xC0 = 0x80 && validUtf8 cont rest

/-- The byte order mark, if there is one. -/
def detectBom (data : StdString) : Option Encoding :=
  if data.take 4 = [0xFF, 0xFE, 0x00, 0x00] then some .utf32LE
  else if data.take 4 = [0x00, 0x00, 0xFE, 0xFF] then some .utf32BE
  else if data.take 2 = [0xFF, 0xFE] then some .utf16LE
  else if data.take 2 = [0xFE, 0xFF] then some .utf16BE
  else if data.take 3 = [0xEF, 0xBB, 0xBF] then some .utf8
  else none

/-- NULs in every second of the first 256 bytes. -/
def detectUtf16 (data : StdString) : Option Encoding :=
  let checked := data.take 256
  let nullEven := (bytePairs checked).countP fun (a, b) => a = 0 && b ≠ 0
  let nullOdd := (bytePairs checked).countP fun (a, b) => a ≠ 0 && b = 0
  if data.length < 4 then none
  else if checked.length / 6 < nullEven then some .utf16BE
  else if checked.length / 6 < nullOdd then some .utf16LE
  else none

/-- `DetectEncoding`. -/
def detectEncoding (data : StdString) : Encoding :=
  match (detectBom data).or (detectUtf16 data) with
  | some encoding => encoding
  | none =>
      let checked := data.take 4096
      if checked.any fun b => 0x7F < b then
        if validUtf8 0 checked then .utf8 else .latin1
      else .ascii

/-- The UTF-8 of a code point, as the conversions write it. -/
def encodePoint (cp : Nat) : StdString :=
  if cp ≤ 0x7F then [UInt8.ofNat cp]
  else if cp ≤ 0x7FF then [UInt8.ofNat (0xC0 ||| cp >>> 6), UInt8.ofNat (0x80 ||| cp &&& 0x3F)]
  else if cp ≤ 0xFFFF then
    [UInt8.ofNat (0xE0 ||| cp >>> 12), UInt8.ofNat (0x80 ||| (cp >>> 6) &&& 0x3F),
      UInt8.ofNat (0x80 ||| cp &&& 0x3F)]
  else if cp ≤ 0x10FFFF then
    [UInt8.ofNat (0xF0 ||| cp >>> 18), UInt8.ofNat (0x80 ||| (cp >>> 12) &&& 0x3F),
      UInt8.ofNat (0x80 ||| (cp >>> 6) &&& 0x3F), UInt8.ofNat (0x80 ||| cp &&& 0x3F)]
  else []

/-- The units of a UTF-16 text; surrogates stay as they are. -/
def utf16Text (bigEndian : Bool) (data : StdString) : StdString :=
  (bytePairs data).flatMap fun (a, b) =>
    encodePoint (if bigEndian then a.toNat * 256 + b.toNat else a.toNat + b.toNat * 256)

/-- The units of a UTF-32 text; an incomplete last unit is dropped. -/
def utf32Text (bigEndian : Bool) : StdString → StdString
  | a :: b :: c :: d :: rest =>
      let unit := if bigEndian then [d, c, b, a] else [a, b, c, d]
      encodePoint (LittleEndian.decode unit) ++ utf32Text bigEndian rest
  | _ => []

/-- The data without this mark at its start. -/
def skipBom (bom data : StdString) : StdString :=
  if data.take bom.length = bom then data.drop bom.length else data

/-- `ConvertToUTF8`. -/
def convertToUtf8 (data : StdString) : Encoding → StdString
  | .ascii | .utf8 => skipBom [0xEF, 0xBB, 0xBF] data
  | .utf16LE => utf16Text false (skipBom [0xFF, 0xFE] data)
  | .utf16BE => utf16Text true (skipBom [0xFE, 0xFF] data)
  | .utf32LE => utf32Text false (skipBom [0xFF, 0xFE, 0x00, 0x00] data)
  | .utf32BE => utf32Text true (skipBom [0x00, 0x00, 0xFE, 0xFF] data)
  | .latin1 => data.flatMap fun b => encodePoint b.toNat

section

variable (options : ExtractionOptions)

/-- `ExtractPlainText`. -/
def extractPlainText (data filename : StdString) : MemberResult :=
  if data = [] then failedResult "Empty input" filename .document
  else
    extractedResult ((convertToUtf8 data (detectEncoding data)).take options.maxTextSize)
      filename .document

/-! ## Printable strings -/

def isPrintable (b : UInt8) : Bool :=
  (0x20 ≤ b && b ≤ 0x7E) || b = 10 || b = 13 || b = 9

/-- The loop of `ExtractBinaryStrings`: the text so far and the current run. -/
def stringRuns : StdString → StdString → StdString → StdString × StdString
  | [], text, run => (text, run)
  | b :: rest, text, run =>
      if text.length < options.maxTextSize then
        if isPrintable b then stringRuns rest text (run ++ [b])
        else
          stringRuns rest
            (if options.minStringRun ≤ run.length then text ++ run ++ [10] else text) []
      else (text, run)

/-- `ExtractBinaryStrings`. -/
def extractBinaryStrings (data filename : StdString) : MemberResult :=
  if data = [] then failedResult "Empty input" filename .unknown
  else
    let (text, run) := stringRuns options data [] []
    let text := if options.minStringRun ≤ run.length then text ++ run else text
    if text = [] then failedResult "No extractable strings" filename .unknown
    else extractedResult text filename .unknown

/-! ## ZIP containers -/

structure ZipEntry where
  filename : StdString
  compressedSize : Nat
  uncompressedSize : Nat
  compressionMethod : Nat
  dataOffset : Nat
deriving DecidableEq, Repr

/-- `static_cast<size_t>(options_.max_zip_entries)`. -/
def ExtractionOptions.entryLimit : Nat := (options.maxZipEntries % 2 ^ 64).toNat

/-- The loop of `ParseZipDirectory`, with so many rounds left; every round passes thirty
bytes at least. -/
def parseHeaders (data : StdString) : (rounds pos : Nat) → List ZipEntry → List ZipEntry
  | 0, _, entries => entries
  | rounds + 1, pos, entries =>
      if pos + 30 ≤ data.length ∧ entries.length < options.entryLimit then
        if (data.drop pos).take 4 = [0x50, 0x4B, 0x03, 0x04] then
          let compression := LittleEndian.field data (pos + 8) 2
          let compSize := LittleEndian.field data (pos + 18) 4
          let uncompSize := LittleEndian.field data (pos + 22) 4
          let nameLen := LittleEndian.field data (pos + 26) 2
          let extraLen := LittleEndian.field data (pos + 28) 2
          let headerEnd := pos + 30 + nameLen + extraLen
          if data.length < headerEnd then entries
          else
            let name := (data.drop (pos + 30)).take nameLen
            let entries :=
              if name ≠ [] ∧ name.getLast? ≠ some 47 ∧ 0 < compSize ∧
                  headerEnd + compSize ≤ data.length then
                entries ++ [⟨name, compSize, uncompSize, compression, headerEnd⟩]
              else entries
            parseHeaders data rounds (headerEnd + compSize) entries
        else entries
      else entries

/-- `ParseZipDirectory`. -/
def parseZipDirectory (data : StdString) : List ZipEntry :=
  parseHeaders options data data.length 0 []

/-- The rounds suffice: one more changes nothing. -/
theorem parseHeaders_succ (data : StdString) {rounds pos : Nat} (entries : List ZipEntry)
    (h : data.length ≤ pos + rounds) :
    parseHeaders options data (rounds + 1) pos entries =
      parseHeaders options data rounds pos entries := by
  induction rounds generalizing pos entries with
  | zero => rw [parseHeaders, parseHeaders, if_neg (by omega)]
  | succ rounds ih =>
      rw [parseHeaders]
      conv => rhs; rw [parseHeaders]
      dsimp only
      repeat' split
      all_goals first | rfl | exact ih _ (by omega)

/-- zlib's raw inflate of a stream into so much space: what it writes, if it returns
`Z_STREAM_END` or `Z_OK`. -/
abbrev Inflate := StdString → Nat → Option StdString

variable (inflate : Inflate)

/-- `DecompressEntry`. -/
def decompressEntry (data : StdString) (entry : ZipEntry) : StdString :=
  if data.length < entry.dataOffset + entry.compressedSize then []
  else
    let compData := (data.drop entry.dataOffset).take entry.compressedSize
    if entry.compressionMethod = 0 then compData
    else if entry.compressionMethod = 8 then
      (inflate compData (min entry.uncompressedSize options.maxZipEntry)).getD []
    else []

variable (detector : FileTypeDetector)

/-- The type of a member: by its content, or else by its name. -/
def memberType (decompressed filename : StdString) : FileTypeResult :=
  let byContent := detector.detectFromContent decompressed
  if byContent.category = .unknown then detectFromName filename else byContent

/-- The member is opened as a container. -/
def reopens (type : FileTypeResult) : Bool :=
  type.category = .archive && (type.typeName = "ZIP" || type.typeName = "JAR")

/-- `is_text`: the extension is that of a text. -/
def hasTextExtension (filename : StdString) : Bool :=
  decide (4 < filename.length) &&
    [str "xml", str "txt", str "csv", str "py", str "js", str "ps1", str "sh", str "html",
      str "htm", str "json", str "yaml", str "yml", str "rels"].contains
      (lower (filename.reverse.takeWhile (· != 46)).reverse)

/-- The result for a member that is not opened. -/
def extractMember (type : FileTypeResult) (decompressed filename memberName : StdString) :
    List MemberResult :=
  let textual := type.category = .document ∨ type.category = .script ∨
    type.category = .spreadsheet
  let result :=
    if textual ∧ (hasTextExtension filename = true ∨ type.category = .script) then
      extractPlainText options decompressed memberName
    else extractBinaryStrings options decompressed memberName
  if result.success ∧ result.text ≠ [] then [result] else []

/-- The body of the loop of `ExtractZip`; `nested` is the call on a nested container. -/
def extractEntry (nested : StdString → StdString → List MemberResult)
    (data filename : StdString) (entry : ZipEntry) : List MemberResult :=
  let decompressed := decompressEntry options inflate data entry
  let type := memberType detector decompressed entry.filename
  let memberName :=
    if filename = [] then entry.filename else filename ++ [47] ++ entry.filename
  if decompressed = [] then []
  else if reopens type then nested decompressed memberName
  else extractMember options type decompressed entry.filename memberName

/-- `ExtractZip`, with so many levels of nesting left. -/
def extractZip : Nat → StdString → StdString → List MemberResult
  | levels, data, filename =>
      if data = [] then [failedResult "Empty input" filename .archive]
      else
        match levels with
        | 0 => [failedResult "Max ZIP nesting depth reached" filename .archive]
        | levels + 1 =>
            let entries := parseZipDirectory options data
            if entries = [] then [failedResult "No extractable entries in ZIP" filename .archive]
            else
              entries.flatMap
                (extractEntry options inflate detector (extractZip levels) data filename)

/-! ## The dispatch -/

/-- `Extract`. -/
def extract (data : StdString) (type : FileTypeResult) (filename : StdString) :
    List MemberResult :=
  if data = [] then [failedResult "Empty input" filename .unknown]
  else
    let data := data.take options.maxTextSize
    let zip := extractZip options inflate detector options.maxZipDepth.toNat data filename
    let plain := [extractPlainText options data filename]
    let strings := [extractBinaryStrings options data filename]
    match type.category with
    | .document | .script | .email =>
        if type.typeName ∈ ["Text", "CSV", "EML", "RTF"] ∨ type.category = .script then plain
        else if type.typeName ∈ ["DOCX", "XLSX", "PPTX", "ODT", "ODS", "ODP"] then zip
        else strings
    | .spreadsheet =>
        if type.typeName = "CSV" then plain
        else if type.typeName ∈ ["XLSX", "ODS"] then zip
        else strings
    | .presentation => if type.typeName ∈ ["PPTX", "ODP"] then zip else strings
    | .archive => if type.typeName ∈ ["ZIP", "JAR", "APK"] then zip else strings
    | _ => strings

end

end AkesoDlp.Agent
