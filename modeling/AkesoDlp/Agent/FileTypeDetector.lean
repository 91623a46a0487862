import AkesoDlp.Agent.StdString
import Mathlib.Data.List.Infix
import Mathlib.Data.List.Sort

/-!
# File types

`file_type_detector.cpp`: the signature table, the compound formats, the extensions,
and the detection by content, by name and by both.
-/

namespace AkesoDlp.Agent

inductive FileCategory
  | unknown
  | document
  | spreadsheet
  | presentation
  | image
  | audio
  | video
  | archive
  | executable
  | script
  | database
  | font
  | cad
  | email
deriving DecidableEq, Repr

structure FileTypeResult where
  typeName : String
  category : FileCategory := .unknown
  confidence : Nat := 0
deriving DecidableEq, Repr

structure MagicSignature where
  magic : List UInt8
  offset : Nat
  typeName : String
  category : FileCategory
  confidence : Nat
deriving DecidableEq, Repr

/-- The signatures in the order in which `InitSignatures` adds them. -/
def magicSignatures : List MagicSignature :=
  [⟨[0x25, 0x50, 0x44, 0x46], 0, "PDF", .document, 95⟩,
    ⟨[0x7B, 0x5C, 0x72, 0x74, 0x66], 0, "RTF", .document, 95⟩,
    ⟨[0xD0, 0xCF, 0x11, 0xE0, 0xA1, 0xB1, 0x1A, 0xE1], 0, "OLE2 Compound", .document, 80⟩,
    ⟨[0x50, 0x4B, 0x03, 0x04], 0, "ZIP", .archive, 70⟩,
    ⟨[0xFF, 0xD8, 0xFF], 0, "JPEG", .image, 95⟩,
    ⟨[0x89, 0x50, 0x4E, 0x47, 0x0D, 0x0A, 0x1A, 0x0A], 0, "PNG", .image, 95⟩,
    ⟨[0x47, 0x49, 0x46, 0x38, 0x37, 0x61], 0, "GIF87a", .image, 95⟩,
    ⟨[0x47, 0x49, 0x46, 0x38, 0x39, 0x61], 0, "GIF89a", .image, 95⟩,
    ⟨[0x42, 0x4D], 0, "BMP", .image, 85⟩,
    ⟨[0x49, 0x49, 0x2A, 0x00], 0, "TIFF", .image, 95⟩,
    ⟨[0x4D, 0x4D, 0x00, 0x2A], 0, "TIFF", .image, 95⟩,
    ⟨[0x52, 0x49, 0x46, 0x46], 0, "RIFF", .unknown, 60⟩,
    ⟨[0x00, 0x00, 0x01, 0x00], 0, "ICO", .image, 85⟩,
    ⟨[0x38, 0x42, 0x50, 0x53], 0, "PSD", .image, 95⟩,
    ⟨[0x49, 0x44, 0x33], 0, "MP3", .audio, 90⟩,
    ⟨[0xFF, 0xFB], 0, "MP3", .audio, 75⟩,
    ⟨[0x66, 0x4C, 0x61, 0x43], 0, "FLAC", .audio, 95⟩,
    ⟨[0x4F, 0x67, 0x67, 0x53], 0, "OGG", .audio, 90⟩,
    ⟨[0xFF, 0xF1], 0, "AAC", .audio, 75⟩,
    ⟨[0x1A, 0x45, 0xDF, 0xA3], 0, "MKV", .video, 85⟩,
    ⟨[0x46, 0x4C, 0x56, 0x01], 0, "FLV", .video, 95⟩,
    ⟨[0x66, 0x74, 0x79, 0x70], 4, "MP4", .video, 90⟩,
    ⟨[0x52, 0x61, 0x72, 0x21, 0x1A, 0x07, 0x01, 0x00], 0, "RAR5", .archive, 95⟩,
    ⟨[0x52, 0x61, 0x72, 0x21, 0x1A, 0x07, 0x00], 0, "RAR", .archive, 95⟩,
    ⟨[0x37, 0x7A, 0xBC, 0xAF, 0x27, 0x1C], 0, "7-Zip", .archive, 95⟩,
    ⟨[0x75, 0x73, 0x74, 0x61, 0x72], 257, "TAR", .archive, 90⟩,
    ⟨[0x1F, 0x8B], 0, "GZIP", .archive, 95⟩,
    ⟨[0x42, 0x5A, 0x68], 0, "BZ2", .archive, 95⟩,
    ⟨[0xFD, 0x37, 0x7A, 0x58, 0x5A, 0x00], 0, "XZ", .archive, 95⟩,
    ⟨[0x28, 0xB5, 0x2F, 0xFD], 0, "ZSTD", .archive, 95⟩,
    ⟨[0x4D, 0x5A], 0, "PE Executable", .executable, 90⟩,
    ⟨[0x7F, 0x45, 0x4C, 0x46], 0, "ELF", .executable, 95⟩,
    ⟨[0xFE, 0xED, 0xFA, 0xCE], 0, "Mach-O 32", .executable, 95⟩,
    ⟨[0xFE, 0xED, 0xFA, 0xCF], 0, "Mach-O 64", .executable, 95⟩,
    ⟨[0xCE, 0xFA, 0xED, 0xFE], 0, "Mach-O 32 (LE)", .executable, 95⟩,
    ⟨[0xCF, 0xFA, 0xED, 0xFE], 0, "Mach-O 64 (LE)", .executable, 95⟩,
    ⟨[0xCA, 0xFE, 0xBA, 0xBE], 0, "Mach-O Universal", .executable, 85⟩,
    ⟨[0x23, 0x21], 0, "Script (Shebang)", .script, 70⟩,
    ⟨[0x53, 0x51, 0x4C, 0x69, 0x74, 0x65, 0x20, 0x66, 0x6F, 0x72, 0x6D, 0x61, 0x74, 0x20, 0x33,
      0x00], 0, "SQLite", .database, 95⟩,
    ⟨[0x00, 0x01, 0x00, 0x00, 0x53, 0x74, 0x61, 0x6E, 0x64, 0x61, 0x72, 0x64, 0x20, 0x4A, 0x65,
      0x74], 0, "MS Access", .database, 90⟩,
    ⟨[0x00, 0x01, 0x00, 0x00, 0x00], 0, "TrueType Font", .font, 80⟩,
    ⟨[0x4F, 0x54, 0x54, 0x4F], 0, "OpenType Font", .font, 95⟩,
    ⟨[0x77, 0x4F, 0x46, 0x46], 0, "WOFF", .font, 95⟩,
    ⟨[0x77, 0x4F, 0x46, 0x32], 0, "WOFF2", .font, 95⟩,
    ⟨[0x41, 0x43, 0x31, 0x30], 0, "DWG", .cad, 95⟩,
    ⟨[0x00, 0x61, 0x73, 0x6D], 0, "WebAssembly", .executable, 95⟩,
    ⟨[0x04, 0x22, 0x4D, 0x18], 0, "LZ4", .archive, 95⟩,
    ⟨[0xCA, 0xFE, 0xBA, 0xBE], 0, "Java Class", .executable, 80⟩,
    ⟨[0x43, 0x44, 0x30, 0x30, 0x31], 32769, "ISO 9660", .archive, 90⟩,
    ⟨[0x4C, 0x00, 0x00, 0x00, 0x01, 0x14, 0x02, 0x00], 0, "LNK", .executable, 90⟩,
    ⟨[0x0A, 0x05, 0x01, 0x08], 0, "PCX", .image, 80⟩,
    ⟨[0x4D, 0x54, 0x68, 0x64], 0, "MIDI", .audio, 95⟩]

/-- `ext_map`. -/
def extMap : List (String × FileTypeResult) :=
  [(".pdf", ⟨"PDF", .document, 50⟩), (".doc", ⟨"DOC", .document, 50⟩),
    (".docx", ⟨"DOCX", .document, 50⟩), (".rtf", ⟨"RTF", .document, 50⟩),
    (".txt", ⟨"Text", .document, 40⟩), (".odt", ⟨"ODT", .document, 50⟩),
    (".xls", ⟨"XLS", .spreadsheet, 50⟩), (".xlsx", ⟨"XLSX", .spreadsheet, 50⟩),
    (".csv", ⟨"CSV", .spreadsheet, 40⟩), (".ods", ⟨"ODS", .spreadsheet, 50⟩),
    (".ppt", ⟨"PPT", .presentation, 50⟩), (".pptx", ⟨"PPTX", .presentation, 50⟩),
    (".odp", ⟨"ODP", .presentation, 50⟩), (".jpg", ⟨"JPEG", .image, 50⟩),
    (".jpeg", ⟨"JPEG", .image, 50⟩), (".png", ⟨"PNG", .image, 50⟩), (".gif", ⟨"GIF", .image, 50⟩),
    (".bmp", ⟨"BMP", .image, 50⟩), (".tiff", ⟨"TIFF", .image, 50⟩),
    (".tif", ⟨"TIFF", .image, 50⟩), (".webp", ⟨"WebP", .image, 50⟩),
    (".ico", ⟨"ICO", .image, 50⟩), (".svg", ⟨"SVG", .image, 50⟩), (".psd", ⟨"PSD", .image, 50⟩),
    (".mp3", ⟨"MP3", .audio, 50⟩), (".wav", ⟨"WAV", .audio, 50⟩), (".flac", ⟨"FLAC", .audio, 50⟩),
    (".ogg", ⟨"OGG", .audio, 50⟩), (".aac", ⟨"AAC", .audio, 50⟩), (".m4a", ⟨"M4A", .audio, 50⟩),
    (".wma", ⟨"WMA", .audio, 50⟩), (".mp4", ⟨"MP4", .video, 50⟩), (".avi", ⟨"AVI", .video, 50⟩),
    (".mkv", ⟨"MKV", .video, 50⟩), (".mov", ⟨"MOV", .video, 50⟩), (".webm", ⟨"WebM", .video, 50⟩),
    (".flv", ⟨"FLV", .video, 50⟩), (".wmv", ⟨"WMV", .video, 50⟩), (".zip", ⟨"ZIP", .archive, 50⟩),
    (".rar", ⟨"RAR", .archive, 50⟩), (".7z", ⟨"7-Zip", .archive, 50⟩),
    (".tar", ⟨"TAR", .archive, 50⟩), (".gz", ⟨"GZIP", .archive, 50⟩),
    (".bz2", ⟨"BZ2", .archive, 50⟩), (".xz", ⟨"XZ", .archive, 50⟩),
    (".zst", ⟨"ZSTD", .archive, 50⟩), (".exe", ⟨"PE Executable", .executable, 50⟩),
    (".dll", ⟨"DLL", .executable, 50⟩), (".sys", ⟨"SYS Driver", .executable, 50⟩),
    (".msi", ⟨"MSI", .executable, 50⟩), (".py", ⟨"Python", .script, 50⟩),
    (".js", ⟨"JavaScript", .script, 50⟩), (".ps1", ⟨"PowerShell", .script, 50⟩),
    (".bat", ⟨"Batch", .script, 50⟩), (".cmd", ⟨"Batch", .script, 50⟩),
    (".sh", ⟨"Shell", .script, 50⟩), (".vbs", ⟨"VBScript", .script, 50⟩),
    (".sqlite", ⟨"SQLite", .database, 50⟩), (".db", ⟨"Database", .database, 40⟩),
    (".mdb", ⟨"MS Access", .database, 50⟩), (".ttf", ⟨"TrueType Font", .font, 50⟩),
    (".otf", ⟨"OpenType Font", .font, 50⟩), (".woff", ⟨"WOFF", .font, 50⟩),
    (".woff2", ⟨"WOFF2", .font, 50⟩), (".dwg", ⟨"DWG", .cad, 50⟩), (".eml", ⟨"EML", .email, 50⟩),
    (".msg", ⟨"MSG", .email, 50⟩)]

/-- The detector has the signatures sorted by the length of their magic; how equal
lengths are ordered is up to `std::sort`. -/
structure FileTypeDetector where
  signatures : List MagicSignature
  perm : signatures.Perm magicSignatures
  sorted : signatures.Pairwise fun a b => b.magic.length ≤ a.magic.length

/-- The order of a stable sort. -/
def FileTypeDetector.stable : FileTypeDetector where
  signatures := magicSignatures.insertionSort fun a b => b.magic.length ≤ a.magic.length
  perm := List.perm_insertionSort ..
  sorted := by
    have : Std.Total fun a b : MagicSignature => b.magic.length ≤ a.magic.length :=
      ⟨fun a b => Nat.le_total ..⟩
    have : IsTrans MagicSignature fun a b => b.magic.length ≤ a.magic.length :=
      ⟨fun a b c hab hbc => Nat.le_trans hbc hab⟩
    exact List.pairwise_insertionSort ..

def unknownType : FileTypeResult := { typeName := "Unknown" }

/-- The bytes at the offset are those of the magic. -/
def MagicSignature.isAt (sig : MagicSignature) (data : StdString) : Bool :=
  decide (sig.offset + sig.magic.length ≤ data.length) &&
    (data.drop sig.offset).take sig.magic.length == sig.magic

/-- `content.find(text) != npos`. -/
def contains (content : StdString) (text : String) : Bool := decide (str text <:+: content)

/-- The types of `CheckCompoundFormats` with the ZIP signature. -/
def checkZipFormats (content : StdString) : Option FileTypeResult :=
  if contains content "word/" then some ⟨"DOCX", .document, 95⟩
  else if contains content "xl/" then some ⟨"XLSX", .spreadsheet, 95⟩
  else if contains content "ppt/" then some ⟨"PPTX", .presentation, 95⟩
  else if contains content "META-INF/" then
    if contains content "classes.dex" then some ⟨"APK", .archive, 90⟩
    else some ⟨"JAR", .archive, 85⟩
  else if contains content "mimetype" then
    if contains content "application/vnd.oasis.opendocument.text" then
      some ⟨"ODT", .document, 95⟩
    else if contains content "application/vnd.oasis.opendocument.spreadsheet" then
      some ⟨"ODS", .spreadsheet, 95⟩
    else if contains content "application/vnd.oasis.opendocument.presentation" then
      some ⟨"ODP", .presentation, 95⟩
    else none
  else none

def checkRiffFormats (fourcc : StdString) : Option FileTypeResult :=
  if fourcc == str "WEBP" then some ⟨"WebP", .image, 95⟩
  else if fourcc == str "WAVE" then some ⟨"WAV", .audio, 95⟩
  else if fourcc == str "AVI " then some ⟨"AVI", .video, 95⟩
  else none

/-- `CheckCompoundFormats`. -/
def checkCompoundFormats (data : StdString) : FileTypeResult :=
  let zip :=
    if data.take 4 == [0x50, 0x4B, 0x03, 0x04] then checkZipFormats (data.take 8192) else none
  let riff :=
    if decide (12 ≤ data.length) && data.take 4 == [0x52, 0x49, 0x46, 0x46] then
      checkRiffFormats ((data.drop 8).take 4)
    else none
  let matroska :=
    if data.take 4 == [0x1A, 0x45, 0xDF, 0xA3] then
      some (if contains (data.take 64) "webm" then ⟨"WebM", .video, 95⟩ else ⟨"MKV", .video, 90⟩)
    else none
  ((zip.or riff).or matroska).getD unknownType

/-- `GetExtension`: from the last dot on, in lower case. -/
def getExtension (filename : StdString) : StdString :=
  let tail := (filename.reverse.takeWhile (· != 46)).reverse
  if tail.length = filename.length ∨ tail = [] then [] else lower (46 :: tail)

/-- `DetectFromName`. -/
def detectFromName (filename : StdString) : FileTypeResult :=
  let ext := getExtension filename
  if ext = [] then unknownType
  else ((extMap.find? fun entry => str entry.1 == ext).map (·.2)).getD unknownType

namespace FileTypeDetector

variable (detector : FileTypeDetector)

/-- The loop of `DetectFromContent`: of the signatures that match, the first with the
greatest confidence. -/
def bestSignature (data : StdString) : FileTypeResult :=
  detector.signatures.foldl
    (fun best sig =>
      if sig.isAt data && decide (best.confidence < sig.confidence) then
        { typeName := sig.typeName, category := sig.category, confidence := sig.confidence }
      else best)
    unknownType

def detectFromContent (data : StdString) : FileTypeResult :=
  if data = [] then unknownType
  else
    let best := detector.bestSignature data
    let compound := checkCompoundFormats data
    if best.confidence < compound.confidence then compound else best

/-- `Detect`. -/
def detect (data filename : StdString) : FileTypeResult :=
  let contentResult := detector.detectFromContent data
  let nameResult := detectFromName filename
  if 70 ≤ contentResult.confidence then
    if nameResult.typeName = contentResult.typeName ∨
        nameResult.category = contentResult.category then
      { contentResult with confidence := min 100 (contentResult.confidence + 5) }
    else contentResult
  else if 0 < nameResult.confidence ∧ nameResult.category ≠ .unknown then nameResult
  else if 0 < contentResult.confidence then contentResult
  else nameResult

end FileTypeDetector

end AkesoDlp.Agent
