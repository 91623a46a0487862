import AkesoDlp.Agent.FileTypeDetector
import AkesoDlp.Lib.Leader

/-!
# The order of the signatures

`InitSignatures` sorts by the length of the magic with `std::sort`, which may leave signatures of
one length in any order, and `DetectFromContent` keeps the first match of the greatest confidence.
Two pairs of signatures can be in one file and tie in both.
-/

namespace AkesoDlp.Agent

open Lib

/-- What a signature counts for in these bytes. -/
def MagicSignature.weight (data : StdString) (sig : MagicSignature) : Nat :=
  if sig.isAt data then sig.confidence else 0

def MagicSignature.length (sig : MagicSignature) : Nat := sig.magic.length

def MagicSignature.result (sig : MagicSignature) : FileTypeResult :=
  { typeName := sig.typeName, category := sig.category, confidence := sig.confidence }

/-- `DetectFromContent`, from the signature that leads. -/
def detected (data : StdString) (lead : Option MagicSignature) : FileTypeResult :=
  let best := lead.elim unknownType MagicSignature.result
  let compound := checkCompoundFormats data
  if best.confidence < compound.confidence then compound else best

/-- The data has a signature of this type. -/
def HasSignature (data : StdString) (typeName : String) : Prop :=
  ∃ sig ∈ magicSignatures, sig.typeName = typeName ∧ sig.isAt data = true

/-- Ogg and MP4 tie, or TAR and ISO 9660, and nothing else in the file comes before them. -/
def Ambiguous (data : StdString) : Prop :=
  (HasSignature data "OGG" ∧ HasSignature data "MP4" ∧ ¬ HasSignature data "TAR" ∧
      ¬ HasSignature data "ISO 9660") ∨
    (HasSignature data "TAR" ∧ HasSignature data "ISO 9660" ∧
      (∀ sig ∈ magicSignatures, sig.isAt data = true →
        sig.confidence < 90 ∨ sig.confidence = 90 ∧ sig.length ≤ 5) ∧
      (checkCompoundFormats data).confidence ≤ 90)

/-- Two signatures that ask for different bytes at one place. -/
def MagicSignature.conflicts (a b : MagicSignature) : Bool :=
  (List.range a.magic.length).any fun i =>
    decide (b.offset ≤ a.offset + i ∧ a.offset + i < b.offset + b.magic.length) &&
      a.magic[i]? != b.magic[a.offset + i - b.offset]?

variable {data : StdString} {a b sig : MagicSignature}

theorem getElem?_of_isAt (h : sig.isAt data = true) {i : Nat} (hi : i < sig.magic.length) :
    data[sig.offset + i]? = sig.magic[i]? := by
  rw [MagicSignature.isAt, Bool.and_eq_true, beq_iff_eq] at h
  rw [← h.2, List.getElem?_take_of_lt hi, List.getElem?_drop]

theorem not_conflicts (ha : a.isAt data = true) (hb : b.isAt data = true) :
    a.conflicts b = false := by
  rw [MagicSignature.conflicts, List.any_eq_false]
  intro i hi
  rw [List.mem_range] at hi
  rw [Bool.and_eq_true, decide_eq_true_iff, bne_iff_ne, not_and, not_not]
  rintro ⟨hle, hlt⟩
  rw [← getElem?_of_isAt ha hi, ← getElem?_of_isAt hb (by omega)]
  congr 1
  omega

theorem MagicSignature.weight_of_isAt (h : sig.isAt data = true) :
    sig.weight data = sig.confidence := if_pos h

theorem isAt_of_weight (h : 0 < sig.weight data) : sig.isAt data = true := by
  by_contra hnot
  rw [MagicSignature.weight, if_neg hnot] at h
  exact Nat.lt_irrefl 0 h

/-! ## The loop keeps the leader -/

/-- The loop of `DetectFromContent` from what has led so far. -/
theorem foldl_leader (sigs : List MagicSignature) (best : Option MagicSignature)
    (hbest : ∀ sig, best = some sig → sig.isAt data = true) :
    sigs.foldl (fun best sig =>
        if sig.isAt data && decide (best.confidence < sig.confidence) then
          { typeName := sig.typeName, category := sig.category, confidence := sig.confidence }
        else best) (best.elim unknownType MagicSignature.result) =
      (sigs.foldl (fun best sig =>
        if best.elim 0 (MagicSignature.weight data) < sig.weight data then some sig else best)
        best).elim unknownType MagicSignature.result := by
  induction sigs generalizing best with
  | nil => rfl
  | cons sig sigs ih =>
      have hconfidence : (best.elim unknownType MagicSignature.result).confidence =
          best.elim 0 (MagicSignature.weight data) := by
        cases best with
        | none => rfl
        | some lead => exact (MagicSignature.weight_of_isAt (hbest lead rfl)).symm
      rw [List.foldl_cons, List.foldl_cons]
      by_cases hsig : sig.isAt data = true
      · rw [hsig, Bool.true_and, hconfidence, sig.weight_of_isAt hsig]
        by_cases hlt : best.elim 0 (MagicSignature.weight data) < sig.confidence
        · rw [if_pos (decide_eq_true hlt), if_pos hlt]
          refine ih (some sig) fun lead hlead => ?_
          exact Option.some.inj hlead ▸ hsig
        · rw [if_neg (by simpa using hlt), if_neg hlt]
          exact ih best hbest
      · rw [if_neg (by simp [hsig]), if_neg (by simp [MagicSignature.weight, hsig])]
        exact ih best hbest

theorem isAt_nil (hsig : sig ∈ magicSignatures) : sig.isAt [] = false := by
  have hall : ∀ sig ∈ magicSignatures, sig.isAt [] = false := by decide +kernel
  exact hall sig hsig

theorem detectFromContent_eq (detector : FileTypeDetector) (data : StdString) :
    detector.detectFromContent data =
      detected data (leader (MagicSignature.weight data) detector.signatures) := by
  by_cases hdata : data = []
  · subst hdata
    have hnone : leader (MagicSignature.weight []) detector.signatures = none := by
      rw [Option.eq_none_iff_forall_ne_some]
      intro lead hlead
      have htop := top_of_leader detector.sorted hlead
      have hat := isAt_of_weight htop.pos
      rw [isAt_nil (detector.perm.mem_iff.mp htop.mem)] at hat
      cases hat
    rw [hnone]
    rfl
  · rw [FileTypeDetector.detectFromContent, if_neg hdata, detected,
      FileTypeDetector.bestSignature]
    rw [show detector.signatures.foldl _ unknownType = _ from
      foldl_leader detector.signatures none nofun]
    rfl

/-! ## Ties -/

/-- Of two signatures that can be in one file, with one confidence and one length. -/
theorem tie_cases (ha : a ∈ magicSignatures) (hb : b ∈ magicSignatures)
    (hata : a.isAt data = true) (hatb : b.isAt data = true) (hconf : a.confidence = b.confidence)
    (hlength : a.length = b.length) :
    a.result = b.result ∨ (a.typeName = "OGG" ∧ b.typeName = "MP4") ∨
      (a.typeName = "MP4" ∧ b.typeName = "OGG") ∨
      (a.typeName = "TAR" ∧ b.typeName = "ISO 9660") ∨
      (a.typeName = "ISO 9660" ∧ b.typeName = "TAR") := by
  have hall : ∀ a ∈ magicSignatures, ∀ b ∈ magicSignatures, a.conflicts b = false →
      a.confidence = b.confidence → a.length = b.length →
      a.result = b.result ∨ (a.typeName = "OGG" ∧ b.typeName = "MP4") ∨
        (a.typeName = "MP4" ∧ b.typeName = "OGG") ∨
        (a.typeName = "TAR" ∧ b.typeName = "ISO 9660") ∨
        (a.typeName = "ISO 9660" ∧ b.typeName = "TAR") := by
    decide +kernel
  exact hall a ha b hb (not_conflicts hata hatb) hconf hlength

theorem ogg_or_mp4 : ∀ sig ∈ magicSignatures, sig.typeName = "OGG" ∨ sig.typeName = "MP4" →
    sig.confidence = 90 ∧ sig.length = 4 := by
  decide +kernel

theorem tar_or_iso : ∀ sig ∈ magicSignatures, sig.typeName = "TAR" ∨ sig.typeName = "ISO 9660" →
    sig.confidence = 90 ∧ sig.length = 5 := by
  decide +kernel

theorem compound_of_ogg (h : HasSignature data "OGG") :
    (checkCompoundFormats data).confidence = 0 := by
  obtain ⟨sig, hsig, hname, hat⟩ := h
  have hmagic : sig.offset = 0 ∧ sig.magic = [0x4F, 0x67, 0x67, 0x53] := by
    have hall : ∀ sig ∈ magicSignatures, sig.typeName = "OGG" →
        sig.offset = 0 ∧ sig.magic = [0x4F, 0x67, 0x67, 0x53] := by
      decide +kernel
    exact hall sig hsig hname
  rw [MagicSignature.isAt, Bool.and_eq_true, beq_iff_eq, hmagic.1, hmagic.2, List.drop_zero] at hat
  have hstart : data.take 4 = [0x4F, 0x67, 0x67, 0x53] := hat.2
  simp only [checkCompoundFormats, hstart]
  split_ifs <;> first | rfl | simp_all

/-- Two different types at the top of a file that no compound format explains. -/
theorem Ambiguous.tops (h : Ambiguous data) : ∃ a b,
    Top (MagicSignature.weight data) MagicSignature.length magicSignatures a ∧
      Top (MagicSignature.weight data) MagicSignature.length magicSignatures b ∧
      a.typeName ≠ b.typeName ∧ a.confidence = 90 ∧ b.confidence = 90 ∧
      (checkCompoundFormats data).confidence ≤ 90 := by
  have hogg : ∀ a ∈ magicSignatures, a.typeName = "OGG" → ∀ b ∈ magicSignatures,
      a.conflicts b = false → b.typeName ≠ "TAR" → b.typeName ≠ "ISO 9660" →
      b.confidence < 90 ∨ b.confidence = 90 ∧ b.length ≤ 4 := by
    decide +kernel
  -- what is at 90 and of that length is at the top if all that matches is at most that
  have htop : ∀ sig ∈ magicSignatures, sig.isAt data = true → sig.confidence = 90 →
      (∀ b ∈ magicSignatures, b.isAt data = true →
        b.confidence < 90 ∨ b.confidence = 90 ∧ b.length ≤ sig.length) →
      Top (MagicSignature.weight data) MagicSignature.length magicSignatures sig := by
    intro sig hsig hat hconf hothers
    have hweight : sig.weight data = 90 := (sig.weight_of_isAt hat).trans hconf
    refine ⟨hsig, by rw [hweight]; decide, fun b hb => ?_⟩
    rw [hweight]
    by_cases hatb : b.isAt data = true
    · rw [b.weight_of_isAt hatb]
      exact hothers b hb hatb
    · rw [MagicSignature.weight, if_neg hatb]
      exact .inl (by decide)
  rcases h with ⟨hO, ⟨b, hb, hnameb, hatb⟩, hT, hI⟩ | ⟨⟨a, ha, hnamea, hata⟩,
    ⟨b, hb, hnameb, hatb⟩, hothers, hcompound⟩
  · obtain ⟨a, ha, hnamea, hata⟩ := hO
    obtain ⟨hconfa, hlengtha⟩ := ogg_or_mp4 a ha (.inl hnamea)
    obtain ⟨hconfb, hlengthb⟩ := ogg_or_mp4 b hb (.inr hnameb)
    have hothers : ∀ sig ∈ magicSignatures, sig.isAt data = true →
        sig.confidence < 90 ∨ sig.confidence = 90 ∧ sig.length ≤ 4 := fun sig hsig hat =>
      hogg a ha hnamea sig hsig (not_conflicts hata hat) (fun hname => hT ⟨sig, hsig, hname, hat⟩)
        fun hname => hI ⟨sig, hsig, hname, hat⟩
    refine ⟨a, b, htop a ha hata hconfa (by rwa [hlengtha]),
      htop b hb hatb hconfb (by rwa [hlengthb]), ?_, hconfa, hconfb, ?_⟩
    · rw [hnamea, hnameb]
      decide
    · rw [compound_of_ogg ⟨a, ha, hnamea, hata⟩]
      exact Nat.zero_le _
  · obtain ⟨hconfa, hlengtha⟩ := tar_or_iso a ha (.inl hnamea)
    obtain ⟨hconfb, hlengthb⟩ := tar_or_iso b hb (.inr hnameb)
    refine ⟨a, b, htop a ha hata hconfa (by rwa [hlengtha]),
      htop b hb hatb hconfb (by rwa [hlengthb]), ?_, hconfa, hconfb, hcompound⟩
    rw [hnamea, hnameb]
    decide

theorem detected_some (ha : (checkCompoundFormats data).confidence ≤ a.confidence) :
    detected data (some a) = a.result := if_neg (Nat.not_lt.mpr ha)

/-- Two at the top that are detected differently make the file ambiguous. -/
theorem ambiguous_of_tops
    (ha : Top (MagicSignature.weight data) MagicSignature.length magicSignatures a)
    (hb : Top (MagicSignature.weight data) MagicSignature.length magicSignatures b)
    (hne : detected data (some a) ≠ detected data (some b)) : Ambiguous data := by
  have hata := isAt_of_weight ha.pos
  have hatb := isAt_of_weight hb.pos
  obtain ⟨hweight, hlength⟩ := ha.tie hb
  rw [a.weight_of_isAt hata, b.weight_of_isAt hatb] at hweight
  have hcompound : (checkCompoundFormats data).confidence ≤ a.confidence := by
    by_contra hlt
    refine hne ?_
    have hlt := Nat.not_le.mp hlt
    have hlt' : b.confidence < (checkCompoundFormats data).confidence := hweight ▸ hlt
    exact (if_pos hlt).trans (if_pos hlt').symm
  rw [detected_some hcompound, detected_some (hweight ▸ hcompound)] at hne
  have hbest : ∀ sig ∈ magicSignatures, sig.isAt data = true →
      sig.confidence < a.confidence ∨ sig.confidence = a.confidence ∧ sig.length ≤ a.length := by
    intro sig hsig hat
    have hsig := ha.best sig hsig
    rwa [sig.weight_of_isAt hat, a.weight_of_isAt hata] at hsig
  have hogg : a.typeName = "OGG" ∨ a.typeName = "MP4" → HasSignature data "OGG" →
      HasSignature data "MP4" → Ambiguous data := by
    intro hname hO hM
    obtain ⟨hconf, hfour⟩ := ogg_or_mp4 a ha.mem hname
    rw [hconf, hfour] at hbest
    have hnone : ∀ name, name = "TAR" ∨ name = "ISO 9660" → ¬ HasSignature data name := by
      rintro name hname ⟨sig, hsig, rfl, hat⟩
      obtain ⟨hconf', hfive⟩ := tar_or_iso sig hsig hname
      have hle := hbest sig hsig hat
      omega
    exact .inl ⟨hO, hM, hnone _ (.inl rfl), hnone _ (.inr rfl)⟩
  have htar : a.typeName = "TAR" ∨ a.typeName = "ISO 9660" → HasSignature data "TAR" →
      HasSignature data "ISO 9660" → Ambiguous data := by
    intro hname hT hI
    obtain ⟨hconf, hfive⟩ := tar_or_iso a ha.mem hname
    rw [hconf, hfive] at hbest
    exact .inr ⟨hT, hI, hbest, hconf ▸ hcompound⟩
  rcases tie_cases ha.mem hb.mem hata hatb hweight hlength with
    hsame | ⟨hnamea, hnameb⟩ | ⟨hnamea, hnameb⟩ | ⟨hnamea, hnameb⟩ | ⟨hnamea, hnameb⟩
  · exact absurd hsame hne
  · exact hogg (.inl hnamea) ⟨a, ha.mem, hnamea, hata⟩ ⟨b, hb.mem, hnameb, hatb⟩
  · exact hogg (.inr hnamea) ⟨b, hb.mem, hnameb, hatb⟩ ⟨a, ha.mem, hnamea, hata⟩
  · exact htar (.inl hnamea) ⟨a, ha.mem, hnamea, hata⟩ ⟨b, hb.mem, hnameb, hatb⟩
  · exact htar (.inr hnamea) ⟨b, hb.mem, hnameb, hatb⟩ ⟨a, ha.mem, hnamea, hata⟩

/-- For every content, all orders in which the sort may leave the signatures detect the same type,
unless the content has two signatures that tie: Ogg with the box of an MP4 behind it, or a TAR
header with the descriptor of an ISO image, and no format that comes before both. -/
theorem detectFromContent_orderFree_iff (data : StdString) :
    (∀ d d' : FileTypeDetector, d.detectFromContent data = d'.detectFromContent data) ↔
      ¬ Ambiguous data := by
  have horders : (∀ d d' : FileTypeDetector,
      d.detectFromContent data = d'.detectFromContent data) ↔
      ∀ l₁ l₂, l₁.Perm magicSignatures → KeySorted MagicSignature.length l₁ →
        l₂.Perm magicSignatures → KeySorted MagicSignature.length l₂ →
        detected data (leader (MagicSignature.weight data) l₁) =
          detected data (leader (MagicSignature.weight data) l₂) := by
    constructor
    · intro h l₁ l₂ hperm₁ hsorted₁ hperm₂ hsorted₂
      have hsame := h ⟨l₁, hperm₁, hsorted₁⟩ ⟨l₂, hperm₂, hsorted₂⟩
      rwa [detectFromContent_eq, detectFromContent_eq] at hsame
    · intro h d d'
      rw [detectFromContent_eq, detectFromContent_eq]
      exact h _ _ d.perm d.sorted d'.perm d'.sorted
  rw [horders, leader_order_free_iff]
  constructor
  · intro h hambiguous
    obtain ⟨a, b, ha, hb, hne, hconfa, hconfb, hcompound⟩ := hambiguous.tops
    have hsame := h a b ha hb
    rw [detected_some (hconfa ▸ hcompound), detected_some (hconfb ▸ hcompound)] at hsame
    exact hne (congrArg FileTypeResult.typeName hsame)
  · intro h a b ha hb
    by_contra hne
    exact h (ambiguous_of_tops ha hb hne)

/-- `OggSftyp` -/
example : Ambiguous [0x4F, 0x67, 0x67, 0x53, 0x66, 0x74, 0x79, 0x70] := by
  refine .inl ⟨?_, ?_, ?_, ?_⟩ <;> (unfold HasSignature; decide)

end AkesoDlp.Agent
