import AkesoDlp.Agent.ZipFormat

/-!
# What the listing of an archive misses

`ParseZipDirectory` goes from header to header by the sizes in them. A member with a data
descriptor has none there, so the listing ends with it.
-/

namespace AkesoDlp.Agent

open Lib

/-- Up to the last member to be listed, the sizes are in the headers, and these members have
names. -/
def ReadThrough : List ZipMember → Prop
  | [] => True
  | m :: rest =>
      ((m :: rest).any ZipMember.listed = true →
        m.SizesInHeader ∧ (m.listed = true → m.name ≠ [])) ∧ ReadThrough rest

variable {m : ZipMember} {members rest : List ZipMember} {directory : StdString} {pos : Nat}

theorem readThrough_of_none (h : members.any ZipMember.listed = false) : ReadThrough members := by
  induction members with
  | nil => trivial
  | cons m rest ih =>
      refine ⟨fun hany => ?_, ih ?_⟩
      · rw [h] at hany
        cases hany
      · rw [List.any_cons, Bool.or_eq_false_iff] at h
        exact h.2

/-! ## Expected entries -/

theorem listedEntries_eq_nil (h : members.any ZipMember.listed = false) (pos : Nat) :
    listedEntries pos members = [] := by
  induction members generalizing pos with
  | nil => rfl
  | cons m rest ih =>
      rw [List.any_cons, Bool.or_eq_false_iff] at h
      rw [listedEntries, h.1, ih h.2]
      rfl

theorem listedEntries_ne_nil (h : members.any ZipMember.listed = true) (pos : Nat) :
    listedEntries pos members ≠ [] := by
  induction members generalizing pos with
  | nil => cases h
  | cons m rest ih =>
      rw [listedEntries]
      rw [List.any_cons, Bool.or_eq_true] at h
      rcases h with hm | hrest
      · rw [hm]
        exact List.append_ne_nil_of_left_ne_nil (List.cons_ne_nil _ _) _
      · exact List.append_ne_nil_of_right_ne_nil _ (ih hrest _)

theorem length_zipMember_bytes (m : ZipMember) :
    m.bytes.length =
      30 + m.name.length + m.extra.length + (m.data.length + m.descriptor.length) := by
  rw [ZipMember.bytes, List.length_append, LocalHeader.length_bytes, List.length_append]
  rfl

/-- The entries of later members have their data behind this. -/
theorem lt_dataOffset_of_mem {entry : ZipEntry} (h : entry ∈ listedEntries pos members) :
    pos + 30 ≤ entry.dataOffset := by
  induction members generalizing pos with
  | nil => cases h
  | cons m rest ih =>
      rcases List.mem_append.mp h with hm | hrest
      · split at hm
        · rw [List.mem_singleton.mp hm, ZipMember.entry]
          dsimp only
          omega
        · cases hm
      · have := ih hrest
        omega

theorem ZipMember.WellFormed.fits (h : m.WellFormed) : m.header.Fits where
  name := h.name
  extra := h.extra
  method := by
    simp only [ZipMember.header]
    split <;> decide
  compSize := by
    simp only [ZipMember.header]
    split
    · next hplace => exact (h.sizes hplace).1
    · decide
    · decide
  uncompSize := by
    simp only [ZipMember.header]
    split
    · next hplace => exact (h.sizes hplace).2
    · decide
    · decide

/-- Content has data. -/
theorem ZipMember.WellFormed.data_ne_nil (h : m.WellFormed) (hlisted : m.listed = true) :
    m.data ≠ [] := by
  have hsize : 0 < m.size := of_decide_eq_true (Bool.and_eq_true_iff.mp hlisted).1
  cases hmethod : m.deflated with
  | false =>
      rw [← h.stored hmethod] at hsize
      exact List.length_pos_iff.mp hsize
  | true =>
      intro hnil
      have hstream := h.stream hmethod
      rw [hnil] at hstream
      exact hstream

theorem ZipMember.WellFormed.size_eq_zero (h : m.WellFormed) (hlisted : m.listed = false) :
    m.size = 0 := by
  by_contra hsize
  refine hsize (h.directory ?_)
  simpa [ZipMember.listed, Nat.pos_of_ne_zero hsize] using hlisted

/-- No deflate stream starts like a local header. -/
theorem DeflateStart.take_ne {data : StdString} (h : DeflateStart data) (rest : StdString) :
    (data ++ rest).take 4 ≠ localSignature := by
  intro hsignature
  cases data with
  | nil => exact h
  | cons b data =>
      rw [List.cons_append, List.take_succ_cons, localSignature, List.cons.injEq] at hsignature
      obtain ⟨rfl, hsignature⟩ := hsignature
      obtain ⟨low, high, tail, rfl⟩ := h (by decide)
      simp only [List.cons_append, List.take_succ_cons, List.take_zero, List.cons.injEq,
        and_true] at hsignature
      obtain ⟨rfl, -, hlow⟩ := hsignature
      exact absurd hlow (by decide)

/-- Behind the header of an empty member in a stream there is no local header. -/
theorem ZipMember.WellFormed.take_ne {signed wide : Bool} (h : m.WellFormed) (hsize : m.size = 0)
    (hplace : m.place = .descriptor signed wide) (rest : StdString) :
    (m.data ++ m.descriptor ++ rest).take 4 ≠ localSignature := by
  cases hmethod : m.deflated with
  | true =>
      rw [List.append_assoc]
      exact (h.stream hmethod).take_ne _
  | false =>
      have hdata : m.data = [] := List.eq_nil_of_length_eq_zero ((h.stored hmethod).trans hsize)
      rw [hdata, List.nil_append, ZipMember.descriptor, hplace, h.checksum hsize]
      cases signed <;> simp [localSignature, Vector.toList_replicate, List.replicate]

/-! ## One member -/

theorem sublist_cons_of_not_mem {α : Type} {a : α} {l l' : List α} (h : a ∉ l) :
    l.Sublist (a :: l') ↔ l.Sublist l' := by
  refine ⟨fun hsub => ?_, fun hsub => hsub.cons a⟩
  cases hsub with
  | cons _ hsub => exact hsub
  | cons_cons _ _ => exact absurd List.mem_cons_self h

/-- Where the data of a member starts. -/
def ZipMember.dataOffset (m : ZipMember) (pos : Nat) : Nat :=
  pos + 30 + m.name.length + m.extra.length

/-- The header of a member that is to be listed gives its entry if and only if it has the
sizes, and the member a name. -/
theorem entry_mem_entries (h : m.WellFormed) (hlisted : m.listed = true) {length : Nat}
    (hlength : m.dataOffset pos + m.data.length ≤ length) :
    m.entry pos ∈ m.header.entries (m.dataOffset pos) length ↔
      m.SizesInHeader ∧ m.name ≠ [] := by
  have hname : m.name.getLast? ≠ some 47 := by
    have hslash := (Bool.and_eq_true_iff.mp hlisted).2
    exact bne_iff_ne.mp hslash
  have hdata := List.length_pos_iff.mpr (h.data_ne_nil hlisted)
  constructor
  · intro hmem
    obtain ⟨hentry, hnonempty, hpos⟩ := LocalHeader.mem_entries hmem
    obtain ⟨-, hcomp, huncomp, -, -⟩ := ZipEntry.mk.inj hentry
    refine ⟨⟨hcomp.symm, huncomp.symm, ?_⟩, hnonempty⟩
    cases hplace : m.place with
    | descriptor signed wide =>
        simp only [ZipMember.header, hplace, Nat.lt_irrefl] at hpos
    | header => rw [ZipMember.descriptor, hplace]
    | extra => rw [ZipMember.descriptor, hplace]
  · rintro ⟨hsizes, hnonempty⟩
    rw [LocalHeader.entries, hsizes.compSize, hsizes.uncompSize,
      if_pos ⟨hnonempty, hname, hdata, hlength⟩]
    exact List.mem_singleton_self _

/-- What comes behind a member has later offsets. -/
theorem entry_not_mem {more : List ZipEntry} {next : Nat} (hnext : m.dataOffset pos ≤ next)
    (hmore : ∀ entry ∈ more, next + 30 ≤ entry.dataOffset) {entry : ZipEntry}
    (hentry : entry.dataOffset = m.dataOffset pos) : entry ∉ more := by
  intro hmem
  have := hmore entry hmem
  omega

/-- The entries of a member with its sizes in the header, and those behind it. -/
theorem sublist_member (h : m.WellFormed) (hsizes : m.SizesInHeader) {length : Nat}
    (hlength : m.dataOffset pos + m.data.length ≤ length) {more : List ZipEntry}
    (hmore : ∀ entry ∈ more, pos + m.bytes.length + 30 ≤ entry.dataOffset) :
    (listedEntries pos (m :: rest)).Sublist
        (m.header.entries (m.dataOffset pos) length ++ more) ↔
      (m.listed = true → m.name ≠ []) ∧
        (listedEntries (pos + m.bytes.length) rest).Sublist more := by
  have hbytes := length_zipMember_bytes m
  have hnext : m.dataOffset pos ≤ pos + m.bytes.length := by
    rw [ZipMember.dataOffset]
    omega
  have hown := m.header.length_entries_le (m.dataOffset pos) length
  cases hlisted : m.listed with
  | true =>
      rw [listedEntries, if_pos hlisted, List.singleton_append]
      by_cases hname : m.name = []
      · have hnone : m.header.entries (m.dataOffset pos) length = [] :=
          if_neg fun hentries => hentries.1 hname
        rw [hnone, List.nil_append]
        constructor
        · intro hsub
          exact absurd (hsub.subset List.mem_cons_self) (entry_not_mem hnext hmore rfl)
        · exact fun hnamed => absurd hname (hnamed.1 rfl)
      · have hmem := (entry_mem_entries h hlisted hlength).mpr ⟨hsizes, hname⟩
        obtain ⟨entry, hentry⟩ := List.length_eq_one_iff.mp
          (Nat.le_antisymm hown (List.length_pos_of_mem hmem))
        rw [hentry] at hmem ⊢
        rw [← List.mem_singleton.mp hmem, List.singleton_append, List.cons_sublist_cons]
        exact (and_iff_right fun _ => hname).symm
  | false =>
      have hexpected : listedEntries pos (m :: rest) =
          listedEntries (pos + m.bytes.length) rest := by
        rw [listedEntries, hlisted]
        rfl
      have hlater : ∀ entry ∈ listedEntries (pos + m.bytes.length) rest,
          pos + m.bytes.length + 30 ≤ entry.dataOffset := fun _ => lt_dataOffset_of_mem
      rw [hexpected]
      refine Iff.trans ?_ (and_iff_right fun hno => absurd hno Bool.false_ne_true).symm
      cases hentries : m.header.entries (m.dataOffset pos) length with
      | nil => exact Iff.rfl
      | cons entry others =>
          have hnone : others = [] := by
            rw [hentries, List.length_cons] at hown
            exact List.eq_nil_of_length_eq_zero (by omega)
          have hentry := (LocalHeader.mem_entries (hentries ▸ List.mem_cons_self)).1
          rw [hnone, List.singleton_append]
          exact sublist_cons_of_not_mem (entry_not_mem hnext hlater (by rw [hentry]))

/-! ## All members -/

variable {options : ExtractionOptions}

theorem archive_cons (m : ZipMember) (rest : List ZipMember) (directory : StdString) :
    archive (m :: rest) directory =
      m.header.bytes ++ (m.data ++ m.descriptor ++ archive rest directory) := by
  rw [archive, List.flatMap_cons, ZipMember.bytes, archive]
  simp only [List.append_assoc]

/-- A listing that loses its way at a member misses this one or a later one. -/
theorem not_sublist_hidden (h : m.WellFormed) (hsizes : ¬ m.SizesInHeader)
    (hany : (m :: rest).any ZipMember.listed = true) (front behind : StdString) (rounds : Nat)
    (found : List ZipEntry) {more : List ZipEntry}
    (hmore : parseHeaders options (front ++ (m.header.bytes ++ (m.data ++ m.descriptor ++ behind)))
      rounds (m.dataOffset front.length + m.header.compSize)
      (found ++ m.header.entries (m.dataOffset front.length)
        (front ++ (m.header.bytes ++ (m.data ++ m.descriptor ++ behind))).length) = found ++ more) :
    ¬ (listedEntries front.length (m :: rest)).Sublist more := by
  have hend : (front ++ m.header.bytes).length = m.dataOffset front.length := by
    rw [List.length_append, LocalHeader.length_bytes, ZipMember.dataOffset]
    change front.length + (30 + m.name.length + m.extra.length) = _
    omega
  have hlength : m.dataOffset front.length + m.data.length ≤
      (front ++ (m.header.bytes ++ (m.data ++ m.descriptor ++ behind))).length := by
    rw [← List.append_assoc, List.length_append, hend, List.length_append, List.length_append]
    omega
  intro hsub
  cases hlisted : m.listed with
  | true =>
      obtain ⟨later, hlater, hbehind⟩ := exists_parseHeaders options
        (front ++ (m.header.bytes ++ (m.data ++ m.descriptor ++ behind))) rounds
        (m.dataOffset front.length + m.header.compSize)
        (found ++ m.header.entries (m.dataOffset front.length)
          (front ++ (m.header.bytes ++ (m.data ++ m.descriptor ++ behind))).length)
      rw [hlater, List.append_assoc, List.append_cancel_left_eq] at hmore
      have hmem : m.entry front.length ∈ more := by
        refine hsub.subset ?_
        rw [listedEntries, if_pos hlisted]
        exact List.mem_append_left _ (List.mem_singleton_self _)
      rw [← hmore] at hmem
      rcases List.mem_append.mp hmem with hown | hmem
      · exact hsizes ((entry_mem_entries h hlisted hlength).mp hown).1
      · exact entry_not_mem (by omega) hbehind rfl hmem
  | false =>
      have hsize : m.size = 0 := h.size_eq_zero hlisted
      -- only a member in a stream is neither listed nor has its sizes in the header
      cases hplace : m.place with
      | header =>
          exact hsizes ⟨by simp [ZipMember.header, hplace], by simp [ZipMember.header, hplace],
            by simp [ZipMember.descriptor, hplace]⟩
      | extra => exact absurd (h.zip64 hplace).1 (by omega)
      | descriptor signed wide =>
          have hcomp : m.header.compSize = 0 := by simp [ZipMember.header, hplace]
          have hnone : m.header.entries (m.dataOffset front.length)
              (front ++ (m.header.bytes ++ (m.data ++ m.descriptor ++ behind))).length = [] :=
            if_neg fun hentries => absurd hentries.2.2.1 (by rw [hcomp]; exact Nat.lt_irrefl 0)
          have hstop : ((front ++ (m.header.bytes ++ (m.data ++ m.descriptor ++ behind))).drop
              (m.dataOffset front.length)).take 4 ≠ localSignature := by
            rw [← hend, ← List.append_assoc, List.drop_left]
            exact h.take_ne hsize hplace behind
          rw [hcomp, Nat.add_zero, parseHeaders_stop options hstop, hnone, List.append_nil,
            List.self_eq_append_right] at hmore
          rw [hmore, List.sublist_nil] at hsub
          exact listedEntries_ne_nil hany _ hsub

/-- The rounds over the members find the entries to be listed if and only if they read through
the archive. -/
theorem parseHeaders_members (options : ExtractionOptions) (directory : StdString)
    (h : ∀ m ∈ members, m.WellFormed) (front : StdString) (found : List ZipEntry) (rounds : Nat)
    (hrounds : (archive members directory).length ≤ rounds)
    (hlimit : found.length + members.length ≤ options.entryLimit) :
    ∃ more, parseHeaders options (front ++ archive members directory) rounds front.length found =
        found ++ more ∧ (∀ entry ∈ more, front.length + 30 ≤ entry.dataOffset) ∧
      ((listedEntries front.length members).Sublist more ↔ ReadThrough members) := by
  induction members generalizing front found rounds with
  | nil =>
      obtain ⟨more, hmore, hbehind⟩ := exists_parseHeaders options
        (front ++ archive [] directory) rounds front.length found
      exact ⟨more, hmore, hbehind, iff_of_true (List.nil_sublist _) trivial⟩
  | cons m rest ih =>
      obtain ⟨hm, hrest⟩ := List.forall_mem_cons.mp h
      rw [List.length_cons] at hlimit
      obtain ⟨more, hmore, hbehind⟩ := exists_parseHeaders options
        (front ++ archive (m :: rest) directory) rounds front.length found
      refine ⟨more, hmore, hbehind, ?_⟩
      have hheader : m.header.bytes.length = 30 + m.name.length + m.extra.length :=
        LocalHeader.length_bytes
      obtain ⟨rounds, rfl⟩ : ∃ r, rounds = r + 1 := by
        rw [archive_cons, List.length_append, hheader] at hrounds
        exact ⟨rounds - 1, by omega⟩
      have hend : (front ++ m.header.bytes).length = m.dataOffset front.length := by
        rw [List.length_append, hheader, ZipMember.dataOffset]
        omega
      rw [archive_cons, LocalHeader.parseHeaders_bytes options hm.fits front _ (by omega), hend]
        at hmore
      by_cases hsizes : m.SizesInHeader
      · have hbytes := length_zipMember_bytes m
        rw [hsizes.descriptor, List.length_nil, Nat.add_zero] at hbytes
        have hnext : m.dataOffset front.length + m.data.length = (front ++ m.bytes).length := by
          rw [List.length_append, hbytes, ZipMember.dataOffset]
          omega
        have hdata : front ++ (m.header.bytes ++ (m.data ++ m.descriptor ++
            archive rest directory)) = front ++ m.bytes ++ archive rest directory := by
          rw [ZipMember.bytes]
          simp only [List.append_assoc]
        have hown := m.header.length_entries_le (m.dataOffset front.length)
          (front ++ m.bytes ++ archive rest directory).length
        obtain ⟨later, hlater, hbehind', hiff⟩ := ih hrest (front ++ m.bytes)
          (found ++ m.header.entries (m.dataOffset front.length)
            (front ++ m.bytes ++ archive rest directory).length) rounds
          (by rw [archive_cons, List.length_append, hheader, List.length_append] at hrounds; omega)
          (by rw [List.length_append]; omega)
        rw [hdata, hsizes.compSize, hnext, hlater, List.append_assoc,
          List.append_cancel_left_eq] at hmore
        rw [List.length_append] at hbehind' hiff
        have hlength : m.dataOffset front.length + m.data.length ≤
            (front ++ m.bytes ++ archive rest directory).length := by
          rw [hnext, @List.length_append _ (front ++ m.bytes)]
          exact Nat.le_add_right _ _
        rw [← hmore, sublist_member hm hsizes hlength hbehind', hiff, ReadThrough]
        refine and_congr_left fun _ => ⟨fun hnamed _ => ⟨hsizes, hnamed⟩, fun hany hlisted => ?_⟩
        refine (hany ?_).2 hlisted
        rw [List.any_cons, hlisted, Bool.true_or]
      · cases hany : (m :: rest).any ZipMember.listed with
        | false =>
            rw [listedEntries_eq_nil hany]
            exact iff_of_true (List.nil_sublist _) (readThrough_of_none hany)
        | true =>
            refine iff_of_false ?_ fun hread => hsizes (hread.1 hany).1
            exact not_sublist_hidden hm hsizes hany front _ rounds found hmore

/-- The listing has every member that is to be listed, in order, if and only if the sizes of all
members up to the last of these are in the headers and each of these has a name. -/
theorem parseZipDirectory_complete (options : ExtractionOptions) (members : List ZipMember)
    (directory : StdString) (h : ∀ m ∈ members, m.WellFormed)
    (hlimit : members.length ≤ options.entryLimit) :
    (listedEntries 0 members).Sublist (parseZipDirectory options (archive members directory)) ↔
      ReadThrough members := by
  obtain ⟨more, hmore, -, hiff⟩ := parseHeaders_members options directory h [] [] _
    (Nat.le_refl _) (by simpa using hlimit)
  rw [List.nil_append, List.nil_append, List.length_nil] at hmore
  rw [parseZipDirectory, hmore]
  exact hiff

/-- A member that was written as a stream, with a descriptor behind its data. -/
def streamedMember : ZipMember where
  name := [97]
  data := [98]
  size := 1
  checksum := #v[0xF9, 0xEF, 0xBE, 0x71]
  place := .descriptor true false
  versionFlags := #v[20, 0, 8, 0]

def plainMember : ZipMember where
  name := [99]
  data := [100]
  size := 1
  checksum := #v[0xCC, 0x4A, 0xDD, 0x98]
  versionFlags := #v[20, 0, 0, 0]

/-- The central directory of the two members, and its end record. -/
def twoMembersDirectory : StdString :=
  [80, 75, 1, 2, 20, 0, 20, 0, 8, 0, 0, 0, 0, 0, 0, 0, 249, 239, 190, 113, 1, 0, 0, 0, 1, 0, 0, 0,
    1, 0, 0, 0, 0, 0, 0, 0, 0, 0, 0, 0, 0, 0, 0, 0, 0, 0, 97,
    80, 75, 1, 2, 20, 0, 20, 0, 0, 0, 0, 0, 0, 0, 0, 0, 204, 74, 221, 152, 1, 0, 0, 0, 1, 0, 0, 0,
    1, 0, 0, 0, 0, 0, 0, 0, 0, 0, 0, 0, 0, 0, 48, 0, 0, 0, 99,
    80, 75, 5, 6, 0, 0, 0, 0, 2, 0, 2, 0, 94, 0, 0, 0, 80, 0, 0, 0, 0, 0]

/-- The member in a stream hides itself and the plain one after it. -/
theorem parseZipDirectory_complete_streamed :
    parseZipDirectory {} (archive [streamedMember, plainMember] twoMembersDirectory) = [] ∧
      listedEntries 0 [streamedMember, plainMember] =
        [⟨[97], 1, 1, 0, 31⟩, ⟨[99], 1, 1, 0, 79⟩] := by
  decide +kernel

theorem parseZipDirectory_complete_plain :
    (listedEntries 0 [plainMember]).Sublist
        (parseZipDirectory {} (archive [plainMember] [0x50, 0x4B, 0x01, 0x02])) ↔
      ReadThrough [plainMember] := by
  refine parseZipDirectory_complete {} [plainMember] [0x50, 0x4B, 0x01, 0x02] ?_ (by decide)
  intro m hm
  rw [List.mem_singleton.mp hm]
  exact ⟨by decide, by decide, fun _ => rfl, nofun, by decide, by decide, fun _ => by decide, nofun⟩

end AkesoDlp.Agent
