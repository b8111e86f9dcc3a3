import UrsusBoot.Safety.FipProgress

/-!
# What an accepted FIP is

The parser's floor for payloads is `0x400`; a long table may end behind it, and a payload begin in
it. The parser takes the last BL33 entry, the other readers the first.
-/

namespace UrsusBoot

open Prog Buffer FipUpdate

/-! ## The unpacker, read by read -/

/-- The part of `ursus_fip_bl33_unpack` behind the size field of the payload. -/
def unpackRaw (P : Platform) (raw64 : ℕ) (nt : List UInt8) : FlashProg (Except ℤ (List UInt8)) := do
  if raw64 < 0x10000 ∨ fipRawMax < raw64 then return .error (-efbig)
  if !(← malloc raw64) then return .error (-enomem)
  match P.lzmaBuffToBuffDecompress nt raw64 with
  | none => return .error (-ebadmsg)
  | some raw => return if raw.length = raw64 then .ok raw else .error (-ebadmsg)

/-- `ursus_fip_bl33_unpack`, read by read; the decompressor reads the range it is given. -/
def fipBl33UnpackAt (P : Platform) (buf : List UInt8) :
    Option (FlashProg (Except ℤ (List UInt8))) :=
  if buf.length = 0 ∨ ubiFipVolSize < buf.length then some (.ret (.error (-efbig)))
  else
    (fipParseAt buf).bind fun
    | .error e => some (.ret (.error e))
    | .ok toc =>
      if toc.declaredEnd ≠ buf.length then some (.ret (.error (-einval)))
      else if toc.ntSize < 13 ∨ buf.length < (toc.ntOff + toc.ntSize) % 2 ^ 64 then
        some (.ret (.error (-einval)))
      else
        (readAt buf (toc.ntOff + 5) 8).bind fun raw64 =>
        (readAt buf toc.ntOff toc.ntSize).map fun nt => unpackRaw P (leNat raw64) nt

/-- **The unpacker reads inside the buffer**, whatever it holds. -/
theorem fipBl33UnpackAt_eq (P : Platform) (buf : List UInt8) :
    fipBl33UnpackAt P buf = some (fipBl33Unpack P buf) := by
  unfold fipBl33UnpackAt fipBl33Unpack
  by_cases hlen : buf.length = 0 ∨ ubiFipVolSize < buf.length
  · rw [if_pos hlen, if_pos hlen]
    rfl
  rw [if_neg hlen, if_neg hlen, fipParseAt_eq, Option.bind_some]
  cases hparse : fipParse buf with
  | error e => rfl
  | ok toc =>
    have hin := (fipParse_inside hparse).1
    have hmod := Nat.mod_le (toc.ntOff + toc.ntSize) (2 ^ 64)
    dsimp only
    by_cases hend : toc.declaredEnd ≠ buf.length
    · rw [if_pos hend, if_pos hend]
      rfl
    rw [if_neg hend, if_neg hend]
    by_cases hnt : toc.ntSize < 13
    · rw [if_pos (Or.inl hnt), if_pos (Or.inl hnt)]
      rfl
    · rw [if_neg (by omega), if_neg (by omega), readAt_of_le (by omega), readAt_of_le (by omega),
        unpackNt, bytesAt_bytesAt (by omega)]
      rfl

def UnpackAccepts (P : Platform) (buf : List UInt8) : Prop :=
  ∃ (os : ℕ → Outcome) (w : World) (raw : List UInt8),
    (run exec (fipBl33Unpack P buf) os w).val = .ok raw

theorem UnpackAccepts.exists_bl33 {P : Platform} {buf : List UInt8} (h : UnpackAccepts P buf) :
    ∃ raw, bl33 P buf = .ok raw := by
  obtain ⟨os, w, raw, hrun⟩ := h
  have hyields := (fipBl33Unpack_ok (A := fun _ => True) P buf).run_of os w fun _ _ => trivial
  exact ⟨raw, hyields raw hrun⟩

theorem UnpackAccepts.of_bl33 {P : Platform} {buf raw : List UInt8} (h : bl33 P buf = .ok raw)
    (w : World) : UnpackAccepts P buf := by
  have hmay : May exec (fun r _ _ => r = .ok raw) (fipBl33Unpack P buf) w [] :=
    may_fipBl33Unpack h fun _ => rfl
  obtain ⟨os, hos⟩ := hmay.run_of
  exact ⟨os, w, raw, hos⟩

theorem bl33_table {P : Platform} {buf raw : List UInt8} (h : bl33 P buf = .ok raw) :
    buf.length ≤ ubiFipVolSize ∧
      ∃ T, fipTable buf = some T ∧ T.Accepted buf.length ∧ T.terminator.offset = buf.length := by
  obtain ⟨toc, hu, hend, hmax⟩ := exists_unpacks h
  obtain ⟨-, -, T, hT, hacc, hdecl, -⟩ := fipParse_ok_iff.1 hu.parse
  exact ⟨hmax, T, hT, hacc, by omega⟩

/-! ## Well-formed containers -/

/-- Every payload range is a range, lies behind the whole table and ends at or before the declared
end, which is where the buffer ends. -/
def WellFormedFip (buf : List UInt8) : Prop :=
  ∃ T, fipTable buf = some T ∧ T.terminator.offset = buf.length ∧
    ∀ e ∈ T.entries, e.offset + e.size < 2 ^ 64 ∧ T.tableEnd ≤ e.offset ∧
      e.offset + e.size ≤ T.terminator.offset

/-- The table has more than 25 records, and a payload begins in it. -/
def CrowdedFip (buf : List UInt8) : Prop :=
  ∃ T, fipTable buf = some T ∧ 25 ≤ T.entries.length ∧ ∃ e ∈ T.entries, e.offset < T.tableEnd

theorem FipTable.tableEnd_le {T : FipTable} (h : T.entries.length < 25) :
    T.tableEnd ≤ fipTocMin := by
  unfold FipTable.tableEnd fipTocMin
  omega

/-- **Parser and unpacker read inside every buffer, and an accepted container is well formed unless
it is crowded.** -/
theorem accepted_wellFormed_iff (P : Platform) :
    (∀ buf, fipParseAt buf = some (fipParse buf) ∧
      fipBl33UnpackAt P buf = some (fipBl33Unpack P buf)) ∧
    ∀ buf, UnpackAccepts P buf → (WellFormedFip buf ↔ ¬ CrowdedFip buf) := by
  refine ⟨fun buf => ⟨fipParseAt_eq buf, fipBl33UnpackAt_eq P buf⟩, fun buf h => ?_⟩
  obtain ⟨raw, hraw⟩ := h.exists_bl33
  obtain ⟨hmax, T, hT, hacc, hend⟩ := bl33_table hraw
  constructor
  · rintro ⟨T₁, hT₁, -, hwf⟩ ⟨T₂, hT₂, -, e, he, hlow⟩
    cases hT₁.symm.trans hT₂
    have hbehind := (hwf e he).2.1
    omega
  · intro hcrowd
    refine ⟨T, hT, hend, fun e he => ?_⟩
    obtain ⟨hfloor, -, hin⟩ := hacc.entries e he
    have hmax : buf.length ≤ 0x100000 := hmax
    refine ⟨by omega, ?_, by omega⟩
    by_cases hshort : T.entries.length < 25
    · exact (FipTable.tableEnd_le hshort).trans hfloor
    · by_contra hlow
      exact hcrowd ⟨T, hT, by omega, e, he, by omega⟩

/-- The sample FIP is accepted and well formed. -/
theorem accepted_wellFormed_sample :
    UnpackAccepts samplePlatform (sampleFip false) ∧ WellFormedFip (sampleFip false) := by
  obtain ⟨raw, hraw, -⟩ := fipAccepts_ursus (sampleFip_accepted false)
  have haccepts := UnpackAccepts.of_bl33 hraw (sampleWorld fun _ => none)
  refine ⟨haccepts, ((accepted_wellFormed_iff samplePlatform).2 _ haccepts).2 ?_⟩
  rintro ⟨T, hT, hlong, -⟩
  cases (fipTable_sampleFip false).symm.trans hT
  exact absurd hlong (by decide)

def fipRecord (uuid : List UInt8) (off size : UInt8 × UInt8) : List UInt8 :=
  uuid ++ [off.1, off.2, 0, 0, 0, 0, 0, 0] ++ [size.1, size.2, 0, 0, 0, 0, 0, 0] ++
    List.replicate 8 0

/-- A FIP of 26 records, the first 24 of which describe the byte at `0x400`, in the terminator. -/
def crowdedFip : List UInt8 :=
  [0x01, 0x00, 0x64, 0xaa, 0x78, 0x56, 0x34, 0x12] ++ List.replicate 8 0 ++
    (List.replicate 24 (fipRecord (List.replicate 16 1) (0x00, 0x04) (1, 0))).flatten ++
    fipRecord ntFwUuid (0x20, 0x04) (150, 0) ++
    fipRecord (List.replicate 16 0) (0xb6, 0x04) (0, 0) ++ sampleBl33Lzma

theorem bl33_crowdedFip : bl33 samplePlatform crowdedFip = .ok sampleBl33 := by
  have hlen : crowdedFip.length = 1206 := by decide +kernel
  have hparse : fipParse crowdedFip = .ok ⟨0x420, 150, 1206⟩ := by decide +kernel
  have hnt : bytesAt crowdedFip 0x420 150 = sampleBl33Lzma := by decide +kernel
  have hraw : ntRaw samplePlatform sampleBl33Lzma = .ok sampleBl33 :=
    ntRaw_ok (by decide) (by decide) (by decide) lzma_sampleBl33Lzma length_sampleBl33
  refine bl33_ok (by omega) (by rw [hlen]; decide) hparse hlen.symm (by decide) hlen.ge ?_
  dsimp only
  rw [hnt]
  exact hraw

/-- A container is accepted whose payloads lie in its table. -/
theorem accepted_crowded :
    UnpackAccepts samplePlatform crowdedFip ∧ ¬ WellFormedFip crowdedFip := by
  refine ⟨.of_bl33 bl33_crowdedFip (sampleWorld fun _ => none), ?_⟩
  rintro ⟨T, hT, -, hwf⟩
  have hview : (fipTable crowdedFip).map
      (fun T => (T.tableEnd, T.entries.head?.map FipEntry.offset)) = some (1056, some 0x400) := by
    decide +kernel
  rw [hT, Option.map_some, Option.some.injEq, Prod.mk.injEq] at hview
  obtain ⟨hend, hhead⟩ := hview
  obtain ⟨e, he, hoff⟩ := Option.map_eq_some_iff.1 hhead
  have hbehind := (hwf e (List.mem_of_head? he)).2.1
  omega

/-! ## Which BL33 -/

/-- The readers that stop at the first match all take the range `nt`: a loader, the walk over a
stock slot (whatever follows the FIP there) and the check of the build. -/
def FirstReadersTake (buf : List UInt8) (nt : ℕ × ℕ) : Prop :=
  (fipTable buf).bind FipTable.firstNt = some nt ∧
    (∀ rest, slotWalk ((buf ++ rest).take 0x1000) = some nt) ∧ buildWalk buf = some nt

/-- The first and the last BL33 entry describe the same range. -/
def NtUnambiguous (buf : List UInt8) : Prop :=
  ∀ T, fipTable buf = some T → T.firstNt = T.lastNt

/-- **The parser's BL33 is the one the other readers take exactly when it is unambiguous.** -/
theorem nt_is_first_iff (buf : List UInt8) (toc : FipToc) (h : fipParse buf = .ok toc) :
    FirstReadersTake buf (toc.ntOff, toc.ntSize) ↔ NtUnambiguous buf := by
  obtain ⟨-, -, T, hT, -, -, hlast⟩ := fipParse_ok_iff.1 h
  obtain ⟨hend, hmax⟩ := fipTable_inside hT
  have hslot : ∀ rest, slotWalk ((buf ++ rest).take 0x1000) = T.firstNt := by
    intro rest
    refine slotWalk_eq (fipTable_congr (n := T.tableEnd) ?_ ?_ hT le_rfl)
    · rw [List.take_take, Nat.min_eq_left (by omega), List.take_append_of_le_length hend]
    · rw [List.length_take, List.length_append]
      omega
  constructor
  · rintro ⟨hloader, -, -⟩ T' hT'
    cases hT.symm.trans hT'
    rw [hT, Option.bind_some] at hloader
    rw [hloader, hlast]
  · intro hsame
    have hfirst : T.firstNt = some (toc.ntOff, toc.ntSize) := (hsame T hT).trans hlast
    refine ⟨?_, fun rest => ?_, ?_⟩
    · rw [hT, Option.bind_some, hfirst]
    · rw [hslot, hfirst]
    · rw [buildWalk_eq hT, hfirst]

/-- In the sample FIP all readers take the same payload. -/
theorem nt_is_first_sample : fipParse (sampleFip false) = .ok ⟨0x400, 150, 1174⟩ ∧
    FirstReadersTake (sampleFip false) (0x400, 150) := by
  have hparse := fipParse_sampleFip false
  refine ⟨hparse, (nt_is_first_iff _ _ hparse).2 fun T hT => ?_⟩
  cases (fipTable_sampleFip false).symm.trans hT
  rfl

/-- A FIP with two BL33 entries: a byte at `0x400` and the payload at `0x401`. -/
def twoNtFip : List UInt8 :=
  [0x01, 0x00, 0x64, 0xaa, 0x78, 0x56, 0x34, 0x12] ++ List.replicate 8 0 ++
    fipRecord ntFwUuid (0x00, 0x04) (1, 0) ++ fipRecord ntFwUuid (0x01, 0x04) (150, 0) ++
    fipRecord (List.replicate 16 0) (0x97, 0x04) (0, 0) ++ List.replicate 889 0 ++ sampleBl33Lzma

/-- The parser returns the second payload, the other readers take the first. -/
theorem nt_is_not_first : fipParse twoNtFip = .ok ⟨0x401, 150, 0x497⟩ ∧
    ¬ FirstReadersTake twoNtFip (0x401, 150) := by
  refine ⟨by decide +kernel, ?_⟩
  rintro ⟨-, -, hbuild⟩
  have hwalk : buildWalk twoNtFip = some (0x400, 1) := by decide +kernel
  rw [hwalk] at hbuild
  cases hbuild

end UrsusBoot
