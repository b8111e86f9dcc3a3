import UrsusBoot.Format.FipMf
import UrsusBoot.Tools.Python

/-!
# The builders of compact FIPs

Two tools replace BL33 in a FIP that holds BL31 and BL33 and nothing else: `mf2_repack_from_medve.py`,
which compresses the new BL33 itself, and `make_vanilla_fip.py`, which is given it. The firmware of the
MF board reads what they write.
-/

namespace UrsusBoot

open Overlay

def socFwUuid : List UInt8 :=
  [0x47, 0xd4, 0x08, 0x6d, 0x4c, 0xfe, 0x98, 0x46, 0x9b, 0x95, 0x29, 0x50, 0xcb, 0xbd, 0x5a, 0x00]

def zeroUuid : List UInt8 := List.replicate 16 0

/-! ## `mf2_repack_from_medve.py` -/

/-- What the tool imports from `patch_recovery_safe_fip.py` beside its parser: SHA-256, and an LZMA
compressor that takes its properties from the BL33 it replaces. -/
structure Medve where
  sha256 : List UInt8 → List UInt8
  lzmaEncode : List UInt8 → List UInt8 → Except Raise (List UInt8)
  lzmaDecode : List UInt8 → Except Raise (List UInt8)

inductive ReportValue where
  | text (s : String)
  | number (n : ℕ)
  | flag (b : Bool)
deriving DecidableEq

/-- The format `08x`. -/
def hexText8 (n : ℕ) : String :=
  let digits := Nat.toDigits 16 n
  String.ofList (List.replicate (8 - digits.length) '0' ++ digits)

namespace Mf2

/-- `parse_fip` of `patch_recovery_safe_fip.py`. -/
def parseFip (data : List UInt8) : Except Raise ParsedFip := do
  raiseIf (data.length < 96) (.valueError "FIP too small")
  parseWith (fun magic => "unexpected FIP magic 0x" ++ hexText8 magic) "FIP entry exceeds file"
    "missing FIP terminator" data

/-- The report of `rebuild`. -/
def report (M : Medve) (source rawBl33 bl31 sourceBl33 newBl33 final : List UInt8) :
    List (String × ReportValue) :=
  [("parser_source",
      .text "MedveFlasher recovery-safe-uboot-source/patch_recovery_safe_fip.py"),
    ("compressor_source",
      .text "MedveFlasher recovery-safe-uboot-source/lzma1ext_noeopm.c via lzma_encode"),
    ("source_sha256", .text (hexdigest (M.sha256 source))),
    ("output_sha256", .text (hexdigest (M.sha256 final))),
    ("source_size", .number source.length), ("output_size", .number final.length),
    ("entry_count", .number 2),
    ("bl31_compressed_sha256", .text (hexdigest (M.sha256 bl31))), ("bl31_byte_exact", .flag true),
    ("source_bl33_compressed_sha256", .text (hexdigest (M.sha256 sourceBl33))),
    ("mf2_bl33_compressed_sha256", .text (hexdigest (M.sha256 newBl33))),
    ("mf2_bl33_raw_sha256", .text (hexdigest (M.sha256 rawBl33))),
    ("mf2_bl33_roundtrip", .flag true), ("mf2_bl33_lzma_known_size", .flag true),
    ("mf2_bl33_lzma_eopm", .flag false), ("serial_preserved", .flag true),
    ("flags_preserved", .flag true), ("uuid_flags_preserved", .flag true)]

/-- The container around two payloads: the header, the table and the payloads, in the order the source
writes them. -/
def layOut (p : ParsedFip) (e₀ e₁ : FipRecord) (bl31 newBl33 : List UInt8) :
    Except Raise (List UInt8) := do
  let headerSize := 16 + 40 * (2 + 1)
  let cursor := headerSize + bl31.length + newBl33.length
  let out := List.replicate cursor 0
  let out ← packInto out 0 [(4, fipMagic), (4, p.serial), (8, p.flags)]
  let out := setSlice out 16 (16 + 16) e₀.uuid
  let out ← packInto out (16 + 16) (qqq headerSize bl31.length e₀.flags)
  let out := setSlice out 56 (56 + 16) e₁.uuid
  let out ← packInto out (56 + 16) (qqq (headerSize + bl31.length) newBl33.length e₁.flags)
  let out := setSlice out 96 (96 + 16) zeroUuid
  let out ← packInto out (96 + 16) (qqq cursor 0 0)
  let out := setSlice out headerSize (headerSize + bl31.length) bl31
  return setSlice out (headerSize + bl31.length) (headerSize + bl31.length + newBl33.length) newBl33

/-- The checks `rebuild` makes of what it has written. -/
def verify (M : Medve) (p : ParsedFip) (e₀ e₁ : FipRecord) (rawBl33 bl31 newBl33 final : List UInt8) :
    Except Raise Unit := do
  let q ← parseFip final
  raiseIf (q.serial ≠ p.serial ∨ q.flags ≠ p.flags) (.valueError "FIP header serial/flags changed")
  raiseIf (q.fipEnd ≠ final.length)
    (.valueError "rebuilt FIP terminator does not match file length")
  match q.entries with
  | [f₀, f₁] =>
    raiseIf (e₀.uuid ≠ f₀.uuid ∨ e₀.flags ≠ f₀.flags) (.valueError "FIP UUID or entry flags changed")
    raiseIf (e₁.uuid ≠ f₁.uuid ∨ e₁.flags ≠ f₁.flags) (.valueError "FIP UUID or entry flags changed")
    let outBl31 := bytesAt final f₀.offset f₀.size
    let outBl33 := bytesAt final f₁.offset f₁.size
    raiseIf (outBl31 ≠ bl31) (.valueError "BL31 compressed bytes changed")
    raiseIf (outBl33 ≠ newBl33) (.valueError "BL33 compressed bytes changed after packing")
    let raw ← M.lzmaDecode outBl33
    raiseIf (raw ≠ rawBl33) (.valueError "packed BL33 round-trip mismatch")
  | _ => throw (.valueError "rebuilt FIP entry count changed")

/-- `rebuild`: the new FIP, the new BL33, and the report. -/
def rebuild (M : Medve) (source rawBl33 : List UInt8) :
    Except Raise (List UInt8 × List UInt8 × List (String × ReportValue)) := do
  let p ← parseFip source
  match p.entries with
  | [e₀, e₁] =>
    raiseIf (p.fipEnd ≠ source.length) (.valueError ("source FIP terminator mismatch: " ++
      toString p.fipEnd ++ " != " ++ toString source.length))
    let bl31 := bytesAt source e₀.offset e₀.size
    let sourceBl33 := bytesAt source e₁.offset e₁.size
    let newBl33 ← M.lzmaEncode rawBl33 sourceBl33
    let raw ← M.lzmaDecode newBl33
    raiseIf (raw ≠ rawBl33)
      (.valueError "new MF2 BL33 compressed payload does not round-trip to u-boot.bin")
    raiseIf (e₀.offset ≠ 16 + 40 * (2 + 1)) (.valueError ("unexpected Medve MF FIP payload start: 0x" ++
      hexText e₀.offset ++ " != 0x" ++ hexText (16 + 40 * (2 + 1))))
    let final ← layOut p e₀ e₁ bl31 newBl33
    verify M p e₀ e₁ rawBl33 bl31 newBl33 final
    return (final, newBl33, report M source rawBl33 bl31 sourceBl33 newBl33 final)
  | es => throw (.valueError ("expected Medve MF BL31+BL33 FIP, got " ++ toString es.length ++
      " entries"))

end Mf2

/-! ## `make_vanilla_fip.py` -/

namespace Vanilla

/-- `parse_fip` of `make_vanilla_fip.py`: the records and the end marker. -/
def parseFip (blob : List UInt8) : Except Raise Walk := do
  raiseIf (blob.length < 136) (.valueError "FIP too small")
  raiseIf (leNat (bytesAt blob 0 4) ≠ fipMagic ∨ leNat (bytesAt blob 4 4) ≠ fipSerial)
    (.valueError "unexpected FIP header")
  let bad := fun e : FipRecord =>
    if e.size = 0 ∨ blob.length < e.offset + e.size then
      some (Raise.valueError ("invalid FIP entry range off=0x" ++ hexText e.offset ++ " size=0x" ++
        hexText e.size))
    else none
  match ← tocWalk blob bad blob.length 0 with
  | none => throw (.valueError "FIP physical size does not match end marker")
  | some w =>
    raiseIf (w.terminator.offset ≠ blob.length)
      (.valueError "FIP physical size does not match end marker")
    return w

/-- The checks `repack` makes of what it has written. -/
def verify (soc ntFw out : List UInt8) : Except Raise Unit := do
  let check ← parseFip out
  match check.entries with
  | f₀ :: f₁ :: _ =>
    raiseIf (bytesAt out f₀.offset f₀.size ≠ soc)
      (.assertionError "SOC_FW changed while repacking Vanilla FIP")
    raiseIf (bytesAt out f₁.offset f₁.size ≠ ntFw)
      (.assertionError "NT_FW changed while repacking Vanilla FIP")
  -- `check[0]` or `check[1]` of a shorter list
  | _ => throw .indexError

def repack (donor ntFw : List UInt8) : Except Raise (List UInt8) := do
  let w ← parseFip donor
  match w.entries with
  | [e₀, e₁] =>
    raiseIf ([e₀.uuid, e₁.uuid] ≠ [socFwUuid, ntFwUuid])
      (.valueError "expected canonical two-entry SOC_FW + NT_FW Vanilla FIP")
    let firstOff := e₀.offset
    raiseIf (firstOff ≠ w.pos + 40) (.valueError "unexpected FIP payload start")
    raiseIf (e₁.offset ≠ e₀.offset + e₀.size) (.valueError "donor FIP payloads are not contiguous")
    let soc := bytesAt donor e₀.offset e₀.size
    let ntOff := firstOff + soc.length
    let finalSize := ntOff + ntFw.length
    let socFields ← pack (qqq firstOff soc.length e₀.flags)
    let ntFields ← pack (qqq ntOff ntFw.length e₁.flags)
    let endFields ← pack (qqq finalSize 0 0)
    let toc := socFwUuid ++ socFields ++ (ntFwUuid ++ ntFields) ++ (zeroUuid ++ endFields)
    let out := donor.take 16 ++ toc ++ soc ++ ntFw
    raiseIf (out.length ≠ finalSize) (.assertionError "repacked FIP size mismatch")
    verify soc ntFw out
    return out
  | _ => throw (.valueError "expected canonical two-entry SOC_FW + NT_FW Vanilla FIP")

end Vanilla

/-! ## What they write -/

/-- The two records and the terminator around payloads `a` and `b`. -/
def compactSoc (soc : FipRecord) (a : List UInt8) : FipRecord := ⟨⟨soc.uuid, 136, a.length⟩, soc.flags⟩
def compactNt (nt : FipRecord) (a b : List UInt8) : FipRecord :=
  ⟨⟨nt.uuid, 136 + a.length, b.length⟩, nt.flags⟩
def compactEnd (a b : List UInt8) : FipRecord := ⟨⟨zeroUuid, 136 + a.length + b.length, 0⟩, 0⟩

/-- The FIP with the header, UUIDs and flags given and the payloads `a` and `b`. -/
def compact (header : List UInt8) (soc nt : FipRecord) (a b : List UInt8) : List UInt8 :=
  fipHead header [compactSoc soc a, compactNt nt a b] (compactEnd a b) ++ (a ++ b)

theorem length_zeroUuid : zeroUuid.length = 16 := rfl

/-- `out` is the donor, whose BL31 and BL33 records are given, with another BL33. -/
structure Replaces (donor : List UInt8) (soc nt : FipRecord) (payload out : List UInt8) : Prop where
  accepted : ∃ toc text, Mf.fipParse out = some (.ok (toc, text)) ∧ toc.declaredEnd = out.length ∧
    bytesAt out toc.ntOff toc.ntSize = payload
  header : out.take 16 = donor.take 16
  table : ∃ soc' nt' t', IsTable out [soc', nt'] t' ∧ soc'.uuid = soc.uuid ∧ nt'.uuid = nt.uuid ∧
    soc'.flags = soc.flags ∧ nt'.flags = nt.flags ∧
    bytesAt out soc'.offset soc'.size = bytesAt donor soc.offset soc.size

section Written

variable {header : List UInt8} {soc nt : FipRecord} {a b : List UInt8}

theorem writable_compact (hsoc : soc.Writable) (hnt : nt.Writable)
    (hlen : 136 + a.length + b.length < 256 ^ 8) :
    (∀ e ∈ [compactSoc soc a, compactNt nt a b], e.Writable) ∧ (compactEnd a b).Writable := by
  have hzero : 0 < 256 ^ 8 := by decide
  have hfirst : 136 < 256 ^ 8 := by decide
  refine ⟨?_, ⟨rfl, hlen, hzero, hzero⟩⟩
  intro e he
  simp only [List.mem_cons, List.not_mem_nil, or_false] at he
  rcases he with rfl | rfl
  · exact ⟨hsoc.uuid, hfirst, by dsimp only [compactSoc]; omega, hsoc.flags⟩
  · exact ⟨hnt.uuid, by dsimp only [compactNt]; omega, by dsimp only [compactNt]; omega, hnt.flags⟩

theorem length_compact_head (hheader : header.length = 16) (hsoc : soc.Writable) (hnt : nt.Writable)
    (hlen : 136 + a.length + b.length < 256 ^ 8) :
    (fipHead header [compactSoc soc a, compactNt nt a b] (compactEnd a b)).length = 136 := by
  obtain ⟨hes, ht⟩ := writable_compact hsoc hnt hlen
  rw [length_fipHead hheader hes ht]
  rfl

theorem bytesAt_compact (hheader : header.length = 16) (hsoc : soc.Writable) (hnt : nt.Writable)
    (hlen : 136 + a.length + b.length < 256 ^ 8) :
    bytesAt (compact header soc nt a b) 136 a.length = a ∧
      bytesAt (compact header soc nt a b) (136 + a.length) b.length = b := by
  have hhead := length_compact_head hheader hsoc hnt hlen
  unfold compact bytesAt
  refine ⟨?_, ?_⟩
  · rw [List.drop_left' hhead, List.take_left]
  · rw [← List.drop_drop, List.drop_left' hhead, List.drop_left, List.take_length]

theorem isTable_compact (hheader : header.length = 16) (hsoc : soc.Writable) (hnt : nt.Writable)
    (hsocz : uuidZero soc.uuid = false) (hntz : uuidZero nt.uuid = false)
    (hlen : 136 + a.length + b.length < 256 ^ 8) :
    IsTable (compact header soc nt a b) [compactSoc soc a, compactNt nt a b] (compactEnd a b) := by
  obtain ⟨hes, ht⟩ := writable_compact hsoc hnt hlen
  refine isTable_fipHead hheader hes ht ?_ rfl (a ++ b)
  intro e he
  simp only [List.mem_cons, List.not_mem_nil, or_false] at he
  rcases he with rfl | rfl
  · exact hsocz
  · exact hntz

/-- **The MF parser accepts a compact FIP**, whose first sixteen bytes, UUIDs and flags are the
donor's. -/
theorem compact_replaces {donor : List UInt8} {t : FipRecord} (htable : IsTable donor [soc, nt] t)
    (hok : fipHeaderOk donor = true) (hnt : nt.uuid = ntFwUuid)
    (ha : bytesAt donor soc.offset soc.size = a) (hanil : a ≠ []) (hbnil : b ≠ [])
    (hlen : 136 + a.length + b.length < 256 ^ 8) :
    Replaces donor soc nt b (compact (donor.take 16) soc nt a b) := by
  have hsocw := htable.writable (e := soc) (by simp)
  have hntw := htable.writable (e := nt) (by simp)
  have hdonor : tocEnd [soc, nt] ≤ donor.length := htable.tocEnd_le
  have hheader : (donor.take 16).length = 16 := by
    unfold tocEnd at hdonor
    rw [List.length_take]
    simp only [List.length_cons] at hdonor
    omega
  have hsize : (compact (donor.take 16) soc nt a b).length = 136 + a.length + b.length := by
    rw [compact, List.length_append, length_compact_head hheader hsocw hntw hlen, List.length_append,
      Nat.add_assoc]
  obtain ⟨hbl31, hbl33⟩ := bytesAt_compact hheader hsocw hntw hlen
  have hrecords := isTable_compact (a := a) (b := b) hheader hsocw hntw
    (htable.nonzero soc (by simp)) (htable.nonzero nt (by simp)) hlen
  have htake : (compact (donor.take 16) soc nt a b).take 16 = donor.take 16 := by
    rw [compact, fipHead, List.append_assoc, List.take_left' hheader]
  have hapos := List.length_pos_iff.2 hanil
  have hbpos := List.length_pos_iff.2 hbnil
  refine ⟨?_, htake, _, _, _, hrecords, rfl, rfl, rfl, rfl, hbl31.trans ha.symm⟩
  have hmagic : fipHeaderOk (compact (donor.take 16) soc nt a b) = true := by
    unfold fipHeaderOk at hok ⊢
    rwa [bytesAt_congr htake (by omega : 0 + 4 ≤ 16), bytesAt_congr htake (by omega : 4 + 4 ≤ 16)]
  have hlast : lastWith ntFwUuid [compactSoc soc a, compactNt nt a b] = some (compactNt nt a b) := by
    have hfound : ((compactNt nt a b).uuid == ntFwUuid) = true := beq_iff_eq.2 hnt
    exact List.find?_cons_of_pos hfound
  have hwf : Mf.WellFormed [compactSoc soc a, compactNt nt a b] (compactEnd a b)
      (compact (donor.take 16) soc nt a b).length := by
    refine ⟨(by decide : 2 < 32), rfl, ?_, hsize.ge, ?_, compactNt nt a b, by simp, hnt⟩
    · show 136 ≤ 136 + a.length + b.length
      omega
    · intro e he
      simp only [List.mem_cons, List.not_mem_nil, or_false] at he
      rcases he with rfl | rfl
      · show 0 < a.length ∧ 136 ≤ 136 ∧ 136 + a.length ≤ 136 + a.length + b.length
        omega
      · show 0 < b.length ∧ 136 ≤ 136 + a.length ∧ 136 + a.length + b.length ≤ _
        exact ⟨hbpos, Nat.le_add_right _ _, Nat.le_refl _⟩
  obtain ⟨r, hr, hspec⟩ := Mf.fipParse_spec (compact (donor.take 16) soc nt a b)
  rw [(hspec _).2 ⟨hmagic, _, _, _, hrecords, hwf, hlast, rfl⟩] at hr
  exact ⟨_, _, hr, hsize.symm, hbl33⟩

end Written

/-! ## The tools write it -/

theorem Mf2.parseFip_ok {data : List UInt8} {p : ParsedFip} (h : Mf2.parseFip data = .ok p) :
    unpackHeader data = .ok ⟨fipMagic, p.serial, p.flags⟩ ∧
      ∃ t, IsTable data p.entries t ∧ p.fipEnd = t.offset := by
  obtain ⟨u, hlen, hparse⟩ := bind_ok.1 h
  rw [raiseIf_ok, Nat.not_lt] at hlen
  obtain ⟨hmagic, hserial, hflags, -, -, htable⟩ := parseWith_ok.1 hparse
  rw [hserial, hflags, ← hmagic]
  exact ⟨unpackHeader_ok (by omega), htable⟩

theorem Mf2.layOut_eq {p : ParsedFip} {e₀ e₁ : FipRecord} {a b out : List UInt8}
    (h₀ : e₀.uuid.length = 16) (h₁ : e₁.uuid.length = 16) (h : Mf2.layOut p e₀ e₁ a b = .ok out) :
    136 + a.length + b.length < 256 ^ 8 ∧
      out = compact (FipHeader.bytes ⟨fipMagic, p.serial, p.flags⟩) e₀ e₁ a b := by
  obtain ⟨out₁, hhead, h⟩ := bind_ok.1 h
  obtain ⟨out₂, hsoc, h⟩ := bind_ok.1 h
  obtain ⟨out₃, hnt, h⟩ := bind_ok.1 h
  obtain ⟨out₄, hend, hout⟩ := bind_ok.1 h
  obtain ⟨bs, hbs, -, hout₁⟩ := packInto_ok.1 hhead
  obtain ⟨-, -, -, -, hout₂⟩ := packInto_qqq.1 hsoc
  obtain ⟨-, -, -, -, hout₃⟩ := packInto_qqq.1 hnt
  obtain ⟨hfit, -, -, -, hout₄⟩ := packInto_qqq.1 hend
  refine ⟨hfit, ?_⟩
  rw [← Except.ok.inj hout, hout₄, hout₃, hout₂, hout₁, (pack_ok.1 hbs).2]
  have hheader : ([(4, fipMagic), (4, p.serial), (8, p.flags)].map fun f => leBytes f.1 f.2).flatten =
      FipHeader.bytes ⟨fipMagic, p.serial, p.flags⟩ := by
    simp [FipHeader.bytes]
  have hlen : (FipHeader.bytes ⟨fipMagic, p.serial, p.flags⟩).length = 16 := by
    simp [FipHeader.bytes]
  obtain ⟨parts, hparts⟩ : ∃ parts, parts = [FipHeader.bytes ⟨fipMagic, p.serial, p.flags⟩, e₀.uuid,
      FipRecord.fields 136 a.length e₀.flags, e₁.uuid,
      FipRecord.fields (136 + a.length) b.length e₁.flags, zeroUuid,
      FipRecord.fields (136 + a.length + b.length) 0 0, a, b] := ⟨_, rfl⟩
  have hfields := FipRecord.length_fields
  have hsum : parts.flatten.length = 136 + a.length + b.length := by
    simp only [hparts, List.flatten_cons, List.flatten_nil, List.length_append, List.length_nil, hlen,
      h₀, h₁, hfields, length_zeroUuid]
    omega
  have hflat : parts.flatten =
      compact (FipHeader.bytes ⟨fipMagic, p.serial, p.flags⟩) e₀ e₁ a b := by
    simp [hparts, compact, fipHead, FipRecord.bytes, compactSoc, compactNt, compactEnd]
  rw [hheader, setSlice_of_length h₀, setSlice_of_length h₁, setSlice_of_length length_zeroUuid,
    setSlice_of_length rfl, setSlice_of_length rfl, ← hflat, ← writeAll_fill parts 0, hsum, hparts]
  simp only [consecutive, writeAll, List.foldl_cons, List.foldl_nil, hlen, h₀, h₁, hfields,
    length_zeroUuid, Nat.reduceAdd, Nat.reduceMul, Nat.zero_add]

section Tools

variable {donor : List UInt8} {soc nt t : FipRecord}

/-- **What `rebuild` of `mf2_repack_from_medve.py` returns** for a donor with two entries. -/
theorem Mf2.rebuild_eq {M : Medve} {rawBl33 out newBl33 : List UInt8}
    {rep : List (String × ReportValue)} (htable : IsTable donor [soc, nt] t)
    (h : Mf2.rebuild M donor rawBl33 = .ok (out, newBl33, rep)) :
    M.lzmaEncode rawBl33 (bytesAt donor nt.offset nt.size) = .ok newBl33 ∧
      136 + (bytesAt donor soc.offset soc.size).length + newBl33.length < 256 ^ 8 ∧
      out = compact (donor.take 16) soc nt (bytesAt donor soc.offset soc.size) newBl33 := by
  obtain ⟨p, hp, h⟩ := bind_ok.1 h
  obtain ⟨hhead, t', htable', -⟩ := Mf2.parseFip_ok hp
  obtain ⟨hentries, -⟩ := htable'.eq htable
  rw [hentries] at h
  simp only [bind_ok] at h
  obtain ⟨-, -, new, hnew, raw, -, -, -, -, -, final, hfinal, -, -, hret⟩ := h
  obtain ⟨rfl, rfl, -⟩ : final = out ∧ new = newBl33 ∧ _ := by
    simpa using Except.ok.inj hret
  obtain ⟨hfit, hout⟩ := Mf2.layOut_eq (htable.writable (e := soc) (by simp)).uuid
    (htable.writable (e := nt) (by simp)).uuid hfinal
  rw [bytes_of_unpackHeader hhead] at hout
  exact ⟨hnew, hfit, hout⟩

theorem Vanilla.parseFip_ok {blob : List UInt8} {w : Walk} (h : Vanilla.parseFip blob = .ok w) :
    IsTable blob w.entries w.terminator ∧ w.pos = 16 + 40 * w.entries.length := by
  simp only [Vanilla.parseFip, bind_ok] at h
  obtain ⟨-, -, -, -, w?, hw, h⟩ := h
  cases w? with
  | none => cases h
  | some w' =>
    obtain ⟨-, -, hret⟩ := bind_ok.1 h
    cases hret
    obtain ⟨htable, hpos, -⟩ := tocWalk_table.1 hw
    exact ⟨htable, hpos⟩

/-- **What `repack` of `make_vanilla_fip.py` returns** for a donor with two entries. -/
theorem Vanilla.repack_eq {ntFw out : List UInt8} (htable : IsTable donor [soc, nt] t)
    (h : Vanilla.repack donor ntFw = .ok out) :
    136 + (bytesAt donor soc.offset soc.size).length + ntFw.length < 256 ^ 8 ∧
      out = compact (donor.take 16) soc nt (bytesAt donor soc.offset soc.size) ntFw := by
  obtain ⟨w, hw, h⟩ := bind_ok.1 h
  obtain ⟨htable', hpos⟩ := Vanilla.parseFip_ok hw
  obtain ⟨hentries, -⟩ := htable'.eq htable
  rw [hentries] at h hpos
  simp only [bind_ok, raiseIf_ok, not_not, pack_qqq, List.cons.injEq, and_true] at h
  obtain ⟨-, ⟨hsoc, hnt⟩, -, hfirst, -, -, bs₀, ⟨-, -, -, rfl⟩, bs₁, ⟨-, -, -, rfl⟩, bs₂,
    ⟨hfit, -, -, rfl⟩, -, -, -, -, hout⟩ := h
  have hstart : soc.offset = 136 := by
    rw [hfirst, hpos]
    rfl
  rw [hstart] at hfit hout ⊢
  refine ⟨hfit, (Except.ok.inj hout).symm.trans ?_⟩
  simp [compact, fipHead, FipRecord.bytes, compactSoc, compactNt, compactEnd, hsoc, hnt]

/-- **The MF board accepts what the builders of compact FIPs write.** The donor is a FIP the board
accepts, with two entries of which the second is BL33; whatever either tool returns is accepted with
its length as the declared end, has the donor's header, UUIDs, flags and first payload, and the new
BL33. -/
theorem compact_builders {toc : FipToc} {text : String} {M : Medve}
    (hparse : Mf.fipParse donor = some (.ok (toc, text))) (htable : IsTable donor [soc, nt] t)
    (hnt : nt.uuid = ntFwUuid)
    (hM : ∀ raw bl33 bs, M.lzmaEncode raw bl33 = .ok bs → bs ≠ []) :
    (∀ rawBl33 out newBl33 rep, Mf2.rebuild M donor rawBl33 = .ok (out, newBl33, rep) →
      M.lzmaEncode rawBl33 (bytesAt donor nt.offset nt.size) = .ok newBl33 ∧
        Replaces donor soc nt newBl33 out) ∧
    ∀ ntFw out, ntFw ≠ [] → Vanilla.repack donor ntFw = .ok out → Replaces donor soc nt ntFw out := by
  obtain ⟨r, hr, hspec⟩ := Mf.fipParse_spec donor
  rw [hparse] at hr
  obtain ⟨hok, es, t', e, htable', hwf, -, -⟩ := (hspec _).1 (Option.some.inj hr).symm
  obtain ⟨rfl, rfl⟩ := htable'.eq htable
  -- BL31 of an accepted donor is not empty
  have hbl31 : bytesAt donor soc.offset soc.size ≠ [] := by
    obtain ⟨hpos, -, hle⟩ := hwf.entries soc (by simp)
    have hlen := length_bytesAt (hle.trans hwf.high)
    intro hnil
    rw [hnil, List.length_nil] at hlen
    omega
  refine ⟨fun rawBl33 out newBl33 rep h => ?_, fun ntFw out hne h => ?_⟩
  · obtain ⟨hnew, hfit, rfl⟩ := Mf2.rebuild_eq htable h
    exact ⟨hnew, compact_replaces htable hok hnt rfl hbl31 (hM _ _ _ hnew) hfit⟩
  · obtain ⟨hfit, rfl⟩ := Vanilla.repack_eq htable h
    exact compact_replaces htable hok hnt rfl hbl31 hne hfit

/-- A donor with a BL31 and a BL33 of one byte each. -/
def sampleDonor : List UInt8 :=
  compact (FipHeader.bytes ⟨fipMagic, fipSerial, 0⟩) ⟨⟨socFwUuid, 0, 0⟩, 3⟩ ⟨⟨ntFwUuid, 0, 0⟩, 5⟩ [1]
    [2]

/-- A compressor that puts the first byte of LZMA properties before the data. -/
def sampleMedve : Medve := ⟨id, fun raw _ => .ok (0x5d :: raw), fun bs => .ok bs.tail⟩

/-- Both tools replace the BL33 of the sample donor. -/
theorem compact_builders_sample :
    (∃ out newBl33 rep, Mf2.rebuild sampleMedve sampleDonor [7] = .ok (out, newBl33, rep) ∧
      Replaces sampleDonor ⟨⟨socFwUuid, 136, 1⟩, 3⟩ ⟨⟨ntFwUuid, 137, 1⟩, 5⟩ newBl33 out) ∧
    ∃ out, Vanilla.repack sampleDonor [8, 9] = .ok out ∧
      Replaces sampleDonor ⟨⟨socFwUuid, 136, 1⟩, 3⟩ ⟨⟨ntFwUuid, 137, 1⟩, 5⟩ [8, 9] out := by
  have hsoc : FipRecord.Writable ⟨⟨socFwUuid, 0, 0⟩, 3⟩ :=
    ⟨rfl, by decide, by decide, by decide⟩
  have hnt : FipRecord.Writable ⟨⟨ntFwUuid, 0, 0⟩, 5⟩ :=
    ⟨rfl, by decide, by decide, by decide⟩
  have htable : IsTable sampleDonor [⟨⟨socFwUuid, 136, 1⟩, 3⟩, ⟨⟨ntFwUuid, 137, 1⟩, 5⟩]
      (compactEnd [1] [2]) := isTable_compact rfl hsoc hnt rfl rfl (by decide)
  have haccepted : (Mf.fipParse sampleDonor).any Except.isOk = true := by decide +kernel
  have hmf2 : (Mf2.rebuild sampleMedve sampleDonor [7]).isOk = true := by decide +kernel
  have hvanilla : (Vanilla.repack sampleDonor [8, 9]).isOk = true := by decide +kernel
  obtain ⟨r, hr, hok⟩ := (Option.any_eq_true _ _).1 haccepted
  obtain ⟨⟨toc, text⟩, rfl⟩ := exists_of_isOk hok
  obtain ⟨⟨out, newBl33, rep⟩, hout⟩ := exists_of_isOk hmf2
  obtain ⟨out', hout'⟩ := exists_of_isOk hvanilla
  have hall := compact_builders (M := sampleMedve) hr htable rfl
    (by rintro raw bl33 bs ⟨⟩; exact List.cons_ne_nil _ _)
  exact ⟨⟨out, newBl33, rep, hout, (hall.1 _ _ _ _ hout).2⟩, out', hout',
    hall.2 _ _ (List.cons_ne_nil _ _) hout'⟩

end Tools

end UrsusBoot
