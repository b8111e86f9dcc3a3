import UrsusBoot.Tools.Python

/-!
# `repack_persistent_fip.py`

The builder of the MD board. It takes a stock FIP as a template and puts another BL33 into it: the
payloads in front keep their places, the certificates and the checksum move behind a BL33 that has
become too long, the table is rewritten, and the checksum entry gets a CRC and a SHA-256 of everything
before it.
-/

namespace UrsusBoot

open Overlay

namespace Repack

/-! ## The tool -/

def checksumUuid : List UInt8 :=
  [0xa2, 0xcc, 0xea, 0xb7, 0xf8, 0x25, 0x4b, 0x27, 0x97, 0x04, 0x63, 0x3a, 0x6f, 0xd6, 0x9a, 0xd8]

def certUuids : List (List UInt8) :=
  [[0x82, 0x7e, 0xe8, 0x90, 0xf8, 0x60, 0xe4, 0x11, 0xa1, 0xb4, 0x77, 0x7a, 0x21, 0xb4, 0xf9, 0x4c],
   [0x8a, 0xb8, 0xbe, 0xcc, 0xf9, 0x60, 0xe4, 0x11, 0x9a, 0xd0, 0xeb, 0x48, 0x22, 0xd8, 0xdc, 0xf8],
   [0x8a, 0xd5, 0x83, 0x2a, 0xfb, 0x60, 0xe4, 0x11, 0x8a, 0xaf, 0xdf, 0x30, 0xbb, 0xc4, 0x98, 0x59],
   [0xd6, 0xe2, 0x69, 0xea, 0x5d, 0x63, 0xe4, 0x11, 0x8d, 0x8c, 0x9f, 0xba, 0xbe, 0x99, 0x56, 0xa5],
   [0xe2, 0xb2, 0x0c, 0x20, 0x5e, 0x63, 0xe4, 0x11, 0x9c, 0xe8, 0xab, 0xcc, 0xf9, 0x2b, 0xb6, 0x66],
   [0x8e, 0xc4, 0xc1, 0xf3, 0x5d, 0x63, 0xe4, 0x11, 0xa7, 0xa9, 0x87, 0xee, 0x40, 0xb2, 0x3f, 0xa7]]

/-- `CERT_REL`: the certificates, from the first one on. -/
def certRel : List ℕ := [0x0000, 0x0c00, 0x1400, 0x1c00, 0x2400, 0x2c00]

abbrev checksumRel : ℕ := 0x3400
abbrev endRel : ℕ := 0x3800

/-- `align_up` to `ALIGN`. -/
def alignUp (x : ℕ) : ℕ := (x + 0x800 - 1) / 0x800 * 0x800

/-- `zlib.crc32` and `hashlib.sha256`. -/
structure Hashes where
  crc32 : List UInt8 → ℕ
  sha256 : List UInt8 → List UInt8

def parse (data : List UInt8) : Except Raise ParsedFip :=
  parseWith (fun _ => "bad FIP magic") "entry OOB" "missing terminator" data

structure Layout where
  entries : List FipRecord
  termPos : ℕ
  nt : FipRecord
  /-- The certificates, in the order of `certUuids`. -/
  certs : List FipRecord
  first : ℕ

namespace Layout

def checksumOff (L : Layout) : ℕ := L.first + checksumRel
def finalEnd (L : Layout) : ℕ := L.first + endRel

/-- `cert_offsets`. -/
def certOffset (L : Layout) (uuid : List UInt8) : Option ℕ :=
  ((certUuids.zip certRel).lookup uuid).map fun r => L.first + r

/-- Offset and size of an entry in the new table, for a BL33 of `n` bytes. -/
def place (L : Layout) (n : ℕ) (e : FipRecord) : ℕ × ℕ :=
  if e.uuid = ntFwUuid then (e.offset, n)
  else match L.certOffset e.uuid with
    | some off => (off, e.size)
    | none => if e.uuid = checksumUuid then (L.checksumOff, 40) else (e.offset, e.size)

end Layout

/-- The first part of `rebuild`: the entries it needs, and where they go. -/
def layout (template ntPayload : List UInt8) (forceOldLayout : Bool) : Except Raise Layout := do
  let p ← parse template
  match lastWith ntFwUuid p.entries, lastWith checksumUuid p.entries with
  | some nt, some _ =>
    match certUuids.mapM fun u => lastWith u p.entries with
    | some certs =>
      let ntEnd := nt.offset + ntPayload.length
      let oldFirst := (certs.map fun e => e.offset).headD 0
      let first := if forceOldLayout = true ∨ ntEnd ≤ oldFirst then oldFirst else alignUp ntEnd
      raiseIf (first < ntEnd) (.valueError "NT overlaps certificate block")
      raiseIf (0x7bffc < 0x800 + (first + endRel))
        (.valueError ("FIP too large: physical end=0x" ++ hexText (0x800 + (first + endRel))))
      return ⟨p.entries, p.termPos, nt, certs, first⟩
    | none => throw (.valueError "certificate entry missing")
  | _, _ => throw (.valueError "required entries missing")

/-- An entry that keeps its place: none of BL33, checksum and certificates. -/
def isFixed (e : FipRecord) : Bool :=
  !(e.uuid == ntFwUuid || e.uuid == checksumUuid || certUuids.contains e.uuid)

/-- `out[off:off + e['size']] = e['payload']`. -/
def assign (template : List UInt8) (out : List UInt8) (off : ℕ) (e : FipRecord) : List UInt8 :=
  setSlice out off (off + e.size) (bytesAt template e.offset e.size)

/-- The second part of `rebuild`: the container before the checksum is put into it. -/
def fill (L : Layout) (template ntPayload : List UInt8) : Except Raise (List UInt8) := do
  let out := List.replicate L.finalEnd 0
  let out := setSlice out 0 0x400 (template.take 0x400)
  let out := (L.entries.filter isFixed).foldl (fun out e => assign template out e.offset e) out
  let out := setSlice out L.nt.offset (L.nt.offset + ntPayload.length) ntPayload
  let out := (certRel.zip L.certs).foldl (fun out c => assign template out (L.first + c.1) c.2) out
  let out ← L.entries.zipIdx.foldlM (fun out (e, i) =>
    packInto out (16 + 40 * i + 16)
      (qqq (L.place ntPayload.length e).1 (L.place ntPayload.length e).2 e.flags)) out
  packInto out (L.termPos + 16) (qqq L.finalEnd 0 0)

/-- `meta`: what the checksum entry holds. -/
def checksumMeta (H : Hashes) (L : Layout) (out : List UInt8) : Except Raise (List UInt8) := do
  let words ← pack [(4, L.checksumOff), (4, H.crc32 (out.take L.checksumOff) % 2 ^ 32)]
  return words ++ H.sha256 (out.take L.checksumOff)

/-- The third part of `rebuild`: the checksum. -/
def putChecksum (H : Hashes) (L : Layout) (out : List UInt8) : Except Raise (List UInt8) := do
  let bs ← checksumMeta H L out
  raiseIf (bs.length ≠ 40) (.assertionError "")
  return setSlice out L.checksumOff (L.checksumOff + 40) bs

/-- `struct.unpack_from('<I', payload, pos)[0]`. -/
def unpack32 (payload : List UInt8) (pos : ℕ) : Except Raise ℕ :=
  if payload.length < pos + 4 then .error .structError else .ok (leNat (bytesAt payload pos 4))

/-- `b2[uuid]['payload']`. -/
def payloadOf (data : List UInt8) (es : List FipRecord) (uuid : List UInt8) :
    Except Raise (List UInt8) :=
  match lastWith uuid es with
  | none => .error .keyError
  | some e => .ok (bytesAt data e.offset e.size)

/-- The last part of `rebuild`: the checks of what was built. -/
def verify (H : Hashes) (L : Layout) (ntPayload final : List UInt8) : Except Raise Unit := do
  let q ← parse final
  raiseIf (q.fipEnd ≠ final.length) (.valueError "terminator mismatch")
  let nt ← payloadOf final q.entries ntFwUuid
  raiseIf (nt ≠ ntPayload) (.valueError "NT payload mismatch")
  let check ← payloadOf final q.entries checksumUuid
  let off ← unpack32 check 0
  raiseIf (off ≠ L.checksumOff) (.valueError "checksum offset mismatch")
  let crc ← unpack32 check 4
  raiseIf (crc ≠ H.crc32 (final.take L.checksumOff) % 2 ^ 32) (.valueError "checksum crc mismatch")
  raiseIf (check.drop 8 ≠ H.sha256 (final.take L.checksumOff)) (.valueError "checksum sha mismatch")

/-- What `rebuild` reports. -/
structure Report where
  ntOff : ℕ
  ntSize : ℕ
  ntEnd : ℕ
  certFirst : ℕ
  checksumOff : ℕ
  fipEnd : ℕ
  physicalEnd : ℕ
  sha256 : String

def report (H : Hashes) (L : Layout) (ntPayload final : List UInt8) : Report :=
  ⟨L.nt.offset, ntPayload.length, L.nt.offset + ntPayload.length, L.first, L.checksumOff, L.finalEnd,
    0x800 + L.finalEnd, hexdigest (H.sha256 final)⟩

def rebuild (H : Hashes) (template ntPayload : List UInt8) (forceOldLayout : Bool) :
    Except Raise (List UInt8 × Report) := do
  let L ← layout template ntPayload forceOldLayout
  let out ← fill L template ntPayload
  let final ← putChecksum H L out
  verify H L ntPayload final
  return (final, report H L ntPayload final)

theorem rebuild_ok {H : Hashes} {template ntPayload final : List UInt8} {force : Bool} {rep : Report} :
    rebuild H template ntPayload force = .ok (final, rep) ↔
      ∃ L out, layout template ntPayload force = .ok L ∧ fill L template ntPayload = .ok out ∧
        putChecksum H L out = .ok final ∧ verify H L ntPayload final = .ok () ∧
        rep = report H L ntPayload final := by
  simp only [rebuild, bind_ok]
  constructor
  · rintro ⟨L, hL, out, hout, final', hfinal, u, hverify, hret⟩
    obtain ⟨rfl, rfl⟩ := Prod.mk.inj (Except.ok.inj hret)
    exact ⟨L, out, hL, hout, hfinal, hverify, rfl⟩
  · rintro ⟨L, out, hL, hout, hfinal, hverify, rfl⟩
    exact ⟨L, hL, out, hout, final, hfinal, (), hverify, rfl⟩

/-! ## The layout -/

structure Lays (template ntPayload : List UInt8) (force : Bool) (L : Layout) : Prop where
  parsed : ∃ p, parse template = .ok p ∧ p.entries = L.entries ∧ p.termPos = L.termPos
  nt : lastWith ntFwUuid L.entries = some L.nt
  checksum : (lastWith checksumUuid L.entries).isSome = true
  certs : (certUuids.mapM fun u => lastWith u L.entries) = some L.certs
  first : L.first =
    if force = true ∨ L.nt.offset + ntPayload.length ≤ (L.certs.map fun e => e.offset).headD 0 then
      (L.certs.map fun e => e.offset).headD 0
    else alignUp (L.nt.offset + ntPayload.length)
  behind : L.nt.offset + ntPayload.length ≤ L.first
  room : 0x800 + (L.first + endRel) ≤ 0x7bffc

variable {L : Layout}

theorem layout_ok {template ntPayload : List UInt8} {force : Bool} :
    layout template ntPayload force = .ok L ↔ Lays template ntPayload force L := by
  rw [layout, bind_ok]
  constructor
  · rintro ⟨p, hp, h⟩
    cases hnt : lastWith ntFwUuid p.entries with
    | none =>
      rw [hnt] at h
      cases h
    | some nt =>
      cases hcheck : lastWith checksumUuid p.entries with
      | none =>
        rw [hnt, hcheck] at h
        cases h
      | some c =>
        cases hcerts : certUuids.mapM fun u => lastWith u p.entries with
        | none =>
          simp only [hnt, hcheck, hcerts] at h
          cases h
        | some certs =>
          simp only [hnt, hcheck, hcerts, bind_ok, raiseIf_ok, Nat.not_lt] at h
          obtain ⟨-, hbehind, -, hroom, hret⟩ := h
          cases hret
          exact ⟨⟨p, hp, rfl, rfl⟩, hnt, by rw [hcheck]; rfl, hcerts, rfl, hbehind, hroom⟩
  · rintro ⟨⟨p, hp, hentries, hpos⟩, hnt, hcheck, hcerts, hfirst, hbehind, hroom⟩
    obtain ⟨c, hc⟩ := Option.isSome_iff_exists.1 hcheck
    refine ⟨p, hp, ?_⟩
    rw [hentries, hpos]
    simp only [hnt, hc, hcerts, bind_ok, raiseIf_ok, Nat.not_lt, ← hfirst]
    exact ⟨(), hbehind, (), hroom, rfl⟩

/-! ## The writes -/

namespace Layout

def relocated (L : Layout) (n : ℕ) (e : FipRecord) : FipRecord :=
  ⟨⟨e.uuid, (L.place n e).1, (L.place n e).2⟩, e.flags⟩

def endRecord (L : Layout) (t : FipRecord) : FipRecord := ⟨⟨t.uuid, L.finalEnd, 0⟩, 0⟩

/-- The payloads, in the order in which they are written. -/
def payloadWrites (L : Layout) (template ntPayload : List UInt8) : List (ℕ × List UInt8) :=
  (L.entries.filter isFixed).map (fun e => (e.offset, bytesAt template e.offset e.size)) ++
    ((L.nt.offset, ntPayload) ::
      (certRel.zip L.certs).map fun c => (L.first + c.1, bytesAt template c.2.offset c.2.size))

end Layout

/-- The numbers of the records from record `i` on. -/
def tocWrites (i : ℕ) (rs : List FipRecord) : List (ℕ × List UInt8) :=
  (rs.zipIdx i).map fun r => (16 + 40 * r.2 + 16, FipRecord.fields r.1.offset r.1.size r.1.flags)

/-- The numbers of a record have eight bytes each. -/
def Numbers (r : FipRecord) : Prop := r.offset < 256 ^ 8 ∧ r.size < 256 ^ 8 ∧ r.flags < 256 ^ 8

theorem tocWrites_cons (i : ℕ) (r : FipRecord) (rs : List FipRecord) :
    tocWrites i (r :: rs) =
      (16 + 40 * i + 16, FipRecord.fields r.offset r.size r.flags) :: tocWrites (i + 1) rs := rfl

theorem packs_ok {rs : List FipRecord} {i : ℕ} {out out' : List UInt8} :
    (rs.zipIdx i).foldlM (fun out r =>
      packInto out (16 + 40 * r.2 + 16) (qqq r.1.offset r.1.size r.1.flags)) out = .ok out' ↔
      (∀ r ∈ rs, Numbers r) ∧ (∀ w ∈ tocWrites i rs, w.1 + 24 ≤ out.length) ∧
        out' = writeAll (tocWrites i rs) out := by
  induction rs generalizing i out with
  | nil => simp [tocWrites, writeAll, pure, Except.pure, eq_comm]
  | cons r rs ih =>
    rw [List.zipIdx_cons, List.foldlM_cons, bind_ok, tocWrites_cons]
    simp only [packInto_qqq, List.forall_mem_cons, writeAll_cons]
    constructor
    · rintro ⟨out₁, ⟨hoff, hsize, hflags, hroom, hout₁⟩, h⟩
      obtain ⟨hnum, hfit, hout'⟩ := ih.1 h
      have hlen : out₁.length = out.length := by
        rw [hout₁]
        exact length_write (.inr (by rwa [FipRecord.length_fields]))
      rw [hlen] at hfit
      exact ⟨⟨⟨hoff, hsize, hflags⟩, hnum⟩, ⟨hroom, hfit⟩, by rw [hout', hout₁]⟩
    · rintro ⟨⟨⟨hoff, hsize, hflags⟩, hnum⟩, ⟨hroom, hfit⟩, hout'⟩
      refine ⟨_, ⟨hoff, hsize, hflags, hroom, rfl⟩, ih.2 ⟨hnum, ?_, hout'⟩⟩
      rw [length_write (.inr (by rwa [FipRecord.length_fields]))]
      exact hfit

/-- The first 0x400 bytes of the template, and zeros. -/
def Layout.start (L : Layout) (template : List UInt8) : List UInt8 :=
  setSlice (List.replicate L.finalEnd 0) 0 0x400 (template.take 0x400)

theorem foldl_assign {α : Type} {template : List UInt8} (off : α → ℕ) (entry : α → FipRecord)
    (xs : List α) (h : ∀ x ∈ xs, (entry x).offset + (entry x).size ≤ template.length)
    (out : List UInt8) :
    xs.foldl (fun out x => assign template out (off x) (entry x)) out =
      writeAll (xs.map fun x => (off x, bytesAt template (entry x).offset (entry x).size)) out := by
  induction xs generalizing out with
  | nil => rfl
  | cons x xs ih =>
    have hlen := length_bytesAt (h x List.mem_cons_self)
    rw [List.foldl_cons, ih fun y hy => h y (List.mem_cons_of_mem x hy), List.map_cons, writeAll_cons,
      assign, setSlice_of_length hlen]

/-- **The container before the checksum**: the writes of the payloads and then of the table. -/
theorem fill_ok {template ntPayload out : List UInt8} {t : FipRecord}
    (hentries : ∀ e ∈ L.entries, e.offset + e.size ≤ template.length)
    (hcerts : ∀ e ∈ L.certs, e.offset + e.size ≤ template.length)
    (hpos : L.termPos = 16 + 40 * L.entries.length) :
    fill L template ntPayload = .ok out ↔
      (∀ r ∈ L.entries.map (L.relocated ntPayload.length) ++ [L.endRecord t], Numbers r) ∧
        (∀ w ∈ tocWrites 0 (L.entries.map (L.relocated ntPayload.length) ++ [L.endRecord t]),
          w.1 + 24 ≤ (writeAll (L.payloadWrites template ntPayload) (L.start template)).length) ∧
        out = writeAll (tocWrites 0 (L.entries.map (L.relocated ntPayload.length) ++ [L.endRecord t]))
          (writeAll (L.payloadWrites template ntPayload) (L.start template)) := by
  have hpayloads : (certRel.zip L.certs).foldl
      (fun out c => assign template out (L.first + c.1) c.2)
      (setSlice ((L.entries.filter isFixed).foldl (fun out e => assign template out e.offset e)
        (L.start template)) L.nt.offset (L.nt.offset + ntPayload.length) ntPayload) =
      writeAll (L.payloadWrites template ntPayload) (L.start template) := by
    rw [foldl_assign (fun c => L.first + c.1) Prod.snd, foldl_assign (fun e => e.offset) (fun e => e),
      setSlice_of_length rfl, Layout.payloadWrites, writeAll_append, writeAll_cons]
    · exact fun e he => hentries e (List.mem_filter.1 he).1
    · exact fun c hc => hcerts c.2 (List.of_mem_zip hc).2
  have htoc : fill L template ntPayload =
      ((L.entries.map (L.relocated ntPayload.length) ++ [L.endRecord t]).zipIdx 0).foldlM
        (fun out r => packInto out (16 + 40 * r.2 + 16) (qqq r.1.offset r.1.size r.1.flags))
        (writeAll (L.payloadWrites template ntPayload) (L.start template)) := by
    rw [List.zipIdx_append, List.foldlM_append, List.zipIdx_map, List.foldlM_map, ← hpayloads]
    simp only [List.length_map, Nat.zero_add, List.zipIdx_singleton, List.foldlM_cons, List.foldlM_nil,
      ← hpos]
    rw [fill]
    simp only [bind_pure]
    rfl
  rw [htoc, packs_ok]

/-! ## Checksum and checks -/

/-- What the checksum entry holds, for the bytes before it. -/
def Layout.sum (L : Layout) (H : Hashes) (bs : List UInt8) : List UInt8 :=
  leBytes 4 L.checksumOff ++ leBytes 4 (H.crc32 bs % 2 ^ 32) ++ H.sha256 bs

theorem Layout.length_sum {H : Hashes} {bs : List UInt8} (h : (H.sha256 bs).length = 32) :
    (L.sum H bs).length = 40 := by
  rw [Layout.sum, List.length_append, List.length_append, length_leBytes, length_leBytes, h]

/-- **The checksum** is put over what is there. -/
theorem putChecksum_ok {H : Hashes} {out final : List UInt8} (hroom : L.checksumOff < 256 ^ 4) :
    putChecksum H L out = .ok final ↔
      (H.sha256 (out.take L.checksumOff)).length = 32 ∧
        final = write out L.checksumOff (L.sum H (out.take L.checksumOff)) := by
  have hcrc : H.crc32 (out.take L.checksumOff) % 2 ^ 32 < 256 ^ 4 := Nat.mod_lt _ (by decide)
  have hmeta : checksumMeta H L out = .ok (L.sum H (out.take L.checksumOff)) := by
    rw [checksumMeta, bind_ok]
    refine ⟨_, pack_ok.2 ⟨?_, rfl⟩, ?_⟩
    · simp only [List.mem_cons, List.not_mem_nil, or_false]
      rintro f (rfl | rfl)
      · exact hroom
      · exact hcrc
    · simp [Layout.sum, pure, Except.pure]
  have hsum : (L.sum H (out.take L.checksumOff)).length = 40 ↔
      (H.sha256 (out.take L.checksumOff)).length = 32 := by
    rw [Layout.sum, List.length_append, List.length_append, length_leBytes, length_leBytes]
    omega
  simp only [putChecksum, bind_ok, hmeta, Except.ok.injEq, exists_eq_left', raiseIf_ok, not_not, hsum]
  constructor
  · rintro ⟨-, hlen, hret⟩
    refine ⟨hlen, ?_⟩
    rw [← Except.ok.inj hret, setSlice_of_length (hsum.2 hlen)]
  · rintro ⟨hlen, rfl⟩
    exact ⟨(), hlen, by rw [← setSlice_of_length (hsum.2 hlen)]; rfl⟩

theorem payloadOf_ok {data bs : List UInt8} {es : List FipRecord} {uuid : List UInt8} :
    payloadOf data es uuid = .ok bs ↔
      ∃ e, lastWith uuid es = some e ∧ bytesAt data e.offset e.size = bs := by
  unfold payloadOf
  cases lastWith uuid es with
  | none => simp
  | some e => simp

theorem unpack32_ok {payload : List UInt8} {pos n : ℕ} :
    unpack32 payload pos = .ok n ↔ pos + 4 ≤ payload.length ∧ leNat (bytesAt payload pos 4) = n := by
  unfold unpack32
  by_cases h : payload.length < pos + 4
  · rw [if_pos h]
    exact iff_of_false nofun fun hle => by omega
  · rw [if_neg h, Except.ok.injEq]
    exact ⟨fun heq => ⟨by omega, heq⟩, fun hle => hle.2⟩

/-- **What the checks ask for.** -/
theorem verify_ok {H : Hashes} {ntPayload final : List UInt8} :
    verify H L ntPayload final = .ok () ↔
      ∃ q nt check, parse final = .ok q ∧ q.fipEnd = final.length ∧
        lastWith ntFwUuid q.entries = some nt ∧ bytesAt final nt.offset nt.size = ntPayload ∧
        lastWith checksumUuid q.entries = some check ∧
        8 ≤ (bytesAt final check.offset check.size).length ∧
        leNat (bytesAt (bytesAt final check.offset check.size) 0 4) = L.checksumOff ∧
        leNat (bytesAt (bytesAt final check.offset check.size) 4 4) =
          H.crc32 (final.take L.checksumOff) % 2 ^ 32 ∧
        (bytesAt final check.offset check.size).drop 8 = H.sha256 (final.take L.checksumOff) := by
  simp only [verify, bind_ok, payloadOf_ok, unpack32_ok, raiseIf_ok, not_not]
  constructor
  · rintro ⟨q, hq, -, hend, nt, ⟨e, he, rfl⟩, -, hnt, check, ⟨c, hc, rfl⟩, off, ⟨-, rfl⟩, -, hoff, crc,
      ⟨hlen, rfl⟩, -, hcrc, hsha⟩
    exact ⟨q, e, c, hq, hend, he, hnt, hc, hlen, hoff, hcrc, hsha⟩
  · rintro ⟨q, e, c, hq, hend, he, hnt, hc, hlen, hoff, hcrc, hsha⟩
    exact ⟨q, hq, (), hend, _, ⟨e, he, rfl⟩, (), hnt, _, ⟨c, hc, rfl⟩, _, ⟨by omega, rfl⟩, (), hoff, _,
      ⟨hlen, rfl⟩, (), hcrc, hsha⟩

end Repack

end UrsusBoot
