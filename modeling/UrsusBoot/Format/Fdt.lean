import UrsusBoot.Format.Fip

/-!
# Flattened device tree headers

`fdtCheckHeader` is libfdt's check of the 40-byte header of a device tree (or FIT) blob.
-/

namespace UrsusBoot

structure FdtHeader where
  magic : ℕ
  totalsize : ℕ
  offDtStruct : ℕ
  offDtStrings : ℕ
  offMemRsvmap : ℕ
  version : ℕ
  lastCompVersion : ℕ
  sizeDtStrings : ℕ
  sizeDtStruct : ℕ

def fdtHeader (buf : List UInt8) : FdtHeader where
  magic := beNat (bytesAt buf 0 4)
  totalsize := beNat (bytesAt buf 4 4)
  offDtStruct := beNat (bytesAt buf 8 4)
  offDtStrings := beNat (bytesAt buf 12 4)
  offMemRsvmap := beNat (bytesAt buf 16 4)
  version := beNat (bytesAt buf 20 4)
  lastCompVersion := beNat (bytesAt buf 24 4)
  sizeDtStrings := beNat (bytesAt buf 32 4)
  sizeDtStruct := beNat (bytesAt buf 36 4)

abbrev fdtMagic : ℕ := 0xd00dfeed

def fdtHeaderSize (version : ℕ) : ℕ :=
  if version ≤ 1 then 28 else if version ≤ 2 then 32 else if version ≤ 16 then 36 else 40

/-- `check_off_`. -/
def fdtCheckOff (hdrsize totalsize off : ℕ) : Bool :=
  decide (hdrsize ≤ off) && decide (off ≤ totalsize)

/-- `check_block_`, in unsigned 32-bit arithmetic. -/
def fdtCheckBlock (hdrsize totalsize base size : ℕ) : Bool :=
  fdtCheckOff hdrsize totalsize base && decide (base ≤ (base + size) % 2 ^ 32) &&
    fdtCheckOff hdrsize totalsize ((base + size) % 2 ^ 32)

/-- `fdt_check_header` of the blob `buf` at an 8-byte aligned address. -/
def fdtCheckHeader (buf : List UInt8) : ℤ :=
  let h := fdtHeader buf
  let hdrsize := fdtHeaderSize h.version
  if h.magic ≠ fdtMagic then -9
  else if h.version < 0x02 ∨ 0x11 < h.lastCompVersion ∨ h.version < h.lastCompVersion then -10
  else if h.totalsize < hdrsize ∨ 0x7fffffff < h.totalsize then -8
  else if !fdtCheckOff hdrsize h.totalsize h.offMemRsvmap then -8
  else if h.version < 17 ∧ !fdtCheckOff hdrsize h.totalsize h.offDtStruct then -8
  else if 17 ≤ h.version ∧ !fdtCheckBlock hdrsize h.totalsize h.offDtStruct h.sizeDtStruct then -8
  else if !fdtCheckBlock hdrsize h.totalsize h.offDtStrings h.sizeDtStrings then -8
  else 0

end UrsusBoot
