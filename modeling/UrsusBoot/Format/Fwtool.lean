import UrsusBoot.Format.Fip

/-!
# OpenWrt image containers

What `ursusweb.c` reads of an OpenWrt image besides its FIT: the fwtool trailer with its JSON
metadata, and the tar headers of a non-UBI sysupgrade.
-/

namespace UrsusBoot

/-! ## Checksum -/

/-- The eight shifts of `ursus_crc32_fwtool` for one byte. -/
def crc32Shift : ℕ → UInt32 → UInt32
  | 0, crc => crc
  | n + 1, crc => crc32Shift n ((crc >>> 1) ^^^ (if crc &&& 1 = 0 then 0 else 0xedb88320))

/-- `ursus_crc32_fwtool`. -/
def crc32Fwtool (crc : UInt32) (buf : List UInt8) : UInt32 :=
  buf.foldl (fun crc b => crc32Shift 8 (crc ^^^ b.toUInt32)) crc

def crcNatShift : ℕ → ℕ → ℕ
  | 0, c => c
  | n + 1, c => crcNatShift n (Nat.xor (Nat.shiftRight c 1)
    (bif Nat.beq (Nat.land c 1) 0 then 0 else 0xedb88320))

/-- The checksum on natural numbers, which the kernel computes with. -/
def crcNat (c : ℕ) (bs : List UInt8) : ℕ :=
  bs.foldl (fun c b => crcNatShift 8 (Nat.xor c b.toNat)) c

/-! ## The device list -/

def jsonWs (p : List UInt8) : List UInt8 :=
  p.dropWhile fun b => b == 0x20 || b == 0x09 || b == 0x0d || b == 0x0a

/-- The rest of a string literal: its value and what follows the closing quote. Escapes and control
characters are refused. -/
def jsonString : List UInt8 → Option (List UInt8 × List UInt8)
  | [] => none
  | b :: bs =>
    if b = 0x22 then some ([], bs)
    else if b = 0x5c ∨ b < 0x20 then none
    else (jsonString bs).map fun r => (b :: r.1, r.2)

/-- What `ursus_json_exact_supported_devices` answers: its result and its two flags, which it may
have set even when it answers false. -/
structure SupportedDevices where
  ok : Bool := false
  factory : Bool := false
  ubi : Bool := false
deriving DecidableEq

/-- The elements of the array; `fuel` bounds their number. -/
def jsonDevices : ℕ → List UInt8 → SupportedDevices → SupportedDevices
  | 0, _, d => d
  | fuel + 1, p, d =>
    match jsonWs p with
    | [] => d
    | b :: bs =>
      if b = 0x5d then { d with ok := true }
      else if b ≠ 0x22 then d
      else
        match jsonString bs with
        | none => d
        | some (v, rest) =>
          let d := { d with
            factory := d.factory || v == asciiBytes "nokia,xg-040g-md"
            ubi := d.ubi || v == asciiBytes "nokia,xg-040g-md-ubi" }
          match jsonWs rest with
          | [] => d
          | b :: rest =>
            if b = 0x2c then jsonDevices fuel rest d
            else if b = 0x5d then { d with ok := true }
            else d

/-- What follows the key: a colon, a bracket and the elements. -/
def jsonDeviceArray (p : List UInt8) : SupportedDevices :=
  match jsonWs p with
  | 0x3a :: p =>
    match jsonWs p with
    | 0x5b :: p => jsonDevices (p.length + 1) p {}
    | _ => {}
  | _ => {}

/-- `ursus_json_exact_supported_devices`: only the first occurrence of the key counts. -/
def jsonExactSupportedDevices : List UInt8 → SupportedDevices
  | [] => {}
  | b :: bs =>
    let key := asciiBytes "\"supported_devices\""
    if key.isPrefixOf (b :: bs) then jsonDeviceArray ((b :: bs).drop key.length)
    else jsonExactSupportedDevices bs

/-! ## The trailer -/

abbrev fwtoolMagic : ℕ := 0x46577830
abbrev fwtoolInfo : ℕ := 1

/-- `struct ursus_meta`. -/
structure FwtoolMeta where
  found : Bool := false
  crcOk : Bool := false
  supportedDevicesPresent : Bool := false
  deviceFactory : Bool := false
  deviceUbi : Bool := false
  jsonOff : ℕ := 0
  jsonLen : ℕ := 0

/-- The trailer at `pos`, when there is one: magic, type and a size that reaches back into the
buffer. -/
def fwtoolTrailerAt (buf : List UInt8) (pos : ℕ) : Option FwtoolMeta :=
  let t := bytesAt buf pos 16
  let size := beNat (bytesAt t 12 4)
  if beNat (bytesAt t 0 4) = fwtoolMagic ∧ leNat (bytesAt t 8 1) = fwtoolInfo ∧ 24 ≤ size ∧
      size ≤ pos + 16 then
    let jsonOff := pos + 16 - size + 8
    let jsonLen := size - 16 - 8
    let devices := jsonExactSupportedDevices (bytesAt buf jsonOff jsonLen)
    some {
      found := true
      crcOk := (crc32Fwtool 0xffffffff (buf.take pos)).toNat == beNat (bytesAt t 4 4)
      supportedDevicesPresent := devices.ok
      deviceFactory := devices.factory
      deviceUbi := devices.ubi
      jsonOff := jsonOff
      jsonLen := jsonLen }
  else none

/-- The loop of `ursus_parse_fwtool_meta`, downwards from `pos`. It stops at `start`; `none` when it
would pass below the buffer, as it does when it begins below `start`. -/
def fwtoolScan (buf : List UInt8) (start : ℕ) : ℕ → Option (Except ℤ FwtoolMeta)
  | 0 =>
    match fwtoolTrailerAt buf 0 with
    | some m => some (.ok m)
    | none => if start = 0 then some (.error (-enoent)) else none
  | pos + 1 =>
    match fwtoolTrailerAt buf (pos + 1) with
    | some m => some (.ok m)
    | none => if pos + 1 = start then some (.error (-enoent)) else fwtoolScan buf start pos

def parseFwtoolMeta (buf : List UInt8) : Option (Except ℤ FwtoolMeta) :=
  if buf.length < 24 then some (.error (-enoent))
  else fwtoolScan buf (if 0x100000 < buf.length then buf.length - 0x100000 else 16) (buf.length - 16)

/-! ## Tar headers -/

/-- `ursus_tar_magic` of the header at the start of what remains. -/
def tarMagic (h : List UInt8) : Bool :=
  decide (512 ≤ h.length) && bytesAt h 257 5 == asciiBytes "ustar"

/-- `ursus_tar_octal`: blanks and zero bytes are skipped, anything else ends the number. -/
def tarOctal : List UInt8 → ℕ → ℕ
  | [], v => v
  | b :: bs, v =>
    if b = 0 ∨ b = 0x20 then tarOctal bs v
    else if b < 0x30 ∨ 0x37 < b then v
    else tarOctal bs (v * 8 + (b.toNat - 0x30))

/-- A C string: the bytes before the first zero byte. -/
def cstr (bs : List UInt8) : List UInt8 := bs.takeWhile (· != 0)

def nameEnds (name : List UInt8) (suffix : String) : Bool := (asciiBytes suffix).isSuffixOf name

end UrsusBoot
