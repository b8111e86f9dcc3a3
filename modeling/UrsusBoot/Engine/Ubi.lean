import UrsusBoot.Engine.Basic

/-!
# UBI helpers

The helpers of `ursusubi.c` that its two engines use: the preloader and BL2 checks, the volume
manifest, and the policy for `rootfs_data`.
-/

namespace UrsusBoot

abbrev ubiPreloaderMax : ℕ := 0x20000
abbrev stagedHeadroomLebs : ℕ := 20
abbrev rootfsFreeReserveLebs : ℕ := 16

/-! ## The preloader and the BL2 image -/

/-- `ursus_ubi_validate_preloader` of the bytes at an address. -/
def validatePreloader (P : Platform) (addr len : ℕ) : FlashProg ℤ := do
  if len = 0 ∨ ubiPreloaderMax < len then return -efbig
  let buf ← readMem addr len
  if len < 16 ∨ leNat (bytesAt buf 0 4) ≠ fipMagic then return -einval
  if P.sha256 buf ≠ P.preloaderSha256 then return -ebadmsg
  return 0

/-- The candidate BL2 image kept in RAM between requests: the buffer, once allocated, and whether
its last preparation succeeded. -/
structure Bl2Candidate where
  buf : Option (List UInt8) := none
  ok : Bool := false

/-- The image built around a preloader: erased prefix, preloader, erased padding. -/
def bl2Image (preloader : List UInt8) : List UInt8 :=
  List.replicate bl2PreloaderOff 0xff ++ preloader ++
    List.replicate (ubiBl2Size - bl2PreloaderOff - preloader.length) 0xff

/-- `ursus_ubi_prepare_bl2_candidate`. The three structural checks read back what was just stored
in the same buffer, so only the digest can reject. -/
def prepareBl2Candidate (P : Platform) (c : Bl2Candidate) (addr len : ℕ) :
    FlashProg (ℤ × Bl2Candidate) := do
  let c := { c with ok := false }
  if len = 0 ∨ ubiBl2Size - bl2PreloaderOff < len then return (-efbig, c)
  if c.buf.isNone then
    if !(← malloc ubiBl2Size) then return (-enomem, c)
  let src ← readMem addr len
  let c := { c with buf := some (bl2Image src) }
  if P.sha256 (bl2Image src) ≠ P.bl2ImageSha256 then return (-ebadmsg, c)
  return (0, { c with ok := true })

/-- `ursus_verify_bl2_candidate`. -/
def verifyBl2Candidate (P : Platform) (c : Bl2Candidate) : ℤ × Bl2Candidate :=
  match c.ok, c.buf with
  | true, some buf =>
    if P.sha256 buf ≠ P.bl2ImageSha256 then (-ebadmsg, { c with ok := false }) else (0, c)
  | _, _ => (-einval, c)

/-- `ursus_ubi_installed_bl2_matches_pin`. -/
def installedBl2MatchesPin (P : Platform) : FlashProg ℤ := do
  match ← findMasterNand with
  | none => return -enodev
  | some _ =>
    if !(← malloc ubiBl2Size) then return -enomem
    let (ret, buf) ← readExact 0 ubiBl2Size
    if ret ≠ 0 then return ret
    return if P.sha256 buf ≠ P.bl2ImageSha256 then -ebadmsg else 0

/-! ## FIP and FIT in place -/

/-- `ursus_current_fip_length`: the declared end of the FIP in stock NAND. -/
def currentFipLength (writesize : ℕ) : FlashProg (Except ℤ ℕ) := do
  if !(← malloc fipTocRead) then return .error (-enomem)
  let (ret, toc) ← readRange writesize stockFipOff fipTocRead
  if ret ≠ 0 then return .error (-einval)
  return fipLength toc

def volumeFipValid (name : String) : FlashProg Bool := do
  if (← ubiRead ubiReadbackAddr name fipTocRead) ≠ 0 then return false
  let buf ← readMem ubiReadbackAddr fipTocRead
  return fipBufferValid buf

/-! ## Volumes -/

/-- The volumes every native layout has besides `fit`. -/
def coreNames : List String := ["ubootenv", "ubootenv2", "bosa", "ri", "fip", "rootfs_data"]

/-- Open each of the named volumes; the first failure is the answer. -/
def openAll : List String → FlashProg ℤ
  | [] => return 0
  | n :: ns => do
    match ← ubiOpenVolume n with
    | .error e => return e
    | .ok _ => openAll ns

/-- The size in bytes of an opened volume, as `unsigned long long`. -/
def VolumeDesc.bytes (d : VolumeDesc) : ℕ := d.reservedPebs * d.usableLebSize % 2 ^ 64

def verifyVolumeManifest (requireFit : Bool) : FlashProg ℤ := do
  if (← ubiGetDevice).isNone then return -enodev
  let ret ← openAll (if requireFit then coreNames ++ ["fit"] else coreNames)
  if ret ≠ 0 then return ret
  match ← ubiOpenVolume "rootfs_data" with
  | .error e => return e
  | .ok d => return if d.static ∨ d.reservedPebs = 0 ∨ d.bytes = 0 then -einval else 0

def storeRootfsDataMax (bytes : ℕ) : FlashProg ℤ := do
  if (← envGetRootfsDataMax) = bytes then return 0
  if (← envSetRootfsDataMax bytes) ≠ 0 then return -eio
  if (← envSave) ≠ 0 then return -eio
  return 0

def currentRootfsData : FlashProg (Except ℤ ℕ) := do
  match ← ubiOpenVolume "rootfs_data" with
  | .error e => return .error e
  | .ok d => return if 2 ^ 64 - 1 < d.bytes then .error (-eoverflow) else .ok d.bytes

/-- `ursus_ubi_create_clean_rootfs_data`: everything but the reserve goes to `rootfs_data`. -/
def createCleanRootfsData (persistEnv : Bool) : FlashProg ℤ := do
  match ← ubiGetDevice with
  | none => return -enodev
  | some dev =>
    if dev.lebSize = 0 then return -enodev
    if dev.availPebs ≤ rootfsFreeReserveLebs then return -enospc
    let targetBytes := (dev.availPebs - rootfsFreeReserveLebs) * dev.lebSize
    let ret ← ubiCreate "rootfs_data" targetBytes false (some 6)
    if ret ≠ 0 then return ret
    if persistEnv then
      let _ ← storeRootfsDataMax targetBytes
    return 0

def resetSettings : FlashProg ℤ := do
  let ret ← ubiRegisterMtd
  if ret ≠ 0 then return ret
  let _ ← ubiDetach
  let ret ← ubiPart .ursusUbiFull
  if ret ≠ 0 then return ret
  let ret ← removeIfPresent "rootfs_data"
  if ret ≠ 0 then return ret
  let ret ← createCleanRootfsData true
  if ret ≠ 0 then return ret
  ubiCheck "rootfs_data"

end UrsusBoot
