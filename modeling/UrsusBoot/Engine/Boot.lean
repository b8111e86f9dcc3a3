import UrsusBoot.Engine.Ubi

/-!
# Booting from UBI

`ursus_ubi_boot` loads the volume `fit`, or `fit.old` when there is no `fit`, and hands it to
`bootm`. `ursus_ubi_probe` looks at the same volumes and says whether they would do.
-/

namespace UrsusBoot

abbrev ubiBootAddr : ℕ := 0x90000000
abbrev ubiBootMax : ℕ := 0x04000000

/-! ## The boot -/

/-- The reasons `ursus_ubi_last_boot_reason` may give after `ursus_ubi_boot`. -/
inductive BootReason
  | bootInProgress
  | mtdRegisterFailed
  | ubiAttachFailed
  | fipInvalid
  | fitMissing
  | fitReadFailed
  | fitSizeInvalid
  | fitHeaderInvalid
  | bootmReturned
deriving DecidableEq

def BootReason.name : BootReason → String
  | .bootInProgress => "BOOT_IN_PROGRESS"
  | .mtdRegisterFailed => "MTD_REGISTER_FAILED"
  | .ubiAttachFailed => "UBI_ATTACH_FAILED"
  | .fipInvalid => "FIP_INVALID"
  | .fitMissing => "FIT_MISSING"
  | .fitReadFailed => "FIT_READ_FAILED"
  | .fitSizeInvalid => "FIT_SIZE_INVALID"
  | .fitHeaderInvalid => "FIT_HEADER_INVALID"
  | .bootmReturned => "BOOTM_RETURNED"

/-- How `ursus_ubi_boot` ends: the status it returns, `none` when the system has taken over, and the
reason it leaves. -/
structure BootResult where
  ret : Option ℤ
  reason : BootReason

/-- The common exit: a failure is never reported as 0. -/
def bootFailed (ret : ℤ) (reason : BootReason) : BootResult :=
  ⟨some (if ret ≠ 0 then ret else -eio), reason⟩

/-- The second half of `ursus_ubi_boot`: load the chosen volume and boot it. -/
def bootVolume (fitvol : String) : FlashProg BootResult := do
  let (ret, len) ← issue (.ubiReadWhole ubiBootAddr fitvol)
  if ret ≠ 0 then return bootFailed ret .fitReadFailed
  if len = 0 ∨ ubiBootMax < len then return bootFailed (-efbig) .fitSizeInvalid
  let ret ← fdtCheckHeaderAt ubiBootAddr
  if ret ≠ 0 then return bootFailed ret .fitHeaderInvalid
  match ← bootm ubiBootAddr with
  | none => return ⟨none, .bootInProgress⟩
  | some ret => return bootFailed ret .bootmReturned

def ubiBoot : FlashProg BootResult := do
  let ret ← ubiRegisterMtd
  if ret ≠ 0 then return bootFailed ret .mtdRegisterFailed
  let _ ← ubiDetach
  let ret ← ubiPart .ursusUbiFull
  if ret ≠ 0 then return bootFailed ret .ubiAttachFailed
  if (← ubiCheck "fip") ≠ 0 then return bootFailed (-ebadmsg) .fipInvalid
  if !(← volumeFipValid "fip") then return bootFailed (-ebadmsg) .fipInvalid
  if (← ubiCheck "fit") = 0 then bootVolume "fit"
  else if (← ubiCheck "fit.old") = 0 then bootVolume "fit.old"
  else return bootFailed (-enoent) .fitMissing

/-! ## The probe -/

def fitHeaderAt (addr : ℕ) : FlashProg Bool := do
  let buf ← readMem addr 40
  return decide (fdtCheckHeader buf = 0) && decide (40 ≤ (fdtHeader buf).totalsize)

def volumeFitValid (name : String) : FlashProg Bool := do
  if (← ubiRead ubiReadbackAddr name 0x40) ≠ 0 then return false
  fitHeaderAt ubiReadbackAddr

/-- `struct ursus_ubi_volume_diag`: the volume, when it could be opened, and whether its contents
look right. -/
structure VolumeDiag where
  desc : Option VolumeDesc := none
  valid : Bool := false

def VolumeDiag.present (d : VolumeDiag) : Bool := d.desc.isSome

/-- `struct ursus_ubi_diag`, without the PEB statistics that are only shown. -/
structure UbiDiag where
  attached : Bool := false
  fip : VolumeDiag := {}
  fit : VolumeDiag := {}
  fitOld : VolumeDiag := {}

/-- `ursus_ubi_fill_volume_diag`; `validate` is the check for the kind of the volume. -/
def fillVolumeDiag (name : String) (validate : String → FlashProg Bool) : FlashProg VolumeDiag := do
  match ← ubiOpenVolume name with
  | .error _ => return {}
  | .ok desc =>
    let valid ← validate name
    return ⟨some desc, valid⟩

def probeDiag : FlashProg (ℤ × UbiDiag) := do
  let ret ← ubiRegisterMtd
  if ret ≠ 0 then return (ret, {})
  let _ ← ubiDetach
  let ret ← ubiPart .ursusUbiFull
  if ret ≠ 0 then return (ret, {})
  if (← ubiGetDevice).isNone then return (-enodev, {})
  let fip ← fillVolumeDiag "fip" volumeFipValid
  let fit ← fillVolumeDiag "fit" volumeFitValid
  let fitOld ← fillVolumeDiag "fit.old" volumeFitValid
  return (0, ⟨true, fip, fit, fitOld⟩)

/-- What `ursus_ubi_probe` answers: its status, `fip_ok` and `fit_ok`. -/
structure ProbeResult where
  ret : ℤ
  fipOk : Bool
  fitOk : Bool

def ubiProbe : FlashProg ProbeResult := do
  let (ret, diag) ← probeDiag
  if ret ≠ 0 then return ⟨ret, false, false⟩
  return ⟨0, diag.fip.present && diag.fip.valid,
    diag.fit.present && diag.fit.valid || diag.fitOld.present && diag.fitOld.valid⟩

end UrsusBoot
