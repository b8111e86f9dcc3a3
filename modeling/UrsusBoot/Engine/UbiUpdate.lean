import UrsusBoot.Engine.Ubi

/-!
# The OpenWrt UBI update engine

`ursus_upd` of `ursusubi.c`: a new OpenWrt image is staged in `fit.new` next to the running `fit`,
or written in its place when there is no room, read back, promoted and verified. One call of
`UbiUpdate.step` runs at most one stage.
-/

namespace UrsusBoot

namespace UbiUpdate

/-- `enum ursus_update_stage` of `ursusubi.c`. -/
inductive Stage
  | idle
  | precheck
  | stagePrep
  | stageWrite
  | stageVerify
  | promote
  | finalVerify
  | complete
  | failed
deriving DecidableEq

def Stage.name : Stage → String
  | .precheck => "PRECHECK"
  | .stagePrep => "STAGE_PREP"
  | .stageWrite => "STAGE_WRITE"
  | .stageVerify => "STAGE_VERIFY"
  | .promote => "PROMOTE"
  | .finalVerify => "FINAL_VERIFY"
  | .complete => "COMPLETE"
  | .failed => "FAILED"
  | .idle => "IDLE"

/-- `struct ursus_update_ctx` of `ursusubi.c`. -/
structure Ctx where
  stage : Stage := .idle
  failedStage : Stage := .idle
  lastSuccessStage : Stage := .idle
  fitAddr : ℕ := 0
  fitLen : ℕ := 0
  error : ℤ := 0
  active : Bool := false
  announced : Bool := false
  fitPresent : Bool := false
  fitOldPresent : Bool := false
  directMode : Bool := false
  keepSettings : Bool := false
  writeStarted : Bool := false
  errorCode : String := ""
  fitPebs : ℕ := 0
  announcedAt : ℕ := 0

abbrev stageHoldMs : ℕ := 350

def failReason (c : Ctx) (ret : ℤ) (code : String) : ℤ × Ctx :=
  let error := if ret ≠ 0 then ret else -eio
  (error, { c with
    error := error
    failedStage := c.stage
    errorCode := if c.errorCode = "" then code else c.errorCode
    stage := .failed
    active := false
    announced := false })

def fail (c : Ctx) (ret : ℤ) : ℤ × Ctx :=
  let name := c.stage.name
  let num := if ret ≠ 0 then -ret else eio
  failReason c ret s!"{name}_ERR_{num}"

/-- A stage that succeeded hands over to the next one. -/
def Ctx.advance (c : Ctx) (next : Stage) : ℤ × Ctx :=
  (0, { c with lastSuccessStage := c.stage, stage := next })

/-- `ursus_ubi_update_start`; `migActive` is the migration engine's flag. -/
def start (c : Ctx) (migActive : Bool) (fitAddr fitLen : ℕ) (keepSettings : Bool) :
    FlashProg (ℤ × Ctx) := do
  if c.active ∨ migActive then return (-ebusy, c)
  if fitLen = 0 ∨ 0x04000000 < fitLen then return (-efbig, c)
  if (← fdtCheckHeaderAt fitAddr) ≠ 0 then return (-enoexec, c)
  return (0, { fitAddr, fitLen, keepSettings, stage := .precheck, active := true })

def Ctx.target (c : Ctx) : String := if c.directMode then "fit" else "fit.new"

def openPebs (name : String) : FlashProg (Option ℕ) := do
  match ← ubiOpenVolume name with
  | .error _ => return none
  | .ok d => return some d.reservedPebs

def precheck (c : Ctx) : FlashProg (ℤ × Ctx) := do
  let ret ← ubiRegisterMtd
  if ret ≠ 0 then return failReason c ret "PRECHECK_MTD_REGISTER_FAILED"
  let _ ← ubiDetach
  let ret ← ubiPart .ursusUbiFull
  if ret ≠ 0 then return failReason c ret "PRECHECK_UBI_ATTACH_FAILED"
  if (← ubiCheck "fip") ≠ 0 then return failReason c (-ebadmsg) "PRECHECK_FIP_INVALID"
  if !(← volumeFipValid "fip") then return failReason c (-ebadmsg) "PRECHECK_FIP_INVALID"
  let ret ← verifyVolumeManifest false
  if ret ≠ 0 then return failReason c ret "PRECHECK_VOLUME_MANIFEST_INVALID"
  match ← ubiGetDevice with
  | none => return failReason c (-enodev) "PRECHECK_UBI_DEVICE_UNAVAILABLE"
  | some dev =>
    if dev.lebSize = 0 then return failReason c (-enodev) "PRECHECK_UBI_DEVICE_UNAVAILABLE"
    let requiredPebs := (c.fitLen + dev.lebSize - 1) / dev.lebSize
    let old ← openPebs "fit.old"
    let new ← openPebs "fit.new"
    let fit ← openPebs "fit"
    let c := { c with
      fitOldPresent := c.fitOldPresent || old.isSome
      fitPresent := c.fitPresent || fit.isSome
      fitPebs := fit.getD c.fitPebs }
    let headroom := dev.availPebs + old.getD 0 + new.getD 0
    if requiredPebs + stagedHeadroomLebs ≤ headroom then
      return { c with directMode := false }.advance .stagePrep
    if requiredPebs + min headroom rootfsFreeReserveLebs ≤ headroom + c.fitPebs then
      return { c with directMode := true }.advance .stagePrep
    return failReason c (-enospc) "PRECHECK_INSUFFICIENT_UBI_HEADROOM"

/-- The end of `URSUS_UPD_STAGE_PREP`: create the target volume. -/
def createTarget (c : Ctx) : FlashProg (ℤ × Ctx) := do
  let ret ← ubiCreate c.target c.fitLen false none
  if ret ≠ 0 then return fail c ret
  return c.advance .stageWrite

def stagePrep (c : Ctx) : FlashProg (ℤ × Ctx) := do
  let c := { c with writeStarted := true }
  if (← removeIfPresent "fit.new") ≠ 0 then return fail c (-eio)
  if (← removeIfPresent "fit.old") ≠ 0 then return fail c (-eio)
  if c.directMode then
    if (← removeIfPresent "fit") ≠ 0 then return fail c (-eio)
  createTarget c

def stageWrite (c : Ctx) : FlashProg (ℤ × Ctx) := do
  let ret ← ubiWrite c.fitAddr c.target c.fitLen
  if ret ≠ 0 then return fail c ret
  return c.advance .stageVerify

/-- Read a volume back and compare it with the image in RAM, as both verify stages do; `none` when
it is the image. -/
def readback (c : Ctx) (name : String) : FlashProg (Option ℤ) := do
  let ret ← ubiRead ubiReadbackAddr name c.fitLen
  if ret ≠ 0 then return some ret
  if (← memEqual c.fitAddr ubiReadbackAddr c.fitLen) ≠ 0 then return some (-ebadmsg)
  if (← fdtCheckHeaderAt ubiReadbackAddr) ≠ 0 then return some (-enoexec)
  return none

def stageVerify (c : Ctx) : FlashProg (ℤ × Ctx) := do
  match ← readback c c.target with
  | some ret => return fail c ret
  | none => return c.advance (if c.directMode then .finalVerify else .promote)

/-- The end of `URSUS_UPD_PROMOTE`: the candidate takes the name `fit`. -/
def promoteNew (c : Ctx) : FlashProg (ℤ × Ctx) := do
  let ret ← ubiRename "fit.new" "fit"
  if ret ≠ 0 then return fail c ret
  return c.advance .finalVerify

def promote (c : Ctx) : FlashProg (ℤ × Ctx) := do
  if (← ubiCheck "fit") = 0 then
    let ret ← ubiRename "fit" "fit.old"
    if ret ≠ 0 then return fail c ret
  promoteNew c

/-- The settings policy of the last stage: a clean `rootfs_data`, or the size of the present one
recorded; the status of the part that can fail. -/
def applySettings (c : Ctx) : FlashProg ℤ := do
  if !c.keepSettings then resetSettings
  else
    match ← currentRootfsData with
    | .error e => return e
    | .ok bytes =>
      let _ ← storeRootfsDataMax bytes
      return 0

def finalVerify (c : Ctx) : FlashProg (ℤ × Ctx) := do
  match ← readback c "fit" with
  | some ret => return fail c ret
  | none =>
    let ret ← applySettings c
    if ret ≠ 0 then return fail c ret
    let ret ← verifyVolumeManifest true
    if ret ≠ 0 then return fail c ret
    return (1, { c with
      lastSuccessStage := .finalVerify, stage := .complete, active := false, error := 0 })

def runStage (c : Ctx) : FlashProg (ℤ × Ctx) :=
  match c.stage with
  | .precheck => precheck c
  | .stagePrep => stagePrep c
  | .stageWrite => stageWrite c
  | .stageVerify => stageVerify c
  | .promote => promote c
  | .finalVerify => finalVerify c
  | .idle | .complete | .failed => return fail c (-einval)

/-- `ursus_ubi_update_step`: announce a new stage, hold it, then run it. -/
def step (c : Ctx) : FlashProg (ℤ × Ctx) := do
  if !c.active then
    return (if c.stage = .complete then 1 else if c.stage = .failed then c.error else 0, c)
  if !c.announced then
    let now ← getTimer 0
    return (0, { c with announced := true, announcedAt := now })
  if (← getTimer c.announcedAt) < stageHoldMs then return (0, c)
  runStage { c with announced := false }

end UbiUpdate

end UrsusBoot
