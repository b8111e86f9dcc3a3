import UrsusBoot.Engine.Ubi

/-!
# The FIP update engine

`ursus_up` of `ursusupdate.c`: replaces the bootloader, either in place in the stock layout or as a
transaction on the volumes `fip`, `fip.new`, `fip.old` and `fip.bad` of the native layout. The same
transaction repairs a missing or invalid active `fip`, and installs the pinned Vanilla FIP.
-/

namespace UrsusBoot

/-! ## Validation -/

inductive FipKind
  | ursus
  | vanilla
deriving DecidableEq

/-- The tail of both unpackers: decompress the BL33 payload to the size its header states. -/
def unpackNt (P : Platform) (nt : List UInt8) : FlashProg (Except ℤ (List UInt8)) := do
  let raw64 := leNat (bytesAt nt 5 8)
  if raw64 < 0x10000 ∨ fipRawMax < raw64 then return .error (-efbig)
  if !(← malloc raw64) then return .error (-enomem)
  match P.lzmaBuffToBuffDecompress nt raw64 with
  | none => return .error (-ebadmsg)
  | some raw => return if raw.length = raw64 then .ok raw else .error (-ebadmsg)

/-- `ursus_fip_bl33_unpack`. -/
def fipBl33Unpack (P : Platform) (buf : List UInt8) : FlashProg (Except ℤ (List UInt8)) := do
  if buf.length = 0 ∨ ubiFipVolSize < buf.length then return .error (-efbig)
  match fipParse buf with
  | .error e => return .error e
  | .ok toc =>
    if toc.declaredEnd ≠ buf.length then return .error (-einval)
    if toc.ntSize < 13 ∨ buf.length < toc.ntOff + toc.ntSize then return .error (-einval)
    unpackNt P (bytesAt buf toc.ntOff toc.ntSize)

/-- The strings that identify UrsusBoot for this board. -/
def ursusIdentity (raw : List UInt8) : Bool :=
  memHas raw "U-Boot 2026.07-UrsusBoot-" && memHas raw "nokia,xg-040g-md" &&
    memHas raw "airoha,an7581"

/-- The strings that identify the stock bootloader. -/
def stockIdentity (raw : List UInt8) : Bool := memHas raw "XG040GMC2P5G" && memHas raw "AN7581"

/-- `ursus_fip_validate_current`: the declared end of an acceptable current FIP. -/
def fipValidateCurrent (P : Platform) (buf : List UInt8) : FlashProg (Except ℤ ℕ) := do
  match fipParse buf with
  | .error e => return .error e
  | .ok toc =>
    if toc.declaredEnd = 0 ∨ buf.length < toc.declaredEnd ∨ toc.ntSize < 13 ∨
        toc.declaredEnd < toc.ntOff + toc.ntSize then return .error (-einval)
    match ← unpackNt P (bytesAt buf toc.ntOff toc.ntSize) with
    | .error e => return .error e
    | .ok raw =>
      return if !ursusIdentity raw && !stockIdentity raw then .error (-enodev)
        else .ok toc.declaredEnd

/-- `ursus_fip_validate` of the bytes at an address. -/
def fipValidate (P : Platform) (addr len : ℕ) (stockLimit : Bool) : FlashProg ℤ := do
  let buf ← readMem addr len
  if stockLimit ∧ fipMax ≤ len then return -efbig
  match ← fipBl33Unpack P buf with
  | .error e => return e
  | .ok raw => return if ursusIdentity raw then 0 else -enodev

def vanillaFipPinned (P : Platform) : Bool := P.vanillaFipSha256.any (· != 0)

/-- `ursus_vanilla_fip_validate` of the bytes at an address. -/
def vanillaFipValidate (P : Platform) (addr len : ℕ) (stockLimit : Bool) : FlashProg ℤ := do
  if stockLimit then return -eperm
  let buf ← readMem addr len
  match ← fipBl33Unpack P buf with
  | .error e => return e
  | .ok raw =>
    if !memHas raw P.boardCompatible || memHas raw P.boardOtherCompatible ||
        !memHas raw "U-Boot 2026.07" || memHas raw "U-Boot 2026.07-UrsusBoot-" then
      return -enodev
    if !vanillaFipPinned P then return -eperm
    return if P.sha256 buf = P.vanillaFipSha256 then 0 else -eperm

def fipValidateKind (P : Platform) (addr len : ℕ) (stockLimit : Bool) : FipKind → FlashProg ℤ
  | .vanilla => vanillaFipValidate P addr len stockLimit
  | .ursus => fipValidate P addr len stockLimit

namespace FipUpdate

/-! ## State -/

/-- `enum ursus_update_stage` of `ursusupdate.c`. -/
inductive Stage
  | idle
  | precheck
  | stockBackup
  | stockErase
  | stockWrite
  | stockVerify
  | ubiAttach
  | ubiStagePrep
  | ubiStageWrite
  | ubiStageVerify
  | ubiPromote
  | ubiVerify
  | ubiRollback
  | complete
  | failed
deriving DecidableEq

def Stage.name : Stage → String
  | .idle => "IDLE"
  | .precheck => "PRECHECK"
  | .stockBackup => "STOCK_BACKUP"
  | .stockErase => "STOCK_ERASE"
  | .stockWrite => "STOCK_WRITE"
  | .stockVerify => "STOCK_VERIFY"
  | .ubiAttach => "UBI_ATTACH"
  | .ubiStagePrep => "UBI_STAGE_PREP"
  | .ubiStageWrite => "UBI_STAGE_WRITE"
  | .ubiStageVerify => "UBI_STAGE_VERIFY"
  | .ubiPromote => "UBI_PROMOTE"
  | .ubiVerify => "UBI_VERIFY"
  | .ubiRollback => "UBI_ROLLBACK"
  | .complete => "COMPLETE"
  | .failed => "FAILED"

inductive Mode
  | normal
  | repairMissing
  | repairInvalid
deriving DecidableEq

/-- `struct ursus_update_ctx` of `ursusupdate.c`. -/
structure Ctx where
  kind : FipKind := .ursus
  stage : Stage := .idle
  failedStage : Stage := .idle
  lastSuccessStage : Stage := .idle
  addr : ℕ := 0
  len : ℕ := 0
  error : ℤ := 0
  active : Bool := false
  announced : Bool := false
  announcedAt : ℕ := 0
  ubiLayout : Bool := false
  ubiFipMode : Mode := .normal
  /-- Why the active `fip` is invalid; `-enodev` for an intact foreign FIP. -/
  ubiFipInvalidRet : ℤ := 0
  commitStarted : Bool := false
  writeStarted : Bool := false
  errorCode : String := ""
  digest : List UInt8 := List.replicate 32 0
  stockCandidate : Option (List UInt8) := none

abbrev stageHoldMs : ℕ := 250

abbrev stockBootSize : ℕ := 0x80000

def failReason (c : Ctx) (ret : ℤ) (code : String) : ℤ × Ctx :=
  let error := if ret ≠ 0 then ret else -eio
  (error, { c with
    error := error
    failedStage := c.stage
    errorCode := if c.errorCode = "" then code else c.errorCode
    stage := .failed
    active := false })

def fail (c : Ctx) (ret : ℤ) : ℤ × Ctx :=
  let name := c.stage.name
  let num := if ret ≠ 0 then -ret else eio
  failReason c ret s!"{name}_ERR_{num}"

/-- A stage that succeeded hands over to the next one. -/
def Ctx.advance (c : Ctx) (next : Stage) : ℤ × Ctx :=
  (0, { c with lastSuccessStage := c.stage, stage := next })

/-! ## Start -/

def detectUbiLayout : FlashProg (Except ℤ Bool) := do
  match ← findMasterNand with
  | none => return .error (-enodev)
  | some g =>
    if g ≠ .supported then return .error (-einval)
    let (ret, hdr) ← readExact ubiBase 4
    return if ret ≠ 0 then .error ret else .ok (hdr = asciiBytes "UBI#")

/-- `ursus_fip_update_start_kind`. A refusal after the first check leaves a cleared context. -/
def startKind (P : Platform) (c : Ctx) (addr len : ℕ) (kind : FipKind) : FlashProg (ℤ × Ctx) := do
  if c.active then return (-ebusy, c)
  match ← detectUbiLayout with
  | .error e => return (e, {})
  | .ok isUbi =>
    let ret ← fipValidateKind P addr len (!isUbi) kind
    if ret ≠ 0 then return (ret, {})
    if kind = .vanilla then
      let ret ← installedBl2MatchesPin P
      if ret ≠ 0 then return (ret, {})
    let buf ← readMem addr len
    return (0, { addr, len, kind, ubiLayout := isUbi, digest := P.sha256 buf,
                 stage := .precheck, active := true })

def precheck (P : Platform) (c : Ctx) : FlashProg (ℤ × Ctx) := do
  match ← detectUbiLayout with
  | .error e => return failReason c e "PRECHECK_LAYOUT_DETECT_FAILED"
  | .ok isUbi =>
    let c := { c with ubiLayout := isUbi }
    let ret ← fipValidateKind P c.addr c.len (!isUbi) c.kind
    if ret ≠ 0 then return failReason c ret "PRECHECK_FIP_VALIDATE_FAILED"
    if c.kind = .vanilla then
      let ret ← installedBl2MatchesPin P
      if ret ≠ 0 then return failReason c ret "PRECHECK_INSTALLED_BL2_NOT_PINNED"
    return c.advance (if isUbi then .ubiAttach else .stockBackup)

/-! ## The stock layout -/

/-- The stock bootloader span with the FIP area replaced by the candidate. -/
def stockImage (old fip : List UInt8) : List UInt8 :=
  old.take stockFipOff ++ fip ++ List.replicate (fipMax - fip.length) 0xff ++
    old.drop (stockFipOff + fipMax)

def stockBackup (P : Platform) (c : Ctx) : FlashProg (ℤ × Ctx) := do
  let ret ← badInRange NandGeometry.supported.erasesize 0 stockBootSize
  if ret ≠ 0 then return fail c (if ret < 0 then ret else -eio)
  let candidate ← malloc stockBootSize
  let readback ← malloc stockBootSize
  if !candidate || !readback then return fail c (-enomem)
  let (ret, old) ← readExact 0 stockBootSize
  if ret ≠ 0 then return fail c ret
  match ← fipValidateCurrent P (bytesAt old stockFipOff fipMax) with
  | .error e => return fail c e
  | .ok oldEnd =>
    if fipMax ≤ oldEnd then return fail c (-einval)
    let src ← readMem c.addr c.len
    return { c with stockCandidate := some (stockImage old src) }.advance .stockErase

def stockErase (c : Ctx) : FlashProg (ℤ × Ctx) := do
  let c := { c with writeStarted := true, commitStarted := true }
  let ret ← nandErase 0 stockBootSize
  if ret ≠ 0 then return fail c ret
  return c.advance .stockWrite

def stockWrite (c : Ctx) : FlashProg (ℤ × Ctx) := do
  let (ret, written) ← nandWrite 0 (c.stockCandidate.getD [])
  if ret ≠ 0 then return fail c ret
  if written ≠ stockBootSize then return fail c (-eio)
  return c.advance .stockVerify

def stockVerify (c : Ctx) : FlashProg (ℤ × Ctx) := do
  let (ret, readback) ← readExact 0 stockBootSize
  if ret ≠ 0 then return fail c ret
  if c.stockCandidate.getD [] ≠ readback then return fail c (-ebadmsg)
  return (1, { c with
    lastSuccessStage := .stockVerify, stage := .complete, active := false
    stockCandidate := none })

/-! ## The native layout -/

/-- `ursus_update_ensure_ubi_attachment`: reuse the attached device or attach once. -/
def ensureUbiAttachment : FlashProg ℤ := do
  match ← updateRegisterUbiPart with
  | .error e => return e
  | .ok part =>
    match ← ubiGetDevice with
    | some dev => return if dev.mtd = part then 0 else -exdev
    | none =>
      let ret ← ubiPart part
      if ret ≠ 0 then return ret
      match ← ubiGetDevice with
      | none => return -enodev
      | some dev => return if dev.mtd = part then 0 else -exdev

/-- `ursus_ubi_classify_active_fip`: the mode, and why an invalid `fip` was rejected. -/
def classifyActiveFip (P : Platform) : FlashProg (Mode × ℤ) := do
  if (← ubiCheck "fip") ≠ 0 then return (.repairMissing, 0)
  match ← ubiOpenVolume "fip" with
  | .error e => return (.repairInvalid, e)
  | .ok desc =>
    let used := desc.usedBytes
    if used = 0 ∨ ubiFipVolSize < used then return (.repairInvalid, -efbig)
    if (← ubiRead ubiReadbackAddr "fip" used) ≠ 0 then return (.repairInvalid, -eio)
    let buf ← readMem ubiReadbackAddr used
    match ← fipValidateCurrent P buf with
    | .error e => return (.repairInvalid, e)
    | .ok declaredEnd =>
      return if declaredEnd ≠ used then (.repairInvalid, -einval) else (.normal, 0)

def ubiAttach (P : Platform) (c : Ctx) : FlashProg (ℤ × Ctx) := do
  let ret ← ensureUbiAttachment
  if ret ≠ 0 then
    return failReason c ret (if ret = -exdev then "UBI_ATTACHMENT_MISMATCH" else "UBI_ATTACH_FAILED")
  let (mode, invalidRet) ← classifyActiveFip P
  let c := { c with ubiFipMode := mode, ubiFipInvalidRet := invalidRet }
  if mode ≠ .normal ∧ c.kind ≠ .ursus then
    return if mode = .repairMissing then failReason c (-enoent) "UBI_ACTIVE_FIP_MISSING"
      else failReason c (-ebadmsg) "UBI_ACTIVE_FIP_INVALID"
  return c.advance .ubiStagePrep

/-- `ursus_ubi_fip_new_headroom`: available PEBs and the LEBs `fip.new` needs. -/
def fipNewHeadroom : FlashProg (Option (ℕ × ℕ)) := do
  match ← ubiGetDevice with
  | none => return none
  | some dev => return some (dev.availPebs, (ubiFipVolSize + dev.lebSize - 1) / dev.lebSize)

/-- The end of `URSUS_UP_UBI_STAGE_PREP`: create `fip.new` if it fits. -/
def createFipNew (c : Ctx) (avail need : ℕ) : FlashProg (ℤ × Ctx) := do
  if avail < need then return failReason c (-enospc) "UBI_NO_SPACE_FOR_FIP_NEW"
  let ret ← ubiCreate "fip.new" 0x100000 true none
  if ret ≠ 0 then return fail c ret
  return c.advance .ubiStageWrite

/-- The middle of `URSUS_UP_UBI_STAGE_PREP`: an invalid `fip` that is not an intact foreign one is
dropped when `fip.new` does not fit beside it. -/
def reserveFipNew (c : Ctx) : FlashProg (ℤ × Ctx) := do
  match ← fipNewHeadroom with
  | none => return failReason c (-enodev) "UBI_HEADROOM_UNKNOWN"
  | some (avail, need) =>
    if avail < need ∧ c.ubiFipMode = .repairInvalid ∧ c.ubiFipInvalidRet ≠ -enodev then
      let ret ← ubiRemove "fip"
      if ret ≠ 0 then return failReason c ret "RECOVERY_INVALID_FIP_REMOVE_FAILED"
      let c := { c with ubiFipMode := .repairMissing }
      match ← fipNewHeadroom with
      | none => return failReason c (-enodev) "UBI_HEADROOM_UNKNOWN"
      | some (avail, need) => createFipNew c avail need
    else createFipNew c avail need

/-- `URSUS_UP_UBI_STAGE_PREP`: the results of the clean-up are ignored. -/
def ubiStagePrep (c : Ctx) : FlashProg (ℤ × Ctx) := do
  let c := { c with writeStarted := true }
  let _ ← removeIfPresent "fip.new"
  if c.ubiFipMode = .normal then
    let _ ← removeIfPresent "fip.old"
  let _ ← removeIfPresent "fip.bad"
  reserveFipNew c

def ubiStageWrite (c : Ctx) : FlashProg (ℤ × Ctx) := do
  let ret ← ubiWrite c.addr "fip.new" c.len
  if ret ≠ 0 then return fail c ret
  return c.advance .ubiStageVerify

def ubiStageVerify (P : Platform) (c : Ctx) : FlashProg (ℤ × Ctx) := do
  let ret ← ubiRead ubiReadbackAddr "fip.new" c.len
  if ret ≠ 0 then return fail c ret
  let ret ← fipValidateKind P ubiReadbackAddr c.len false c.kind
  if ret ≠ 0 then return fail c ret
  let src ← readMem c.addr c.len
  let rb ← readMem ubiReadbackAddr c.len
  if src ≠ rb then return fail c (-ebadmsg)
  return c.advance .ubiPromote

/-- `ursus_ubi_atomic_switch`: `current` becomes `backup` and `candidate` becomes `current` in one
change of the volume table. -/
def atomicSwitch (current candidate backup : String) : FlashProg ℤ := do
  if (← ubiGetDevice).isNone then return -enodev
  match ← ubiOpenVolume current with
  | .error e => return e
  | .ok old =>
    match ← ubiOpenVolume candidate with
    | .error e => return e
    | .ok new => ubiRenameVolumes [(old.id, backup), (new.id, current)]

def ubiPromote (c : Ctx) : FlashProg (ℤ × Ctx) := do
  let c := { c with commitStarted := true }
  match c.ubiFipMode with
  | .repairMissing =>
    let ret ← ubiRename "fip.new" "fip"
    if ret ≠ 0 then return failReason c ret "RECOVERY_FIP_RENAME_FAILED"
    return c.advance .ubiVerify
  | .repairInvalid =>
    let ret ← atomicSwitch "fip" "fip.new" "fip.bad"
    if ret ≠ 0 then return failReason c ret "RECOVERY_INVALID_FIP_PROMOTE_FAILED"
    return c.advance .ubiVerify
  | .normal =>
    let ret ← atomicSwitch "fip" "fip.new" "fip.old"
    if ret ≠ 0 then return fail c ret
    return c.advance .ubiVerify

abbrev vanillaEnvResetLen : ℕ := 0x800

/-- One round of `ursus_vanilla_reset_env`: blank a volume and read it back. -/
def vanillaResetVolume (name : String) : FlashProg ℤ := do
  if (← ubiCheck name) ≠ 0 then return -enoent
  writeMem ubiReadbackAddr (List.replicate vanillaEnvResetLen 0)
  if (← ubiWrite ubiReadbackAddr name vanillaEnvResetLen) ≠ 0 then return -eio
  writeMem ubiReadbackAddr (List.replicate vanillaEnvResetLen 0xa5)
  if (← ubiRead ubiReadbackAddr name vanillaEnvResetLen) ≠ 0 then return -eio
  let buf ← readMem ubiReadbackAddr vanillaEnvResetLen
  return if buf.all (· == 0) then 0 else -eio

def vanillaResetEnv : FlashProg ℤ := do
  let ret ← vanillaResetVolume "ubootenv"
  if ret ≠ 0 then return ret
  vanillaResetVolume "ubootenv2"

/-- The failure branch of `URSUS_UP_UBI_VERIFY`: without a previous `fip` the unverified one is put
aside, otherwise the next stage rolls back. -/
def postcommitFailed (c : Ctx) (ret : ℤ) : FlashProg (ℤ × Ctx) := do
  if c.ubiFipMode = .repairMissing then
    let _ ← removeIfPresent "fip.bad"
    let _ ← ubiRename "fip" "fip.bad"
    return failReason c ret "RECOVERY_FIP_POSTCOMMIT_VERIFY_FAILED"
  return c.advance .ubiRollback

def ubiVerify (P : Platform) (c : Ctx) : FlashProg (ℤ × Ctx) := do
  let ret ← ubiRead ubiReadbackAddr "fip" c.len
  if ret ≠ 0 then postcommitFailed c ret
  else
    let ret ← fipValidateKind P ubiReadbackAddr c.len false c.kind
    if ret ≠ 0 then postcommitFailed c ret
    else
      if c.kind = .vanilla then
        if (← vanillaResetEnv) ≠ 0 then return c.advance .ubiRollback
      return (1, { c with stage := .complete, active := false })

def rollbackOk : Mode → String
  | .repairInvalid => "URSUS_UPDATE_ROLLBACK_OK mode=repair-invalid restored=fip failed=fip.new backup=fip.old-preserved"
  | _ => "URSUS_UPDATE_ROLLBACK_OK mode=normal restored=fip failed=fip.bad"

def ubiRollback (c : Ctx) : FlashProg (ℤ × Ctx) := do
  match c.ubiFipMode with
  | .repairInvalid =>
    let ret ← atomicSwitch "fip" "fip.bad" "fip.new"
    if ret ≠ 0 then return failReason c ret "RECOVERY_INVALID_FIP_ROLLBACK_FAILED"
    printf (rollbackOk .repairInvalid)
    return fail c (-ebadmsg)
  | .repairMissing => return failReason c (-einval) "RECOVERY_MISSING_FIP_ROLLBACK_UNREACHABLE"
  | .normal =>
    let _ ← removeIfPresent "fip.bad"
    let ret ← atomicSwitch "fip" "fip.old" "fip.bad"
    if ret ≠ 0 then return fail c ret
    printf (rollbackOk .normal)
    return fail c (-ebadmsg)

/-! ## Steps -/

def runStage (P : Platform) (c : Ctx) : FlashProg (ℤ × Ctx) :=
  match c.stage with
  | .precheck => precheck P c
  | .stockBackup => stockBackup P c
  | .stockErase => stockErase c
  | .stockWrite => stockWrite c
  | .stockVerify => stockVerify c
  | .ubiAttach => ubiAttach P c
  | .ubiStagePrep => ubiStagePrep c
  | .ubiStageWrite => ubiStageWrite c
  | .ubiStageVerify => ubiStageVerify P c
  | .ubiPromote => ubiPromote c
  | .ubiVerify => ubiVerify P c
  | .ubiRollback => ubiRollback c
  | .idle | .complete | .failed => return fail c (-einval)

/-- `ursus_fip_update_step`: announce a new stage, hold it, then run it. -/
def step (P : Platform) (c : Ctx) : FlashProg (ℤ × Ctx) := do
  if !c.active then
    return (if c.stage = .complete then 1 else if c.stage = .failed then c.error else 0, c)
  if !c.announced then
    let now ← getTimer 0
    return (0, { c with announced := true, announcedAt := now })
  if (← getTimer c.announcedAt) < stageHoldMs then return (0, c)
  runStage P { c with announced := false }

end FipUpdate

end UrsusBoot
