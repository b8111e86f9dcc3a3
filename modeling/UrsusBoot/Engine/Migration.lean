import UrsusBoot.Engine.Ubi

/-!
# The migration engine

`ursus_mig` of `ursusubi.c`: from the stock layout to native UBI. The board data and the current
FIP are read into RAM, the UBI area is erased and rebuilt with seven volumes, everything is read
back, and the BL2 image is committed last.
-/

namespace UrsusBoot

namespace Migration

inductive Stage
  | idle
  | precheck
  | backupBosa
  | backupRi
  | backupFip
  | formatUbi
  | attachUbi
  | createVolumes
  | writeBosa
  | writeRi
  | writeFip
  | writeFit
  | verifyBosa
  | verifyRi
  | verifyFip
  | verifyFit
  | commitBl2
  | verifyBl2
  | complete
  | failed
deriving DecidableEq

def Stage.name : Stage → String
  | .precheck => "PRECHECK"
  | .backupBosa => "BACKUP_BOSA"
  | .backupRi => "BACKUP_RI"
  | .backupFip => "BACKUP_FIP"
  | .formatUbi => "FORMAT_UBI"
  | .attachUbi => "ATTACH_UBI"
  | .createVolumes => "CREATE_VOLUMES"
  | .writeBosa => "WRITE_BOSA"
  | .writeRi => "WRITE_RI"
  | .writeFip => "WRITE_FIP"
  | .writeFit => "WRITE_FIT"
  | .verifyBosa => "VERIFY_BOSA"
  | .verifyRi => "VERIFY_RI"
  | .verifyFip => "VERIFY_FIP"
  | .verifyFit => "VERIFY_FIT"
  | .commitBl2 => "COMMIT_BL2"
  | .verifyBl2 => "VERIFY_BL2"
  | .complete => "COMPLETE"
  | .failed => "FAILED"
  | .idle => "IDLE"

structure Ctx where
  stage : Stage := .idle
  failedStage : Stage := .idle
  lastSuccessStage : Stage := .idle
  fitAddr : ℕ := 0
  fitLen : ℕ := 0
  preloaderAddr : ℕ := 0
  preloaderLen : ℕ := 0
  fipLen : ℕ := 0
  error : ℤ := 0
  active : Bool := false
  announced : Bool := false
  commitStarted : Bool := false
  writeStarted : Bool := false
  errorCode : String := ""
  announcedAt : ℕ := 0

abbrev stageHoldMs : ℕ := 350

def fail (c : Ctx) (ret : ℤ) : ℤ × Ctx :=
  let error := if ret ≠ 0 then ret else -eio
  let name := c.stage.name
  let num := -error
  (error, { c with
    error := error
    failedStage := c.stage
    errorCode := s!"{name}_ERR_{num}"
    stage := .failed
    active := false
    announced := false })

/-- A stage that succeeded hands over to the next one. -/
def Ctx.advance (c : Ctx) (next : Stage) : ℤ × Ctx :=
  (0, { c with lastSuccessStage := c.stage, stage := next })

def start (c : Ctx) (fitAddr fitLen preloaderAddr preloaderLen : ℕ) : ℤ × Ctx :=
  if c.active then (-ebusy, c)
  else if fitLen = 0 ∨ 0x04000000 < fitLen then (-efbig, c)
  else (0, { fitAddr, fitLen, preloaderAddr, preloaderLen, stage := .precheck, active := true })

/-- Erase and page size of the master NAND, fixed once the partitions are registered. -/
abbrev nand : NandGeometry := .supported

/-- The ranges that must be free of bad blocks: the stock bootloader, `bosa` and `ri`. -/
def checkedRanges : List (ℕ × ℕ) :=
  [(0, 0x80000), (stockBosaOff, boardDataSize), (stockRiOff, boardDataSize)]

/-- Look for bad blocks in each range; 0 when there are none. -/
def rangesBad : List (ℕ × ℕ) → FlashProg ℤ
  | [] => return 0
  | (start, len) :: rs => do
    let ret ← badInRange nand.erasesize start len
    if ret ≠ 0 then return if ret < 0 then ret else -eio
    rangesBad rs

/-- `URSUS_MIG_PRECHECK`, which may also invalidate the BL2 candidate. -/
def precheck (P : Platform) (b : Bl2Candidate) (c : Ctx) :
    FlashProg ((ℤ × Ctx) × Bl2Candidate) := do
  let ret ← validatePreloader P c.preloaderAddr c.preloaderLen
  if ret ≠ 0 then return (fail c ret, b)
  let ret ← ubiRegisterMtd
  if ret ≠ 0 then return (fail c ret, b)
  let ret ← rangesBad checkedRanges
  if ret ≠ 0 then return (fail c ret, b)
  let (ret, b) := verifyBl2Candidate P b
  if ret ≠ 0 then return (fail c ret, b)
  return (c.advance .backupBosa, b)

/-- The backup of a range of stock NAND into RAM; the destination also receives what a failing read
got so far. -/
def backup (c : Ctx) (off len addr : ℕ) (next : Stage) : FlashProg (ℤ × Ctx) := do
  let (ret, bs) ← readRange nand.writesize off len
  writeMem addr bs
  if ret ≠ 0 then return fail c ret
  return c.advance next

def backupBosa (c : Ctx) : FlashProg (ℤ × Ctx) :=
  backup c stockBosaOff boardDataSize migBosaAddr .backupRi

def backupRi (c : Ctx) : FlashProg (ℤ × Ctx) :=
  backup c stockRiOff boardDataSize migRiAddr .backupFip

def backupFip (c : Ctx) : FlashProg (ℤ × Ctx) := do
  match ← currentFipLength nand.writesize with
  | .error e => return fail c e
  | .ok fipLen =>
    let c := { c with fipLen }
    if ubiFipVolSize < fipLen then return fail c (-efbig)
    backup c stockFipOff fipLen migFipAddr .formatUbi

def formatUbi (c : Ctx) : FlashProg (ℤ × Ctx) := do
  let c := { c with writeStarted := true }
  let _ ← ubiDetach
  let ret ← mtdErase .ursusUbiFull 0 0xffe0000
  if ret ≠ 0 then return fail c ret
  return c.advance .attachUbi

def attachUbi (c : Ctx) : FlashProg (ℤ × Ctx) := do
  let ret ← ubiPart .ursusUbiFull
  if ret ≠ 0 then return fail c ret
  return c.advance .createVolumes

def firstFailure : List (FlashProg ℤ) → FlashProg ℤ
  | [] => return 0
  | p :: ps => do
    let ret ← p
    if ret ≠ 0 then return ret
    firstFailure ps

/-- The volumes created with a fixed size and id, before `rootfs_data` takes the rest. -/
def createCommands (fitLen : ℕ) : List (FlashProg ℤ) :=
  [ubiCreate "ubootenv" 0x1f000 false (some 0), ubiCreate "ubootenv2" 0x1f000 false (some 1),
   ubiCreate "bosa" 0x40000 false (some 2), ubiCreate "ri" 0x40000 false (some 3),
   ubiCreate "fip" 0x100000 true (some 4), ubiCreate "fit" fitLen false (some 5)]

def createdNames : List String :=
  ["ubootenv", "ubootenv2", "bosa", "ri", "fip", "fit", "rootfs_data"]

def createVolumes (c : Ctx) : FlashProg (ℤ × Ctx) := do
  let ret ← firstFailure (createCommands c.fitLen)
  if ret ≠ 0 then return fail c ret
  let ret ← createCleanRootfsData false
  if ret ≠ 0 then return fail c ret
  let ret ← firstFailure (createdNames.map fun n => ubiCheck n)
  if ret ≠ 0 then return fail c ret
  let ret ← verifyVolumeManifest true
  if ret ≠ 0 then return fail c ret
  return c.advance .writeBosa

def writeVolume (c : Ctx) (addr : ℕ) (name : String) (len : ℕ) (next : Stage) :
    FlashProg (ℤ × Ctx) := do
  let ret ← ubiWrite addr name len
  if ret ≠ 0 then return fail c ret
  return c.advance next

def writeBosa (c : Ctx) : FlashProg (ℤ × Ctx) :=
  writeVolume c migBosaAddr "bosa" boardDataSize .writeRi

def writeRi (c : Ctx) : FlashProg (ℤ × Ctx) :=
  writeVolume c migRiAddr "ri" boardDataSize .writeFip

def writeFip (c : Ctx) : FlashProg (ℤ × Ctx) :=
  writeVolume c migFipAddr "fip" c.fipLen .writeFit

def writeFit (c : Ctx) : FlashProg (ℤ × Ctx) :=
  writeVolume c c.fitAddr "fit" c.fitLen .verifyBosa

/-- Read a volume back and compare it with its source in RAM; 0 when they agree. -/
def readback (addr : ℕ) (name : String) (len : ℕ) : FlashProg ℤ := do
  let ret ← ubiRead ubiReadbackAddr name len
  if ret ≠ 0 then return ret
  if (← memEqual addr ubiReadbackAddr len) ≠ 0 then return -ebadmsg
  return 0

def verifyVolume (c : Ctx) (addr : ℕ) (name : String) (len : ℕ) (next : Stage) :
    FlashProg (ℤ × Ctx) := do
  let ret ← readback addr name len
  if ret ≠ 0 then return fail c ret
  return c.advance next

def verifyBosa (c : Ctx) : FlashProg (ℤ × Ctx) :=
  verifyVolume c migBosaAddr "bosa" boardDataSize .verifyRi

def verifyRi (c : Ctx) : FlashProg (ℤ × Ctx) :=
  verifyVolume c migRiAddr "ri" boardDataSize .verifyFip

def verifyFip (c : Ctx) : FlashProg (ℤ × Ctx) :=
  verifyVolume c migFipAddr "fip" c.fipLen .verifyFit

/-- `URSUS_MIG_VERIFY_FIT`: the last readback, the `rootfs_data` policy and the manifest. -/
def verifyFit (c : Ctx) : FlashProg (ℤ × Ctx) := do
  let ret ← readback c.fitAddr "fit" c.fitLen
  if ret ≠ 0 then return fail c ret
  let ret ← ubiCheck "rootfs_data"
  if ret ≠ 0 then return fail c ret
  match ← currentRootfsData with
  | .error e => return fail c e
  | .ok bytes =>
    let _ ← storeRootfsDataMax bytes
    let ret ← verifyVolumeManifest true
    if ret ≠ 0 then return fail c ret
    return c.advance .commitBl2

/-- `URSUS_MIG_COMMIT_BL2`. -/
def commitBl2 (b : Bl2Candidate) (c : Ctx) : FlashProg (ℤ × Ctx) := do
  let c := { c with commitStarted := true }
  let _ ← ubiDetach
  let ret ← mtdErase .ursusUbiBl2 0 0x20000
  if ret ≠ 0 then return fail c ret
  let ret ← mtdWrite .ursusUbiBl2 (b.buf.getD []) 0
  if ret ≠ 0 then return fail c ret
  return c.advance .verifyBl2

/-- `URSUS_MIG_VERIFY_BL2`. -/
def verifyBl2 (b : Bl2Candidate) (c : Ctx) : FlashProg (ℤ × Ctx) := do
  let ret ← mtdRead .ursusUbiBl2 ubiReadbackAddr 0 0x20000
  if ret ≠ 0 then return fail c ret
  let buf ← readMem ubiReadbackAddr ubiBl2Size
  if b.buf.getD [] ≠ buf then return fail c (-ebadmsg)
  return (1, { c with
    lastSuccessStage := .verifyBl2, stage := .complete, active := false, error := 0 })

/-- The stages that leave the BL2 candidate alone. -/
def runStage (b : Bl2Candidate) (c : Ctx) : FlashProg (ℤ × Ctx) :=
  match c.stage with
  | .backupBosa => backupBosa c
  | .backupRi => backupRi c
  | .backupFip => backupFip c
  | .formatUbi => formatUbi c
  | .attachUbi => attachUbi c
  | .createVolumes => createVolumes c
  | .writeBosa => writeBosa c
  | .writeRi => writeRi c
  | .writeFip => writeFip c
  | .writeFit => writeFit c
  | .verifyBosa => verifyBosa c
  | .verifyRi => verifyRi c
  | .verifyFip => verifyFip c
  | .verifyFit => verifyFit c
  | .commitBl2 => commitBl2 b c
  | .verifyBl2 => verifyBl2 b c
  | .precheck | .idle | .complete | .failed => return fail c (-einval)

/-- `ursus_ubi_migration_step`: announce a new stage, hold it, then run it. -/
def step (P : Platform) (b : Bl2Candidate) (c : Ctx) : FlashProg ((ℤ × Ctx) × Bl2Candidate) := do
  if !c.active then
    return ((if c.stage = .complete then 1 else if c.stage = .failed then c.error else 0, c), b)
  if !c.announced then
    let now ← getTimer 0
    return ((0, { c with announced := true, announcedAt := now }), b)
  if (← getTimer c.announcedAt) < stageHoldMs then return ((0, c), b)
  let c := { c with announced := false }
  if c.stage = .precheck then precheck P b c
  else
    let r ← runStage b c
    return (r, b)

end Migration

end UrsusBoot
