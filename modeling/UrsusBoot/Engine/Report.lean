import UrsusBoot.Engine.FipUpdate
import UrsusBoot.Engine.Migration
import UrsusBoot.Engine.UbiUpdate

/-!
# What the engines report

The functions through which the web pages and the console see an engine: its stage with a text and
a percentage, how its transaction stands, and what went wrong.
-/

namespace UrsusBoot

/-- The answers of the `transaction_state` functions. -/
inductive TransactionState
  | notStarted
  | inProgress
  | writeStateUnknown
  | completionProven
deriving DecidableEq

def TransactionState.name : TransactionState → String
  | .notStarted => "NOT_STARTED"
  | .inProgress => "IN_PROGRESS"
  | .writeStateUnknown => "WRITE_STATE_UNKNOWN"
  | .completionProven => "COMPLETION_PROVEN"

/-- The common body of the `transaction_state` functions. -/
def transactionState (complete failed active writeStarted : Bool) : TransactionState :=
  if complete then .completionProven
  else if failed then if writeStarted then .writeStateUnknown else .notStarted
  else if active && writeStarted then .inProgress
  else .notStarted

structure Report where
  active : Bool
  complete : Bool
  failed : Bool
  stage : String
  detail : String
  percent : ℕ
  error : ℤ
  failedStage : String
  lastSuccessStage : String
  errorCode : String
  transactionState : TransactionState
deriving DecidableEq

/-! ## The OpenWrt UBI update -/

namespace UbiUpdate

def Stage.detail : Stage → String
  | .precheck => "Validate UBI, UrsusBoot FIP and OpenWrt image"
  | .stagePrep => "Prepare safe update target volume"
  | .stageWrite => "Write OpenWrt candidate"
  | .stageVerify => "Read back and verify OpenWrt candidate"
  | .promote => "Activate staged candidate and preserve previous fit where space allows"
  | .finalVerify => "Verify active fit and apply OpenWrt settings policy"
  | .complete => "OpenWrt image verified; manual reboot available"
  | .failed =>
    "Update stopped; UrsusBoot Recovery remains available; staged mode preserves fit fallback"
  | .idle => "Idle"

def Stage.percent : Stage → ℕ
  | .precheck => 5
  | .stagePrep => 15
  | .stageWrite => 35
  | .stageVerify => 60
  | .promote => 75
  | .finalVerify => 90
  | .complete => 100
  | .failed => 100
  | .idle => 0

def Ctx.transactionState (c : Ctx) : TransactionState :=
  UrsusBoot.transactionState (c.stage = .complete) (c.stage = .failed) c.active c.writeStarted

/-- The `ursus_ubi_update_*` queries. -/
def Ctx.report (c : Ctx) : Report where
  active := c.active
  complete := c.stage = .complete
  failed := c.stage = .failed
  stage := c.stage.name
  detail := c.stage.detail
  percent := c.stage.percent
  error := c.error
  failedStage := if c.failedStage ≠ .idle then c.failedStage.name else "NONE"
  lastSuccessStage := if c.lastSuccessStage ≠ .idle then c.lastSuccessStage.name else "IDLE"
  errorCode := if c.errorCode ≠ "" then c.errorCode else "NONE"
  transactionState := c.transactionState

end UbiUpdate

/-! ## The migration -/

namespace Migration

def Stage.detail : Stage → String
  | .precheck => "Validate NAND and BL2 candidate"
  | .backupBosa => "Read bosa into RAM"
  | .backupRi => "Read ri into RAM"
  | .backupFip => "Preserve current UrsusBoot FIP in RAM"
  | .formatUbi => "Format NAND region for UBI"
  | .attachUbi => "Attach UBI"
  | .createVolumes => "Create seven required UBI volumes"
  | .writeBosa => "Write bosa"
  | .writeRi => "Write ri"
  | .writeFip => "Write UrsusBoot FIP"
  | .writeFit => "Write OpenWrt FIT"
  | .verifyBosa => "Read back bosa"
  | .verifyRi => "Read back ri"
  | .verifyFip => "Read back UrsusBoot FIP"
  | .verifyFit => "Read back OpenWrt FIT and verify volume manifest"
  | .commitBl2 => "Write complete 128 KiB BL2 last"
  | .verifyBl2 => "Read back complete BL2"
  | .complete => "OpenWrt UBI migration complete"
  | .failed => "Migration stopped by error"
  | .idle => "Idle"

def Stage.percent : Stage → ℕ
  | .precheck => 3
  | .backupBosa => 8
  | .backupRi => 12
  | .backupFip => 18
  | .formatUbi => 25
  | .attachUbi => 35
  | .createVolumes => 42
  | .writeBosa => 48
  | .writeRi => 53
  | .writeFip => 59
  | .writeFit => 67
  | .verifyBosa => 76
  | .verifyRi => 80
  | .verifyFip => 84
  | .verifyFit => 88
  | .commitBl2 => 93
  | .verifyBl2 => 97
  | .complete => 100
  | .failed => 0
  | .idle => 0

def Ctx.transactionState (c : Ctx) : TransactionState :=
  UrsusBoot.transactionState (c.stage = .complete) (c.stage = .failed) c.active c.writeStarted

/-- The `ursus_ubi_migration_*` queries. -/
def Ctx.report (c : Ctx) : Report where
  active := c.active
  complete := c.stage = .complete
  failed := c.stage = .failed
  stage := c.stage.name
  detail := c.stage.detail
  percent := c.stage.percent
  error := c.error
  failedStage := if c.failedStage ≠ .idle then c.failedStage.name else "NONE"
  lastSuccessStage := if c.lastSuccessStage ≠ .idle then c.lastSuccessStage.name else "IDLE"
  errorCode := if c.errorCode ≠ "" then c.errorCode else "NONE"
  transactionState := c.transactionState

end Migration

/-! ## The FIP update -/

def FipKind.name : FipKind → String
  | .vanilla => "VANILLA"
  | .ursus => "URSUSBOOT"

namespace FipUpdate

/-- `ursus_update_detail_text`; some texts depend on the mode and the kind of the update. -/
def Ctx.detail (c : Ctx) : String :=
  match c.stage, c.ubiFipMode, c.kind with
  | .precheck, _, _ => "Validate FIP, board, SoC, NAND geometry and layout"
  | .stockBackup, _, _ =>
    "Build 512 KiB stock bootloader candidate preserving prefix and tcboot env"
  | .stockErase, _, _ => "Erase stock bootloader mtd0 span"
  | .stockWrite, _, _ => "Write preserved stock bootloader candidate with new UrsusBoot FIP"
  | .stockVerify, _, _ => "Read back and compare complete 512 KiB stock bootloader span"
  | .ubiAttach, _, _ => "Attach native UBI"
  | .ubiStagePrep, .repairMissing, _ => "Create fip.new; active fip is missing; preserve fip.old"
  | .ubiStagePrep, .repairInvalid, _ =>
    "Create fip.new; preserve fip.old and quarantine invalid fip"
  | .ubiStagePrep, .normal, _ => "Create fip.new while current fip remains bootable"
  | .ubiStageWrite, _, _ => "Write fip.new"
  | .ubiStageVerify, _, _ => "Read back and validate fip.new"
  | .ubiPromote, .repairMissing, _ => "Promote fip.new to missing fip; preserve fip.old"
  | .ubiPromote, .repairInvalid, _ =>
    "Atomically quarantine invalid fip as fip.bad and promote fip.new"
  | .ubiPromote, .normal, _ => "Atomically rename fip to fip.old and fip.new to fip"
  | .ubiVerify, _, _ => "Verify promoted fip"
  | .ubiRollback, .repairInvalid, _ => "Restore quarantined invalid fip; keep fip.old untouched"
  | .ubiRollback, _, _ => "Rollback promoted fip to previous fip.old"
  | .complete, _, .vanilla =>
    "Vanilla U-Boot is in fip (UrsusBoot kept as fip.old); reboot is operator-controlled"
  | .complete, _, .ursus => "UrsusBoot update complete; reboot is operator-controlled"
  | .failed, _, .vanilla => "Vanilla U-Boot replacement failed"
  | .failed, _, .ursus => "UrsusBoot update failed"
  | .idle, _, _ => "Idle"

/-- `ursus_update_percent_value`. -/
def Stage.percent : Stage → ℕ
  | .precheck => 5
  | .stockBackup => 20
  | .stockErase => 45
  | .stockWrite => 70
  | .stockVerify => 92
  | .ubiAttach => 18
  | .ubiStagePrep => 30
  | .ubiStageWrite => 50
  | .ubiStageVerify => 70
  | .ubiPromote => 85
  | .ubiVerify => 95
  | .ubiRollback => 90
  | .complete => 100
  | .failed => 100
  | .idle => 0

def Ctx.transactionState (c : Ctx) : TransactionState :=
  UrsusBoot.transactionState (c.stage = .complete) (c.stage = .failed) c.active c.writeStarted

/-- What this engine reports besides: the kind of its FIP and the layout it found. -/
structure FipReport extends Report where
  kind : String
  layout : String
deriving DecidableEq

/-- The `ursus_fip_update_*` queries. -/
def Ctx.report (c : Ctx) : FipReport where
  active := c.active
  complete := c.stage = .complete
  failed := c.stage = .failed
  stage := c.stage.name
  detail := c.detail
  percent := c.stage.percent
  error := c.error
  failedStage := if c.failedStage ≠ .idle then c.failedStage.name else "NONE"
  lastSuccessStage := if c.lastSuccessStage ≠ .idle then c.lastSuccessStage.name else "IDLE"
  errorCode := if c.errorCode ≠ "" then c.errorCode else "NONE"
  transactionState := c.transactionState
  kind := c.kind.name
  layout := if c.ubiLayout then "UBI" else "STOCK"

end FipUpdate

end UrsusBoot
