import UrsusBoot.Web.State

/-!
# The status page

The part of `/api/status` that says whether the installed system would boot. The other fields of the
page are copies of the state.
-/

namespace UrsusBoot

/-- The values of `boot_validation_reason`. -/
inductive BootValidation
  | unknown
  | ubiMigrationVerified
  | ubiAttachFailed
  | fipMissing
  | fipInvalid
  | fitOk
  | fitOldFallback
  | fitMissing
  | fitInvalid
  | stockOk
  | stockIncomplete
  | openwrtStockLayoutOk
deriving DecidableEq

def BootValidation.name : BootValidation → String
  | .unknown => "UNKNOWN"
  | .ubiMigrationVerified => "UBI_MIGRATION_VERIFIED"
  | .ubiAttachFailed => "UBI_ATTACH_FAILED"
  | .fipMissing => "FIP_MISSING"
  | .fipInvalid => "FIP_INVALID"
  | .fitOk => "FIT_OK"
  | .fitOldFallback => "FIT_OLD_FALLBACK"
  | .fitMissing => "FIT_MISSING"
  | .fitInvalid => "FIT_INVALID"
  | .stockOk => "STOCK_OK"
  | .stockIncomplete => "STOCK_INCOMPLETE"
  | .openwrtStockLayoutOk => "OPENWRT_STOCK_LAYOUT_OK"

/-- The value of `boot_validation_result` that goes with a reason. -/
def BootValidation.result : BootValidation → String
  | .unknown => "UNKNOWN"
  | .ubiMigrationVerified | .fitOk | .fitOldFallback | .stockOk | .openwrtStockLayoutOk => "OK"
  | _ => "ERROR"

/-- The boot validation of `ursus_build_status`. -/
def bootValidation (layout : Layout) (migrationComplete stockFip stockFit : Bool)
    (diag : UbiDiag) : BootValidation :=
  match layout with
  | .openwrtUbi =>
    if migrationComplete && !diag.attached then .ubiMigrationVerified
    else if !diag.attached then .ubiAttachFailed
    else if !diag.fip.present then .fipMissing
    else if !diag.fip.valid then .fipInvalid
    else if diag.fit.present && diag.fit.valid then .fitOk
    else if diag.fitOld.present && diag.fitOld.valid then .fitOldFallback
    else if !diag.fit.present && !diag.fitOld.present then .fitMissing
    else .fitInvalid
  | .stock => if stockFip && stockFit then .stockOk else .stockIncomplete
  | .openwrtStockLayout => .openwrtStockLayoutOk
  | .unknown => .unknown

end UrsusBoot
