import UrsusBoot.Engine.Report
import UrsusBoot.Web.Status
import UrsusBoot.Web.Upload

/-!
# Requests

`ursus_route_ready`: what a request comes to once its header is complete, and the part of
`ursus_build_status` that speaks of operations.
-/

namespace UrsusBoot

/-! ## What the status shows -/

/-- The values of `operation`. -/
inductive Operation
  | none
  | ubiUpdate
  | stockToUbi
  | ursusbootUpdate
deriving DecidableEq

def Operation.name : Operation → String
  | .ubiUpdate => "UBI_UPDATE"
  | .stockToUbi => "STOCK_TO_UBI"
  | .ursusbootUpdate => "URSUSBOOT_UPDATE"
  | .none => "NONE"

/-- An engine has something to show: it is active, or it has ended. -/
def Report.seen (r : Report) : Bool := r.active || r.complete || r.failed

/-- What the status shows when no engine has anything to show. -/
def idleReport : Report where
  active := false
  complete := false
  failed := false
  stage := "IDLE"
  detail := "Idle"
  percent := 0
  error := 0
  failedStage := "NONE"
  lastSuccessStage := "NONE"
  errorCode := "NONE"
  transactionState := .notStarted

/-- The operation of `ursus_build_status`: the first engine with something to show, in a fixed
order. -/
def Engines.operation (e : Engines) : Operation :=
  if e.upd.report.seen then .ubiUpdate
  else if e.mig.report.seen then .stockToUbi
  else if e.fip.report.seen then .ursusbootUpdate
  else .none

/-- What `ursus_build_status` shows of it. -/
def Engines.operationReport (e : Engines) : Report :=
  match e.operation with
  | .ubiUpdate => e.upd.report
  | .stockToUbi => e.mig.report
  | .ursusbootUpdate => e.fip.report.toReport
  | .none => idleReport

/-- `stock_layout_ready` of `ursus_build_status`. -/
def Web.stockLayoutReady (s : Web) : Prop :=
  s.img.type = .nonubiSysupgrade ∧ s.img.metadataValid = true ∧ s.img.deviceCompatible = true ∧
    s.img.fitValid = true ∧ s.img.fitHashesValid = true ∧ s.img.reasonClass = .ok ∧
    s.currentLayout.Migratable ∧ s.engines.anyActive = false

def Web.ubiUpdateReady (s : Web) : Prop :=
  s.img.type = .ubiSysupgrade ∧ s.img.reasonClass = .ok ∧ s.currentLayout = .openwrtUbi ∧
    (s.engines.mig.report.complete = true ∨
      s.ubiDiag.attached = true ∧ s.ubiDiag.fip.present = true ∧ s.ubiDiag.fip.valid = true) ∧
    s.engines.anyActive = false

def Web.ubiMigrateReady (s : Web) : Prop :=
  s.img.type = .ubiSysupgrade ∧ s.img.reasonClass = .ok ∧ s.currentLayout.Migratable ∧
    s.preloaderValid = true ∧ s.engines.bl2.ok = true ∧ s.engines.anyActive = false

instance (s : Web) : Decidable s.stockLayoutReady := inferInstanceAs (Decidable (_ ∧ _))
instance (s : Web) : Decidable s.ubiUpdateReady := inferInstanceAs (Decidable (_ ∧ _))
instance (s : Web) : Decidable s.ubiMigrateReady := inferInstanceAs (Decidable (_ ∧ _))

/-! ## The other endpoints -/

/-- `POST /api/expert/boot-once`. It asks for no confirmation. -/
def bootOnce (s : Web) : FlashProg Served := do
  if !s.expertImg.bootableFit then
    return ⟨.refused .operationLocked "no validated initramfs/FIT", s, false, false⟩
  logf (.bootOnceArmed s.expertImg.addr s.expertImg.len)
  return ⟨⟨200, .json [("result", .str "BOOT_ONCE_ARMED"), ("automatic_sysupgrade", .bool false)]⟩,
    { s with pendingExpertBoot := true }, true, false⟩

def factoryResetSettings : FlashProg ℤ := do
  let ret ← issue .factoryRegisterMtd
  if ret ≠ 0 then return ret
  let _ ← issue .ubiDetach
  let ret ← issue (.ubiPart .ursusFactoryUbi)
  if ret ≠ 0 then return ret
  if (← issue (.ubiCheck "rootfs_data")) ≠ 0 then return -enoent
  let ret ← issue (.ubiRemove "rootfs_data")
  if ret ≠ 0 then return ret
  let ret ← issue (.ubiCreate "rootfs_data" 0 false none)
  if ret ≠ 0 then return ret
  issue (.ubiCheck "rootfs_data")

/-- The end of `POST /api/reset-openwrt-settings`, by the status of the reset. -/
def resetSettingsReply (s : Web) (ret : ℤ) : FlashProg Served := do
  logf (.settingsReset s.currentLayout.name ret)
  if ret ≠ 0 then
    return ⟨.result 500 [("result", "FAILED"), ("reason_class", "WRITE_FAILED"),
      ("reason", "rootfs_data reset failed")], s, false, false⟩
  return ⟨.result 200 [("result", "OPENWRT_SETTINGS_RESET_COMPLETE"), ("reboot", "MANUAL")], s,
    false, false⟩

/-- `POST /api/reset-openwrt-settings`. -/
def resetSettingsRequest (h : List UInt8) (s : Web) : FlashProg Served := do
  if !confirmed h 40 "RESET-OPENWRT-SETTINGS" then
    return ⟨.refused .operationLocked "confirmation required", s, false, false⟩
  if s.engines.anyActive then
    return ⟨.refused .operationLocked "another operation is active", s, false, false⟩
  match s.currentLayout with
  | .openwrtUbi => do
    let ret ← resetSettings
    resetSettingsReply s ret
  | .openwrtStockLayout => do
    let ret ← factoryResetSettings
    resetSettingsReply s ret
  | _ => return ⟨.refused .layoutUnsupported "OpenWrt settings reset requires an OpenWrt layout", s,
      false, false⟩

structure FipRequest where
  kind : FipKind
  upload : UploadKind
  valid : Web → Bool
  outLen : ℕ
  confirm : String
  required : String
  preflight : String
  started : String

/-- The body of `POST /api/update-ursusboot` and `POST /api/replace-with-vanilla`. Neither asks
whether a UBI update is active. -/
def fipRequest (P : Platform) (q : FipRequest) (h : List UInt8) (s : Web) : FlashProg Served := do
  let u := s.session q.upload
  if !confirmed h q.outLen q.confirm then
    return ⟨.refused .operationLocked "confirmation required", s, false, false⟩
  if !q.valid s ∨ u.received ≠ u.total ∨ u.total = 0 then
    return ⟨.refused .operationLocked q.required, s, false, false⟩
  if s.engines.mig.active || s.engines.fip.active then
    return ⟨.refused .operationLocked "another flash operation is active", s, false, false⟩
  let r ← FipUpdate.startKind P s.engines.fip u.addr u.total q.kind
  let s' := { s with engines := { s.engines with fip := r.2 } }
  if r.1 ≠ 0 then return ⟨.refused .operationLocked q.preflight, s', false, false⟩
  logf (.fipUpdateStart (q.kind = .vanilla) (if r.2.ubiLayout then "UBI" else "STOCK") u.filename
    u.total)
  return ⟨.result 200 [("result", q.started), ("reboot", "MANUAL")],
    { s' with pendingBootloaderUpdate := true }, false, false⟩

/-- `POST /api/update-ursusboot`. -/
def updateUrsusboot (P : Platform) : List UInt8 → Web → FlashProg Served :=
  fipRequest P ⟨.ursus, .ursusFip, Web.fipUploadValid, 32, "UPDATE-URSUSBOOT",
    "validated UrsusBoot FIP required", "UrsusBoot FIP update preflight failed",
    "URSUSBOOT_UPDATE_STARTED"⟩

/-- `POST /api/replace-with-vanilla`. -/
def replaceWithVanilla (P : Platform) : List UInt8 → Web → FlashProg Served :=
  fipRequest P ⟨.vanilla, .vanillaFip, Web.vanillaUploadValid, 40, "REPLACE-URSUSBOOT-WITH-VANILLA",
    "validated pinned Vanilla FIP required", "Vanilla replacement preflight failed",
    "VANILLA_REPLACE_STARTED"⟩

/-- An operation has been completed since the board came up. -/
def Engines.rebootGate (e : Engines) : Bool :=
  e.upd.report.complete || e.mig.report.complete || e.fip.report.complete

/-- `POST /api/reboot`. -/
def rebootRequest (h : List UInt8) (s : Web) : FlashProg Served := do
  let e := s.engines
  logf (.rebootRequest e.mig.report.complete e.upd.report.complete e.fip.report.complete)
  if !e.rebootGate || !confirmed h 32 "REBOOT" then
    logf (.rebootRejected e.rebootGate
      ((parseHeaderValue h "X-Ursus-Confirm" 32).getD (asciiBytes "MISSING")))
    return ⟨.result 409 [("result", "REJECTED"),
      ("reason", "completed flash operation and explicit reboot confirmation required")], s,
      false, false⟩
  let now ← getTimer 0
  logf .rebootAccepted
  return ⟨.result 200 [("result", "REBOOTING")],
    { s with pendingReboot := true, rebootRequestAt := now }, true, true⟩

/-! ## The dispatch -/

/-- What a complete header comes to: a reply, or a chunk to be delivered. -/
inductive Routed
  | served (result : Served)
  | upload (chunk : Chunk)

/-- `ursus_route_ready`, without the console. -/
def routeReady (P : Platform) (h : List UInt8) (s : Web) : FlashProg Routed :=
  match Route.ofHeader h with
  | .get page => return .served ⟨⟨200, .page page⟩, s, false, false⟩
  | .discard k => do return .served (← discardUpload k s)
  | .begin k => do return .served (← beginUpload k h s)
  | .chunk k => do
    match ← prepareChunk k h s with
    | .error r => return .served r
    | .ok ch => return .upload ch
  | .bootOnce => do return .served (← bootOnce s)
  | .installStockLayout => do return .served (← installStockLayout h s)
  | .installUbi => do return .served (← installUbi h s)
  | .resetSettings => do return .served (← resetSettingsRequest h s)
  | .updateUrsusboot => do return .served (← updateUrsusboot P h s)
  | .replaceWithVanilla => do return .served (← replaceWithVanilla P h s)
  | .reboot => do return .served (← rebootRequest h s)
  | .notFound => return .served ⟨.result 400 [("result", "NOT_FOUND")], s, false, false⟩

end UrsusBoot
