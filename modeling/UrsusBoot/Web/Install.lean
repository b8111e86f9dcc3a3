import UrsusBoot.Web.Factory
import UrsusBoot.Web.Image

/-!
# The install endpoints

`POST /api/install-openwrt-stock-layout` arms the stock-layout installation, `POST /api/install-ubi`
starts an update or a migration. Both go by what validation has recorded of the staged image.
-/

namespace UrsusBoot

/-- What a request comes to: the reply, the static variables, and what the connection does once the
response is out. -/
structure Served where
  reply : Reply
  web : Web
  stopAfterResponse : Bool := false
  rebootAfterResponse : Bool := false

def Served.Refused (r : Served) : Prop := r.reply.status = 409

instance (r : Served) : Decidable r.Refused := inferInstanceAs (Decidable (_ = _))

def ImageState.StockReady (img : ImageState) (layout : Layout) : Prop :=
  img.type = .nonubiSysupgrade ∧ img.metadataValid = true ∧ img.deviceCompatible = true ∧
    img.fitValid = true ∧ img.fitHashesValid = true ∧ layout.Migratable

instance (img : ImageState) (layout : Layout) : Decidable (img.StockReady layout) :=
  inferInstanceAs (Decidable (_ ∧ _))

def ImageState.UbiReady (img : ImageState) : Prop :=
  img.type = .ubiSysupgrade ∧ img.reasonClass = .ok ∧ img.metadataValid = true ∧
    img.deviceCompatible = true ∧ img.fitValid = true ∧ img.fitHashesValid = true ∧
    img.fdtIsUbi = true

instance (img : ImageState) : Decidable img.UbiReady := inferInstanceAs (Decidable (_ ∧ _))

/-- `POST /api/install-openwrt-stock-layout`. -/
def installStockLayout (h : List UInt8) (s : Web) : FlashProg Served := do
  if !confirmed h 32 "INSTALL-OPENWRT-STOCK-LAYOUT" then
    return ⟨.refused .operationLocked "confirmation required", s, false, false⟩
  if ¬ s.img.StockReady s.currentLayout then
    return ⟨.refused .operationLocked "validated OpenWrt non-UBI sysupgrade image required", s,
      false, false⟩
  logf .stockInstallArmed
  return ⟨.result 200 [("result", "OPENWRT_STOCK_LAYOUT_INSTALL_ARMED")],
    { s with pendingFactoryInstall := true }, true, false⟩

/-- `X-Ursus-Keep-Settings`: settings are kept unless the header is `0`. -/
def keepSettings (h : List UInt8) : Bool :=
  parseHeaderValue h "X-Ursus-Keep-Settings" 16 != some (asciiBytes "0")

/-- The branch of `POST /api/install-ubi` on the UBI layout. -/
def installUbiUpdate (h : List UInt8) (s : Web) : FlashProg Served := do
  if s.ubiDiag.attached ∧ (!s.ubiDiag.fip.present ∨ !s.ubiDiag.fip.valid) then
    return ⟨.result 409 [("result", "REJECTED"), ("reason_class", "BOOTLOADER_REPAIR_REQUIRED"),
      ("reason", "active UBI fip is missing or invalid; restore UrsusBoot first")], s, false, false⟩
  if s.engines.anyActive then
    return ⟨.refused .operationLocked "another operation is active", s, false, false⟩
  let (ret, upd) ← UbiUpdate.start s.engines.upd s.engines.mig.active s.img.addr s.img.len
    (keepSettings h)
  if ret ≠ 0 then
    return ⟨.refused .operationLocked "UBI update preflight could not start",
      { s with engines := { s.engines with upd } }, false, false⟩
  logf (.ubiUpdateBegin (keepSettings h))
  return ⟨.result 200 [("result", "UBI_UPDATE_STARTED"), ("reboot", "MANUAL")],
    { s with engines := { s.engines with upd }, pendingUbiUpdate := true }, false, false⟩

/-- `POST /api/install-ubi`. -/
def installUbi (h : List UInt8) (s : Web) : FlashProg Served := do
  if !confirmed h 32 "INSTALL-UBI" then
    return ⟨.refused .operationLocked "confirmation required", s, false, false⟩
  if ¬ s.img.UbiReady then
    return ⟨.refused .operationLocked "validated UBI sysupgrade image required", s, false, false⟩
  if s.currentLayout = .openwrtUbi then installUbiUpdate h s
  else if ¬ s.currentLayout.Migratable then
    return ⟨.refused .layoutUnsupported "current NAND layout cannot be migrated", s, false, false⟩
  else if !s.preloaderValid || !s.engines.bl2.ok then
    return ⟨.refused .operationLocked
      "validated UBI preloader and 128 KiB BL2 candidate required", s, false, false⟩
  else
    let (ret, mig) := Migration.start s.engines.mig s.img.addr s.img.len ubiPreloaderAddr
      (s.session .ubiPreloader).total
    if ret ≠ 0 then
      return ⟨.refused .operationLocked "UBI migration preflight could not start",
        { s with engines := { s.engines with mig } }, false, false⟩
    else do
      logf .migrationStart
      return ⟨.result 200 [("result", "UBI_MIGRATION_STARTED"), ("commit", "BL2_LAST"),
        ("bl2_layout", "FF800+PRELOADER@800+FFPAD")],
        { s with engines := { s.engines with mig }, pendingUbiMigration := true }, false, false⟩

end UrsusBoot
