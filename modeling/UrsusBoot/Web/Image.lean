import UrsusBoot.Web.State

/-!
# Validation of staged images

What happens once all bytes of a firmware or of an initramfs have arrived: `ursus_validate_staged`
classifies the image and decides what may be done with it, `ursus_validate_expert_fit` whether it
may be booted once.
-/

namespace UrsusBoot

/-! ## FIT contents -/

/-- What one node of `/images` adds to the state. -/
def inspectNode (s : ImageState) (node : FitImageNode) : ImageState :=
  let isKernel := node.isKind "kernel" "linux" "kernel"
  let isRoot := node.isKind "rootfs" "filesystem" "filesystem"
  let isFdt := node.isKind "fdt" "dtb" "flat_dt"
  { s with
    kernelFound := s.kernelFound || isKernel
    rootFound := s.rootFound || isRoot
    fdtFound := s.fdtFound || isFdt
    kernelSize := if isKernel && s.kernelSize == 0 then node.size.getD 0 else s.kernelSize
    rootSize := if isRoot && s.rootSize == 0 then node.size.getD 0 else s.rootSize
    fdtSize := if isFdt && s.fdtSize == 0 then node.size.getD 0 else s.fdtSize }

def inspectFitImages (L : FitLib) (fit : List UInt8) (s : ImageState) : ImageState :=
  (L.images fit).foldl inspectNode s

/-- The end of `ursus_fit_default_platform`: the FDT of the default configuration. -/
def fdtPlatform (L : FitLib) (fdt : List UInt8) (s : ImageState) : ℤ × ImageState :=
  if fdtCheckHeader fdt ≠ 0 ∨ fdt.length < (fdtHeader fdt).totalsize then (-enoexec, s)
  else
    let s := { s with fdtFound := true, fdtSize := fdt.length }
    match L.compatible fdt with
    | none => (-enodev, s)
    | some compat =>
      if compat = [] then (-enodev, s)
      else
        let s := { s with
          fdtIsStock := stringlistContains compat.length compat "nokia,xg-040g-md"
          fdtIsUbi := stringlistContains compat.length compat "nokia,xg-040g-md-ubi" }
        if !s.fdtIsStock && !s.fdtIsUbi then (-enodev, s) else (0, { s with fdtCompatible := true })

/-- `ursus_fit_default_platform` of the FIT at an address. A device tree that is not aligned is
copied first. -/
def fitDefaultPlatform (L : FitLib) (addr : ℕ) (fit : List UInt8) (s : ImageState) :
    FlashProg (ℤ × ImageState) :=
  match L.defaultConf fit with
  | some ⟨some arch, some node⟩ =>
    if arch ≠ some ihArchArm64 then return (-eprotonosupport, s)
    else
      let s := { s with kernelArchValid := true }
      if node.type ≠ some ihTypeFlatdt then return (-enoexec, s)
      else
        match node.data with
        | none => return (-enoexec, s)
        | some (off, fdt) =>
          if fdt.length < 40 then return (-enoexec, s)
          else if (addr + off) % 8 ≠ 0 then do
            if !(← malloc fdt.length) then return (-enomem, s)
            logf (.fdtAligned fdt.length)
            return fdtPlatform L fdt s
          else return fdtPlatform L fdt s
  | _ => return (-enoent, s)

/-! ## The non-UBI sysupgrade -/

/-- One member of the archive: data at `data`, of `sz` bytes. -/
def tarMember (L : FitLib) (buf name : List UInt8) (data sz : ℕ) (s : ImageState) :
    ℤ × ImageState :=
  if nameEnds name "/kernel" then
    let r := verifyFit L (bytesAt buf data sz)
    (0, { s with kernelFound := true, kernelSize := sz, kernelOff := data
                 fitValid := r.1 == 0, fitHashesValid := r.2 })
  else if nameEnds name "/root" then
    let s := { s with rootFound := true, rootSize := sz, rootOff := data }
    if sz < 4 ∨ bytesAt buf data 4 ≠ asciiBytes "hsqs" then (-einval, s) else (0, s)
  else (0, s)

/-- The loop of `ursus_validate_factory` from `pos`; `fuel` bounds the number of members. -/
def tarWalk (L : FitLib) (buf : List UInt8) : ℕ → ℕ → ImageState → ℤ × ImageState
  | 0, _, s => (0, s)
  | fuel + 1, pos, s =>
    let h := buf.drop pos
    if !tarMagic h then (0, s)
    else
      let sz := tarOctal (bytesAt h 124 12) 0
      let data := pos + 512
      let next := data + (sz + 511) / 512 * 512
      if buf.length < data + sz then (-efbig, s)
      else
        let (ret, s) := tarMember L buf (cstr (h.take 100)) data sz s
        if ret ≠ 0 then (ret, s)
        else if buf.length < next then (0, s)
        else tarWalk L buf fuel next s

def validateFactory (L : FitLib) (buf : List UInt8) (s : ImageState) : ℤ × ImageState :=
  let (ret, s) := tarWalk L buf (buf.length / 512 + 1) 0 s
  if ret ≠ 0 then (ret, s)
  else if !s.kernelFound || !s.rootFound || !s.fitValid || !s.fitHashesValid then (-einval, s)
  else (0, s)

/-! ## The main channel -/

/-- The metadata `ursus_validate_staged` goes by. -/
def stagedMeta (buf : List UInt8) : FwtoolMeta :=
  match parseFwtoolMeta buf with
  | some (.ok m) => m
  | _ => {}

def FwtoolMeta.valid (m : FwtoolMeta) : Bool := m.found && m.crcOk && m.supportedDevicesPresent

def stagedTar (L : FitLib) (layout : Layout) (m : FwtoolMeta) (buf : List UInt8)
    (s : ImageState) : ℤ × ImageState :=
  let s := { s with type := .nonubiSysupgrade, deviceCompatible := m.deviceFactory }
  let (ret, s) := validateFactory L buf s
  if ret ≠ 0 then
    (ret, s.setReason .badContainer "OpenWrt non-UBI sysupgrade tar/kernel/root validation failed")
  else if !m.valid then
    (-ebadmsg, s.setReason .metadataMissing
      "OpenWrt non-UBI sysupgrade fwtool metadata, CRC or supported_devices is missing/invalid")
  else if !s.deviceCompatible then
    (-enodev, s.setReason .deviceMismatch
      "OpenWrt non-UBI sysupgrade supported_devices does not contain nokia,xg-040g-md")
  else if ¬ layout.Migratable then
    (0, s.setReason .layoutUnsupported
      "OpenWrt non-UBI sysupgrade is valid but current flash layout is not installable by this release")
  else
    (0, s.setReason .ok
      "OpenWrt non-UBI sysupgrade valid; stock-layout install/update is available after explicit confirmation")

/-- The verdict on a UBI sysupgrade, `pret` being the answer of `ursus_fit_default_platform`. -/
def stagedUbi (layout : Layout) (m : FwtoolMeta) (pret : ℤ) (s : ImageState) : ℤ × ImageState :=
  let s := { s with deviceCompatible := m.deviceUbi }
  if !m.crcOk || !m.supportedDevicesPresent then
    (-ebadmsg, s.setReason .metadataMissing
      "UBI fwtool metadata CRC or supported_devices is missing/invalid")
  else if !s.kernelFound ∨ !s.fdtFound ∨ !s.rootFound ∨ pret = -enoent ∨ pret = -enoexec then
    (-einval, s.setReason .badFit
      "UBI FIT must contain kernel, FDT and rootfs in a valid default configuration")
  else if !s.deviceCompatible ∨ pret ≠ 0 ∨ !s.fdtIsUbi then
    (-enodev, s.setReason .deviceMismatch
      "UBI supported_devices, ARM64 architecture or UBI board FDT does not match Nokia XG-040G-MD UBI")
  else
    match layout with
    | .openwrtUbi =>
      (0, s.setReason .ok
        "UBI sysupgrade FIT valid; in-place UBI update is available after confirmation")
    | .stock | .openwrtStockLayout =>
      (0, s.setReason .ok
        "UBI sysupgrade FIT valid; factory-layout to UBI migration is available after validating the transition preloader")
    | .unknown =>
      (-exdev, s.setReason .layoutUnsupported
        "UBI sysupgrade FIT is valid but current NAND layout is unknown")

def stagedFit (L : FitLib) (layout : Layout) (m : FwtoolMeta) (addr : ℕ) (buf : List UInt8)
    (s : ImageState) : FlashProg (ℤ × ImageState) :=
  let (vret, hashes) := verifyFit L buf
  let s := { s with fitValid := vret == 0, fitHashesValid := hashes }
  if vret = -ebadmsg then
    return (vret, { s with type := .invalid }.setReason .hashMismatch
      "FIT image hash verification failed")
  else if vret ≠ 0 then
    return (vret, { s with type := .invalid }.setReason .badFit "FIT structure validation failed")
  else if !m.found then do
    let s := inspectFitImages L buf { s with type := .factoryKernel }
    let (pret, s) ← fitDefaultPlatform L addr buf s
    return (-eprotonosupport, s.setReason .unsupportedClass
      (if pret = 0 ∧ s.fdtIsStock then
        "OpenWrt factory-kernel.bin recognized; paired factory components are Expert-only and never trigger repartition"
      else "standalone FIT is not accepted by Main firmware channel; use Expert initramfs"))
  else do
    let s := inspectFitImages L buf { s with type := .ubiSysupgrade }
    let (pret, s) ← fitDefaultPlatform L addr buf s
    return stagedUbi layout m pret s

/-- The body of `ursus_validate_staged`, up to its last log lines. -/
def stagedVerdict (L : FitLib) (layout : Layout) (addr : ℕ) (buf : List UInt8) :
    FlashProg (ℤ × ImageState) :=
  let s := { resetImageState with addr := addr, len := buf.length }
  if buf = [] then return (-einval, s.setReason .badContainer "empty staged image")
  else if stageMax < buf.length then
    return (-efbig, s.setReason .imageTooLarge "firmware exceeds staging capacity")
  else
    let m := stagedMeta buf
    let s := { s with metadataPresent := m.found, metadataValid := m.valid }
    if tarMagic buf then return stagedTar L layout m buf s
    else if 4 ≤ buf.length ∧ bytesAt buf 0 4 = asciiBytes "UBI#" then
      return (-eprotonosupport, { s with type := .factoryRootfs }.setReason .unsupportedClass
        "OpenWrt factory-rootfs.bin recognized; paired factory components are Expert-only and never trigger repartition")
    else if 4 ≤ buf.length ∧ beNat (bytesAt buf 0 4) = fdtMagic then
      stagedFit L layout m addr buf s
    else
      return (-enoexec, { s with type := .invalid }.setReason .unsupportedClass
        "Main firmware channel accepts OpenWrt non-UBI sysupgrade tar or UBI sysupgrade FIT; factory component images are classified but not auto-installed")

def offeredOperation (layout : Layout) (s : ImageState) : String :=
  match s.type with
  | .nonubiSysupgrade =>
    if s.reasonClass = .ok then "INSTALL_OPENWRT_STOCK_LAYOUT_AVAILABLE"
    else "INSTALL_OPENWRT_STOCK_LAYOUT_LOCKED"
  | .ubiSysupgrade =>
    if layout = .openwrtUbi then "UPDATE_OPENWRT_UBI_AVAILABLE" else "INSTALL_OPENWRT_UBI_AVAILABLE"
  | _ => "NONE"

/-- `ursus_validate_staged`: the status and the new image state. -/
def validateStaged (L : FitLib) (layout : Layout) (addr len : ℕ) : FlashProg (ℤ × ImageState) := do
  logf (.firmwareValidation len layout.name)
  let buf ← readMem addr len
  let (ret, s) ← stagedVerdict L layout addr buf
  logf (.firmwareVerdict s.reasonClass.name s.type.name s.metadataValid s.deviceCompatible
    s.fitValid s.fitHashesValid s.kernelFound s.fdtFound s.rootFound s.kernelArchValid
    s.fdtCompatible ret)
  logf (.firmwareOperation (offeredOperation layout s) s.reason)
  return (ret, s)

/-! ## Boot once -/

/-- The verdict on an initramfs, `pret` being the answer of `ursus_fit_default_platform`. -/
def expertPlatform (layout : Layout) (pret : ℤ) (s : ImageState) : ℤ × ImageState :=
  let invalid := { s with type := .invalid }
  if pret = -enoent ∨ pret = -enoexec then
    (pret, invalid.setReason .badFit "FIT default configuration must contain kernel and valid FDT")
  else if pret ≠ 0 then
    (pret, invalid.setReason .deviceMismatch
      "FIT architecture or board compatible does not match Nokia XG-040G-MD")
  else if (layout = .openwrtUbi ∧ !s.fdtIsUbi) ∨ (layout.Migratable ∧ !s.fdtIsStock) then
    (-exdev, invalid.setReason .layoutUnsupported
      "initramfs/FIT device-tree layout does not match the current NAND layout")
  else
    (0, { s with type := .fit, deviceCompatible := true, bootableFit := true }.setReason .ok
      "FIT hashes, ARM64 architecture and board FDT validated; boot once is available")

/-- The body of `ursus_validate_expert_fit`, up to its last log line. -/
def expertVerdict (L : FitLib) (layout : Layout) (addr : ℕ) (buf : List UInt8) :
    FlashProg (ℤ × ImageState) :=
  let s := { resetExpertState with addr := addr, len := buf.length }
  if buf = [] then return (-einval, s.setReason .badContainer "empty initramfs/FIT staging range")
  else if stageMax < buf.length then
    return (-efbig, s.setReason .imageTooLarge
      "initramfs/FIT exceeds shared 64 MiB staging capacity")
  else if buf.length < 4 ∨ beNat (bytesAt buf 0 4) ≠ fdtMagic then
    return (-enoexec, s.setReason .badContainer "Expert channel accepts FIT/initramfs only")
  else
    let (ret, hashes) := verifyFit L buf
    let s := { s with fitValid := ret == 0, fitHashesValid := hashes }
    if ret = -ebadmsg then
      return (ret, { s with type := .invalid }.setReason .hashMismatch
        "FIT image hash verification failed")
    else if ret ≠ 0 then
      return (ret, { s with type := .invalid }.setReason .badFit "FIT structure validation failed")
    else do
      let (pret, s) ← fitDefaultPlatform L addr buf (inspectFitImages L buf s)
      return expertPlatform layout pret s

/-- `ursus_validate_expert_fit`: the status and the new image state. -/
def validateExpertFit (L : FitLib) (layout : Layout) (addr len : ℕ) :
    FlashProg (ℤ × ImageState) := do
  logf (.expertValidation len)
  let buf ← readMem addr len
  let (ret, s) ← expertVerdict L layout addr buf
  logf (.expertVerdict s.reasonClass.name s.fitValid s.fitHashesValid s.kernelFound s.fdtFound
    s.kernelArchValid s.fdtCompatible s.bootableFit ret s.reason)
  return (ret, s)

end UrsusBoot
