import UrsusBoot.Web.State

/-!
# Installing on the stock layout

`ursus_factory_install` and its helpers: the root filesystem goes to the device concatenated from
six stock partitions, the kernel to its own partition, and each is read back.
-/

namespace UrsusBoot

open Prog

abbrev readbackAddr : ℕ := 0x94000000

/-- The erase blocks of `ursus-factory-kernel`, by their place in the partition. -/
def factoryKernelBlocks : List ℕ :=
  (List.range (factoryKernelSize / 0x20000)).map fun k => k * 0x20000

/-- The loop of `ursus_factory_kernel_capacity_ok` over the blocks still to look at. -/
def factoryKernelUsable : List ℕ → ℕ → FlashProg (Except ℤ ℕ)
  | [], usable => return .ok usable
  | off :: offs, usable => do
    let bad ← blockIsBad (factoryKernelOff + off)
    if bad < 0 then return .error bad
    factoryKernelUsable offs (if 0 < bad ∧ 0x20000 ≤ usable then usable - 0x20000 else usable)

/-- `ursus_factory_kernel_capacity_ok`, once the partitions are registered. -/
def factoryKernelCapacityOk (imageSize : ℕ) : FlashProg ℤ := do
  match ← factoryKernelUsable factoryKernelBlocks factoryKernelSize with
  | .error e => return e
  | .ok usable => return if usable < imageSize then -enospc else 0

def compareStageReadback (stageOff addr len : ℕ) : FlashProg ℤ :=
  memEqual (stageAddr + stageOff) addr len

/-- The first check of `ursus_factory_install`, on what validation has recorded. -/
def ImageState.Installable (img : ImageState) : Prop :=
  img.type = .nonubiSysupgrade ∧ img.metadataValid = true ∧ img.deviceCompatible = true ∧
    img.fitValid = true ∧ img.fitHashesValid = true ∧ img.kernelFound = true ∧ img.rootFound = true

instance (img : ImageState) : Decidable img.Installable := inferInstanceAs (Decidable (_ ∧ _))

/-- The sizes `ursus_factory_install` accepts. -/
def ImageState.SizesFit (img : ImageState) : Prop :=
  img.kernelSize ≠ 0 ∧ img.kernelSize ≤ factoryKernelSize ∧ img.rootSize ≠ 0 ∧
    img.kernelOff + img.kernelSize ≤ img.len ∧ img.rootOff + img.rootSize ≤ img.len

instance (img : ImageState) : Decidable img.SizesFit := inferInstanceAs (Decidable (_ ∧ _))

/-- The second half of `ursus_factory_install`: the kernel, last. -/
def factoryInstallKernel (img : ImageState) : FlashProg ℤ := do
  let ret ← issue .factoryKernelErase
  if ret ≠ 0 then return ret
  let ret ← issue (.factoryKernelWrite (stageAddr + img.kernelOff) img.kernelSize)
  if ret ≠ 0 then return ret
  let ret ← issue (.factoryKernelRead readbackAddr img.kernelSize)
  if ret ≠ 0 then return ret
  compareStageReadback img.kernelOff readbackAddr img.kernelSize

/-- The root filesystem: written and read back before the kernel is touched. -/
def factoryInstallRoot (img : ImageState) : FlashProg ℤ := do
  let _ ← issue .ubiDetach
  let ret ← issue .factoryUbiErase
  if ret ≠ 0 then return ret
  let ret ← issue (.ubiPart .ursusFactoryUbi)
  if ret ≠ 0 then return ret
  let ret ← issue (.ubiCreate "rootfs" img.rootSize false none)
  if ret ≠ 0 then return ret
  let ret ← issue (.ubiCreate "rootfs_data" 0 false none)
  if ret ≠ 0 then return ret
  let ret ← issue (.ubiWrite (stageAddr + img.rootOff) "rootfs" img.rootSize)
  if ret ≠ 0 then return ret
  let ret ← issue (.ubiRead readbackAddr "rootfs" img.rootSize)
  if ret ≠ 0 then return ret
  compareStageReadback img.rootOff readbackAddr img.rootSize

/-- `ursus_factory_install`. Every failure past the checks leaves through one exit, which answers
with a status other than 0. -/
def factoryInstall (img : ImageState) (layout : Layout) : FlashProg ℤ := do
  if ¬ img.Installable then return -einval
  if ¬ layout.Migratable then return -eperm
  if ¬ img.SizesFit then return -efbig
  let ret ← issue .factoryRegisterMtd
  if ret ≠ 0 then return ret
  let ret ← factoryKernelCapacityOk img.kernelSize
  if ret ≠ 0 then return ret
  let ret ← factoryInstallRoot img
  if ret ≠ 0 then return ret
  factoryInstallKernel img

end UrsusBoot
