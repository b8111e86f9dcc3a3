import Mathlib.Algebra.GroupWithZero.Nat
import Mathlib.Data.List.Basic
import UrsusBoot.Lib.Memory
import UrsusBoot.Lib.Slots

/-!
# The board

What the flash engines act on: RAM, the SPI-NAND, the UBI volumes kept on it, and the few pieces
of U-Boot state the engines read. `World` is the whole of it; `Outcome` is what the environment
may still decide about one command.
-/

namespace UrsusBoot

/-! ## Error codes -/

@[simp] abbrev eperm : ℤ := 1
@[simp] abbrev enoent : ℤ := 2
@[simp] abbrev eio : ℤ := 5
@[simp] abbrev enoexec : ℤ := 8
@[simp] abbrev enomem : ℤ := 12
@[simp] abbrev ebusy : ℤ := 16
@[simp] abbrev exdev : ℤ := 18
@[simp] abbrev enodev : ℤ := 19
@[simp] abbrev einval : ℤ := 22
@[simp] abbrev efbig : ℤ := 27
@[simp] abbrev enospc : ℤ := 28
@[simp] abbrev erange : ℤ := 34
@[simp] abbrev ebadmsg : ℤ := 74
@[simp] abbrev eoverflow : ℤ := 75
@[simp] abbrev eprotonosupport : ℤ := 93
@[simp] abbrev euclean : ℤ := 117

/-- The result of a failing kernel-style call: a negative error code. -/
structure Errno where
  code : ℤ
  neg : code < 0

/-! ## Addresses -/

abbrev ubiBase : ℕ := 0x20000
abbrev ubiSize : ℕ := 0x0ffe0000
abbrev ubiBl2Size : ℕ := 0x20000
abbrev stockFipOff : ℕ := 0x800
abbrev stockEnvOff : ℕ := 0x7c000
abbrev stockBosaOff : ℕ := 0x051c0000
abbrev stockRiOff : ℕ := 0x05200000
abbrev boardDataSize : ℕ := 0x40000
abbrev ubiFipVolSize : ℕ := 0x100000
abbrev fipTocRead : ℕ := 0x1000
abbrev fipMax : ℕ := stockEnvOff - stockFipOff
abbrev ubiReadbackAddr : ℕ := 0x94000000
abbrev migBosaAddr : ℕ := 0x98000000
abbrev migRiAddr : ℕ := 0x98040000
abbrev migFipAddr : ℕ := 0x98100000
abbrev bl2PreloaderOff : ℕ := 0x800
abbrev factoryKernelOff : ℕ := 0x000c0000
abbrev factoryKernelSize : ℕ := 0x00800000

/-! ## UBI -/

abbrev vtblSlots : ℕ := 128

instance : NeZero vtblSlots := ⟨by decide⟩

/-- A UBI volume apart from its id and name. `data` is the used part: what was written to a static
volume, the whole reserved area of a dynamic one. -/
structure Volume where
  static : Bool
  reservedPebs : ℕ
  data : List UInt8
  updMarker : Bool
deriving DecidableEq

/-- A volume table: lookups by name find the lowest id. -/
abbrev VolumeTable := Slots vtblSlots String Volume

/-- The UBI device found in a flash area: its volumes and its PEB accounting. `emptyPebs` are the
PEBs available once the area is erased. -/
structure UbiImage where
  vols : VolumeTable
  availPebs : ℕ
  bebRsvdPebs : ℕ
  bebRsvdLevel : ℕ
  emptyPebs : ℕ

/-- The device on the same area after it has been erased. -/
def UbiImage.erased (u : UbiImage) : UbiImage :=
  { u with vols := fun _ => none, availPebs := u.emptyPebs, bebRsvdPebs := u.bebRsvdLevel }

inductive UbiPart
  | ursusUbiFull
  | ursusUpdateUbi
  | ubi
  | ursusFactoryUbi
deriving DecidableEq

/-- The flash areas that hold a UBI device: the native layout's and the stock layout's. -/
inductive UbiArea
  | native
  | factory
deriving DecidableEq

def UbiPart.area : UbiPart → UbiArea
  | .ursusUbiFull | .ursusUpdateUbi | .ubi => .native
  | .ursusFactoryUbi => .factory

/-- Offsets and sizes of the partitions concatenated to `ursus-factory-ubi`. -/
def factoryUbiParts : List (ℕ × ℕ) :=
  [(0x05cc0000, 0x080e0000), (0x008c0000, 0x02080000), (0x02940000, 0x02880000),
   (0x052c0000, 0x00a00000), (0x0dda0000, 0x00400000), (0x0e1a0000, 0x009c0000)]

/-- The address belongs to `ursus-factory-ubi`. -/
def inFactoryUbi (x : ℕ) : Bool :=
  factoryUbiParts.any fun p => decide (p.1 ≤ x) && decide (x < p.1 + p.2)

def UbiArea.holds : UbiArea → ℕ → Bool
  | .native, x => decide (ubiBase ≤ x)
  | .factory, x => inFactoryUbi x

structure NandGeometry where
  size : ℕ
  erasesize : ℕ
  writesize : ℕ
deriving DecidableEq

def NandGeometry.supported : NandGeometry := ⟨0x10000000, 0x20000, 0x800⟩

/-! ## The world -/

/-- RAM, flash and the U-Boot state the engines read. -/
structure World where
  ram : Mem UInt8
  nand : Mem UInt8
  /-- Whether the erase block at an address is marked bad. -/
  badBlock : ℕ → Bool
  /-- The master NAND, when the probe finds one. -/
  geometry : Option NandGeometry
  lebSize : ℕ
  /-- The partition UBI is attached to. -/
  attached : Option UbiPart
  ubi : UbiArea → UbiImage
  /-- The partition the FIP updater registered or reused. -/
  updatePart : Option { p : UbiPart // p.area = .native }
  /-- The partitions `ursus-ubi-bl2` and `ursus-ubi-full` are registered. -/
  ubiMtdReady : Bool
  /-- The partitions of the stock layout's kernel and UBI area are registered. -/
  factoryMtdReady : Bool
  /-- The environment variable `rootfs_data_max`, 0 when unset. -/
  rootfsDataMax : ℕ
  /-- The environment copy written next is the redundant one. -/
  envRedund : Bool
  clock : ℕ

/-- What the environment decides about one command. -/
structure Outcome where
  /-- The command fails; kernel-style calls answer with this code, shell commands with 1. -/
  err : Option Errno := none
  /-- Bytes a failing transfer leaves behind; the text of a saved environment. -/
  junk : List UInt8 := []
  /-- How a UBI operation or an interrupted raw operation reprogrammed the NAND cells. -/
  cells : Option (Mem UInt8) := none
  /-- An interrupted volume update leaves its update marker behind. -/
  marker : Bool := true
  /-- What a raw operation across a UBI area leaves of the devices in it. -/
  damage : Option (UbiArea → UbiImage) := none
  /-- The environment variable `filesize` as an earlier command left it. -/
  filesize : ℕ := 0
  /-- Milliseconds that pass. -/
  tick : ℕ := 0

def Outcome.ok : Outcome := {}

/-- The outcome of a command that fails with the given code. -/
def Outcome.fails (e : Errno) : Outcome := { err := some e }

instance : Inhabited Outcome := ⟨.ok⟩

namespace World

def device (w : World) : Option UbiImage := w.attached.map fun p => w.ubi p.area

def setUbi (w : World) (a : UbiArea) (u : UbiImage) : World :=
  { w with ubi := fun b => if b = a then u else w.ubi b }

/-- UBI reprograms cells of its own partition only. -/
def ubiCells (w : World) (o : Outcome) : World :=
  match o.cells, w.attached with
  | some c, some p => { w with nand := fun x => if p.area.holds x then c x else w.nand x }
  | _, _ => w

/-- What a raw operation on the range leaves of the UBI devices: nothing changes below the UBI
area, anything may inside it. -/
def rawUbi (w : World) (o : Outcome) (a n : ℕ) : UbiArea → UbiImage :=
  if a + n ≤ ubiBase then w.ubi else o.damage.getD w.ubi

def rawErase (w : World) (o : Outcome) (a n : ℕ) : World :=
  { w with
    nand := w.nand.fill a n 0xff
    ubi := if a ≤ ubiBase ∧ ubiBase + ubiSize ≤ a + n then fun x => (w.ubi x).erased
           else w.rawUbi o a n }

def rawWrite (w : World) (o : Outcome) (a : ℕ) (bs : List UInt8) : World :=
  { w with nand := w.nand.blit a bs, ubi := w.rawUbi o a bs.length }

/-- A raw operation on the range that failed part of the way. -/
def rawTorn (w : World) (o : Outcome) (a n : ℕ) : World :=
  { w with
    nand := match o.cells with
      | none => w.nand
      | some c => fun x => if a ≤ x ∧ x < a + n then c x else w.nand x
    ubi := w.rawUbi o a n }

/-- What `mtd erase` leaves when it answers 0. It skips bad blocks and passes over blocks that fail
with an I/O error, so the range need not have been erased. -/
def mtdErased (w : World) (o : Outcome) (a n : ℕ) : World :=
  if o.cells.isNone ∧ o.damage.isNone then w.rawErase o a n else w.rawTorn o a n

/-! ### The stock layout's partitions -/

def blockOf (x : ℕ) : ℕ := x - x % 0x20000

/-- A raw operation of the `mtd` command on the good blocks of a range, `f` being the cells it is to
leave there. -/
def mtdStore (w : World) (o : Outcome) (range : ℕ → Bool) (f : Mem UInt8) : World :=
  { w with
    nand := fun x => if range x && !w.badBlock (blockOf x) then (o.cells.getD f) x else w.nand x
    ubi := o.damage.getD w.ubi }

/-- The address belongs to `ursus-factory-kernel`. -/
def inFactoryKernel (x : ℕ) : Bool :=
  decide (factoryKernelOff ≤ x) && decide (x < factoryKernelOff + factoryKernelSize)

/-- The good blocks of `ursus-factory-kernel`, in order. -/
def kernelBlocks (w : World) : List ℕ :=
  ((List.range (factoryKernelSize / 0x20000)).map fun k => factoryKernelOff + k * 0x20000).filter
    fun b => !w.badBlock b

/-- The offset the `mtd` command finds a byte of `ursus-factory-kernel` at: bad blocks do not
count. -/
def kernelOffset (w : World) (x : ℕ) : ℕ :=
  w.kernelBlocks.idxOf (blockOf x) * 0x20000 + x % 0x20000

end World

end UrsusBoot
