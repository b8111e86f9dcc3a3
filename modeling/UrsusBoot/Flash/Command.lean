import UrsusBoot.Flash.Log
import UrsusBoot.Flash.World
import UrsusBoot.Lib.Prog

/-!
# Commands

The commands an engine issues: shell commands (`run_command`, answering 0 or 1), calls of the UBI
and MTD layers (answering 0 or a negative error code), and the services of U-Boot around them.
`exec` says what each of them does to the board under a given outcome.

A refused or failing UBI command has no effect on the volumes, except that a failing write damages
its target.
-/

namespace UrsusBoot

inductive MtdPart
  | ursusUbiBl2
  | ursusUbiFull
deriving DecidableEq

def MtdPart.offset : MtdPart → ℕ
  | .ursusUbiBl2 => 0
  | .ursusUbiFull => ubiBase

structure VolumeDesc where
  id : Fin vtblSlots
  static : Bool
  usedBytes : ℕ
  reservedPebs : ℕ
  usableLebSize : ℕ

/-- The attached UBI device, as the engines see it. -/
structure UbiDevice where
  mtd : UbiPart
  lebSize : ℕ
  availPebs : ℕ

inductive Cmd
  -- shell commands
  | ubiDetach
  | ubiPart (part : UbiPart)
  | ubiCheck (name : String)
  | ubiCreate (name : String) (size : ℕ) (static : Bool) (id : Option (Fin vtblSlots))
  | ubiRemove (name : String)
  | ubiRename (old new : String)
  | ubiWrite (addr : ℕ) (name : String) (size : ℕ)
  | ubiRead (addr : ℕ) (name : String) (size : ℕ)
  | ubiReadWhole (addr : ℕ) (name : String)
  | mtdErase (part : MtdPart) (off len : ℕ)
  | mtdWrite (part : MtdPart) (data : List UInt8) (off : ℕ)
  | mtdRead (part : MtdPart) (addr off len : ℕ)
  | factoryUbiErase
  | factoryKernelErase
  | factoryKernelWrite (addr len : ℕ)
  | factoryKernelRead (addr len : ℕ)
  | reset
  | bootm (addr : ℕ)
  -- UBI and MTD calls
  | ubiRegisterMtd
  | updateRegisterUbiPart
  | ubiGetDevice
  | ubiOpenVolume (name : String)
  | ubiRenameVolumes (renames : List (Fin vtblSlots × String))
  | findMasterNand
  | nandRead (off len : ℕ)
  | nandErase (off len : ℕ)
  | nandWrite (off : ℕ) (data : List UInt8)
  | blockIsBad (off : ℕ)
  | factoryRegisterMtd
  -- the rest of U-Boot
  | malloc (size : ℕ)
  | getTimer (base : ℕ)
  | readMem (addr len : ℕ)
  | writeMem (addr : ℕ) (data : List UInt8)
  | envGetRootfsDataMax
  | envSetRootfsDataMax (bytes : ℕ)
  | envSave
  | printf (line : String)
  | logf (line : LogLine)

@[reducible] def Cmd.Resp : Cmd → Type
  | .updateRegisterUbiPart => Except ℤ UbiPart
  | .ubiGetDevice => Option UbiDevice
  | .ubiOpenVolume _ => Except ℤ VolumeDesc
  | .findMasterNand => Option NandGeometry
  | .ubiReadWhole _ _ => ℤ × ℕ
  | .nandRead _ _ => ℤ × List UInt8
  | .nandWrite _ _ => ℤ × ℕ
  | .malloc _ => Bool
  | .getTimer _ => ℕ
  | .readMem _ _ => List UInt8
  | .writeMem _ _ => Unit
  | .envGetRootfsDataMax => ℕ
  | .printf _ | .logf _ => Unit
  | .reset | .bootm _ => Option ℤ
  | _ => ℤ

abbrev FlashProg := Prog Cmd Cmd.Resp

abbrev FlashEvent := Prog.Event Cmd Outcome World

/-! ## Effects -/

namespace UbiImage

/-- The id for a new volume: the one asked for, if free, or the lowest free one. -/
def freeSlot (u : UbiImage) : Option (Fin vtblSlots) → Option (Fin vtblSlots)
  | some i => if (u.vols i).isNone then some i else none
  | none => (List.finRange vtblSlots).find? fun i => (u.vols i).isNone

/-- `ubi create`: refuses an existing name, a used id, and a size that does not fit. -/
def create (u : UbiImage) (leb : ℕ) (name : String) (size : ℕ) (static : Bool)
    (id : Option (Fin vtblSlots)) : Option UbiImage :=
  let bytes := if size = 0 then u.availPebs * leb else size
  let pebs := (bytes + leb - 1) / leb
  match u.freeSlot id with
  | none => none
  | some i =>
    if bytes = 0 ∨ (u.vols.find? name).isSome ∨ u.availPebs < pebs then none
    else
      let data := if static then [] else List.replicate (pebs * leb) 0xff
      some { u with
        vols := u.vols.put i name ⟨static, pebs, data, false⟩
        availPebs := u.availPebs - pebs }

/-- `ubi remove`: the freed PEBs first top up the reserve for bad blocks. -/
def remove (u : UbiImage) (name : String) : Option UbiImage :=
  match u.vols.lookup name with
  | none => none
  | some (i, v) =>
    let avail := u.availPebs + v.reservedPebs
    let more := min (u.bebRsvdLevel - u.bebRsvdPebs) avail
    some { u with
      vols := u.vols.free i
      availPebs := avail - more
      bebRsvdPebs := u.bebRsvdPebs + more }

/-- `ubi rename`: refuses an existing new name. -/
def rename (u : UbiImage) (old new : String) : Option UbiImage :=
  match u.vols.find? old with
  | none => none
  | some i =>
    if (u.vols.find? new).isSome then none else some { u with vols := u.vols.rename i new }

/-- `ubi_rename_volumes`: renames by id, without looking for a clash. -/
def renameVolumes (u : UbiImage) (renames : List (Fin vtblSlots × String)) : UbiImage :=
  { u with vols := renames.foldl (fun t r => t.rename r.1 r.2) u.vols }

/-- Replace the contents of the volume with id `i`. -/
def setVolume (u : UbiImage) (i : Fin vtblSlots) (v : Volume) : UbiImage :=
  { u with vols := u.vols.setBody i v }

end UbiImage

/-- The contents a successful update gives a volume: a dynamic volume is padded to its size. -/
def Volume.written (v : Volume) (leb : ℕ) (bs : List UInt8) : Volume :=
  { v with
    data := if v.static then bs else bs ++ List.replicate (v.reservedPebs * leb - bs.length) 0xff
    updMarker := false }

/-- What an interrupted update leaves of a volume. -/
def Volume.torn (v : Volume) (o : Outcome) : Volume :=
  { v with data := o.junk, updMarker := o.marker }

namespace World

/-- A shell command on the attached device; `f` refuses by answering `none`. -/
def shellUbi (w : World) (o : Outcome) (f : UbiImage → Option UbiImage) : ℤ × World :=
  match w.attached with
  | none => (1, w)
  | some p =>
    match o.err, f (w.ubi p.area) with
    | none, some u => (0, (w.setUbi p.area u).ubiCells o)
    | _, _ => (1, w.ubiCells o)

/-- `ubi part`: a device attached elsewhere is detached first, and a volume table with a duplicate
name is rejected. -/
def ubiPart (w : World) (o : Outcome) (p : UbiPart) : ℤ × World :=
  if w.attached = some p then (0, w)
  else if o.err.isNone ∧ (w.ubi p.area).vols.Distinct then
    (0, { w with attached := some p }.ubiCells o)
  else (1, { ({ w with attached := some p }.ubiCells o) with attached := none })

/-- `ubi write`: wipes the volume, then writes it. -/
def ubiWrite (w : World) (o : Outcome) (name : String) (bs : List UInt8) : ℤ × World :=
  match w.attached with
  | none => (1, w)
  | some p =>
    match (w.ubi p.area).vols.lookup name with
    | none => (1, w)
    | some (i, v) =>
      if v.reservedPebs * w.lebSize < bs.length then (1, w)
      else if o.err.isNone then
        (0, (w.setUbi p.area ((w.ubi p.area).setVolume i (v.written w.lebSize bs))).ubiCells o)
      else (1, (w.setUbi p.area ((w.ubi p.area).setVolume i (v.torn o))).ubiCells o)

/-- `ubi read`: clips to the used bytes; an empty volume reads as success without a byte moved. -/
def ubiRead (w : World) (o : Outcome) (addr : ℕ) (name : String) (size : ℕ) : ℤ × World :=
  match w.device.bind fun u => u.vols.lookup name with
  | none => (1, w)
  | some (_, v) =>
    if v.updMarker then (1, w)
    else if v.data = [] then (0, w)
    else
      let n := if size = 0 then v.data.length else min size v.data.length
      if o.err.isNone then (0, { w with ram := w.ram.blit addr (v.data.take n) }.ubiCells o)
      else (1, { w with ram := w.ram.blit addr (o.junk.take n) }.ubiCells o)

/-- `ubi read` without a size, and what `filesize` is then: a read that moves no byte does not set
it. -/
def ubiReadWhole (w : World) (o : Outcome) (addr : ℕ) (name : String) : (ℤ × ℕ) × World :=
  let r := w.ubiRead o addr name 0
  let bytes := ((w.device.bind fun u => u.vols.lookup name).map fun x => x.2.data.length).getD 0
  ((r.1, if r.1 = 0 ∧ bytes ≠ 0 then bytes else o.filesize), r.2)

/-- `ubi_open_volume_nm`. -/
def ubiOpenVolume (w : World) (o : Outcome) (name : String) : Except ℤ VolumeDesc :=
  match o.err with
  | some e => .error e.code
  | none =>
    match w.device.bind fun u => u.vols.lookup name with
    | none => .error (-enodev)
    | some (i, v) => .ok ⟨i, v.static, v.data.length, v.reservedPebs, w.lebSize⟩

/-- `ubi_rename_volumes` on the attached device. -/
def ubiRenameVolumes (w : World) (o : Outcome) (renames : List (Fin vtblSlots × String)) :
    ℤ × World :=
  match w.attached with
  | none => (-enodev, w)
  | some p =>
    match o.err with
    | some e => (e.code, w.ubiCells o)
    | none => (0, (w.setUbi p.area ((w.ubi p.area).renameVolumes renames)).ubiCells o)

/-- The environment volume the next `env_save` writes. -/
def envVolume (w : World) : String := if w.envRedund then "ubootenv2" else "ubootenv"

/-- `env_save`: attaches the partition `ubi` and rewrites one environment volume. -/
def envSave (w : World) (o : Outcome) : ℤ × World :=
  let r := w.ubiPart o .ubi
  if r.1 ≠ 0 then (1, r.2)
  else
    let s := r.2.ubiWrite o w.envVolume o.junk
    (s.1, if s.1 = 0 then { s.2 with envRedund := !w.envRedund } else s.2)

/-- `ursus_ubi_register_mtd`: registers `ursus-ubi-bl2` and `ursus-ubi-full` once, on a NAND of the
supported geometry. -/
def ubiRegisterMtd (w : World) (o : Outcome) : ℤ × World :=
  if w.ubiMtdReady then (0, w)
  else
    match o.err, w.geometry with
    | some e, _ => (e.code, w)
    | none, none => (-enodev, w)
    | none, some g =>
      if g = .supported then (0, { w with ubiMtdReady := true }) else (-einval, w)

/-- `ursus_update_register_ubi_part`: reuses `ursus-ubi-full` when it is registered. -/
def updateRegisterUbiPart (w : World) (o : Outcome) : Except ℤ UbiPart × World :=
  match w.updatePart, o.err, w.geometry with
  | some p, _, _ => (.ok p.1, w)
  | none, some e, _ => (.error e.code, w)
  | none, none, none => (.error (-enodev), w)
  | none, none, some g =>
    let p : { p : UbiPart // p.area = .native } :=
      if w.ubiMtdReady then ⟨.ursusUbiFull, rfl⟩ else ⟨.ursusUpdateUbi, rfl⟩
    if g = .supported then (.ok p.1, { w with updatePart := some p }) else (.error (-einval), w)

def factoryRegisterMtd (w : World) (o : Outcome) : ℤ × World :=
  if w.factoryMtdReady then (0, w)
  else
    match o.err, w.geometry with
    | some e, _ => (e.code, w)
    | none, none => (-enodev, w)
    | none, some _ => (0, { w with factoryMtdReady := true })

/-- `mtd write ursus-factory-kernel`, at offset 0: the size is rounded up to pages. -/
def factoryKernelWrite (w : World) (o : Outcome) (addr len : ℕ) : ℤ × World :=
  let n := (len + 0x7ff) / 0x800 * 0x800
  let w' := w.mtdStore o (fun x => inFactoryKernel x && decide (w.kernelOffset x < n))
    fun x => w.ram (addr + w.kernelOffset x)
  (if o.err.isNone ∧ n ≤ w.kernelBlocks.length * 0x20000 then 0 else 1, w')

/-- `mtd read ursus-factory-kernel`, from offset 0. -/
def factoryKernelRead (w : World) (o : Outcome) (addr len : ℕ) : ℤ × World :=
  let n := (len + 0x7ff) / 0x800 * 0x800
  let bs := (List.range n).map fun x => w.nand ((w.kernelBlocks[x / 0x20000]?).getD 0 + x % 0x20000)
  if o.err.isNone ∧ n ≤ w.kernelBlocks.length * 0x20000 then (0, { w with ram := w.ram.blit addr bs })
  else (1, { w with ram := w.ram.blit addr (o.junk.take n) })

/-- Elapsed milliseconds, as an unsigned 64-bit difference. -/
def getTimer (w : World) (o : Outcome) (base : ℕ) : ℕ × World :=
  let now := w.clock + o.tick
  ((now + (2 ^ 64 - base % 2 ^ 64)) % 2 ^ 64, { w with clock := now })

/-- `mtd_read` of the master NAND; correctable errors still deliver the data. -/
def nandRead (w : World) (o : Outcome) (off len : ℕ) : ℤ × List UInt8 :=
  match o.err with
  | none => (0, w.nand.slice off len)
  | some e => if e.code = -euclean then (e.code, w.nand.slice off len)
      else (e.code, o.junk.take len)

end World

/-- The board: what each command does under an outcome. -/
def exec : Device Cmd Cmd.Resp Outcome World
  | .ubiDetach, o, w => if o.err.isNone then (0, { w with attached := none }) else (1, w)
  | .ubiPart p, o, w => w.ubiPart o p
  | .ubiCheck n, o, w =>
    w.shellUbi o fun u => if (u.vols.find? n).isSome then some u else none
  | .ubiCreate n size st id, o, w => w.shellUbi o fun u => u.create w.lebSize n size st id
  | .ubiRemove n, o, w => w.shellUbi o fun u => u.remove n
  | .ubiRename a b, o, w => w.shellUbi o fun u => u.rename a b
  | .ubiWrite addr n size, o, w => w.ubiWrite o n (w.ram.slice addr size)
  | .ubiRead addr n size, o, w => w.ubiRead o addr n size
  | .ubiReadWhole addr n, o, w => w.ubiReadWhole o addr n
  | .mtdErase p off len, o, w =>
    if o.err.isNone then (0, w.mtdErased o (p.offset + off) len)
    else (1, w.rawTorn o (p.offset + off) len)
  | .mtdWrite p bs off, o, w =>
    if o.err.isNone then (0, w.rawWrite o (p.offset + off) bs)
    else (1, w.rawTorn o (p.offset + off) bs.length)
  | .mtdRead p addr off len, o, w =>
    if o.err.isNone then (0, { w with ram := w.ram.blit addr (w.nand.slice (p.offset + off) len) })
    else (1, { w with ram := w.ram.blit addr (o.junk.take len) })
  | .factoryUbiErase, o, w =>
    let w' := w.mtdStore o inFactoryUbi fun _ => 0xff
    (if o.err.isNone then 0 else 1,
      if o.err.isNone ∧ o.damage.isNone then w'.setUbi .factory (w.ubi .factory).erased else w')
  | .factoryKernelErase, o, w =>
    (if o.err.isNone then 0 else 1, w.mtdStore o World.inFactoryKernel fun _ => 0xff)
  | .factoryKernelWrite addr len, o, w => w.factoryKernelWrite o addr len
  | .factoryKernelRead addr len, o, w => w.factoryKernelRead o addr len
  | .reset, o, w => (if o.err.isNone then none else some 1, w)
  | .bootm _, o, w => (if o.err.isNone then none else some 1, w)
  | .ubiRegisterMtd, o, w => w.ubiRegisterMtd o
  | .updateRegisterUbiPart, o, w => w.updateRegisterUbiPart o
  | .ubiGetDevice, _, w =>
    (w.attached.map fun p => ⟨p, w.lebSize, (w.ubi p.area).availPebs⟩, w)
  | .ubiOpenVolume n, o, w => (w.ubiOpenVolume o n, w.ubiCells o)
  | .ubiRenameVolumes rs, o, w => w.ubiRenameVolumes o rs
  | .findMasterNand, o, w => (if o.err.isNone then w.geometry else none, w)
  | .nandRead off len, o, w => (w.nandRead o off len, w)
  | .nandErase off len, o, w =>
    match o.err with
    | none => (0, w.rawErase o off len)
    | some e => (e.code, w.rawTorn o off len)
  | .nandWrite off bs, o, w =>
    match o.err with
    | none => ((0, bs.length), w.rawWrite o off bs)
    | some e => ((e.code, 0), w.rawTorn o off bs.length)
  | .blockIsBad off, o, w =>
    match o.err with
    | none => (if w.badBlock off then 1 else 0, w)
    | some e => (e.code, w)
  | .factoryRegisterMtd, o, w => w.factoryRegisterMtd o
  | .malloc _, o, w => (o.err.isNone, w)
  | .getTimer base, o, w => w.getTimer o base
  | .readMem addr len, _, w => (w.ram.slice addr len, w)
  | .writeMem addr bs, _, w => ((), { w with ram := w.ram.blit addr bs })
  | .envGetRootfsDataMax, _, w => (w.rootfsDataMax, w)
  | .envSetRootfsDataMax n, o, w =>
    if o.err.isNone then (0, { w with rootfsDataMax := n }) else (1, w)
  | .envSave, o, w => w.envSave o
  | .printf _, _, w => ((), w)
  | .logf _, _, w => ((), w)

/-- Whatever the commands answer, the program returns a value in `Q`. -/
abbrev Gives {α : Type} (Q : α → Prop) (p : FlashProg α) : Prop := Prog.Yields exec (fun _ => True) Q p

/-- Whatever the commands answer, the program started in `w` ends in `Q`. -/
abbrev Ensures {α : Type} (Q : α → World → Prop) (p : FlashProg α) (w : World) : Prop :=
  Prog.Spec exec (fun _ => True) (fun _ => True) Q p w

end UrsusBoot
