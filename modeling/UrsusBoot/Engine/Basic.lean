import UrsusBoot.Flash.Command
import UrsusBoot.Format.Fit

/-!
# What the engines share

The commands as programs, the helpers both engine files define (`ursus_read_exact`,
`ursus_read_range`, `ursus_bad_in_range`, `ursus_mem_equal`), and `Platform`: the library code and
the build constants the engines depend on.
-/

namespace UrsusBoot

structure Platform where
  sha256 : List UInt8 → List UInt8
  /-- `lzmaBuffToBuffDecompress` into a buffer of the given size; `none` unless it says `SZ_OK`. -/
  lzmaBuffToBuffDecompress : List UInt8 → ℕ → Option (List UInt8)
  preloaderSha256 : List UInt8
  bl2ImageSha256 : List UInt8
  /-- SHA-256 of the one Vanilla FIP that may be installed; all zero when none is pinned. -/
  vanillaFipSha256 : List UInt8
  boardCompatible : String
  boardOtherCompatible : String
  /-- The FIT library. -/
  fit : FitLib

/-! ## Commands as programs -/

abbrev issue (c : Cmd) : FlashProg c.Resp := Prog.perform c

abbrev ubiDetach : FlashProg ℤ := issue .ubiDetach
abbrev ubiPart (p : UbiPart) : FlashProg ℤ := issue (.ubiPart p)
abbrev ubiCheck (n : String) : FlashProg ℤ := issue (.ubiCheck n)
abbrev ubiCreate (n : String) (size : ℕ) (static : Bool) (id : Option (Fin vtblSlots)) :
    FlashProg ℤ := issue (.ubiCreate n size static id)
abbrev ubiRemove (n : String) : FlashProg ℤ := issue (.ubiRemove n)
abbrev ubiRename (a b : String) : FlashProg ℤ := issue (.ubiRename a b)
abbrev ubiWrite (addr : ℕ) (n : String) (size : ℕ) : FlashProg ℤ :=
  issue (.ubiWrite addr n size)
abbrev ubiRead (addr : ℕ) (n : String) (size : ℕ) : FlashProg ℤ :=
  issue (.ubiRead addr n size)
abbrev mtdErase (p : MtdPart) (off len : ℕ) : FlashProg ℤ := issue (.mtdErase p off len)
abbrev mtdWrite (p : MtdPart) (bs : List UInt8) (off : ℕ) : FlashProg ℤ :=
  issue (.mtdWrite p bs off)
abbrev mtdRead (p : MtdPart) (addr off len : ℕ) : FlashProg ℤ :=
  issue (.mtdRead p addr off len)
abbrev ubiRegisterMtd : FlashProg ℤ := issue .ubiRegisterMtd
abbrev updateRegisterUbiPart : FlashProg (Except ℤ UbiPart) := issue .updateRegisterUbiPart
abbrev ubiGetDevice : FlashProg (Option UbiDevice) := issue .ubiGetDevice
abbrev ubiOpenVolume (n : String) : FlashProg (Except ℤ VolumeDesc) :=
  issue (.ubiOpenVolume n)
abbrev ubiRenameVolumes (rs : List (Fin vtblSlots × String)) : FlashProg ℤ :=
  issue (.ubiRenameVolumes rs)
abbrev findMasterNand : FlashProg (Option NandGeometry) := issue .findMasterNand
abbrev nandRead (off len : ℕ) : FlashProg (ℤ × List UInt8) := issue (.nandRead off len)
abbrev nandErase (off len : ℕ) : FlashProg ℤ := issue (.nandErase off len)
abbrev nandWrite (off : ℕ) (bs : List UInt8) : FlashProg (ℤ × ℕ) :=
  issue (.nandWrite off bs)
abbrev blockIsBad (off : ℕ) : FlashProg ℤ := issue (.blockIsBad off)
abbrev malloc (size : ℕ) : FlashProg Bool := issue (.malloc size)
abbrev getTimer (base : ℕ) : FlashProg ℕ := issue (.getTimer base)
abbrev readMem (addr len : ℕ) : FlashProg (List UInt8) := issue (.readMem addr len)
abbrev writeMem (addr : ℕ) (bs : List UInt8) : FlashProg Unit := issue (.writeMem addr bs)
abbrev envGetRootfsDataMax : FlashProg ℕ := issue .envGetRootfsDataMax
abbrev envSetRootfsDataMax (n : ℕ) : FlashProg ℤ := issue (.envSetRootfsDataMax n)
abbrev envSave : FlashProg ℤ := issue .envSave
abbrev printf (line : String) : FlashProg Unit := issue (.printf line)
abbrev logf (line : LogLine) : FlashProg Unit := issue (.logf line)
abbrev bootm (addr : ℕ) : FlashProg (Option ℤ) := issue (.bootm addr)

/-! ## Raw NAND -/

/-- `ursus_read_exact`: the status, and the bytes the buffer received. -/
def readExact (off len : ℕ) : FlashProg (ℤ × List UInt8) := do
  let (ret, bs) ← nandRead off len
  let ret := if ret = -euclean then 0 else ret
  return (if ret = 0 ∧ bs.length = len then 0 else -eio, bs)

abbrev readChunk : ℕ := 0x100000

/-- The loop of `ursus_read_range`; `acc` is what the destination has received. Whole pages are
read in place, at most a chunk at a time, the rest goes through a scratch page. No NAND has a page
outside the range in which the loop advances. -/
def readRangeLoop (page off len : ℕ) (acc : List UInt8) : FlashProg (ℤ × List UInt8) :=
  if _hlen : len = 0 then return (0, acc)
  else if _hpage : page = 0 ∨ readChunk < page then return (-eio, acc)
  else if _hin : off % page = 0 ∧ page ≤ len then do
    let direct := len - len % page
    let direct := if readChunk < direct then readChunk - readChunk % page else direct
    let (ret, bs) ← readExact off direct
    if ret ≠ 0 then return (ret, acc ++ bs)
    readRangeLoop page (off + direct) (len - direct) (acc ++ bs)
  else do
    let inPage := off % page
    let (ret, bs) ← readExact (off - inPage) page
    if ret ≠ 0 then return (ret, acc)
    let take := min len (page - inPage)
    readRangeLoop page (off + take) (len - take) (acc ++ bytesAt bs inPage take)
termination_by len
decreasing_by
  · have h1 : len % page < page := Nat.mod_lt _ (by omega)
    have h2 : readChunk % page < page := Nat.mod_lt _ (by omega)
    split_ifs <;> omega
  · have h1 : off % page < page := Nat.mod_lt _ (by omega)
    omega

def readRange (writesize off len : ℕ) : FlashProg (ℤ × List UInt8) := do
  let page := if writesize ≠ 0 then writesize else 2048
  if !(← malloc page) then return (-enomem, [])
  readRangeLoop page off len []

/-- The loop of `ursus_bad_in_range` over the erase blocks still to look at. -/
def badScan : List ℕ → FlashProg ℤ
  | [] => return 0
  | off :: offs => do
    let ret ← blockIsBad off
    if ret < 0 then return ret
    if 0 < ret then return 1
    badScan offs

def badInRange (erasesize start len : ℕ) : FlashProg ℤ :=
  badScan ((List.range ((start % erasesize + len + erasesize - 1) / erasesize)).map fun k =>
    start - start % erasesize + k * erasesize)

/-! ## Memory -/

def memEqual (a b len : ℕ) : FlashProg ℤ := do
  let x ← readMem a len
  let y ← readMem b len
  return if x = y then 0 else -ebadmsg

/-- `fdt_check_header` of the blob at an address. -/
def fdtCheckHeaderAt (addr : ℕ) : FlashProg ℤ := do
  let buf ← readMem addr 40
  return fdtCheckHeader buf

/-- `!run_command("ubi check name") && run_command("ubi remove name")`: the status of the removal,
0 when there was nothing to remove. -/
def removeIfPresent (n : String) : FlashProg ℤ := do
  if (← ubiCheck n) = 0 then ubiRemove n else return 0

end UrsusBoot
