import UrsusBoot.Engine.Boot

/-!
# The boot dispatcher

`ursusdispatch`, the boot command: with the reset button held it enters the web failsafe, otherwise
it looks at two places of the NAND and boots from UBI, from the kernel partition of the stock
layout, or the way the stock bootloader does. Whatever returns ends in the web failsafe.
-/

namespace UrsusBoot

abbrev factoryLoadAddr : ℕ := 0x90000000
abbrev resetBootDebounceMs : ℕ := 750
abbrev resetPollUs : ℕ := 20000

/-! ## The board, as the dispatcher sees it -/

/-- `enum button_state_t`, or the negative code of a failing read. -/
inductive ButtonState
  | off
  | on
  | error (e : Errno)

inductive BootCmd
  | flash (c : Cmd)
  | buttonGetByLabel
  | buttonGetState
  | udelay (us : ℕ)
  | mtdReadMaster (addr off len : ℕ)
  | ursusstockboot
  | ursusweb

/-- The type of a command's answer; none for a system that has taken over. -/
@[reducible] def BootCmd.Resp : BootCmd → Type
  | .flash c => c.Resp
  | .buttonGetState => ButtonState
  | .udelay _ => Unit
  | .ursusstockboot => Option ℤ
  | _ => ℤ

abbrev BootProg := Prog BootCmd BootCmd.Resp

/-- What the environment decides about one command. -/
structure BootOutcome where
  flash : Outcome := .ok
  button : ButtonState := .off
  /-- What `button_get_by_label` and a command that returns answer. -/
  ret : ℤ := 0
  /-- `ursusstockboot` starts the system it finds. -/
  boots : Bool := true
  /-- What RAM holds after a command of its own. -/
  ram : Mem UInt8 := fun _ => 0

namespace World

/-- The good blocks of the master NAND from an offset on, in order. -/
def masterBlocks (w : World) (off : ℕ) : List ℕ :=
  ((List.range (((w.geometry.map (·.size)).getD 0 - off) / 0x20000)).map fun k =>
    off + k * 0x20000).filter fun b => !w.badBlock b

/-- `mtd read` of the master NAND from the start of a block; the size is rounded up to pages. -/
def mtdReadMaster (w : World) (o : Outcome) (addr off len : ℕ) : ℤ × World :=
  let n := (len + 0x7ff) / 0x800 * 0x800
  let blocks := w.masterBlocks off
  let bs := (List.range n).map fun x => w.nand ((blocks[x / 0x20000]?).getD 0 + x % 0x20000)
  if o.err.isNone ∧ n ≤ blocks.length * 0x20000 then (0, { w with ram := w.ram.blit addr bs })
  else (1, { w with ram := w.ram.blit addr (o.junk.take n) })

end World

/-- The board: what each command does under an outcome. -/
def execBoot : Device BootCmd BootCmd.Resp BootOutcome World
  | .flash c, o, w => exec c o.flash w
  | .buttonGetByLabel, o, w => (o.ret, w)
  | .buttonGetState, o, w => (o.button, w)
  | .udelay us, _, w => ((), { w with clock := w.clock + us / 1000 })
  | .mtdReadMaster addr off len, o, w => w.mtdReadMaster o.flash addr off len
  | .ursusstockboot, o, w => (if o.boots then none else some o.ret, { w with ram := o.ram })
  | .ursusweb, o, w => (o.ret, { w with ram := o.ram })

abbrev BootEvent := Prog.Event BootCmd BootOutcome World

def flashCmd (c : Cmd) : BootProg c.Resp := Prog.perform (BootCmd.flash c)

def flashProg {α : Type} (p : FlashProg α) : BootProg α := p.embed BootCmd.flash fun _ r => r

/-! ## Dispatching -/

structure DispatchCtx where
  recoveryLatched : Bool := false
  bootReason : String := "POWER_ON"
  recoveryReason : String := "NONE"

/-- How `ursusdispatch` ends. -/
inductive DispatchEnd
  /-- A system has taken over. -/
  | started
  | returned (ret : ℤ)
  /-- The button has been looked at as often as the model allows. -/
  | polling
deriving DecidableEq

/-- The first bytes at an offset of the master NAND are `magic`. -/
def startsWith (nand : Option NandGeometry) (off : ℕ) (magic : List UInt8) : BootProg Bool := do
  if nand.isNone then return false
  let (ret, hdr) ← flashCmd (.nandRead off magic.length)
  return (decide (ret = 0) || decide (ret = -euclean)) && hdr == magic

def ubiPresent (nand : Option NandGeometry) : BootProg Bool :=
  startsWith nand ubiBase (asciiBytes "UBI#")

/-- The magic number of a device tree, as it stands in flash. -/
def fdtMagicBytes : List UInt8 := [0xd0, 0x0d, 0xfe, 0xed]

def factoryKernelPresent (nand : Option NandGeometry) : BootProg Bool :=
  startsWith nand factoryKernelOff fdtMagicBytes

/-- `ursus_enter_webfailsafe`. Every reason fits its buffer. -/
def enterWebfailsafe (c : DispatchCtx) (reason : String) : BootProg (DispatchEnd × DispatchCtx) := do
  let ret ← Prog.perform BootCmd.ursusweb
  return (.returned (if ret = 0 then 0 else 1),
    { c with recoveryLatched := true, recoveryReason := reason })

/-- `ursus_normal_boot` with a kernel in the partition of the stock layout. -/
def bootFactoryKernel (c : DispatchCtx) : BootProg (DispatchEnd × DispatchCtx) := do
  let ret ← Prog.perform (BootCmd.mtdReadMaster factoryLoadAddr factoryKernelOff factoryKernelSize)
  if ret ≠ 0 then enterWebfailsafe c "FACTORY_BOOT_RETURN"
  else
    let ret ← flashCmd (.bootm factoryLoadAddr)
    if ret.isNone then return (.started, c)
    enterWebfailsafe c "FACTORY_BOOT_RETURN"

/-- `ursus_normal_boot` with neither. -/
def bootStock (c : DispatchCtx) : BootProg (DispatchEnd × DispatchCtx) := do
  let ret ← Prog.perform BootCmd.ursusstockboot
  if ret.isNone then return (.started, c)
  enterWebfailsafe c "STOCKBOOT_RETURN"

def normalBoot (c : DispatchCtx) : BootProg (DispatchEnd × DispatchCtx) := do
  let nand ← flashCmd .findMasterNand
  let c := { c with bootReason := "NORMAL_BOOT" }
  if ← ubiPresent nand then
    let r ← flashProg ubiBoot
    if r.ret.isNone then return (.started, c)
    enterWebfailsafe c r.reason.name
  else if ← factoryKernelPresent nand then bootFactoryKernel c
  else bootStock c

/-- The loop of `do_ursusdispatch` while the button is held, `start` being when it began. -/
def debounce (c : DispatchCtx) (start : ℕ) : ℕ → BootProg (DispatchEnd × DispatchCtx)
  | 0 => return (.polling, c)
  | polls + 1 => do
    let state ← Prog.perform BootCmd.buttonGetState
    let elapsed ← flashCmd (.getTimer start)
    match state with
    | .error _ => normalBoot c
    | .off => normalBoot c
    | .on =>
      if resetBootDebounceMs ≤ elapsed then
        enterWebfailsafe { c with bootReason := "RESET_BUTTON" } "RESET_HELD_AT_BOOT"
      else
        let _ ← Prog.perform (BootCmd.udelay resetPollUs)
        debounce c start polls

/-- `do_ursusdispatch`, looking at a held button at most `polls` times. -/
def dispatch (polls : ℕ) (c : DispatchCtx) : BootProg (DispatchEnd × DispatchCtx) := do
  if c.recoveryLatched then enterWebfailsafe c "STICKY_REENTRY"
  else
    let ret ← Prog.perform BootCmd.buttonGetByLabel
    if ret ≠ 0 then normalBoot c
    else
      match (← Prog.perform BootCmd.buttonGetState : ButtonState) with
      | .error _ => normalBoot c
      | .off => normalBoot c
      | .on =>
        let start ← flashCmd (.getTimer 0)
        debounce c start polls

end UrsusBoot
