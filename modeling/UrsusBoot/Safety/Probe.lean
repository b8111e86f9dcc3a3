import UrsusBoot.Safety.StockKernel
import UrsusBoot.Web.State

/-!
# The layout of the board

`ursus_probe_device` looks at the flash for the status page, and `ursus_normal_boot` looks at it
again to choose what to boot. What the page shows is what is chosen.
-/

namespace UrsusBoot

/-! ## The probe -/

/-- What `ursus_probe_device` finds, without the chip's names and numbers, which are only shown. -/
structure DeviceProbe where
  layout : Layout := .unknown
  diag : UbiDiag := {}
  bootFip : Bool := false
  stockFip : Bool := false
  stockFit : Bool := false
  ubiFip : Bool := false
  ubiFit : Bool := false

/-- `mtd_read` of a whole range; a correctable error counts as a success. -/
def probeRead (off len : ℕ) : FlashProg (Option (List UInt8)) := do
  let (ret, bs) ← nandRead off len
  return if (ret = 0 ∨ ret = -euclean) ∧ bs.length = len then some bs else none

/-- `ursus_probe_fip_at`. Where no BL33 is required, the walk starts as if it had met one. -/
def probeFipAt (base : ℕ) (requireNt : Bool) : FlashProg Bool := do
  match ← probeRead base fipTocRead with
  | none => return false
  | some toc => return fipHeaderOk toc && fipValidScan toc fipMaxEntries 0 (!requireNt)

/-- `ursus_probe_stock_fip_fit`: whether there is a FIP in the first slot, and a FIT behind its BL33
header. -/
def probeStockFipFit : FlashProg (Bool × Bool) := do
  match ← probeRead StockBoot.masterBase fipTocRead with
  | none => return (false, false)
  | some toc =>
    if !fipHeaderOk toc then return (false, false)
    let (ntOff, ntSize) := (slotWalk toc).getD (0, 0)
    if ntOff = 0 ∨ ntSize ≤ StockBoot.hdr2Size ∨
        StockBoot.slotSize < (ntOff + ntSize) % 2 ^ 64 then return (true, false)
    match ← probeRead ((StockBoot.masterBase + ntOff) % 2 ^ 64) 2048 with
    | none => return (true, false)
    | some hdrpage =>
      return (true, bytesAt hdrpage 0 4 = asciiBytes "HDR2" ∧
        fdtCheckHeader (bytesAt hdrpage StockBoot.hdr2Size 64) = 0)

/-- `ursus_probe_device` on a board without UBI. -/
def probeStock : FlashProg DeviceProbe := do
  let bootFip ← probeFipAt 0x800 true
  let head ← probeRead StockBoot.masterBase 2048
  if head.map (·.take 4) = some fdtMagicBytes then return { bootFip, layout := .openwrtStockLayout }
  let (stockFip, stockFit) ← probeStockFipFit
  return { bootFip, stockFip, stockFit, layout := if stockFip then .stock else .unknown }

/-- `ursus_probe_device`. -/
def probeDevice : FlashProg DeviceProbe := do
  match ← findMasterNand with
  | none => return {}
  | some _ =>
    if (← probeRead ubiBase 4) ≠ some (asciiBytes "UBI#") then probeStock
    else
      let (ret, diag) ← probeDiag
      if ret ≠ 0 then return { layout := .openwrtUbi, diag }
      let ubiFip := diag.fip.present && diag.fip.valid
      return { layout := .openwrtUbi, diag, ubiFip, bootFip := ubiFip
               ubiFit := diag.fit.present && diag.fit.valid ||
                 diag.fitOld.present && diag.fitOld.valid }

/-! ## What it says about the boot -/

open Prog

/-- The NAND is found, and its reads deliver data. -/
structure Legible (e : FlashEvent) : Prop where
  found : e.cmd = .findMasterNand → e.out.err = none
  read : ∀ off len, e.cmd = .nandRead off len → ∀ er, e.out.err = some er → er.code = -euclean

/-- The layout as the flash has it. -/
def World.layout (w : World) : Layout :=
  if w.geometry = none then .unknown
  else if w.nand.slice ubiBase 4 = asciiBytes "UBI#" then .openwrtUbi
  else if w.nand.slice factoryKernelOff 4 = fdtMagicBytes then .openwrtStockLayout
  else if fipHeaderOk (w.nand.slice factoryKernelOff fipTocRead) then .stock
  else .unknown

theorem Legible.nandRead {o : Outcome} {w : World} {off len : ℕ}
    (h : Legible ⟨.nandRead off len, o, w⟩) :
    ((exec (.nandRead off len) o w).1.1 = 0 ∨ (exec (.nandRead off len) o w).1.1 = -euclean) ∧
      (exec (.nandRead off len) o w).1.2 = w.nand.slice off len := by
  have hread := h.read off len rfl
  simp only [exec, World.nandRead] at hread ⊢
  cases he : o.err with
  | none => exact ⟨.inl rfl, rfl⟩
  | some er => simp [hread er he]

section Probe

variable {w : World} {α : Type} {Q : α → World → Prop}

theorem spec_probeRead (off len : ℕ) {f : Option (List UInt8) → FlashProg α}
    (h : Spec exec Legible (fun _ => True) Q (f (some (w.nand.slice off len))) w) :
    Spec exec Legible (fun _ => True) Q ((probeRead off len).bind f) w := by
  refine spec_next (Cmd.nandRead off len) fun o ho => ⟨trivial, ?_⟩
  obtain ⟨hret, hbs⟩ := ho.nandRead
  have hlen : (exec (.nandRead off len) o w).1.2.length = len := by
    rw [hbs, Mem.length_slice]
  show Spec exec Legible _ Q (f (if _ then some _ else none)) w
  rw [if_pos ⟨hret, hlen⟩, hbs]
  exact h

theorem probeStockFipFit_fip (w : World) :
    Spec exec Legible (fun _ => True)
      (fun r _ => r.1 = fipHeaderOk (w.nand.slice factoryKernelOff fipTocRead))
      probeStockFipFit w := by
  refine spec_probeRead factoryKernelOff fipTocRead ?_
  generalize w.nand.slice factoryKernelOff fipTocRead = toc
  dsimp only
  refine spec_ite (fun h => ?_) fun h => ?_
  · simpa using h
  · have hok : true = fipHeaderOk toc := by simpa using h
    exact spec_ite (fun _ => hok) fun _ => spec_probeRead _ _ hok

/-- **What the probe reports** is the layout of the flash, whatever the other commands answer. -/
theorem probeDevice_layout (w : World) :
    Spec exec Legible (fun _ => True) (fun p _ => p.layout = w.layout) probeDevice w := by
  refine spec_next Cmd.findMasterNand fun o ho => ⟨trivial, ?_⟩
  have herr : o.err = none := ho.found rfl
  have hfound : exec .findMasterNand o w = (w.geometry, w) := by simp [exec, herr]
  rw [hfound]
  cases hgeo : w.geometry with
  | none => simp [World.layout, hgeo]
  | some nand =>
    refine spec_probeRead ubiBase 4 (spec_ite (fun hno => ?_) fun hubi => ?_)
    · have hubi : w.nand.slice ubiBase 4 ≠ asciiBytes "UBI#" := fun h => hno (by rw [h])
      have hfip :
          Spec exec Legible (fun _ => True) (fun _ w' => w' = w) (probeFipAt 0x800 true) w :=
        spec_probeRead _ _ rfl
      refine hfip.bind fun _ _ hw => ?_
      rw [hw]
      refine spec_probeRead factoryKernelOff 2048 ?_
      have hhead : (w.nand.slice factoryKernelOff 2048).take 4 = w.nand.slice factoryKernelOff 4 :=
        Mem.take_slice _ _ (by decide)
      generalize w.nand.slice factoryKernelOff 2048 = head at hhead ⊢
      refine spec_ite (fun hfdt => ?_) fun hfdt => ?_
      · have hfdt' : w.nand.slice factoryKernelOff 4 = fdtMagicBytes := by simpa [hhead] using hfdt
        simp [World.layout, hgeo, hubi, hfdt']
      · have hfdt' : w.nand.slice factoryKernelOff 4 ≠ fdtMagicBytes := by simpa [hhead] using hfdt
        refine (probeStockFipFit_fip w).bind fun r _ hr => ?_
        simp [World.layout, hgeo, hubi, hfdt', hr]
    · have hubi' : w.nand.slice ubiBase 4 = asciiBytes "UBI#" := by simpa using hubi
      have hlayout : w.layout = .openwrtUbi := by simp [World.layout, hgeo, hubi']
      refine (yields_true probeDiag w).bind fun _ _ _ => spec_ite (fun _ => ?_) fun _ => ?_
      · exact hlayout.symm
      · exact hlayout.symm

end Probe

/-- What `ursus_normal_boot` does on a layout. -/
def Layout.boot (c : DispatchCtx) : Layout → BootProg (DispatchEnd × DispatchCtx)
  | .openwrtUbi => do
    let r ← flashProg ubiBoot
    if r.ret.isNone then return (.started, c)
    enterWebfailsafe c r.reason.name
  | .openwrtStockLayout => bootFactoryKernel c
  | .stock | .unknown => bootStock c

/-- When its commands meet `A`, the program asks some questions, which leave the board as it is, and
is the program `q` from then on. -/
def GoesOn {α : Type} (A : BootEvent → Prop) (w : World) (p q : BootProg α) : Prop :=
  ∀ outs, (∀ e ∈ (run execBoot p outs w).trace, A e) →
    ∃ asked, (∀ e ∈ asked, e.after execBoot = w) ∧ run execBoot p outs w =
      let r := run execBoot q (fun n => outs (n + asked.length)) w
      { r with trace := asked ++ r.trace }

section Boot

variable {α : Type} {A : BootEvent → Prop} {w : World} {q : BootProg α}

theorem GoesOn.refl : GoesOn A w q q := fun _ _ => ⟨[], by simp, rfl⟩

theorem goesOn_next (c : BootCmd) {f : c.Resp → BootProg α}
    (h : ∀ o, A ⟨c, o, w⟩ → (execBoot c o w).2 = w ∧ GoesOn A w (f (execBoot c o w).1) q) :
    GoesOn A w ((perform c).bind f) q := by
  intro outs htr
  rw [run_perform_bind rfl] at htr ⊢
  obtain ⟨hsame, hgo⟩ := h (outs 0) (htr _ List.mem_cons_self)
  rw [hsame] at htr ⊢
  obtain ⟨asked, hasked, hrun⟩ := hgo _ fun e he => htr e (List.mem_cons_of_mem _ he)
  refine ⟨⟨c, outs 0, w⟩ :: asked, List.forall_mem_cons.2 ⟨hsame, hasked⟩, ?_⟩
  rw [hrun]
  rfl

theorem goesOn_startsWith {f : Bool → BootProg α} {nand : Option NandGeometry} {off : ℕ}
    {magic : List UInt8} (hA : ∀ e, A e → Answers e)
    (h : GoesOn A w (f (nand.isSome && w.nand.slice off magic.length == magic)) q) :
    GoesOn A w ((startsWith nand off magic).bind f) q := by
  cases nand with
  | none => exact h
  | some g =>
    refine goesOn_next (.flash (.nandRead off magic.length)) fun o ho => ⟨rfl, ?_⟩
    have hlegible : Legible ⟨.nandRead off magic.length, o.flash, w⟩ :=
      ⟨by rintro ⟨⟩, by rintro _ _ ⟨⟩; exact (hA _ ho).read _ _ rfl⟩
    obtain ⟨hret, hbs⟩ := hlegible.nandRead
    show GoesOn A w (f ((decide ((exec (.nandRead off magic.length) o.flash w).1.1 = 0) ||
      decide ((exec (.nandRead off magic.length) o.flash w).1.1 = -euclean)) &&
        (exec (.nandRead off magic.length) o.flash w).1.2 == magic)) q
    rw [hbs]
    rcases hret with hret | hret <;> rw [hret] <;> exact h

theorem normalBoot_goesOn (hA : ∀ e, A e → Answers e) (c : DispatchCtx) (w : World) :
    GoesOn A w (normalBoot c) (w.layout.boot { c with bootReason := "NORMAL_BOOT" }) := by
  refine goesOn_next (.flash .findMasterNand) fun o ho => ?_
  have hfound : execBoot (.flash .findMasterNand) o w = (w.geometry, w) := by
    have herr : o.flash.err = none := (hA _ ho).found rfl
    simp [execBoot, exec, herr]
  rw [hfound]
  refine ⟨rfl, goesOn_startsWith hA ?_⟩
  by_cases hubi : (w.geometry.isSome && w.nand.slice ubiBase 4 == asciiBytes "UBI#") = true
  · have hlayout : w.layout = .openwrtUbi := by
      cases hgeo : w.geometry <;> simp_all [World.layout]
    rw [hlayout]
    exact (if_pos hubi).symm ▸ GoesOn.refl
  refine (if_neg hubi).symm ▸ goesOn_startsWith hA ?_
  by_cases hfdt : (w.geometry.isSome && w.nand.slice factoryKernelOff 4 == fdtMagicBytes) = true
  · have hlayout : w.layout = .openwrtStockLayout := by
      cases hgeo : w.geometry <;> simp_all [World.layout]
    rw [hlayout]
    exact (if_pos hfdt).symm ▸ GoesOn.refl
  · have hlayout : w.layout = .stock ∨ w.layout = .unknown := by
      cases hgeo : w.geometry <;> simp_all [World.layout]
    rcases hlayout with hlayout | hlayout <;> rw [hlayout] <;>
      exact (if_neg hfdt).symm ▸ GoesOn.refl

end Boot

/-- **The page shows the layout that boots.** When the reads of the flash deliver data, the normal
boot of a board with the same flash goes on as the boot of the layout that `ursus_probe_device` has
reported. -/
theorem layout_predicts_boot {w₀ w : World} {outs : ℕ → Outcome} (c : DispatchCtx)
    (hflash : w.nand = w₀.nand) (hgeo : w.geometry = w₀.geometry)
    (hprobe : ∀ e ∈ (run exec probeDevice outs w₀).trace, Legible e) :
    GoesOn Answers w (normalBoot c) ((run exec probeDevice outs w₀).val.layout.boot
      { c with bootReason := "NORMAL_BOOT" }) := by
  have hlayout : (run exec probeDevice outs w₀).val.layout = w.layout := by
    rw [((probeDevice_layout w₀).run_of outs hprobe).2]
    simp only [World.layout, hflash, hgeo]
  rw [hlayout]
  exact normalBoot_goesOn (fun _ h => h) c w

theorem layout_predicts_boot_stock :
    GoesOn Answers (stockWorld false) (normalBoot {})
      ((run exec probeDevice (fun _ => .ok) (stockWorld false)).val.layout.boot
        { ({} : DispatchCtx) with bootReason := "NORMAL_BOOT" }) := by
  refine layout_predicts_boot {} rfl rfl fun e he => ?_
  obtain ⟨_, hout⟩ := exists_out_eq he
  constructor <;> simp [hout, Outcome.ok]

end UrsusBoot
