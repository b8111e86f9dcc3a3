import UrsusBoot.Boot.Dispatch
import UrsusBoot.Engine.StockBoot
import UrsusBoot.Safety.FactoryImage
import UrsusBoot.Safety.FactoryProgress

/-!
# The kernel of the stock layout

The installation writes the kernel to the good blocks of its partition. The dispatcher reads the
good blocks of the whole NAND from where the partition starts, so it finds the same bytes. But it
only does so when the first bytes of the partition, in a good block or not, look like a device tree.
-/

namespace UrsusBoot

open Prog

/-! ## What is installed -/

section Install

variable {img : ImageState} {w : World}

structure KernelInstalled (img : ImageState) (w : World) : Prop where
  sizes : img.SizesFit
  fit : img.fitValid = true
  room : img.kernelSize ≤ w.kernelBlocks.length * 0x20000
  contents : kernelContents w img.kernelSize =
    w.ram.slice (stageAddr + img.kernelOff) img.kernelSize

theorem factoryKernelRead_room {o : Outcome} {addr len : ℕ}
    (h : (exec (.factoryKernelRead addr len) o w).1 = 0) :
    len ≤ w.kernelBlocks.length * 0x20000 := by
  simp only [exec, World.factoryKernelRead] at h
  split_ifs at h with hok
  · have := hok.2
    omega
  · exact absurd h one_ne_zero

theorem factoryInstallKernel_contents (hsizes : img.SizesFit) (hfit : img.fitValid = true) :
    Ensures (fun ret w' => ret = 0 → KernelInstalled img w')
      (factoryInstallKernel img) w := by
  have hne : ∀ {ret : ℤ} {P : Prop}, ret ≠ 0 → ret = 0 → P := fun h h' => absurd h' h
  refine spec_next Cmd.factoryKernelErase fun o₁ _ => ⟨trivial, ?_⟩
  refine spec_ite (fun hret => hne hret) fun _ => ?_
  refine spec_next (Cmd.factoryKernelWrite _ _) fun o₂ _ => ⟨trivial, ?_⟩
  refine spec_ite (fun hret => hne hret) fun _ => ?_
  generalize (exec (.factoryKernelWrite _ _) o₂ _).2 = w₂
  refine spec_next (Cmd.factoryKernelRead readbackAddr img.kernelSize)
    fun o₃ _ => ⟨trivial, ?_⟩
  refine spec_ite (fun hret => hne hret) fun hread => ?_
  have hread := not_not.1 hread
  have hcontents := factoryKernelRead_contents hread
  have hroom := factoryKernelRead_room hread
  have hworld : ∃ m, (exec (.factoryKernelRead readbackAddr img.kernelSize) o₃ w₂).2 =
      { w₂ with ram := m } := by
    simp only [exec, World.factoryKernelRead]
    split_ifs <;> exact ⟨_, rfl⟩
  obtain ⟨m, hm⟩ := hworld
  rw [hm] at hcontents ⊢
  refine fun o₄ _ => ⟨trivial, fun o₅ _ => ⟨trivial, fun hsame => ?_⟩⟩
  refine ⟨hsizes, hfit, hroom, ?_⟩
  by_contra hdiff
  refine absurd hsame ?_
  refine (if_neg fun heq => hdiff ?_) ▸ by decide
  exact hcontents.trans heq.symm

/-- **What a successful installation leaves in flash.** -/
theorem factoryInstall_contents (layout : Layout) (w : World) :
    Ensures (fun ret w' => ret = 0 → KernelInstalled img w')
      (factoryInstall img layout) w := by
  have hne : ∀ {ret : ℤ} {P : Prop}, ret ≠ 0 → ret = 0 → P := fun h h' => absurd h' h
  refine spec_ite (fun _ => hne (by decide)) fun hinst => ?_
  refine spec_ite (fun _ => hne (by decide)) fun _ => ?_
  refine spec_ite (fun _ => hne (by decide)) fun hsizes => ?_
  have hfit : img.fitValid = true := (not_not.1 hinst).2.2.2.1
  refine spec_next Cmd.factoryRegisterMtd fun o _ => ⟨trivial, ?_⟩
  refine spec_ite (fun hret => hne hret) fun _ => ?_
  refine (yields_true _ _).bind fun ret w₁ _ => spec_ite (fun hret => hne hret) fun _ => ?_
  refine (yields_true _ _).bind fun ret w₂ _ => spec_ite (fun hret => hne hret) fun _ => ?_
  exact factoryInstallKernel_contents (not_not.1 hsizes) hfit

theorem kernel_of_install {layout : Layout} {outs : ℕ → Outcome} (hlen : img.len ≤ stageMax)
    (h : (run exec (factoryInstall img layout) outs w).val = 0) :
    KernelInstalled img (run exec (factoryInstall img layout) outs w).world ∧
      kernelContents (run exec (factoryInstall img layout) outs w).world img.kernelSize =
        w.ram.slice (stageAddr + img.kernelOff) img.kernelSize := by
  have hdone := ((factoryInstall_contents layout w).run_of outs fun _ _ => trivial).2 h
  have hframe := ((factoryInstall_records img layout w).run_of outs (recorded_nil _)).2.1
  refine ⟨hdone, ?_⟩
  rw [hdone.contents]
  refine Mem.slice_congr fun x hx hlt => hframe.ram x ?_
  have hend := hdone.sizes.2.2.2.1
  have hstage : stageMax = 0x04000000 := rfl
  have haddr : stageAddr = 0x90000000 := rfl
  have hback : readbackAddr = 0x94000000 := rfl
  omega

end Install

/-! ## The blocks that are read -/

section Blocks

variable {w : World}

theorem kernelBlocks_prefix
    (h : factoryKernelOff + factoryKernelSize ≤ (w.geometry.map (·.size)).getD 0) :
    w.kernelBlocks <+: w.masterBlocks factoryKernelOff := by
  refine List.IsPrefix.filter _ (List.IsPrefix.map _ ?_)
  generalize (w.geometry.map (·.size)).getD 0 = size at h
  have hle : factoryKernelSize / 0x20000 ≤ (size - factoryKernelOff) / 0x20000 :=
    Nat.div_le_div_right (by omega)
  obtain ⟨k, hk⟩ := Nat.exists_eq_add_of_le hle
  rw [hk, List.range_add]
  exact List.prefix_append _ _

theorem size_of_mtdReadMaster {o : Outcome} {addr : ℕ}
    (h : (w.mtdReadMaster o addr factoryKernelOff factoryKernelSize).1 = 0) :
    factoryKernelOff + factoryKernelSize ≤ (w.geometry.map (·.size)).getD 0 := by
  simp only [World.mtdReadMaster] at h
  split_ifs at h with hok
  · have hlen : (w.masterBlocks factoryKernelOff).length ≤
        ((w.geometry.map (·.size)).getD 0 - factoryKernelOff) / 0x20000 := by
      have hfilter := List.length_filter_le (fun b => !w.badBlock b)
        ((List.range (((w.geometry.map (·.size)).getD 0 - factoryKernelOff) / 0x20000)).map fun k =>
          factoryKernelOff + k * 0x20000)
      rwa [List.length_map, List.length_range] at hfilter
    have hroom := hok.2
    have hoff : factoryKernelOff = 0xc0000 := rfl
    have hsize : factoryKernelSize = 0x800000 := rfl
    omega
  · exact absurd h one_ne_zero

/-- **What the dispatcher loads** starts with the contents of the kernel partition. -/
theorem mtdReadMaster_kernel {o : Outcome} {addr n : ℕ}
    (h : (w.mtdReadMaster o addr factoryKernelOff factoryKernelSize).1 = 0)
    (hn : n ≤ factoryKernelSize) (hroom : n ≤ w.kernelBlocks.length * 0x20000) :
    (w.mtdReadMaster o addr factoryKernelOff factoryKernelSize).2.ram.slice addr n =
      kernelContents w n := by
  have hprefix := kernelBlocks_prefix (size_of_mtdReadMaster h)
  simp only [World.mtdReadMaster] at h ⊢
  split_ifs at h ⊢ with hok
  · have hround : (factoryKernelSize + 0x7ff) / 0x800 * 0x800 = factoryKernelSize := rfl
    rw [hround]
    generalize factoryKernelSize = size at hn
    let bs := (List.range size).map fun x =>
      w.nand (((w.masterBlocks factoryKernelOff)[x / 0x20000]?).getD 0 + x % 0x20000)
    have hlen : bs.length = size := by simp [bs]
    have hslice : (w.ram.blit addr bs).slice addr size = bs := Mem.slice_blit_of_length _ _ hlen
    show (w.ram.blit addr bs).slice addr n = kernelContents w n
    rw [← Mem.take_slice _ _ hn, hslice]
    simp only [bs, kernelContents, ← List.map_take, List.take_range, Nat.min_eq_left hn]
    refine List.map_congr_left fun x hx => ?_
    have hx := List.mem_range.1 hx
    have hblock : x / 0x20000 < w.kernelBlocks.length := by
      rw [Nat.div_lt_iff_lt_mul (by decide)]
      omega
    obtain ⟨rest, hrest⟩ := hprefix
    rw [← hrest, List.getElem?_append_left hblock]
  · exact absurd h one_ne_zero

end Blocks

/-! ## Dispatching -/

/-- The board answers: the NAND is found, its reads deliver data, and the button is not pressed. -/
structure Answers (e : BootEvent) : Prop where
  found : e.cmd = .flash .findMasterNand → e.out.flash.err = none
  read : ∀ off len, e.cmd = .flash (.nandRead off len) →
    ∀ er, e.out.flash.err = some er → er.code = -euclean
  released : e.cmd = .buttonGetState → e.out.button ≠ .on

/-- The board answers, and the kernel can be read. -/
structure Smooth (e : BootEvent) : Prop extends Answers e where
  load : ∀ addr off len, e.cmd = .mtdReadMaster addr off len →
    (e.before.mtdReadMaster e.out.flash addr off len).1 = 0

/-- The run selects the factory boot and hands `kernel` to `bootm`. -/
def FactoryBoot (kernel : List UInt8) (tr : List BootEvent) : Prop :=
  (∃ e ∈ tr, e.cmd = .mtdReadMaster factoryLoadAddr factoryKernelOff factoryKernelSize) ∧
    ∃ e ∈ tr, e.cmd = .flash (.bootm factoryLoadAddr) ∧
      e.before.ram.slice factoryLoadAddr kernel.length = kernel

section Dispatch

variable {A G : BootEvent → Prop} {w : World} {c : DispatchCtx}
  {Q : DispatchEnd × DispatchCtx → World → Prop}

theorem startsWith_value (g : NandGeometry) (off : ℕ) (magic : List UInt8) (w : World)
    (hA : ∀ e, A e → Answers e)
    (hG : ∀ e, Answers e → (∀ a o l, e.cmd ≠ .mtdReadMaster a o l) → G e) :
    Spec execBoot A G (fun b w' => b = (w.nand.slice off magic.length == magic) ∧ w' = w)
      (startsWith (some g) off magic) w := by
  refine spec_next (BootCmd.flash (.nandRead off magic.length)) fun o ho =>
    ⟨hG _ (hA _ ho) (by simp), ?_⟩
  have hdata : (w.nandRead o.flash off magic.length).2 = w.nand.slice off magic.length ∧
      ((w.nandRead o.flash off magic.length).1 = 0 ∨
        (w.nandRead o.flash off magic.length).1 = -euclean) := by
    unfold World.nandRead
    cases he : o.flash.err with
    | none => exact ⟨rfl, .inl rfl⟩
    | some er =>
      have hcode := (hA _ ho).read off magic.length rfl er he
      simp [hcode]
  refine ⟨?_, rfl⟩
  show ((decide ((w.nandRead o.flash off magic.length).1 = 0) ||
    decide ((w.nandRead o.flash off magic.length).1 = -euclean)) &&
      (w.nandRead o.flash off magic.length).2 == magic) = _
  rw [hdata.1]
  rcases hdata.2 with hz | hz <;> rw [hz] <;> rfl

/-- **The dispatcher without UBI and with the button not pressed** goes by the first bytes of the
kernel partition. -/
theorem dispatch_normal (polls : ℕ) (hc : c.recoveryLatched = false) (hA : ∀ e, A e → Answers e)
    (hG : ∀ e, Answers e → (∀ a o l, e.cmd ≠ .mtdReadMaster a o l) → G e)
    (hgeo : w.geometry.isSome = true) (hubi : w.nand.slice ubiBase 4 ≠ asciiBytes "UBI#")
    (h : ∀ c, Spec execBoot A G Q (if w.nand.slice factoryKernelOff 4 = fdtMagicBytes
      then bootFactoryKernel c else bootStock c) w) :
    Spec execBoot A G Q (dispatch polls c) w := by
  have hnormal : Spec execBoot A G Q (normalBoot c) w := by
    obtain ⟨g, hg⟩ := Option.isSome_iff_exists.1 hgeo
    refine spec_next (BootCmd.flash .findMasterNand) fun o ho =>
      ⟨hG _ (hA _ ho) (by simp), ?_⟩
    have hfound : (execBoot (.flash .findMasterNand) o w).1 = some g := by
      have herr := (hA _ ho).found rfl
      simp only at herr
      simp [execBoot, exec, herr, hg]
    rw [hfound]
    refine (startsWith_value g ubiBase (asciiBytes "UBI#") w hA hG).bind fun b w₁ hb => ?_
    obtain ⟨rfl, rfl⟩ := hb
    have hno : (w₁.nand.slice ubiBase (asciiBytes "UBI#").length == asciiBytes "UBI#") = false :=
      beq_eq_false_iff_ne.2 hubi
    rw [hno, if_neg Bool.false_ne_true]
    refine (startsWith_value g factoryKernelOff fdtMagicBytes w₁ hA hG).bind fun b w₂ hb => ?_
    obtain ⟨rfl, rfl⟩ := hb
    have hiff : (w₂.nand.slice factoryKernelOff fdtMagicBytes.length == fdtMagicBytes) = true ↔
        w₂.nand.slice factoryKernelOff 4 = fdtMagicBytes := beq_iff_eq
    simp only [hiff]
    exact h _
  unfold dispatch
  rw [hc, if_neg Bool.false_ne_true]
  refine spec_next BootCmd.buttonGetByLabel fun o ho =>
    ⟨hG _ (hA _ ho) (by simp), ?_⟩
  refine spec_ite (fun _ => hnormal) fun _ => ?_
  refine spec_next BootCmd.buttonGetState fun o' ho' =>
    ⟨hG _ (hA _ ho') (by simp), ?_⟩
  have hreleased : o'.button ≠ .on := (hA _ ho').released rfl
  have hstate : execBoot .buttonGetState o' (execBoot .buttonGetByLabel o w).2 = (o'.button, w) := rfl
  rw [hstate]
  dsimp only
  cases hb : o'.button with
  | off => exact hnormal
  | error e => exact hnormal
  | on => exact absurd hb hreleased

/-- **The factory boot.** The kernel is read and handed over; a run in which it is not does not come
to an end. -/
theorem bootFactoryKernel_hands {n : ℕ} (hA : ∀ e, A e → Smooth e) (hn : n ≤ factoryKernelSize)
    (hroom : n ≤ w.kernelBlocks.length * 0x20000)
    (hno : (∀ e, A e → e.cmd ≠ .mtdReadMaster factoryLoadAddr factoryKernelOff factoryKernelSize) ∨
      ∀ e, A e → e.cmd = .flash (.bootm factoryLoadAddr) →
        e.before.ram.slice factoryLoadAddr n ≠ kernelContents w n) :
    Spec execBoot A (fun _ => True) (fun _ _ => False) (bootFactoryKernel c) w := by
  refine spec_next
    (BootCmd.mtdReadMaster factoryLoadAddr factoryKernelOff factoryKernelSize)
    fun o ho => ⟨trivial, ?_⟩
  have hload := (hA _ ho).load _ _ _ rfl
  have hkernel := mtdReadMaster_kernel hload hn hroom
  refine spec_ite (fun hne => absurd hload hne) fun _ => ?_
  refine spec_next (BootCmd.flash (.bootm factoryLoadAddr))
    fun o' ho' => ⟨trivial, ?_⟩
  rcases hno with hno | hno
  · exact absurd rfl (hno _ ho)
  · exact absurd hkernel (hno _ ho' rfl)

theorem bootStock_quiet (hA : ∀ e, A e → Answers e)
    (hG : ∀ e, Answers e → (∀ a o l, e.cmd ≠ .mtdReadMaster a o l) → G e) :
    Spec execBoot A G (fun _ _ => True) (bootStock c) w := by
  refine spec_next BootCmd.ursusstockboot fun o ho =>
    ⟨hG _ (hA _ ho) (by simp), ?_⟩
  refine spec_ite (fun _ => trivial) fun _ => ?_
  exact spec_next BootCmd.ursusweb fun o' ho' =>
    ⟨hG _ (hA _ ho') (by simp), trivial⟩

theorem dispatch_unread (polls : ℕ) (hc : c.recoveryLatched = false)
    (hgeo : w.geometry.isSome = true) (hubi : w.nand.slice ubiBase 4 ≠ asciiBytes "UBI#")
    (hmagic : w.nand.slice factoryKernelOff 4 ≠ fdtMagicBytes) :
    Spec execBoot Smooth (fun e => ∀ a o l, e.cmd ≠ .mtdReadMaster a o l) (fun _ _ => True)
      (dispatch polls c) w := by
  refine dispatch_normal polls hc (fun _ he => he.toAnswers) (fun _ _ h => h) hgeo hubi fun c' => ?_
  rw [if_neg hmagic]
  exact bootStock_quiet (fun _ he => he.toAnswers) fun _ _ h => h

def Untroubled (e : BootEvent) : Prop := e.out = {}

theorem Untroubled.answers {e : BootEvent} (h : Untroubled e) : Answers e := by
  obtain ⟨cmd, out, w⟩ := e
  obtain rfl : out = {} := h
  exact ⟨fun _ => rfl, (fun _ _ _ _ he => nomatch he), fun _ => nofun⟩

theorem dispatch_smooth (polls : ℕ) (hc : c.recoveryLatched = false)
    (hgeo : w.geometry.isSome = true) (hubi : w.nand.slice ubiBase 4 ≠ asciiBytes "UBI#")
    (hroom : factoryKernelSize ≤ (w.masterBlocks factoryKernelOff).length * 0x20000) :
    Spec execBoot Untroubled Smooth (fun _ _ => True) (dispatch polls c) w := by
  have hA : ∀ e, Untroubled e → Answers e := fun _ he => he.answers
  have hG : ∀ e, Answers e → (∀ a o l, e.cmd ≠ .mtdReadMaster a o l) → Smooth e :=
    fun e he hne => ⟨he, fun a o l h => absurd h (hne a o l)⟩
  refine dispatch_normal polls hc hA hG hgeo hubi fun c' =>
    spec_ite (fun _ => ?_) fun _ => bootStock_quiet hA hG
  refine spec_next
    (BootCmd.mtdReadMaster factoryLoadAddr factoryKernelOff factoryKernelSize)
    fun o ho => ?_
  have hload :
      (w.mtdReadMaster o.flash factoryLoadAddr factoryKernelOff factoryKernelSize).1 = 0 := by
    obtain rfl : o = {} := ho
    have hok : Outcome.ok.err.isNone = true ∧ (factoryKernelSize + 0x7ff) / 0x800 * 0x800 ≤
      (w.masterBlocks factoryKernelOff).length * 0x20000 := ⟨rfl, hroom⟩
    simp only [World.mtdReadMaster, if_pos hok]
  refine ⟨⟨hA _ ho, ?_⟩, spec_ite (fun hne => absurd hload hne) fun _ => ?_⟩
  · rintro _ _ _ ⟨⟩
    exact hload
  refine spec_next (BootCmd.flash (.bootm factoryLoadAddr))
    fun o' ho' => ⟨hG _ (hA _ ho') (by simp), ?_⟩
  refine spec_ite (fun _ => trivial) fun _ => ?_
  exact spec_next BootCmd.ursusweb fun o'' ho'' =>
    ⟨hG _ (hA _ ho'') (by simp), trivial⟩

end Dispatch

/-! ## From the installation to the boot -/

/-- The board is started again: the flash is as the installation left it. -/
structure Rebooted (installed w : World) : Prop where
  nand : w.nand = installed.nand
  badBlock : w.badBlock = installed.badBlock
  geometry : w.geometry.isSome = true

theorem beNat_four {a b c d : UInt8} (h : beNat [a, b, c, d] = 0xd00dfeed) :
    [a, b, c, d] = fdtMagicBytes := by
  have ha := a.toNat_lt
  have hb := b.toNat_lt
  have hc := c.toNat_lt
  have hd := d.toNat_lt
  simp only [beNat, List.foldl_cons, List.foldl_nil] at h
  have hbytes : a.toNat = 0xd0 ∧ b.toNat = 0x0d ∧ c.toNat = 0xfe ∧ d.toNat = 0xed := by omega
  obtain ⟨h₁, h₂, h₃, h₄⟩ := hbytes
  have hof {x : UInt8} {n : ℕ} (hx : x.toNat = n) : x = UInt8.ofNat n := by
    rw [← hx, UInt8.ofNat_toNat]
  rw [hof h₁, hof h₂, hof h₃, hof h₄]
  rfl

theorem verifyFit_magic {L : FitLib} {fit : List UInt8} (h : (verifyFit L fit).1 = 0) :
    40 ≤ fit.length ∧ fit.take 4 = fdtMagicBytes := by
  unfold verifyFit at h
  dsimp only at h
  by_cases hhead : fit.length < 40 ∨ fdtCheckHeader fit ≠ 0
  · rw [if_pos hhead] at h
    exact absurd h (by decide)
  obtain ⟨hlen, hcheck⟩ := not_or.1 hhead
  have hmagic : (fdtHeader fit).magic = fdtMagic := by
    by_contra hne
    apply hcheck
    unfold fdtCheckHeader
    dsimp only
    rw [if_pos hne]
    decide
  refine ⟨by omega, ?_⟩
  have htake : bytesAt fit 0 4 = fit.take 4 := rfl
  rw [fdtHeader, htake] at hmagic
  obtain ⟨a, b, c, d, hfour⟩ : ∃ a b c d, fit.take 4 = [a, b, c, d] := by
    match fit, hlen with
    | a :: b :: c :: d :: _, _ => exact ⟨a, b, c, d, rfl⟩
    | [], hlen => simp at hlen
    | [_], hlen => simp at hlen
    | [_, _], hlen => simp at hlen
    | [_, _, _], hlen => simp at hlen
  rw [hfour] at hmagic ⊢
  exact beNat_four hmagic

theorem slice_of_good {w : World} {n : ℕ} (hgood : w.badBlock factoryKernelOff = false)
    (hn : 4 ≤ n) : w.nand.slice factoryKernelOff 4 = (kernelContents w n).take 4 := by
  have hfirst : w.kernelBlocks[0]? = some factoryKernelOff := by
    have hrange : List.range (factoryKernelSize / 0x20000) = 0 :: (List.range 63).map Nat.succ :=
      List.range_succ_eq_map
    unfold World.kernelBlocks
    rw [hrange, List.map_cons, List.filter_cons_of_pos (by simp [hgood])]
    rfl
  rw [kernelContents, ← List.map_take, List.take_range, Nat.min_eq_left hn]
  refine List.map_congr_left fun x hx => ?_
  have hx := List.mem_range.1 hx
  have hdiv : x / 0x20000 = 0 := by omega
  have hmod : x % 0x20000 = x := by omega
  rw [hdiv, hmod, hfirst]
  rfl

/-- **The installed kernel is the one that boots** exactly if the kernel partition starts with a good
block, or with a bad block that reads back as the magic number of a device tree. -/
theorem installed_kernel_boots_iff (L : FitLib) (img : ImageState) (layout : Layout)
    (outs : ℕ → Outcome) (w₀ w : World) (polls : ℕ) (c : DispatchCtx) (outs' : ℕ → BootOutcome)
    (hlen : img.len ≤ stageMax)
    (hfit : img.fitValid =
      ((verifyFit L (w₀.ram.slice (stageAddr + img.kernelOff) img.kernelSize)).1 == 0))
    (hinst : (run exec (factoryInstall img layout) outs w₀).val = 0)
    (hboot : Rebooted (run exec (factoryInstall img layout) outs w₀).world w)
    (hubi : w.nand.slice ubiBase 4 ≠ asciiBytes "UBI#") (hc : c.recoveryLatched = false)
    (hsmooth : ∀ e ∈ (run execBoot (dispatch polls c) outs' w).trace, Smooth e) :
    FactoryBoot (w₀.ram.slice (stageAddr + img.kernelOff) img.kernelSize)
        (run execBoot (dispatch polls c) outs' w).trace ↔
      w.badBlock factoryKernelOff = false ∨ w.nand.slice factoryKernelOff 4 = fdtMagicBytes := by
  obtain ⟨hdone, hkernel⟩ := kernel_of_install hlen hinst
  generalize (run exec (factoryInstall img layout) outs w₀).world = w₁ at hboot hdone hkernel
  -- the flash of the restarted board is that of the installation
  have hblocks : w.kernelBlocks = w₁.kernelBlocks := by
    unfold World.kernelBlocks
    rw [hboot.badBlock]
  have hcontents : kernelContents w img.kernelSize =
      w₀.ram.slice (stageAddr + img.kernelOff) img.kernelSize := by
    rw [← hkernel]
    unfold kernelContents
    rw [hblocks, hboot.nand]
  have hroom : img.kernelSize ≤ w.kernelBlocks.length * 0x20000 := by
    rw [hblocks]
    exact hdone.room
  have hsize : img.kernelSize ≤ factoryKernelSize := hdone.sizes.2.1
  rw [hdone.fit] at hfit
  have hverify := verifyFit_magic (beq_iff_eq.1 hfit.symm)
  rw [Mem.length_slice] at hverify
  constructor
  · rintro ⟨⟨e, he, hcmd⟩, -⟩
    by_contra hcond
    have hmagic := (not_or.1 hcond).2
    have hspec := dispatch_unread polls hc hboot.geometry hubi hmagic
    exact (hspec.run_of outs' hsmooth).1 e he _ _ _ hcmd
  · intro hcond
    have hmagic : w.nand.slice factoryKernelOff 4 = fdtMagicBytes := by
      rcases hcond with hgood | hmagic
      · rw [slice_of_good hgood (le_trans (by decide) hverify.1), hcontents, hverify.2]
      · exact hmagic
    -- a run in which the kernel is not read, or not handed over, would not come to an end
    have hends {A : BootEvent → Prop} (hA : ∀ e, A e → Smooth e)
        (hno : (∀ e, A e → e.cmd ≠ .mtdReadMaster factoryLoadAddr factoryKernelOff
          factoryKernelSize) ∨ ∀ e, A e → e.cmd = .flash (.bootm factoryLoadAddr) →
            e.before.ram.slice factoryLoadAddr img.kernelSize ≠ kernelContents w img.kernelSize) :
        Spec execBoot A (fun _ => True) (fun _ _ => False) (dispatch polls c) w :=
      dispatch_normal polls hc (fun e he => (hA e he).toAnswers) (fun _ _ _ => trivial)
        hboot.geometry hubi fun c' => by
          rw [if_pos hmagic]
          exact bootFactoryKernel_hands hA hsize hroom hno
    constructor
    · by_contra hno
      have hspec := hends (A := fun e => Smooth e ∧ e.cmd ≠ .mtdReadMaster factoryLoadAddr
        factoryKernelOff factoryKernelSize) (fun e he => he.1) (.inl fun e he => he.2)
      exact (hspec.run_of outs' fun e he => ⟨hsmooth e he, fun hcmd => hno ⟨e, he, hcmd⟩⟩).2
    · by_contra hno
      have hspec := hends (A := fun e => Smooth e ∧ (e.cmd = .flash (.bootm factoryLoadAddr) →
        e.before.ram.slice factoryLoadAddr img.kernelSize ≠ kernelContents w img.kernelSize))
        (fun e he => he.1) (.inr fun e he => he.2)
      refine (hspec.run_of outs' fun e he => ⟨hsmooth e he, fun hcmd heq => hno ?_⟩).2
      refine ⟨e, he, hcmd, ?_⟩
      rw [Mem.length_slice, heq, hcontents]

/-! ### An image that is installed -/

def stockArchive : List UInt8 := fwtoolImage soundArchive archiveJson

def stockImage : ImageState where
  type := .nonubiSysupgrade
  addr := stageAddr
  len := 1606
  metadataPresent := true
  metadataValid := true
  deviceCompatible := true
  fitValid := true
  fitHashesValid := true
  kernelFound := true
  rootFound := true
  kernelSize := 343
  kernelOff := 512
  rootSize := 4
  rootOff := 1536
  reason :=
    "OpenWrt non-UBI sysupgrade valid; stock-layout install/update is available after explicit confirmation"

theorem length_stockArchive : stockArchive.length = 1606 :=
  (stagedMeta_archiveJson length_soundArchive).1

theorem bytesAt_stockArchive : bytesAt stockArchive 512 343 = smallFit := by
  simp only [stockArchive, soundArchive, fwtoolImage, List.append_assoc, bytesAt_kernel]

theorem stagedMeta_stockArchive :
    stagedMeta stockArchive = ⟨true, true, true, true, false, 1548, 42⟩ :=
  (stagedMeta_archiveJson length_soundArchive).2

theorem validateFactory_stockArchive (s : ImageState) (hk : s.kernelFound = false)
    (hr : s.rootFound = false) (hf : s.fitValid = false) :
    validateFactory boardFitLib stockArchive s =
      (0, { s with kernelFound := true, kernelSize := 343, kernelOff := 512, fitValid := true,
                   fitHashesValid := true, rootFound := true, rootSize := 4, rootOff := 1536 }) := by
  have hmembers : members stockArchive = [⟨kernelName, 512, 343⟩, ⟨rootName, 1536, 4⟩] := by
    decide +kernel
  have hok := validateFactory_good hmembers bytesAt_stockArchive (by decide +kernel)
    (by decide +kernel) s hk hr hf
  refine Prod.ext hok ?_
  rw [(validateFactory_accepted hok).2.1, hmembers, List.foldl_cons, List.foldl_cons, List.foldl_nil]
  have hkernel : nameEnds kernelName "/kernel" = true := by decide
  have hroot : nameEnds rootName "/kernel" = false ∧ nameEnds rootName "/root" = true := by
    decide
  have hsquash : bytesAt stockArchive 1536 4 = asciiBytes "hsqs" := by decide +kernel
  have hverify := verifyFit_smallFit []
  rw [List.append_nil] at hverify
  simp [TarEntry.record, tarMember, hkernel, hroot, hsquash, bytesAt_stockArchive, hverify]

theorem stagedTar_accepted {L : FitLib} {layout : Layout} {m : FwtoolMeta} {buf : List UInt8}
    {s s' : ImageState} (h : validateFactory L buf
      { s with type := .nonubiSysupgrade, deviceCompatible := m.deviceFactory } = (0, s'))
    (hm : m.valid = true) (hd : s'.deviceCompatible = true) (hl : layout.Migratable) :
    stagedTar L layout m buf s = (0, s'.setReason .ok
      "OpenWrt non-UBI sysupgrade valid; stock-layout install/update is available after explicit confirmation") := by
  unfold stagedTar
  simp [h, hm, hd, hl]

theorem stagedVerdict_stockArchive :
    stagedVerdict boardFitLib .stock stageAddr stockArchive = .ret (0, stockImage) := by
  have hne : stockArchive ≠ [] := fun h => by simpa [h] using length_stockArchive
  have htar : tarMagic stockArchive = true := by decide +kernel
  have hmax : ¬ stageMax < stockArchive.length := by
    rw [length_stockArchive]
    decide
  unfold stagedVerdict
  rw [if_neg hne, if_neg hmax, if_pos htar, stagedMeta_stockArchive, length_stockArchive]
  exact congrArg Prog.ret (stagedTar_accepted (validateFactory_stockArchive _ rfl rfl rfl) rfl rfl
    (.inl rfl))

theorem validateStaged_val {L : FitLib} {layout : Layout} {addr len : ℕ} {outs : ℕ → Outcome}
    {w : World} {r : ℤ × ImageState}
    (h : stagedVerdict L layout addr (w.ram.slice addr len) = .ret r) :
    (run exec (validateStaged L layout addr len) outs w).val = r := by
  have hspec : Ensures (fun r' _ => r' = r)
      (validateStaged L layout addr len) w := by
    refine spec_next (Cmd.logf _) fun _ _ => ⟨trivial, ?_⟩
    refine spec_next (Cmd.readMem addr len) fun _ _ => ⟨trivial, ?_⟩
    show Spec exec _ _ _ ((stagedVerdict L layout addr (w.ram.slice addr len)).bind _) _
    rw [h]
    refine spec_next (Cmd.logf _) fun _ _ => ⟨trivial, ?_⟩
    exact spec_next (Cmd.logf _) fun _ _ => ⟨trivial, rfl⟩
  exact (hspec.run_of outs fun _ _ => trivial).2

/-- A board on the stock layout with the archive staged. The first block of the kernel partition is
good or not. -/
def stockWorld (bad : Bool) : World where
  ram := Mem.blit (fun _ => 0) stageAddr stockArchive
  nand := fun _ => 0
  badBlock b := bad && b == factoryKernelOff
  geometry := some .supported
  lebSize := 0x1f000
  attached := none
  ubi := fun _ => ⟨fun _ => none, 100, 40, 40, 100⟩
  updatePart := none
  ubiMtdReady := false
  factoryMtdReady := false
  rootfsDataMax := 0
  envRedund := false
  clock := 0

def World.restarted (w : World) : World :=
  { w with ram := fun _ => 0, attached := none, updatePart := none, ubiMtdReady := false
           factoryMtdReady := false, rootfsDataMax := 0, clock := 0 }

theorem slice_stockWorld (bad : Bool) :
    (stockWorld bad).ram.slice (stageAddr + stockImage.kernelOff) stockImage.kernelSize =
      smallFit := by
  have hslice : (stockWorld bad).ram.slice stageAddr 1606 = stockArchive :=
    Mem.slice_blit_of_length _ _ length_stockArchive
  rw [← bytesAt_stockArchive, ← hslice]
  exact (bytesAt_slice _ (by decide)).symm

def stockInstallation (bad : Bool) : Prog.Result Cmd Outcome World ℤ :=
  run exec (factoryInstall stockImage .stock) (fun _ => .ok) (stockWorld bad)

theorem stockInstallation_completes (bad : Bool) :
    (stockInstallation bad).val = 0 ∧
      Spared (stockWorld bad) (stockInstallation bad).world ∧
      (stockInstallation bad).world.nand.slice ubiBase 4 ≠ asciiBytes "UBI#" := by
  have hroom : HasRoom stockImage (stockWorld bad) :=
    ⟨rfl, by show 0 < 0x1f000; decide, by show (4 + 0x1f000 - 1) / 0x1f000 < 100; decide,
      by cases bad <;> decide⟩
  have hspec := factoryInstall_completes .stock (by decide) (.inl rfl) (by decide)
    (by decide) hroom
  have hdone := (hspec.run_of (fun _ => .ok) fine_of_ok).2
  have hframe := ((factoryInstall_records stockImage .stock (stockWorld bad)).run_of
    (fun _ => .ok) (recorded_nil _)).2.1
  refine ⟨hdone.1, hdone.2, ?_⟩
  have hbase : ubiBase = 0x20000 := rfl
  have hnand : (stockInstallation bad).world.nand.slice ubiBase 4 =
      (stockWorld bad).nand.slice ubiBase 4 :=
    Mem.slice_congr fun x hx hlt => hframe.nand x (.inl (by omega))
  have hzero : (stockWorld bad).nand.slice ubiBase 4 = [0, 0, 0, 0] := rfl
  rw [hnand, hzero]
  decide

def stockRestarted (bad : Bool) : World := (stockInstallation bad).world.restarted

theorem stockRestarted_nand (bad : Bool) :
    (stockRestarted bad).nand = (stockInstallation bad).world.nand := rfl

theorem stockRestarted_badBlock (bad : Bool) :
    (stockRestarted bad).badBlock = (stockWorld bad).badBlock :=
  (stockInstallation_completes bad).2.1.badBlock

theorem stockRestarted_notUbi (bad : Bool) :
    (stockRestarted bad).nand.slice ubiBase 4 ≠ asciiBytes "UBI#" := by
  rw [stockRestarted_nand]
  exact (stockInstallation_completes bad).2.2

theorem stockRestarted_rebooted (bad : Bool) :
    Rebooted (stockInstallation bad).world (stockRestarted bad) := by
  refine ⟨rfl, rfl, ?_⟩
  show (stockInstallation bad).world.geometry.isSome = true
  rw [(stockInstallation_completes bad).2.1.geometry]
  rfl

/-- The dispatcher on it, when nothing goes wrong. -/
def stockDispatch (bad : Bool) :
    Prog.Result BootCmd BootOutcome World (DispatchEnd × DispatchCtx) :=
  run execBoot (dispatch 1 {}) (fun _ => {}) (stockRestarted bad)

theorem stockDispatch_smooth (bad : Bool) : ∀ e ∈ (stockDispatch bad).trace, Smooth e := by
  have hspared := (stockInstallation_completes bad).2.1
  have hblocks : (stockRestarted bad).masterBlocks factoryKernelOff =
      (stockWorld bad).masterBlocks factoryKernelOff := by
    unfold World.masterBlocks stockRestarted World.restarted
    rw [hspared.badBlock, hspared.geometry]
  have hroom : factoryKernelSize ≤
      ((stockRestarted bad).masterBlocks factoryKernelOff).length * 0x20000 := by
    rw [hblocks]
    cases bad <;> decide +kernel
  refine ((dispatch_smooth 1 rfl (stockRestarted_rebooted bad).geometry
    (stockRestarted_notUbi bad) hroom).run_of (fun _ => {}) fun e he => ?_).1
  obtain ⟨n, hn⟩ := Prog.exists_out_eq he
  exact hn

theorem validateStaged_stockArchive (bad : Bool) :
    (run exec (validateStaged boardFitLib .stock stageAddr 1606) (fun _ => .ok)
      (stockWorld bad)).val = (0, stockImage) := by
  apply validateStaged_val
  have hslice : (stockWorld bad).ram.slice stageAddr 1606 = stockArchive :=
    Mem.slice_blit_of_length _ _ length_stockArchive
  rw [hslice]
  exact stagedVerdict_stockArchive

/-- With a good first block the installed kernel boots. -/
theorem installed_kernel_boots_good :
    (run exec (validateStaged boardFitLib .stock stageAddr 1606) (fun _ => .ok)
        (stockWorld false)).val = (0, stockImage) ∧
      (stockInstallation false).val = 0 ∧
      FactoryBoot smallFit (stockDispatch false).trace := by
  have hdone := (stockInstallation_completes false).1
  refine ⟨validateStaged_stockArchive false, hdone, ?_⟩
  have hverify := verifyFit_smallFit []
  rw [List.append_nil] at hverify
  have hiff := installed_kernel_boots_iff boardFitLib stockImage .stock (fun _ => .ok)
    (stockWorld false) (stockRestarted false) 1 {} (fun _ => {}) (by decide)
    (by rw [slice_stockWorld, hverify]; rfl) hdone (stockRestarted_rebooted false)
    (stockRestarted_notUbi false) rfl (stockDispatch_smooth false)
  rw [slice_stockWorld] at hiff
  refine hiff.2 (.inl ?_)
  rw [stockRestarted_badBlock]
  rfl

/-- With a bad first block it does not: the dispatcher goes on to the system of the vendor. -/
theorem installed_kernel_not_booted :
    (run exec (validateStaged boardFitLib .stock stageAddr 1606) (fun _ => .ok)
        (stockWorld true)).val = (0, stockImage) ∧
      (stockInstallation true).val = 0 ∧
      Rebooted (stockInstallation true).world (stockRestarted true) ∧
      (stockRestarted true).nand.slice ubiBase 4 ≠ asciiBytes "UBI#" ∧
      (∀ e ∈ (stockDispatch true).trace, Smooth e) ∧
      ¬ FactoryBoot smallFit (stockDispatch true).trace := by
  obtain ⟨hdone, hspared, -⟩ := stockInstallation_completes true
  have hubi := stockRestarted_notUbi true
  have hsmooth := stockDispatch_smooth true
  have hboot := stockRestarted_rebooted true
  refine ⟨validateStaged_stockArchive true, hdone, hboot, hubi, hsmooth, ?_⟩
  rintro ⟨⟨e, he, hcmd⟩, -⟩
  -- the bad block has not been written
  have hnand : (stockRestarted true).nand.slice factoryKernelOff 4 =
      (stockWorld true).nand.slice factoryKernelOff 4 := by
    rw [stockRestarted_nand]
    have hoff : factoryKernelOff = 0xc0000 := rfl
    refine Mem.slice_congr fun x hx hlt => hspared.nand x ?_ ?_
    · simp [inFactoryUbi, factoryUbiParts]
      omega
    · have hblock : World.blockOf x = factoryKernelOff := by
        unfold World.blockOf
        omega
      rw [hblock]
      rfl
  have hmagic : (stockRestarted true).nand.slice factoryKernelOff 4 ≠ fdtMagicBytes := by
    rw [hnand]
    decide
  exact ((dispatch_unread 1 rfl hboot.geometry hubi hmagic).run_of (fun _ => {}) hsmooth).1 e he
    _ _ _ hcmd

end UrsusBoot
