import UrsusBoot.Engine.Reads
import UrsusBoot.Web.Factory

/-!
# The stock-layout installation keeps to its partitions

What the two halves of `ursus_factory_install` do, command by command (`rootfs_records`,
`kernel_records`), and what they leave alone (`factory_install_frame`).
-/

namespace UrsusBoot

open Prog

/-! ## What one command changes -/

/-- Only flash cells in `r` and RAM from the readback window on may have changed. -/
structure Confined (r : ℕ → Bool) (w w' : World) : Prop where
  nand : ∀ x, r x = false → w'.nand x = w.nand x
  ram : ∀ x, x < readbackAddr → w'.ram x = w.ram x

namespace Confined

variable {r r' : ℕ → Bool} {w w' w'' : World} {o : Outcome}

theorem refl (r : ℕ → Bool) (w : World) : Confined r w w := ⟨fun _ _ => rfl, fun _ _ => rfl⟩

theorem of_inert (h : InertStep w w') : Confined r w w' :=
  ⟨fun _ _ => by rw [h.nand], fun _ _ => by rw [h.ram]⟩

theorem ubiCells {a : UbiArea} (h : ∀ p, w.attached = some p → p.area = a) :
    Confined a.holds w (w.ubiCells o) := by
  constructor
  · intro x hx
    unfold World.ubiCells
    split
    · rename_i c p _ hp
      simp [h p hp, hx]
    · rfl
  · intro x _
    rw [World.ubiCells_ram]

theorem shellUbi {a : UbiArea} (h : ∀ p, w.attached = some p → p.area = a)
    (f : UbiImage → Option UbiImage) : Confined a.holds w (w.shellUbi o f).2 := by
  rcases World.shellUbi_cases w o f with ⟨-, hw | hw⟩ | ⟨p, u, hp, -, -, hw⟩
  · rw [hw]
    exact refl _ w
  · rw [hw]
    exact ubiCells h
  · rw [hw]
    have hcells : Confined a.holds (w.setUbi p.area u) ((w.setUbi p.area u).ubiCells o) :=
      ubiCells h
    exact ⟨hcells.nand, hcells.ram⟩

theorem ubiPart (p : UbiPart) : Confined p.area.holds w (w.ubiPart o p).2 := by
  have hcells : Confined p.area.holds { w with attached := some p }
      ({ w with attached := some p }.ubiCells o) := by
    apply ubiCells
    intro q hq
    cases hq
    rfl
  unfold World.ubiPart
  split_ifs
  · exact refl _ w
  · exact ⟨hcells.nand, hcells.ram⟩
  · exact ⟨hcells.nand, hcells.ram⟩

theorem ubiWrite {a : UbiArea} (h : ∀ p, w.attached = some p → p.area = a) (n : String)
    (bs : List UInt8) : Confined a.holds w (w.ubiWrite o n bs).2 := by
  have hset : ∀ b u, Confined a.holds w ((w.setUbi b u).ubiCells o) := by
    intro b u
    have hcells : Confined a.holds (w.setUbi b u) ((w.setUbi b u).ubiCells o) := ubiCells h
    exact ⟨hcells.nand, hcells.ram⟩
  unfold World.ubiWrite
  split
  · exact refl _ w
  · split
    · exact refl _ w
    · split_ifs
      · exact refl _ w
      · exact hset _ _
      · exact hset _ _

theorem ubiRead {a : UbiArea} (h : ∀ p, w.attached = some p → p.area = a) (n : String)
    (size : ℕ) : Confined a.holds w (w.ubiRead o readbackAddr n size).2 := by
  have hread : ∀ bs, Confined a.holds w
      ({ w with ram := w.ram.blit readbackAddr bs }.ubiCells o) := by
    intro bs
    have hcells : Confined a.holds { w with ram := w.ram.blit readbackAddr bs }
        ({ w with ram := w.ram.blit readbackAddr bs }.ubiCells o) := ubiCells h
    refine ⟨hcells.nand, fun x hx => ?_⟩
    rw [hcells.ram x hx]
    exact Mem.blit_apply_of_lt _ _ hx
  unfold World.ubiRead
  split
  · exact refl _ w
  · split_ifs
    · exact refl _ w
    · exact refl _ w
    all_goals exact hread _

theorem mtdStore {f : Mem UInt8} (hr : ∀ x, r x = false → r' x = false) :
    Confined r w (w.mtdStore o r' f) := by
  constructor
  · intro x hx
    simp [World.mtdStore, hr x hx]
  · intro x _
    rfl

end Confined

theorem factoryUbiErase_confined (o : Outcome) (w : World) :
    Confined inFactoryUbi w (exec .factoryUbiErase o w).2 := by
  have hstore : Confined inFactoryUbi w (w.mtdStore o inFactoryUbi fun _ => 0xff) :=
    Confined.mtdStore fun _ hx => hx
  simp only [exec]
  split_ifs
  · exact ⟨hstore.nand, hstore.ram⟩
  · exact hstore

theorem factoryKernelErase_confined (o : Outcome) (w : World) :
    Confined World.inFactoryKernel w (exec .factoryKernelErase o w).2 :=
  Confined.mtdStore fun _ hx => hx

theorem factoryKernelWrite_confined (addr len : ℕ) (o : Outcome) (w : World) :
    Confined World.inFactoryKernel w (exec (.factoryKernelWrite addr len) o w).2 := by
  apply Confined.mtdStore
  intro x hx
  simp [hx]

theorem factoryKernelRead_confined (len : ℕ) (o : Outcome) (w : World) :
    Confined World.inFactoryKernel w (exec (.factoryKernelRead readbackAddr len) o w).2 := by
  simp only [exec, World.factoryKernelRead]
  split_ifs
  all_goals exact ⟨fun _ _ => rfl, fun x hx => Mem.blit_apply_of_lt _ _ hx⟩

/-! ## The record of an installation -/

/-- The bootloader, the stock environment, and the flash past the last partition. -/
def Preserved (x : ℕ) : Prop := x < 0xc0000 ∨ (0x51c0000 ≤ x ∧ x < 0x52c0000) ∨ 0xeb60000 ≤ x

theorem inFactoryKernel_disjoint {x : ℕ} (h : World.inFactoryKernel x = true) :
    inFactoryUbi x = false := by
  simp only [World.inFactoryKernel, factoryKernelOff, factoryKernelSize, Bool.and_eq_true,
    decide_eq_true_eq] at h
  simp [inFactoryUbi, factoryUbiParts]
  omega

theorem Preserved.notFactoryUbi {x : ℕ} (h : Preserved x) : inFactoryUbi x = false := by
  unfold Preserved at h
  simp [inFactoryUbi, factoryUbiParts]
  omega

theorem Preserved.notFactoryKernel {x : ℕ} (h : Preserved x) :
    World.inFactoryKernel x = false := by
  unfold Preserved at h
  simp [World.inFactoryKernel, factoryKernelOff, factoryKernelSize]
  omega

/-- The event erases or writes the kernel partition, or changes a byte of it. -/
def TouchesKernel (e : FlashEvent) : Prop :=
  e.cmd = .factoryKernelErase ∨ (∃ addr len, e.cmd = .factoryKernelWrite addr len) ∨
    ∃ x, World.inFactoryKernel x = true ∧ (e.after exec).nand x ≠ e.before.nand x

/-- The event reads the volume `rootfs` of the stock layout's device, and what it reads is the staged
root filesystem. -/
structure RootReadBack (img : ImageState) (e : FlashEvent) : Prop where
  cmd : e.cmd = .ubiRead readbackAddr "rootfs" img.rootSize
  read : (exec (.ubiRead readbackAddr "rootfs" img.rootSize) e.out e.before).1 = 0
  device : e.before.attached = some .ursusFactoryUbi
  volume : ∃ i v, (e.before.vols .factory).lookup "rootfs" = some (i, v) ∧
    v.data.take img.rootSize = (e.after exec).ram.slice readbackAddr img.rootSize
  same : (e.after exec).ram.slice (stageAddr + img.rootOff) img.rootSize =
    (e.after exec).ram.slice readbackAddr img.rootSize

/-- The first `n` bytes of the kernel partition, bad blocks passed over. -/
def kernelContents (w : World) (n : ℕ) : List UInt8 :=
  (List.range n).map fun x => w.nand ((w.kernelBlocks[x / 0x20000]?).getD 0 + x % 0x20000)

/-- The event reads the kernel partition, and what it reads is the staged kernel. -/
structure KernelReadBack (img : ImageState) (e : FlashEvent) : Prop where
  cmd : e.cmd = .factoryKernelRead readbackAddr img.kernelSize
  read : (exec (.factoryKernelRead readbackAddr img.kernelSize) e.out e.before).1 = 0
  flash : kernelContents e.before img.kernelSize =
    (e.after exec).ram.slice readbackAddr img.kernelSize
  same : (e.after exec).ram.slice (stageAddr + img.kernelOff) img.kernelSize =
    (e.after exec).ram.slice readbackAddr img.kernelSize

/-- What has changed since the installation began in `w₀`. -/
structure InstallFrame (w₀ w : World) : Prop where
  nand : ∀ x, Preserved x → w.nand x = w₀.nand x
  ram : ∀ x, x < readbackAddr → w.ram x = w₀.ram x

theorem InstallFrame.root {w₀ w w' : World} (h : InstallFrame w₀ w) (h' : Confined inFactoryUbi w w') :
    InstallFrame w₀ w' :=
  ⟨fun x hx => (h'.nand x hx.notFactoryUbi).trans (h.nand x hx),
    fun x hx => (h'.ram x hx).trans (h.ram x hx)⟩

theorem InstallFrame.kernel {w₀ w w' : World} (h : InstallFrame w₀ w)
    (h' : Confined World.inFactoryKernel w w') : InstallFrame w₀ w' :=
  ⟨fun x hx => (h'.nand x hx.notFactoryKernel).trans (h.nand x hx),
    fun x hx => (h'.ram x hx).trans (h.ram x hx)⟩

/-- What is asked of every command, given the commands before it. -/
structure Installs (img : ImageState) (w₀ : World) (before : List FlashEvent) (e : FlashEvent) :
    Prop where
  frame : InstallFrame w₀ (e.after exec)
  order : TouchesKernel e → ∃ e' ∈ before, RootReadBack img e'

variable {img : ImageState} {w₀ w : World} {tr : List FlashEvent}

theorem installs_of_root {c : Cmd} {o : Outcome} (h : InstallFrame w₀ w)
    (hc : Confined inFactoryUbi w (exec c o w).2) (herase : c ≠ .factoryKernelErase)
    (hwrite : ∀ addr len, c ≠ .factoryKernelWrite addr len) : Installs img w₀ tr ⟨c, o, w⟩ := by
  refine ⟨h.root hc, fun ht => ?_⟩
  rcases ht with ht | ⟨addr, len, ht⟩ | ⟨x, hx, hne⟩
  · exact absurd ht herase
  · exact absurd ht (hwrite addr len)
  · exact absurd (hc.nand x (inFactoryKernel_disjoint hx)) hne

theorem installs_of_inert {c : Cmd} {o : Outcome} (h : InstallFrame w₀ w) (hc : c.Inert) :
    Installs img w₀ tr ⟨c, o, w⟩ := by
  apply installs_of_root h (.of_inert (exec_inert hc o w))
  · rintro rfl
    exact hc
  · rintro addr len rfl
    exact hc

theorem inert_records {α : Type} {p : FlashProg α} (hp : Uses Cmd.Inert p) (h : InstallFrame w₀ w) :
    Records exec (Installs img w₀) (fun _ w' tr' => InstallFrame w₀ w' ∧ InertStep w w' ∧ tr <+: tr')
      p w tr := by
  refine Records.of_uses (I := fun w' tr' => InstallFrame w₀ w' ∧ InertStep w w' ∧ tr <+: tr') ?_ hp
    ⟨h, .refl w, List.prefix_refl _⟩
  intro c o w' tr' hc hI
  have hstep := exec_inert hc o w'
  exact ⟨installs_of_inert hI.1 hc, hI.1.root (.of_inert hstep), hI.2.1.trans hstep,
    hI.2.2.trans (List.prefix_append _ _)⟩

theorem compareStageReadback_records (off len : ℕ) (h : InstallFrame w₀ w) :
    Records exec (Installs img w₀) (fun ret w' tr' => InstallFrame w₀ w' ∧ tr <+: tr' ∧
      (ret = 0 → w.ram.slice (stageAddr + off) len = w.ram.slice readbackAddr len))
      (compareStageReadback off readbackAddr len) w tr := by
  have hq : Uses Cmd.Inert (compareStageReadback off readbackAddr len) :=
    uses_memEqual (fun _ hc => hc) _ _ _
  have hfinds := memEqual_finds (A := fun _ => True) (stageAddr + off) readbackAddr len w
  have hspec : Ensures
      (fun ret _ => ret = 0 → w.ram.slice (stageAddr + off) len = w.ram.slice readbackAddr len)
      (compareStageReadback off readbackAddr len) w :=
    (Spec.weaken hfinds (fun _ h => h) fun _ _ _ => trivial).mono fun _ _ h => h.2
  refine ((inert_records hq h).and_spec hspec).mono fun ret w' tr' hr => ?_
  exact ⟨hr.1.1, hr.1.2.2, hr.2⟩

/-! ## The two halves -/

theorem ubiWrite_contents {o : Outcome} {n : String} {bs : List UInt8} {p : UbiPart}
    (hp : w.attached = some p) (h : (w.ubiWrite o n bs).1 = 0) :
    ∃ i v, ((w.ubiWrite o n bs).2.vols p.area).lookup n = some (i, v) ∧
      v.data.take bs.length = bs ∧ bs.length ≤ v.data.length := by
  obtain ⟨q, i, v, hq, hl, hvols⟩ := World.ubiWrite_of_zero h
  obtain rfl : p = q := Option.some.inj (hp.symm.trans hq)
  refine ⟨i, v.written w.lebSize bs, ?_, ?_, ?_⟩
  · rw [hvols]
    exact Slots.lookup_setBody_self hl
  · unfold Volume.written
    split_ifs <;> simp
  · unfold Volume.written
    split_ifs <;> simp

theorem records_root {α : Type} {Q : α → World → List FlashEvent → Prop} (c : Cmd)
    {f : c.Resp → FlashProg α} (h : InstallFrame w₀ w)
    (hc : ∀ o, Confined inFactoryUbi w (exec c o w).2) (herase : c ≠ .factoryKernelErase)
    (hwrite : ∀ addr len, c ≠ .factoryKernelWrite addr len)
    (hf : ∀ o, InstallFrame w₀ (exec c o w).2 → Records exec (Installs img w₀) Q
      (f (exec c o w).1) (exec c o w).2 (tr ++ [⟨c, o, w⟩])) :
    Records exec (Installs img w₀) Q ((issue c).bind f) w tr :=
  records_next c fun o => ⟨installs_of_root h (hc o) herase hwrite, hf o (h.root (hc o))⟩

/-- **The root filesystem's half** keeps the frame, and does not succeed without a readback. -/
theorem rootfs_records (hsize : img.rootSize ≠ 0) (h : InstallFrame w₀ w) :
    Records exec (Installs img w₀) (fun ret w' tr' => InstallFrame w₀ w' ∧
      (ret = 0 → ∃ e ∈ tr', RootReadBack img e)) (factoryInstallRoot img) w tr := by
  have hne : ∀ {ret : ℤ} {P : Prop}, ret ≠ 0 → ret = 0 → P := fun h h' => absurd h' h
  have howns : ∀ {w' : World}, w'.attached = some .ursusFactoryUbi →
      ∀ p, w'.attached = some p → p.area = .factory := by
    intro w' hatt p hp
    rw [hatt] at hp
    cases hp
    rfl
  -- `ubi detach`; its status is not looked at
  have hdetach : ∀ o, Confined inFactoryUbi w (exec .ubiDetach o w).2 := by
    intro o
    simp only [exec]
    split_ifs
    all_goals exact ⟨fun _ _ => rfl, fun _ _ => rfl⟩
  refine records_root .ubiDetach h hdetach (by simp) (by simp) fun o₁ f₁ => ?_
  refine records_root .factoryUbiErase f₁ (fun o => factoryUbiErase_confined o _) (by simp) (by simp)
    fun o₂ f₂ => records_ite (fun hr => ⟨f₂, hne hr⟩) fun _ => ?_
  generalize (exec .factoryUbiErase o₂ (exec .ubiDetach o₁ w).2).2 = w₂ at f₂ ⊢
  refine records_root (.ubiPart .ursusFactoryUbi) f₂ (fun _ => Confined.ubiPart .ursusFactoryUbi)
    (by simp) (by simp) fun o₃ f₃ => records_ite (fun hr => ⟨f₃, hne hr⟩) fun h₃ => ?_
  -- from here on the stock layout's device is attached
  have a₃ : (exec (.ubiPart .ursusFactoryUbi) o₃ w₂).2.attached = some .ursusFactoryUbi :=
    World.ubiPart_attached (not_not.1 h₃)
  generalize (exec (.ubiPart .ursusFactoryUbi) o₃ w₂).2 = w₃ at f₃ a₃ ⊢
  refine records_root (.ubiCreate "rootfs" img.rootSize false none) f₃
    (fun _ => Confined.shellUbi (howns a₃) _) (by simp) (by simp)
    fun o₄ f₄ => records_ite (fun hr => ⟨f₄, hne hr⟩) fun _ => ?_
  have a₄ : (exec (.ubiCreate "rootfs" img.rootSize false none) o₄ w₃).2.attached =
      some .ursusFactoryUbi := (World.shellUbi_attached w₃ o₄ _).trans a₃
  generalize (exec (.ubiCreate "rootfs" img.rootSize false none) o₄ w₃).2 = w₄ at f₄ a₄ ⊢
  refine records_root (.ubiCreate "rootfs_data" 0 false none) f₄
    (fun _ => Confined.shellUbi (howns a₄) _) (by simp) (by simp)
    fun o₅ f₅ => records_ite (fun hr => ⟨f₅, hne hr⟩) fun _ => ?_
  have a₅ : (exec (.ubiCreate "rootfs_data" 0 false none) o₅ w₄).2.attached =
      some .ursusFactoryUbi := (World.shellUbi_attached w₄ o₅ _).trans a₄
  generalize (exec (.ubiCreate "rootfs_data" 0 false none) o₅ w₄).2 = w₅ at f₅ a₅ ⊢
  refine records_root (.ubiWrite (stageAddr + img.rootOff) "rootfs" img.rootSize) f₅
    (fun _ => Confined.ubiWrite (howns a₅) _ _) (by simp) (by simp)
    fun o₆ f₆ => records_ite (fun hr => ⟨f₆, hne hr⟩) fun h₆ => ?_
  have a₆ : (exec (.ubiWrite (stageAddr + img.rootOff) "rootfs" img.rootSize) o₆ w₅).2.attached =
      some .ursusFactoryUbi := (World.ubiWrite_attached w₅ o₆ _ _).trans a₅
  obtain ⟨i, v, hl, -, hlen⟩ := ubiWrite_contents a₅ (not_not.1 h₆)
  rw [Mem.length_slice] at hlen
  have hl' : ((exec (.ubiWrite (stageAddr + img.rootOff) "rootfs" img.rootSize) o₆ w₅).2.vols
      .factory).lookup "rootfs" = some (i, v) := hl
  generalize (exec (.ubiWrite (stageAddr + img.rootOff) "rootfs" img.rootSize) o₆ w₅).2 = w₆
    at f₆ a₆ hl' ⊢
  refine records_root (.ubiRead readbackAddr "rootfs" img.rootSize) f₆
    (fun _ => Confined.ubiRead (howns a₆) _ _) (by simp) (by simp)
    fun o₇ f₇ => records_ite (fun hr => ⟨f₇, hne hr⟩) fun h₇ => ?_
  refine (compareStageReadback_records img.rootOff img.rootSize f₇).mono fun ret w' tr' hr => ?_
  obtain ⟨hframe, hgrow, hsame⟩ := hr
  refine ⟨hframe, fun hret => ⟨⟨.ubiRead readbackAddr "rootfs" img.rootSize, o₇, w₆⟩,
    hgrow.subset (by simp), ?_⟩⟩
  refine ⟨rfl, not_not.1 h₇, a₆, ⟨i, v, hl', ?_⟩, hsame hret⟩
  -- the readback window holds what the volume delivers
  obtain ⟨q, j, u, hq, hu, -, hram⟩ := World.ubiRead_of_zero (not_not.1 h₇)
  obtain rfl : UbiPart.ursusFactoryUbi = q := Option.some.inj (a₆.symm.trans hq)
  obtain ⟨rfl, rfl⟩ : i = j ∧ v = u := by
    have := hl'.symm.trans hu
    simpa using this
  rw [if_neg hsize] at hram
  have hwin : (exec (.ubiRead readbackAddr "rootfs" img.rootSize) o₇ w₆).2.ram =
      w₆.ram.blit readbackAddr (v.data.take img.rootSize) := hram
  have htake : (v.data.take img.rootSize).length = img.rootSize := by
    rw [List.length_take]
    omega
  show _ = (exec (.ubiRead readbackAddr "rootfs" img.rootSize) o₇ w₆).2.ram.slice _ _
  have hslice := Mem.slice_blit w₆.ram readbackAddr (v.data.take img.rootSize)
  rw [htake] at hslice
  rw [hwin, hslice]

theorem factoryKernelRead_contents {o : Outcome} {len : ℕ}
    (h : (exec (.factoryKernelRead readbackAddr len) o w).1 = 0) :
    kernelContents w len = (exec (.factoryKernelRead readbackAddr len) o w).2.ram.slice readbackAddr
      len := by
  have hround : len ≤ (len + 0x7ff) / 0x800 * 0x800 := by omega
  simp only [exec, World.factoryKernelRead] at h ⊢
  split_ifs at h ⊢ with hok
  · generalize (len + 0x7ff) / 0x800 * 0x800 = n at hround
    have hlen : (kernelContents w n).length = n := by simp [kernelContents]
    have hslice : (w.ram.blit readbackAddr (kernelContents w n)).slice readbackAddr n =
        kernelContents w n := by
      have hblit := Mem.slice_blit w.ram readbackAddr (kernelContents w n)
      rwa [hlen] at hblit
    show kernelContents w len = (w.ram.blit readbackAddr (kernelContents w n)).slice readbackAddr len
    rw [← Mem.take_slice _ _ hround, hslice, kernelContents, kernelContents, ← List.map_take,
      List.take_range, Nat.min_eq_left hround]
  · exact absurd h one_ne_zero

/-- **The kernel's half** keeps the frame, runs behind the readback of the root filesystem, and does
not succeed without its own. -/
theorem kernel_records (h : InstallFrame w₀ w) (hroot : ∃ e ∈ tr, RootReadBack img e) :
    Records exec (Installs img w₀) (fun ret w' tr' => InstallFrame w₀ w' ∧
      (ret = 0 → ∃ e ∈ tr', KernelReadBack img e)) (factoryInstallKernel img) w tr := by
  have hne : ∀ {ret : ℤ} {P : Prop}, ret ≠ 0 → ret = 0 → P := fun h h' => absurd h' h
  have hlater : ∀ es, ∃ e ∈ tr ++ es, RootReadBack img e := by
    intro es
    obtain ⟨e, he, hback⟩ := hroot
    exact ⟨e, List.mem_append_left es he, hback⟩
  apply records_next Cmd.factoryKernelErase
  intro o₁
  have f₁ := h.kernel (factoryKernelErase_confined o₁ w)
  refine ⟨⟨f₁, fun _ => hroot⟩, records_ite (fun hr => ⟨f₁, hne hr⟩) fun _ => ?_⟩
  generalize (exec .factoryKernelErase o₁ w).2 = w₁ at f₁ ⊢
  apply records_next
    (Cmd.factoryKernelWrite (stageAddr + img.kernelOff) img.kernelSize)
  intro o₂
  have f₂ := f₁.kernel (factoryKernelWrite_confined (stageAddr + img.kernelOff) img.kernelSize o₂ w₁)
  refine ⟨⟨f₂, fun _ => hlater _⟩, records_ite (fun hr => ⟨f₂, hne hr⟩) fun _ => ?_⟩
  generalize (exec (.factoryKernelWrite (stageAddr + img.kernelOff) img.kernelSize) o₂ w₁).2 = w₂
    at f₂ ⊢
  apply records_next (Cmd.factoryKernelRead readbackAddr img.kernelSize)
  intro o₃
  have f₃ := f₂.kernel (factoryKernelRead_confined img.kernelSize o₃ w₂)
  refine ⟨⟨f₃, fun _ => ?_⟩, records_ite (fun hr => ⟨f₃, hne hr⟩) fun h₃ => ?_⟩
  · rw [List.append_assoc]
    exact hlater _
  refine (compareStageReadback_records img.kernelOff img.kernelSize f₃).mono fun ret w' tr' hr => ?_
  obtain ⟨hframe, hgrow, hsame⟩ := hr
  refine ⟨hframe, fun hret => ⟨⟨.factoryKernelRead readbackAddr img.kernelSize, o₃, w₂⟩,
    hgrow.subset (by simp), ?_⟩⟩
  exact ⟨rfl, not_not.1 h₃, factoryKernelRead_contents (not_not.1 h₃), hsame hret⟩

/-! ## The installation -/

theorem uses_factoryKernelUsable (offs : List ℕ) (usable : ℕ) :
    Uses Cmd.Inert (factoryKernelUsable offs usable) := by
  induction offs generalizing usable with
  | nil => trivial
  | cons off offs ih => exact uses_checked trivial fun _ => ih _

theorem uses_factoryKernelCapacityOk (n : ℕ) : Uses Cmd.Inert (factoryKernelCapacityOk n) := by
  apply uses_bind (uses_factoryKernelUsable _ _)
  intro r
  cases r <;> trivial

theorem factoryRegisterMtd_inertStep (o : Outcome) (w : World) :
    InertStep w (exec .factoryRegisterMtd o w).2 := by
  simp only [exec, World.factoryRegisterMtd]
  split_ifs
  · exact .refl w
  · split
    all_goals exact ⟨rfl, rfl, rfl⟩

theorem factoryInstall_records (img : ImageState) (layout : Layout) (w : World) :
    Records exec (Installs img w) (fun ret w' tr' => InstallFrame w w' ∧
      (ret = 0 → ∃ e ∈ tr', KernelReadBack img e)) (factoryInstall img layout) w [] := by
  have h₀ : InstallFrame w w := ⟨fun _ _ => rfl, fun _ _ => rfl⟩
  have hne : ∀ {ret : ℤ} {P : Prop}, ret ≠ 0 → ret = 0 → P := fun h h' => absurd h' h
  refine records_ite (fun _ => ⟨h₀, hne (by decide)⟩) fun _ => ?_
  refine records_ite (fun _ => ⟨h₀, hne (by decide)⟩) fun _ => ?_
  refine records_ite (fun _ => ⟨h₀, hne (by decide)⟩) fun hsizes => ?_
  have hroot : img.rootSize ≠ 0 := (not_not.1 hsizes).2.2.1
  apply records_next Cmd.factoryRegisterMtd
  intro o
  have c₁ : Confined inFactoryUbi w (exec .factoryRegisterMtd o w).2 :=
    .of_inert (factoryRegisterMtd_inertStep o w)
  have f₁ := h₀.root c₁
  refine ⟨installs_of_root h₀ c₁ (by simp) (by simp), records_ite (fun hr => ⟨f₁, hne hr⟩) fun _ => ?_⟩
  refine (inert_records (uses_factoryKernelCapacityOk img.kernelSize) f₁).bind fun ret w' tr' hr => ?_
  refine records_ite (fun hret => ⟨hr.1, hne hret⟩) fun _ => ?_
  refine (rootfs_records hroot hr.1).bind fun ret w' tr' hr => ?_
  exact records_ite (fun hret => ⟨hr.1, hne hret⟩) fun hret =>
    kernel_records hr.1 (hr.2 (not_not.1 hret))

/-- **The stock-layout installation.** Whatever the image, the bad blocks and the commands that fail:
after every command and at the end the preserved flash is as it was, and so is the staged image;
a command touches the kernel partition only after the root filesystem has been read back from its
volume; and a success means that the kernel has been read back from flash. -/
theorem factory_install_frame (img : ImageState) (layout : Layout) (outs : ℕ → Outcome) (w : World) :
    let r := run exec (factoryInstall img layout) outs w
    (∀ e ∈ r.trace, InstallFrame w (e.after exec)) ∧ InstallFrame w r.world ∧
      Recorded (fun before e => TouchesKernel e → ∃ e' ∈ before, RootReadBack img e') r.trace ∧
      (r.val = 0 → ∃ e ∈ r.trace, KernelReadBack img e) := by
  intro r
  have h := (factoryInstall_records img layout w).run_of outs (recorded_nil _)
  rw [List.nil_append] at h
  obtain ⟨hrec, hframe, hdone⟩ := h
  refine ⟨fun e he => ?_, hframe, hrec.mono fun _ _ h => h.order, hdone⟩
  obtain ⟨before, after, hsplit⟩ := List.append_of_mem he
  exact (hrec before e after hsplit).frame

end UrsusBoot
