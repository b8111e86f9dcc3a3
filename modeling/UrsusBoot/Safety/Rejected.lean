import UrsusBoot.Engine.Reads
import UrsusBoot.Format.Writer
import UrsusBoot.Web.Archive
import UrsusBoot.Web.Install

/-!
# Rejected images

Validation records what it finds while it walks over an archive and may reject the image later; the
install endpoints go by what was recorded.
-/

namespace UrsusBoot

open Prog

/-- `ursus_validate_staged` answers with an error or leaves a reason other than OK. -/
def Rejected (r : ℤ × ImageState) : Prop := r.1 ≠ 0 ∨ r.2.reasonClass ≠ .ok

/-- Commands that erase, write or rearrange flash. -/
def Cmd.Stores : Cmd → Prop
  | .factoryUbiErase | .factoryKernelErase | .factoryKernelWrite .. | .ubiCreate .. | .ubiRemove _
  | .ubiRename .. | .ubiWrite .. | .ubiRenameVolumes _ | .mtdErase .. | .mtdWrite .. | .nandErase ..
  | .nandWrite .. | .envSave => True
  | _ => False

/-- No consumer takes the image: both endpoints refuse it whatever the header and the rest of the
state, and the installation answers with an error before it stores anything. -/
structure Uninstallable (img : ImageState) (layout : Layout) : Prop where
  stock : ∀ (h : List UInt8) (s : Web) (outs : ℕ → Outcome) (w : World), s.img = img →
    s.currentLayout = layout → (run exec (installStockLayout h s) outs w).val.Refused
  ubi : ∀ (h : List UInt8) (s : Web) (outs : ℕ → Outcome) (w : World), s.img = img →
    s.currentLayout = layout → (run exec (installUbi h s) outs w).val.Refused
  install : ∀ (outs : ℕ → Outcome) (w : World),
    (run exec (factoryInstall img layout) outs w).val ≠ 0 ∧
      ∀ e ∈ (run exec (factoryInstall img layout) outs w).trace, ¬ e.cmd.Stores

/-! ## The consumers -/

theorem installStockLayout_refused {h : List UInt8} {s : Web} (outs : ℕ → Outcome) (w : World)
    (hready : ¬ s.img.StockReady s.currentLayout) :
    (run exec (installStockLayout h s) outs w).val.Refused := by
  have hy : Gives Served.Refused (installStockLayout h s) := by
    refine yields_exit rfl fun _ => ?_
    refine yields_exit rfl fun hno => ?_
    exact absurd hready hno
  exact hy.run_of outs w fun _ _ => trivial

theorem installStockLayout_armed {h : List UInt8} {s : Web} (outs : ℕ → Outcome) (w : World)
    (hconfirm : confirmed h 32 "INSTALL-OPENWRT-STOCK-LAYOUT" = true)
    (hready : s.img.StockReady s.currentLayout) :
    ¬ (run exec (installStockLayout h s) outs w).val.Refused := by
  have hy : Gives (fun r => ¬ r.Refused) (installStockLayout h s) := by
    apply yields_ite
    · intro hno
      simp [hconfirm] at hno
    · intro _
      apply yields_ite
      · intro hno
        exact absurd hready hno
      · intro _
        apply yields_then
        intro _
        apply yields_ret
        show (200 : ℕ) ≠ 409
        decide
  exact hy.run_of outs w fun _ _ => trivial

theorem installUbi_refused {h : List UInt8} {s : Web} (outs : ℕ → Outcome) (w : World)
    (hready : ¬ s.img.UbiReady) : (run exec (installUbi h s) outs w).val.Refused := by
  have hy : Gives Served.Refused (installUbi h s) := by
    refine yields_exit rfl fun _ => ?_
    refine yields_exit rfl fun hno => ?_
    exact absurd hready hno
  exact hy.run_of outs w fun _ _ => trivial

theorem factoryInstall_refused {img : ImageState} {layout : Layout} (outs : ℕ → Outcome) (w : World)
    (hready : ¬ (img.Installable ∧ layout.Migratable)) :
    (run exec (factoryInstall img layout) outs w).val ≠ 0 ∧
      ∀ e ∈ (run exec (factoryInstall img layout) outs w).trace, ¬ e.cmd.Stores := by
  by_cases hi : img.Installable
  · have hm : ¬ layout.Migratable := fun hm => hready ⟨hi, hm⟩
    have heq : factoryInstall img layout = Prog.ret (-eperm) := by
      unfold factoryInstall
      rw [if_neg (not_not.2 hi), if_pos hm]
      rfl
    rw [heq]
    exact ⟨by show (-1 : ℤ) ≠ 0; decide, fun e he => nomatch he⟩
  · have heq : factoryInstall img layout = Prog.ret (-einval) := by
      unfold factoryInstall
      rw [if_pos hi]
      rfl
    rw [heq]
    exact ⟨by show (-22 : ℤ) ≠ 0; decide, fun e he => nomatch he⟩

theorem uninstallable_of_not_ready {img : ImageState} {layout : Layout}
    (hstock : ¬ img.StockReady layout) (hubi : ¬ img.UbiReady)
    (hinstall : ¬ (img.Installable ∧ layout.Migratable)) : Uninstallable img layout := by
  refine ⟨?_, ?_, fun outs w => factoryInstall_refused outs w hinstall⟩
  · rintro h s outs w rfl rfl
    exact installStockLayout_refused outs w hstock
  · rintro h s outs w rfl -
    exact installUbi_refused outs w hubi

/-! ## The archives that escape -/

def members (buf : List UInt8) : List TarEntry := (tarEntries buf (buf.length / 512 + 1) 0).1

/-- The archive ends in a member that is cut short. -/
def cutShort (buf : List UInt8) : Bool := (tarEntries buf (buf.length / 512 + 1) 0).2

/-- A non-UBI sysupgrade for this device, on a layout it may be installed on, whose kernel verifies
before the archive turns out to be unusable: a root filesystem is not a squashfs or is missing, or a
member is cut short. -/
def Escapes (L : FitLib) (layout : Layout) (buf : List UInt8) : Prop :=
  buf.length ≤ stageMax ∧ tarMagic buf = true ∧ (stagedMeta buf).valid = true ∧
    (stagedMeta buf).deviceFactory = true ∧ layout.Migratable ∧
    kernelVerifies L buf (visited buf (members buf)) = true ∧
    ((members buf).any (TarEntry.badRoot · buf) = true ∨ cutShort buf = true ∨
      (visited buf (members buf)).any TarEntry.isRoot = false)

section Judged

variable (L : FitLib) (layout : Layout) (buf : List UInt8)

theorem validateFactory_fields (s : ImageState) (hk : s.kernelFound = false)
    (hr : s.rootFound = false) (hf : s.fitValid = false) :
    let r := validateFactory L buf s
    (r.2.type = s.type ∧ r.2.metadataValid = s.metadataValid ∧
      r.2.deviceCompatible = s.deviceCompatible) ∧
    (r.2.fitValid && r.2.fitHashesValid) = kernelVerifies L buf (visited buf (members buf)) ∧
    (kernelVerifies L buf (visited buf (members buf)) = true → (r.1 ≠ 0 ↔
      ((members buf).any (TarEntry.badRoot · buf) = true ∨ cutShort buf = true ∨
        (visited buf (members buf)).any TarEntry.isRoot = false))) := by
  have hstate := walkEntries_state L buf (cutShort buf) (members buf) s
  have hstatus := walkEntries_status L buf (cutShort buf) (members buf) s
  obtain ⟨hkeep, hkernel, hroot, hfit⟩ := foldl_record_fields L buf (visited buf (members buf)) s
  rw [← hstate] at hkeep hkernel hroot hfit
  rw [hk, Bool.false_or] at hkernel
  rw [hr, Bool.false_or] at hroot
  rw [hf, Bool.false_and] at hfit
  have hwalk : tarWalk L buf (buf.length / 512 + 1) 0 s =
      walkEntries L buf (cutShort buf) (members buf) s := tarWalk_eq L buf _ 0 s
  have hfac : validateFactory L buf s =
      let r := walkEntries L buf (cutShort buf) (members buf) s
      if r.1 ≠ 0 then r
      else if !r.2.kernelFound || !r.2.rootFound || !r.2.fitValid || !r.2.fitHashesValid then
        (-einval, r.2)
      else (0, r.2) := by
    rw [← hwalk]
    rfl
  generalize walkEntries L buf (cutShort buf) (members buf) s = r at *
  have hsnd : (validateFactory L buf s).2 = r.2 := by
    rw [hfac]
    dsimp only
    split_ifs <;> rfl
  intro r'
  refine ⟨?_, ?_, ?_⟩
  · show (validateFactory L buf s).2.type = _ ∧ _
    rw [hsnd]
    exact hkeep
  · show ((validateFactory L buf s).2.fitValid && _) = _
    rw [hsnd]
    exact hfit
  intro hver
  have hfit' : r.2.fitValid = true ∧ r.2.fitHashesValid = true := by
    have h : (r.2.fitValid && r.2.fitHashesValid) = true := hfit.trans hver
    simpa using h
  have hkernel' : r.2.kernelFound = true := by
    rw [hkernel]
    exact any_isKernel_of_verifies L buf hver
  show (validateFactory L buf s).1 ≠ 0 ↔ _
  rw [hfac]
  dsimp only
  rw [hstatus, hkernel', hroot, hfit'.1, hfit'.2]
  by_cases hbad : (members buf).any (TarEntry.badRoot · buf) = true
  · simp [hbad, hstatus]
  · by_cases hcut : cutShort buf = true
    · simp [hbad, hcut, hstatus]
    · by_cases hany : (visited buf (members buf)).any TarEntry.isRoot = true
      · simp [hbad, hcut, hany]
      · simp [hbad, hcut, hany]

/-- What validation leaves for the consumers: a rejected image is taken only if the archive
escapes, and an archive that escapes is rejected. -/
structure Judged (r : ℤ × ImageState) : Prop where
  stock : Rejected r → (r.2.StockReady layout ↔ Escapes L layout buf)
  ubi : Rejected r → ¬ r.2.UbiReady
  install : Rejected r → r.2.Installable → layout.Migratable → Escapes L layout buf
  rejected : Escapes L layout buf → Rejected r

variable {L layout buf}

theorem verdict_of_type {r : ℤ × ImageState} (htar : ¬ (buf.length ≤ stageMax ∧ tarMagic buf = true))
    (htype : r.2.type ≠ .nonubiSysupgrade) (hubi : Rejected r → ¬ r.2.UbiReady) :
    Judged L layout buf r := by
  have hesc : ¬ Escapes L layout buf := fun h => htar ⟨h.1, h.2.1⟩
  refine ⟨fun _ => ?_, hubi, fun _ hi _ => absurd hi.1 htype, fun h => absurd h hesc⟩
  exact ⟨fun h => absurd h.1 htype, fun h => absurd h hesc⟩

theorem verdict_of_reason {r : ℤ × ImageState}
    (htar : ¬ (buf.length ≤ stageMax ∧ tarMagic buf = true))
    (htype : r.2.type ≠ .nonubiSysupgrade) (hreason : r.2.reasonClass ≠ .ok) :
    Judged L layout buf r :=
  verdict_of_type htar htype fun _ h => hreason h.2.1

theorem stagedTar_verdict (s : ImageState) (hlen : buf.length ≤ stageMax)
    (htar : tarMagic buf = true) (hk : s.kernelFound = false) (hr : s.rootFound = false)
    (hf : s.fitValid = false) (hm : s.metadataValid = (stagedMeta buf).valid) :
    Judged L layout buf (stagedTar L layout (stagedMeta buf) buf s) := by
  obtain ⟨⟨ht, hmeta, hdev⟩, hfit, hstatus⟩ := validateFactory_fields L buf
    { s with type := .nonubiSysupgrade, deviceCompatible := (stagedMeta buf).deviceFactory } hk hr hf
  have hdef : stagedTar L layout (stagedMeta buf) buf s =
      let r := validateFactory L buf
        { s with type := .nonubiSysupgrade, deviceCompatible := (stagedMeta buf).deviceFactory }
      if r.1 ≠ 0 then (r.1, r.2.setReason .badContainer
        "OpenWrt non-UBI sysupgrade tar/kernel/root validation failed")
      else if !(stagedMeta buf).valid then (-ebadmsg, r.2.setReason .metadataMissing
        "OpenWrt non-UBI sysupgrade fwtool metadata, CRC or supported_devices is missing/invalid")
      else if !r.2.deviceCompatible then (-enodev, r.2.setReason .deviceMismatch
        "OpenWrt non-UBI sysupgrade supported_devices does not contain nokia,xg-040g-md")
      else if ¬ layout.Migratable then (0, r.2.setReason .layoutUnsupported
        "OpenWrt non-UBI sysupgrade is valid but current flash layout is not installable by this release")
      else (0, r.2.setReason .ok
        "OpenWrt non-UBI sysupgrade valid; stock-layout install/update is available after explicit confirmation") :=
    rfl
  generalize validateFactory L buf
    { s with type := .nonubiSysupgrade, deviceCompatible := (stagedMeta buf).deviceFactory } = r at *
  dsimp only at ht hmeta hdev hfit hstatus hdef
  rw [hm] at hmeta
  rw [hdef]
  have hand : (r.2.fitValid = true ∧ r.2.fitHashesValid = true) ↔
      kernelVerifies L buf (visited buf (members buf)) = true := by
    rw [← hfit, Bool.and_eq_true]
  -- once the walk has answered, an archive escapes if it objects to an image that is recorded as good
  have hesc : Escapes L layout buf ↔ (stagedMeta buf).valid = true ∧
      (stagedMeta buf).deviceFactory = true ∧ layout.Migratable ∧
      (r.2.fitValid = true ∧ r.2.fitHashesValid = true) ∧ r.1 ≠ 0 := by
    rw [hand]
    constructor
    · rintro ⟨-, -, hv, hd, hl, hver, hbad⟩
      exact ⟨hv, hd, hl, hver, (hstatus hver).2 hbad⟩
    · rintro ⟨hv, hd, hl, hver, hne⟩
      exact ⟨hlen, htar, hv, hd, hl, hver, (hstatus hver).1 hne⟩
  have hubi : ∀ rc text, ¬ (r.2.setReason rc text).UbiReady := by
    intro rc text h
    have htype : r.2.type = .ubiSysupgrade := h.1
    rw [ht] at htype
    exact absurd htype (by decide)
  by_cases hz : r.1 ≠ 0
  · rw [if_pos hz]
    refine ⟨fun _ => ?_, fun _ => hubi _ _, ?_, fun _ => .inl hz⟩
    · rw [hesc]
      constructor
      · rintro ⟨-, hv, hd, hfv, hfh, hl⟩
        exact ⟨hmeta.symm.trans hv, hdev.symm.trans hd, hl, ⟨hfv, hfh⟩, hz⟩
      · rintro ⟨hv, hd, hl, ⟨hfv, hfh⟩, -⟩
        exact ⟨ht, hmeta.trans hv, hdev.trans hd, hfv, hfh, hl⟩
    · rintro - ⟨-, hv, hd, hfv, hfh, -, -⟩ hl
      exact hesc.2 ⟨hmeta.symm.trans hv, hdev.symm.trans hd, hl, ⟨hfv, hfh⟩, hz⟩
  · rw [if_neg hz]
    have hno : ¬ Escapes L layout buf := fun h => hz (hesc.1 h).2.2.2.2
    -- an image that is rejected here lacks something each consumer asks for
    have hlacks : ∀ (ret : ℤ) (rc : ReasonClass) (text : String),
        ((stagedMeta buf).valid = false ∨ r.2.deviceCompatible = false ∨ ¬ layout.Migratable) →
        Judged L layout buf (ret, r.2.setReason rc text) := by
      intro ret rc text hlack
      have hall : ¬ (r.2.metadataValid = true ∧ r.2.deviceCompatible = true ∧ layout.Migratable) := by
        rintro ⟨hv, hd, hl⟩
        rcases hlack with h | h | h
        · rw [hmeta, h] at hv
          exact Bool.false_ne_true hv
        · rw [h] at hd
          exact Bool.false_ne_true hd
        · exact h hl
      refine ⟨fun _ => ⟨?_, fun h => absurd h hno⟩, fun _ => hubi _ _, ?_, fun h => absurd h hno⟩
      · rintro ⟨-, hv, hd, -, -, hl⟩
        exact absurd ⟨hv, hd, hl⟩ hall
      · rintro - ⟨-, hv, hd, -⟩ hl
        exact absurd ⟨hv, hd, hl⟩ hall
    by_cases hv : (stagedMeta buf).valid = true
    · rw [if_neg (by simp [hv])]
      by_cases hd : r.2.deviceCompatible = true
      · rw [if_neg (by simp [hd])]
        by_cases hl : layout.Migratable
        · rw [if_neg (not_not.2 hl)]
          -- accepted
          have hok : ¬ Rejected ((0 : ℤ), r.2.setReason .ok
              "OpenWrt non-UBI sysupgrade valid; stock-layout install/update is available after explicit confirmation") := by
            rintro (h | h)
            · exact h rfl
            · exact h rfl
          exact ⟨fun h => absurd h hok, fun h => absurd h hok, fun h => absurd h hok,
            fun h => absurd h hno⟩
        · rw [if_pos hl]
          exact hlacks _ _ _ (.inr (.inr hl))
      · rw [if_pos (by simp [hd])]
        exact hlacks _ _ _ (.inr (.inl (by simpa using hd)))
    · rw [if_pos (by simp [hv])]
      exact hlacks _ _ _ (.inl (by simpa using hv))

end Judged

/-! ## FIT images -/

section Fit

variable {L : FitLib} {layout : Layout} {buf : List UInt8}

theorem inspectFitImages_type (fit : List UInt8) (s : ImageState) :
    (inspectFitImages L fit s).type = s.type := by
  unfold inspectFitImages
  induction L.images fit generalizing s with
  | nil => rfl
  | cons node nodes ih => exact ih (inspectNode s node)

theorem fdtPlatform_type (fdt : List UInt8) (s : ImageState) :
    (fdtPlatform L fdt s).2.type = s.type := by
  unfold fdtPlatform
  split_ifs
  · rfl
  · split
    · rfl
    · dsimp only
      split_ifs <;> rfl

theorem fitDefaultPlatform_type (addr : ℕ) (fit : List UInt8) (s : ImageState) :
    Gives (fun r => r.2.type = s.type) (fitDefaultPlatform L addr fit s) := by
  unfold fitDefaultPlatform
  split
  · refine yields_exit rfl fun _ => ?_
    dsimp only
    refine yields_exit rfl fun _ => ?_
    split
    · exact yields_ret rfl
    · refine yields_exit rfl fun _ => ?_
      apply yields_ite
      · intro _
        apply yields_then
        intro ok
        refine yields_exit rfl fun _ => ?_
        apply yields_then
        intro _
        exact yields_ret (fdtPlatform_type _ _)
      · intro _
        exact yields_ret (fdtPlatform_type _ _)
  · exact yields_ret rfl

theorem stagedUbi_verdict (m : FwtoolMeta) (pret : ℤ) (s : ImageState) :
    (stagedUbi layout m pret s).2.type = s.type ∧
      ((stagedUbi layout m pret s).2.reasonClass = .ok → (stagedUbi layout m pret s).1 = 0) := by
  unfold stagedUbi
  dsimp only
  split_ifs
  · exact ⟨rfl, fun h => by cases h⟩
  · exact ⟨rfl, fun h => by cases h⟩
  · exact ⟨rfl, fun h => by cases h⟩
  · cases layout with
    | unknown => exact ⟨rfl, fun h => by cases h⟩
    | stock => exact ⟨rfl, fun _ => rfl⟩
    | openwrtStockLayout => exact ⟨rfl, fun _ => rfl⟩
    | openwrtUbi => exact ⟨rfl, fun _ => rfl⟩

theorem stagedFit_yields (m : FwtoolMeta) (addr : ℕ) (s : ImageState)
    (htar : ¬ (buf.length ≤ stageMax ∧ tarMagic buf = true)) :
    Gives (Judged L layout buf) (stagedFit L layout m addr buf s) := by
  unfold stagedFit
  dsimp only
  refine yields_exit (verdict_of_reason htar (by simp [ImageState.setReason])
      (by simp [ImageState.setReason])) fun _ => ?_
  refine yields_exit (verdict_of_reason htar (by simp [ImageState.setReason])
      (by simp [ImageState.setReason])) fun _ => ?_
  apply yields_ite
  · intro _
    apply yields_bind (fitDefaultPlatform_type addr buf _)
    intro r hr
    apply yields_ret
    apply verdict_of_reason htar
    · show r.2.type ≠ _
      rw [hr, inspectFitImages_type]
      simp
    · simp [ImageState.setReason]
  · intro _
    apply yields_bind (fitDefaultPlatform_type addr buf _)
    intro r hr
    obtain ⟨htype, hok⟩ : (stagedUbi layout m r.1 r.2).2.type = r.2.type ∧
        ((stagedUbi layout m r.1 r.2).2.reasonClass = .ok → (stagedUbi layout m r.1 r.2).1 = 0) :=
      stagedUbi_verdict m r.1 r.2
    apply yields_ret
    apply verdict_of_type htar
    · rw [htype, hr, inspectFitImages_type]
      simp
    · intro hrej h
      have hreason := h.2.1
      rcases hrej with hne | hne
      · exact hne (hok hreason)
      · exact hne hreason

/-- **Validation**: whatever the bytes, the verdict is one the consumers can be held to. -/
theorem verdict_yields (addr : ℕ) :
    Gives (Judged L layout buf) (stagedVerdict L layout addr buf) := by
  unfold stagedVerdict
  dsimp only
  apply yields_ite
  · rintro rfl
    apply yields_ret
    apply verdict_of_reason
    · rintro ⟨-, h⟩
      exact absurd h (by decide)
    · simp [ImageState.setReason, resetImageState]
    · simp [ImageState.setReason]
  intro _
  apply yields_ite
  · intro hlong
    apply yields_ret
    apply verdict_of_reason
    · rintro ⟨h, -⟩
      omega
    · simp [ImageState.setReason, resetImageState]
    · simp [ImageState.setReason]
  intro hlen
  apply yields_ite
  · intro htar
    exact yields_ret (stagedTar_verdict _ (Nat.le_of_not_lt hlen) htar rfl rfl rfl rfl)
  intro htar
  have hno : ¬ (buf.length ≤ stageMax ∧ tarMagic buf = true) := fun h => htar h.2
  refine yields_exit (verdict_of_reason hno (by simp [ImageState.setReason])
      (by simp [ImageState.setReason])) fun _ => ?_
  apply yields_ite
  · intro _
    exact stagedFit_yields _ addr _ hno
  · intro _
    exact yields_ret (verdict_of_reason hno (by simp [ImageState.setReason])
      (by simp [ImageState.setReason]))

end Fit

/-! ## Rejected images are not installable -/

/-- A request that confirms the stock-layout installation. -/
def stockInstallRequest : List UInt8 :=
  asciiBytes ("POST /api/install-openwrt-stock-layout HTTP/1.1\r\n" ++
    "X-Ursus-Confirm: INSTALL-OPENWRT-STOCK-LAYOUT\r\n\r\n")

theorem stockInstallRequest_confirmed :
    confirmed stockInstallRequest 32 "INSTALL-OPENWRT-STOCK-LAYOUT" = true := by
  decide

theorem validateStaged_verdict (L : FitLib) (layout : Layout) (addr len : ℕ) (outs : ℕ → Outcome)
    (w : World) : Judged L layout (w.ram.slice addr len)
      (run exec (validateStaged L layout addr len) outs w).val := by
  have h : Ensures
      (fun r _ => Judged L layout (w.ram.slice addr len) r) (validateStaged L layout addr len) w := by
    apply spec_next (Cmd.logf _)
    intro o _
    refine ⟨trivial, ?_⟩
    apply spec_next (Cmd.readMem addr len)
    intro o' _
    refine ⟨trivial, ?_⟩
    have hbuf : (exec (Cmd.readMem addr len) o' (exec (Cmd.logf (.firmwareValidation len layout.name))
        o w).2).1 = w.ram.slice addr len := rfl
    rw [hbuf]
    refine (verdict_yields addr _).bind fun r w' hr => ?_
    apply spec_next (Cmd.logf _)
    intro _ _
    refine ⟨trivial, ?_⟩
    apply spec_next (Cmd.logf _)
    intro _ _
    exact ⟨trivial, hr⟩
  exact (h.run_of outs fun _ _ => trivial).2

theorem not_uninstallable_of_escapes {L : FitLib} {layout : Layout} {buf : List UInt8}
    {r : ℤ × ImageState} (hv : Judged L layout buf r) (hesc : Escapes L layout buf) (w : World) :
    ¬ (Rejected r → Uninstallable r.2 layout) := by
  intro h
  have hrej := hv.rejected hesc
  have hready := (hv.stock hrej).2 hesc
  set s : Web := { img := r.2, currentLayout := layout }
  have hrefused := (h hrej).stock stockInstallRequest s (fun _ => .ok) w rfl rfl
  exact installStockLayout_armed (fun _ => .ok) w stockInstallRequest_confirmed hready hrefused

/-- **A rejected image is not installable**, for every staged image, layout and FIT library, unless
the image is an archive that escapes: then it is rejected, and armed all the same. -/
theorem rejected_not_installable (L : FitLib) (layout : Layout) (addr len : ℕ) (outs : ℕ → Outcome)
    (w : World) :
    let r := (run exec (validateStaged L layout addr len) outs w).val
    (Rejected r → Uninstallable r.2 layout) ↔ ¬ Escapes L layout (w.ram.slice addr len) := by
  intro r
  have hv : Judged L layout (w.ram.slice addr len) r := validateStaged_verdict L layout addr len outs w
  constructor
  · intro h hesc
    exact not_uninstallable_of_escapes hv hesc w h
  · intro hesc hrej
    apply uninstallable_of_not_ready
    · exact fun h => hesc ((hv.stock hrej).1 h)
    · exact hv.ubi hrej
    · exact fun h => hesc (hv.install hrej h.1 h.2)

/-! ### An archive with a good kernel and a bad root filesystem -/

/-- A tar header. The texts are given as bytes, which the kernel reads faster than strings. -/
def tarHeader (name size : List UInt8) : List UInt8 :=
  name ++ List.replicate (124 - name.length) 0 ++ size ++ List.replicate (133 - size.length) 0 ++
    [0x75, 0x73, 0x74, 0x61, 0x72] ++ List.replicate 250 0

/-- `sysupgrade/kernel`. -/
def kernelName : List UInt8 :=
  [0x73, 0x79, 0x73, 0x75, 0x70, 0x67, 0x72, 0x61, 0x64, 0x65, 0x2f, 0x6b, 0x65, 0x72, 0x6e,
   0x65, 0x6c]

/-- `sysupgrade/root`. -/
def rootName : List UInt8 :=
  [0x73, 0x79, 0x73, 0x75, 0x70, 0x67, 0x72, 0x61, 0x64, 0x65, 0x2f, 0x72, 0x6f, 0x6f, 0x74]

/-- The metadata: `supported_devices` is the array of `nokia,xg-040g-md`. -/
def archiveJson : List UInt8 :=
  [0x7b, 0x22, 0x73, 0x75, 0x70, 0x70, 0x6f, 0x72, 0x74, 0x65, 0x64, 0x5f, 0x64, 0x65, 0x76,
   0x69, 0x63, 0x65, 0x73, 0x22, 0x3a, 0x5b, 0x22, 0x6e, 0x6f, 0x6b, 0x69, 0x61, 0x2c, 0x78,
   0x67, 0x2d, 0x30, 0x34, 0x30, 0x67, 0x2d, 0x6d, 0x64, 0x22, 0x5d, 0x7d]

/-- An archive for this device, with its fwtool trailer: the kernel is a FIT, the root filesystem is
four times `X`. -/
def escapingArchive : List UInt8 :=
  fwtoolImage (tarHeader kernelName [0x35, 0x32, 0x37] ++ smallFit ++ List.replicate 169 0 ++
    tarHeader rootName [0x34] ++ [0x58, 0x58, 0x58, 0x58]) archiveJson

/-- A board on the stock layout with the archive staged. -/
def archiveWorld : World where
  ram := Mem.blit (fun _ => 0) stageAddr escapingArchive
  nand := fun _ => 0xff
  badBlock := fun _ => false
  geometry := some .supported
  lebSize := 0x1f000
  attached := none
  ubi := fun _ => ⟨fun _ => none, 0, 0, 0, 0⟩
  updatePart := none
  ubiMtdReady := false
  factoryMtdReady := false
  rootfsDataMax := 0
  envRedund := false
  clock := 0

theorem length_tarHeader {name size : List UInt8} (hname : name.length ≤ 124)
    (hsize : size.length ≤ 133) : (tarHeader name size).length = 512 := by
  simp only [tarHeader, List.length_append, List.length_replicate, List.length_cons, List.length_nil]
  omega

theorem length_kernelHeader : (tarHeader kernelName [0x35, 0x32, 0x37]).length = 512 :=
  length_tarHeader (by decide) (by decide)

theorem length_archive (a b c d : UInt8) :
    (tarHeader kernelName [0x35, 0x32, 0x37] ++ smallFit ++ List.replicate 169 0 ++
      tarHeader rootName [0x34] ++ [a, b, c, d]).length = 1540 := by
  have hroot : (tarHeader rootName [0x34]).length = 512 := length_tarHeader (by decide) (by decide)
  simp only [List.length_append, length_kernelHeader, length_smallFit, List.length_replicate, hroot,
    List.length_cons, List.length_nil]

theorem stagedMeta_archiveJson {body : List UInt8} (hbody : body.length = 1540) :
    (fwtoolImage body archiveJson).length = 1606 ∧
    stagedMeta (fwtoolImage body archiveJson) = ⟨true, true, true, true, false, 1548, 42⟩ := by
  have hdevices : jsonExactSupportedDevices archiveJson = ⟨true, true, false⟩ := by decide
  have hjson : archiveJson.length = 42 := rfl
  constructor
  · rw [length_fwtoolImage, hbody, hjson]
  · unfold stagedMeta
    rw [parseFwtoolMeta_fwtoolImage (by rw [hjson]; decide), hbody, hdevices, hjson]

theorem escapingArchive_meta : escapingArchive.length = 1606 ∧
    stagedMeta escapingArchive = ⟨true, true, true, true, false, 1548, 42⟩ :=
  stagedMeta_archiveJson (length_archive _ _ _ _)

theorem members_escapingArchive :
    members escapingArchive = [⟨kernelName, 512, 343⟩, ⟨rootName, 1536, 4⟩] := by
  decide +kernel

theorem bytesAt_kernel (rest : List UInt8) :
    bytesAt (tarHeader kernelName [0x35, 0x32, 0x37] ++ (smallFit ++ rest)) 512 343 = smallFit := by
  rw [bytesAt, List.drop_left' length_kernelHeader, List.take_left' length_smallFit]

theorem bytesAt_escapingArchive : bytesAt escapingArchive 512 343 = smallFit := by
  simp only [escapingArchive, fwtoolImage, List.append_assoc, bytesAt_kernel]

theorem escapingArchive_escapes : Escapes boardFitLib .stock escapingArchive := by
  have hkernel : TarEntry.isKernel ⟨kernelName, 512, 343⟩ = true := by decide
  have hroot : TarEntry.isKernel ⟨rootName, 1536, 4⟩ = false := by decide
  have hgood : TarEntry.badRoot ⟨kernelName, 512, 343⟩ escapingArchive = false := by
    simp only [TarEntry.badRoot, TarEntry.isRoot, hkernel, Bool.not_true, Bool.false_and]
  have hbad : TarEntry.badRoot ⟨rootName, 1536, 4⟩ escapingArchive = true := by decide +kernel
  have hverifies : TarEntry.verifies ⟨kernelName, 512, 343⟩ escapingArchive boardFitLib = true := by
    have hfit := verifyFit_smallFit []
    rw [List.append_nil] at hfit
    simp only [TarEntry.verifies, bytesAt_escapingArchive, hfit]
    rfl
  have hvisited : visited escapingArchive (members escapingArchive) =
      [⟨kernelName, 512, 343⟩, ⟨rootName, 1536, 4⟩] := by
    simp only [members_escapingArchive, visited, hgood, hbad, Bool.false_eq_true, if_false, if_true]
  refine ⟨?_, by decide +kernel, ?_, ?_, .inl rfl, ?_, .inl ?_⟩
  · rw [escapingArchive_meta.1]
    decide
  · rw [escapingArchive_meta.2]
    rfl
  · rw [escapingArchive_meta.2]
  · simp only [hvisited, kernelVerifies, List.foldl_cons, List.foldl_nil, hkernel, hroot, if_true,
      Bool.false_eq_true, if_false, hverifies]
  · simp only [members_escapingArchive, List.any_cons, List.any_nil, hbad, Bool.or_true,
      Bool.true_or]

/-- The archive is rejected, and the installation can be armed with it. -/
theorem bad_root_archive_armed :
    ¬ (Rejected (run exec (validateStaged boardFitLib .stock stageAddr escapingArchive.length)
        (fun _ => .ok) archiveWorld).val →
      Uninstallable (run exec (validateStaged boardFitLib .stock stageAddr escapingArchive.length)
        (fun _ => .ok) archiveWorld).val.2 .stock) := by
  have hstaged : archiveWorld.ram.slice stageAddr escapingArchive.length = escapingArchive :=
    Mem.slice_blit _ _ _
  have hv := validateStaged_verdict boardFitLib .stock stageAddr escapingArchive.length
    (fun _ => .ok) archiveWorld
  rw [hstaged] at hv
  exact not_uninstallable_of_escapes hv escapingArchive_escapes archiveWorld

end UrsusBoot
