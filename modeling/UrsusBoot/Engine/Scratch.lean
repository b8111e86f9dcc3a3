import UrsusBoot.Engine.Issues

/-!
# RAM the engines write

The staging windows of the uploads lie below the readback window, and the engines store nothing
below it.
-/

namespace UrsusBoot

open Prog

def Cmd.WritesRam (x : ℕ) : Cmd → Prop
  | .ubiRead addr _ _ | .ubiReadWhole addr _ | .mtdRead _ addr _ _ | .factoryKernelRead addr _ =>
    addr ≤ x
  | .writeMem addr bs => addr ≤ x ∧ x < addr + bs.length
  | _ => False

theorem World.ubiRead_ram {x addr : ℕ} (h : x < addr) (w : World) (o : Outcome) (n : String)
    (size : ℕ) : (w.ubiRead o addr n size).2.ram x = w.ram x := by
  unfold World.ubiRead
  repeat' split
  all_goals simp [Mem.blit_apply_of_lt _ _ h]

theorem World.ubiPart_ram (w : World) (o : Outcome) (p : UbiPart) :
    (w.ubiPart o p).2.ram = w.ram := by
  unfold World.ubiPart
  split_ifs <;> simp

theorem World.ubiWrite_ram (w : World) (o : Outcome) (n : String) (bs : List UInt8) :
    (w.ubiWrite o n bs).2.ram = w.ram := by
  unfold World.ubiWrite
  repeat' split
  all_goals simp

variable {c : Cmd}

/-- **Frame of RAM.** -/
theorem exec_ram {x : ℕ} (h : ¬ c.WritesRam x) (o : Outcome) (w : World) :
    (exec c o w).2.ram x = w.ram x := by
  cases c with
  | ubiRead addr n size => exact World.ubiRead_ram (not_le.1 h) w o n size
  | ubiReadWhole addr n => exact World.ubiRead_ram (not_le.1 h) w o n 0
  | mtdRead p addr off len =>
    have hx : x < addr := not_le.1 h
    simp only [exec]
    split_ifs
    · exact Mem.blit_apply_of_lt _ _ hx
    · exact Mem.blit_apply_of_lt _ _ hx
  | factoryKernelRead addr len =>
    have hx : x < addr := not_le.1 h
    simp only [exec, World.factoryKernelRead]
    split_ifs
    · exact Mem.blit_apply_of_lt _ _ hx
    · exact Mem.blit_apply_of_lt _ _ hx
  | writeMem addr bs =>
    have hx : ¬ (addr ≤ x ∧ x < addr + bs.length) := h
    by_cases hlow : x < addr
    · exact Mem.blit_apply_of_lt _ _ hlow
    · exact Mem.blit_apply_of_ge _ (by omega)
  | ubiCheck | ubiCreate | ubiRemove | ubiRename | ubiOpenVolume => simp [exec]
  | ubiWrite addr n size => simp [exec, World.ubiWrite_ram]
  | ubiPart p => exact congrFun (World.ubiPart_ram w o p) x
  | envSave =>
    simp only [exec, World.envSave]
    split_ifs <;> simp [World.ubiPart_ram, World.ubiWrite_ram]
  | _ =>
    simp only [exec, World.ubiRenameVolumes, World.ubiRegisterMtd, World.updateRegisterUbiPart,
      World.factoryRegisterMtd, World.factoryKernelWrite, World.mtdErased, World.getTimer]
    repeat' split
    all_goals simp [World.mtdStore, World.rawWrite, World.rawErase, World.rawTorn]

/-- The command stores nothing below the readback window. -/
def Cmd.SparesStage (c : Cmd) : Prop := ∀ x < ubiReadbackAddr, ¬ c.WritesRam x

theorem sparesStage_of_query (c : Cmd) (h : c.Query) : c.SparesStage := by
  intro x _
  cases c <;> first | exact id | exact h.elim

theorem sparesStage_ubiRead {addr : ℕ} (h : ubiReadbackAddr ≤ addr) (n : String) (size : ℕ) :
    Cmd.SparesStage (.ubiRead addr n size) := by
  intro x hx hst
  have hle : addr ≤ x := hst
  omega

theorem sparesStage_mtdRead {addr : ℕ} (h : ubiReadbackAddr ≤ addr) (p : MtdPart) (off len : ℕ) :
    Cmd.SparesStage (.mtdRead p addr off len) := by
  intro x hx hst
  have hle : addr ≤ x := hst
  omega

theorem sparesStage_writeMem {addr : ℕ} (h : ubiReadbackAddr ≤ addr) (bs : List UInt8) :
    Cmd.SparesStage (.writeMem addr bs) := by
  intro x hx hst
  have hle : addr ≤ x ∧ x < addr + bs.length := hst
  omega

theorem sparesStage_of_silent (h : ∀ x, ¬ c.WritesRam x) : c.SparesStage := fun x _ => h x

section Programs

variable {α : Type} {A : FlashEvent → Prop} {p : FlashProg α}

theorem spec_sparesStage (h : Uses Cmd.SparesStage p) (w : World) :
    Spec exec A (fun e => e.cmd.SparesStage)
      (fun _ w' => ∀ x < ubiReadbackAddr, w'.ram x = w.ram x) p w := by
  refine Spec.of_uses (fun c o w' hc _ hw => ⟨hc, fun x hx => ?_⟩) h fun _ _ => rfl
  exact (exec_ram (hc x hx) o w').trans (hw x hx)

end Programs

/-! ## The engines -/

namespace UbiUpdate

theorem Issues.sparesStage (h : Issues c) : c.SparesStage := by
  cases c with
  | ubiRead addr n size =>
    rcases h with h | h
    · exact sparesStage_ubiRead (ge_of_eq h) n size
    · exact h.elim
  | writeMem addr bs => exact (h.elim id id).elim
  | mtdRead p addr off len => exact (h.elim id id).elim
  | factoryKernelRead addr len => exact (h.elim id id).elim
  | ubiReadWhole addr n => exact (h.elim id id).elim
  | _ => exact sparesStage_of_silent fun _ => id

theorem sparesStage_step (c : Ctx) : Uses Cmd.SparesStage (step c) :=
  (issues_step c).mono fun _ h => h.sparesStage

theorem sparesStage_start (c : Ctx) (mig : Bool) (addr len : ℕ) (keep : Bool) :
    Uses Cmd.SparesStage (start c mig addr len keep) :=
  (issues_start c mig addr len keep).mono fun _ h => h.sparesStage

end UbiUpdate

namespace FipUpdate

theorem Routine.sparesStage (h : Routine c) : c.SparesStage := by
  cases c with
  | ubiRead addr n size => exact sparesStage_ubiRead (ge_of_eq h) n size
  | writeMem addr bs => exact sparesStage_writeMem (ge_of_eq h) bs
  | mtdRead p addr off len => exact h.elim
  | factoryKernelRead addr len => exact h.elim
  | ubiReadWhole addr n => exact h.elim
  | _ => exact sparesStage_of_silent fun _ => id

theorem IssuesStock.sparesStage (h : IssuesStock c) : c.SparesStage := by
  cases c with
  | ubiRead addr n size => exact h.elim
  | writeMem addr bs => exact h.elim
  | mtdRead p addr off len => exact h.elim
  | factoryKernelRead addr len => exact h.elim
  | ubiReadWhole addr n => exact h.elim
  | _ => exact sparesStage_of_silent fun _ => id

theorem sparesStage_ubiPromote (c : Ctx) : Uses Cmd.SparesStage (ubiPromote c) := by
  have hswitch : ∀ current candidate backup,
      Uses Cmd.SparesStage (atomicSwitch current candidate backup) := fun _ _ _ =>
    uses_atomicSwitch sparesStage_of_query fun _ _ => sparesStage_of_silent fun _ => id
  unfold ubiPromote
  dsimp only
  cases c.ubiFipMode with
  | repairMissing =>
    exact uses_checked (sparesStage_of_silent fun _ => id) fun _ => trivial
  | repairInvalid =>
    exact uses_bind (hswitch _ _ _) fun _ => uses_exit fun _ => trivial
  | normal =>
    exact uses_bind (hswitch _ _ _) fun _ => uses_exit fun _ => trivial

theorem sparesStage_ubiRollback (c : Ctx) : Uses Cmd.SparesStage (ubiRollback c) := by
  have hswitch : ∀ current candidate backup,
      Uses Cmd.SparesStage (atomicSwitch current candidate backup) := fun _ _ _ =>
    uses_atomicSwitch sparesStage_of_query fun _ _ => sparesStage_of_silent fun _ => id
  unfold ubiRollback
  cases c.ubiFipMode with
  | repairInvalid =>
    refine uses_bind (hswitch _ _ _) fun _ => uses_exit fun _ => ?_
    exact uses_next (sparesStage_of_silent fun _ => id) fun _ => trivial
  | repairMissing => trivial
  | normal =>
    refine uses_bind ((routine_removeIfPresent (by simp)).mono fun _ h => h.sparesStage) fun _ => ?_
    refine uses_bind (hswitch _ _ _) fun _ => uses_exit fun _ => ?_
    exact uses_next (sparesStage_of_silent fun _ => id) fun _ => trivial

theorem sparesStage_runStage (P : Platform) (c : Ctx) : Uses Cmd.SparesStage (runStage P c) := by
  by_cases hstock : c.stage.Stock
  · exact (issues_stock P hstock).mono fun _ h => h.sparesStage
  have hquery := inert_of_query sparesStage_of_query
  unfold runStage
  cases hs : c.stage with
  | precheck => exact uses_precheck hquery P c
  | ubiAttach => exact (routine_ubiAttach P c).mono fun _ h => h.sparesStage
  | ubiStagePrep =>
    exact uses_ubiStagePrep sparesStage_of_query c (sparesStage_of_silent fun _ => id)
      (fun _ => sparesStage_of_silent fun _ => id) (sparesStage_of_silent fun _ => id)
      (fun _ _ => sparesStage_of_silent fun _ => id) fun _ _ _ => sparesStage_of_silent fun _ => id
  | ubiStageWrite => exact (routine_ubiStageWrite c).mono fun _ h => h.sparesStage
  | ubiStageVerify => exact (routine_ubiStageVerify P c).mono fun _ h => h.sparesStage
  | ubiPromote => exact sparesStage_ubiPromote c
  | ubiVerify =>
    refine (uses_ubiVerify_blanks P c).mono fun _ h => h.elim Routine.sparesStage ?_
    rintro ⟨addr, size, n, -, rfl⟩
    exact sparesStage_of_silent fun _ => id
  | ubiRollback => exact sparesStage_ubiRollback c
  | idle | complete | failed => trivial
  | stockBackup | stockErase | stockWrite | stockVerify =>
    rw [hs] at hstock
    exact absurd trivial hstock

theorem sparesStage_step (P : Platform) (c : Ctx) : Uses Cmd.SparesStage (step P c) := by
  refine uses_exit fun _ => uses_ite (fun _ => ?_) fun _ => ?_
  · exact uses_next (sparesStage_of_silent fun _ => id) fun _ => trivial
  · exact uses_checked (sparesStage_of_silent fun _ => id) fun _ => sparesStage_runStage P _

theorem sparesStage_startKind (P : Platform) (c : Ctx) (addr len : ℕ) (kind : FipKind) :
    Uses Cmd.SparesStage (startKind P c addr len kind) :=
  (issues_startKind P c addr len kind).mono fun c h => sparesStage_of_query c h.query

end FipUpdate

namespace Migration

/-- The commands of the migration. Only COMMIT_BL2 touches the BL2's partition. -/
def Issues (commit : Prop) : Cmd → Prop
  | .ubiDetach | .envSave | .ubiCreate .. | .ubiWrite .. => True
  | .ubiPart p => p = .ursusUbiFull
  | .mtdErase p _ _ => p = .ursusUbiFull ∨ commit
  | .mtdWrite _ _ _ => commit
  | .mtdRead _ addr _ _ => addr = ubiReadbackAddr
  | .ubiRead addr _ _ => addr = ubiReadbackAddr
  | .writeMem addr _ => migBosaAddr ≤ addr
  | c => c.Query

variable {commit : Prop}

theorem issues_of_query (c : Cmd) (h : c.Query) : Issues commit c := by
  cases c <;> first | exact h | exact h.elim

theorem Issues.sparesStage (h : Issues commit c) : c.SparesStage := by
  cases c with
  | ubiRead addr n size => exact sparesStage_ubiRead (ge_of_eq h) n size
  | mtdRead p addr off len => exact sparesStage_mtdRead (ge_of_eq h) p off len
  | writeMem addr bs =>
    have hle : migBosaAddr ≤ addr := h
    exact sparesStage_writeMem (le_trans (by decide) hle) bs
  | factoryKernelRead addr len => exact h.elim
  | ubiReadWhole addr n => exact h.elim
  | _ => exact sparesStage_of_silent fun _ => id

theorem inert_rangesBad (rs : List (ℕ × ℕ)) : Uses Cmd.Inert (rangesBad rs) := by
  induction rs with
  | nil => trivial
  | cons r rs ih =>
    exact uses_bind (uses_badInRange (fun _ h => h) _ _ _) fun _ =>
      uses_exit fun _ => ih

theorem inert_precheck (P : Platform) (b : Bl2Candidate) (c : Ctx) :
    Uses Cmd.Inert (precheck P b c) := by
  refine uses_bind (uses_validatePreloader (fun _ h => h) P _ _) fun _ =>
    uses_exit fun _ => ?_
  refine uses_checked trivial fun _ => ?_
  refine uses_bind (inert_rangesBad _) fun _ => uses_exit fun _ => ?_
  exact uses_exit fun _ => trivial

theorem issues_precheck (P : Platform) (b : Bl2Candidate) (c : Ctx) :
    Uses (Issues commit) (precheck P b c) :=
  (inert_precheck P b c).mono (inert_of_query issues_of_query)

theorem issues_backup (c : Ctx) (off len : ℕ) {addr : ℕ} (h : migBosaAddr ≤ addr) (next : Stage) :
    Uses (Issues commit) (backup c off len addr next) :=
  uses_bind (uses_readRange (inert_of_query issues_of_query) _ _ _) fun _ =>
    uses_checked h fun _ => trivial

theorem issues_backupFip (c : Ctx) : Uses (Issues commit) (backupFip c) := by
  refine uses_bind (uses_currentFipLength (inert_of_query issues_of_query) _) fun r => ?_
  cases r with
  | error e => trivial
  | ok fipLen =>
    exact uses_exit fun _ => issues_backup _ _ _ (by decide) _

theorem issues_formatUbi (c : Ctx) : Uses (Issues commit) (formatUbi c) :=
  uses_next trivial fun _ => uses_checked (.inl rfl) fun _ => trivial

theorem issues_attachUbi (c : Ctx) : Uses (Issues commit) (attachUbi c) :=
  uses_checked rfl fun _ => trivial

theorem uses_firstFailure {C : Cmd → Prop} {ps : List (FlashProg ℤ)} (h : ∀ p ∈ ps, Uses C p) :
    Uses C (firstFailure ps) := by
  induction ps with
  | nil => trivial
  | cons p ps ih =>
    exact uses_bind (h p (by simp)) fun _ => uses_exit fun _ =>
      ih fun q hq => h q (by simp [hq])

theorem uses_checkCreated {C : Cmd → Prop} (hq : ∀ c : Cmd, c.Query → C c) :
    Uses C (firstFailure (createdNames.map fun n => ubiCheck n)) := by
  apply uses_firstFailure
  intro p hp
  obtain ⟨n, -, rfl⟩ := List.mem_map.1 hp
  exact (uses_perform _ _).2 (hq _ trivial)

theorem uses_createRest {C : Cmd → Prop} (hq : ∀ c : Cmd, c.Query → C c)
    (hcreate : ∀ size id, C (.ubiCreate "rootfs_data" size false id)) (c : Ctx) :
    Uses C ((createCleanRootfsData false).bind fun ret =>
      if ret ≠ 0 then Prog.ret (fail c ret)
      else (firstFailure (createdNames.map fun n => ubiCheck n)).bind fun ret =>
        if ret ≠ 0 then Prog.ret (fail c ret)
        else (verifyVolumeManifest true).bind fun ret =>
          if ret ≠ 0 then Prog.ret (fail c ret) else Prog.ret (c.advance .writeBosa)) := by
  refine uses_bind (uses_createCleanRootfsData hq hcreate _ nofun) fun _ =>
    uses_exit fun _ => ?_
  refine uses_bind (uses_checkCreated hq) fun _ => uses_exit fun _ => ?_
  exact uses_bind (uses_verifyVolumeManifest hq _) fun _ =>
    uses_exit fun _ => trivial

theorem issues_createVolumes (c : Ctx) : Uses (Issues commit) (createVolumes c) := by
  have hcreate : Uses (Issues commit) (firstFailure (createCommands c.fitLen)) := by
    apply uses_firstFailure
    intro p hp
    simp only [createCommands, List.mem_cons, List.not_mem_nil, or_false] at hp
    rcases hp with rfl | rfl | rfl | rfl | rfl | rfl <;> exact (uses_perform _ _).2 trivial
  exact uses_bind hcreate fun _ => uses_exit fun _ =>
    uses_createRest issues_of_query (fun _ _ => trivial) c

theorem issues_writeVolume (c : Ctx) (addr : ℕ) (name : String) (len : ℕ) (next : Stage) :
    Uses (Issues commit) (writeVolume c addr name len next) :=
  uses_checked trivial fun _ => trivial

theorem issues_readback (addr : ℕ) (name : String) (len : ℕ) :
    Uses (Issues commit) (readback addr name len) :=
  uses_checked rfl fun _ =>
    uses_bind (uses_memEqual (inert_of_query issues_of_query) _ _ _) fun _ =>
      uses_exit fun _ => trivial

theorem issues_verifyVolume (c : Ctx) (addr : ℕ) (name : String) (len : ℕ) (next : Stage) :
    Uses (Issues commit) (verifyVolume c addr name len next) :=
  uses_bind (issues_readback addr name len) fun _ => uses_exit fun _ => trivial

theorem issues_verifyFit (c : Ctx) : Uses (Issues commit) (verifyFit c) := by
  refine uses_bind (issues_readback _ _ _) fun _ => uses_exit fun _ => ?_
  refine uses_checked trivial fun _ => ?_
  refine uses_bind (uses_currentRootfsData issues_of_query) fun r => ?_
  cases r with
  | error e => trivial
  | ok bytes =>
    refine uses_bind (uses_storeRootfsDataMax issues_of_query trivial _) fun _ => ?_
    exact uses_bind (uses_verifyVolumeManifest issues_of_query _) fun _ =>
      uses_exit fun _ => trivial

theorem issues_commitBl2 (b : Bl2Candidate) (c : Ctx) (h : commit) :
    Uses (Issues commit) (commitBl2 b c) :=
  uses_next trivial fun _ => uses_checked (.inr h) fun _ => uses_checked h fun _ => trivial

theorem issues_verifyBl2 (b : Bl2Candidate) (c : Ctx) : Uses (Issues commit) (verifyBl2 b c) :=
  uses_checked rfl fun _ =>
    uses_checked trivial fun _ => trivial

/-- **The commands of a stage.** -/
theorem issues_runStage (b : Bl2Candidate) (c : Ctx) :
    Uses (Issues (c.stage = .commitBl2)) (runStage b c) := by
  unfold runStage
  cases h : c.stage with
  | backupBosa | backupRi => exact issues_backup _ _ _ (by decide) _
  | backupFip => exact issues_backupFip c
  | formatUbi => exact issues_formatUbi c
  | attachUbi => exact issues_attachUbi c
  | createVolumes => exact issues_createVolumes c
  | writeBosa | writeRi | writeFip | writeFit => exact issues_writeVolume _ _ _ _ _
  | verifyBosa | verifyRi | verifyFip => exact issues_verifyVolume _ _ _ _ _
  | verifyFit => exact issues_verifyFit c
  | commitBl2 => exact issues_commitBl2 b c rfl
  | verifyBl2 => exact issues_verifyBl2 b c
  | precheck | idle | complete | failed => trivial

theorem sparesStage_step (P : Platform) (b : Bl2Candidate) (c : Ctx) :
    Uses Cmd.SparesStage (step P b c) := by
  refine uses_exit fun _ => uses_ite (fun _ => ?_) fun _ => ?_
  · exact uses_next (sparesStage_of_silent fun _ => id) fun _ => trivial
  · refine uses_checked (sparesStage_of_silent fun _ => id) fun _ => uses_ite (fun _ => ?_) fun _ => ?_
    · exact (@issues_precheck False P b _).mono fun _ h => h.sparesStage
    · exact uses_bind ((issues_runStage b _).mono fun _ h => h.sparesStage) fun _ => trivial

end Migration

end UrsusBoot
