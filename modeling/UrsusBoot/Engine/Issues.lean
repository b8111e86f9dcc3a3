import UrsusBoot.Engine.Footprint

/-!
# The commands the engines issue

For each engine the commands a step can issue at all, whatever it is answered. Facts that hold of
every command of an engine follow from these by `Uses.mono`.
-/

namespace UrsusBoot

open Prog

/-! ## The OpenWrt UBI update -/

namespace UbiUpdate

/-- The commands of the stages that exchange `fit`. -/
def Staging : Cmd → Prop
  | .ubiDetach => True
  | .ubiPart p => p = .ursusUbiFull
  | .ubiCreate n _ _ _ => n ∈ ["fit", "fit.new"]
  | .ubiRemove n => n ∈ ["fit", "fit.new", "fit.old"]
  | .ubiRename a b => (a = "fit" ∧ b = "fit.old") ∨ (a = "fit.new" ∧ b = "fit")
  | .ubiWrite _ n _ => n ∈ ["fit", "fit.new"]
  | .ubiRead addr _ _ => addr = ubiReadbackAddr
  | c => c.Query

/-- The commands that apply the settings policy; `keep` leaves `rootfs_data` alone. -/
def Settling (keep : Bool) : Cmd → Prop
  | .envSave => True
  | .ubiDetach => keep = false
  | .ubiPart p => keep = false ∧ p = .ursusUbiFull
  | .ubiCreate n _ _ _ => keep = false ∧ n = "rootfs_data"
  | .ubiRemove n => keep = false ∧ n = "rootfs_data"
  | c => c.Query

/-- The commands of the update and of the settings reset. -/
def Issues (c : Cmd) : Prop := Staging c ∨ Settling false c

theorem staging_of_query (c : Cmd) (h : c.Query) : Staging c := by
  cases c <;> first | exact h | exact h.elim

theorem settling_of_query (keep : Bool) (c : Cmd) (h : c.Query) : Settling keep c := by
  cases c <;> first | exact h | exact h.elim

theorem issues_of_query (c : Cmd) (h : c.Query) : Issues c := .inl (staging_of_query c h)

theorem Settling.issues {keep : Bool} {c : Cmd} (h : Settling keep c) : Issues c := by
  refine .inr ?_
  cases c with
  | ubiDetach => rfl
  | ubiPart p | ubiCreate n _ _ _ | ubiRemove n => exact ⟨rfl, h.2⟩
  | _ => exact h

theorem settling_resetSettings : Uses (Settling false) resetSettings :=
  uses_resetSettings (settling_of_query false) rfl ⟨rfl, rfl⟩ ⟨rfl, rfl⟩ (fun _ _ => ⟨rfl, rfl⟩)
    trivial

theorem issues_resetSettings : Uses Issues resetSettings :=
  settling_resetSettings.mono fun _ h => h.issues

theorem target_mem (c : Ctx) : c.target ∈ ["fit", "fit.new"] := by
  unfold Ctx.target
  split_ifs <;> simp

theorem staging_openPebs (n : String) : Uses Staging (openPebs n) := by
  refine uses_next trivial fun r => ?_
  cases r <;> trivial

theorem staging_precheck (c : Ctx) : Uses Staging (precheck c) := by
  refine uses_checked trivial fun _ => ?_
  refine uses_next trivial fun _ => uses_next rfl fun _ => ?_
  refine uses_exit fun _ => uses_next trivial fun _ => ?_
  refine uses_exit fun _ => ?_
  have hvalid : Uses Staging (volumeFipValid "fip") :=
    uses_checked rfl fun _ =>
      uses_next trivial fun _ => trivial
  refine uses_bind hvalid fun _ => uses_exit fun _ => ?_
  refine uses_bind (uses_verifyVolumeManifest staging_of_query _) fun _ =>
    uses_exit fun _ => ?_
  refine uses_next trivial fun r => ?_
  cases r with
  | none => trivial
  | some dev =>
    refine uses_exit fun _ => ?_
    refine uses_bind (staging_openPebs _) fun _ => uses_bind (staging_openPebs _) fun _ => ?_
    refine uses_bind (staging_openPebs _) fun _ => uses_exit fun _ => ?_
    exact uses_exit fun _ => trivial

theorem staging_stagePrep (c : Ctx) : Uses Staging (stagePrep c) := by
  have hcreate : ∀ c : Ctx, Uses Staging (createTarget c) := fun c =>
    uses_checked (target_mem c) fun _ => trivial
  have hremove : ∀ n ∈ ["fit", "fit.new", "fit.old"], Uses Staging (removeIfPresent n) :=
    fun n hn => uses_removeIfPresent trivial hn
  refine uses_bind (hremove _ (by simp)) fun _ => uses_exit fun _ => ?_
  refine uses_bind (hremove _ (by simp)) fun _ => uses_exit fun _ => ?_
  refine uses_ite (fun _ => ?_) fun _ => hcreate _
  exact uses_bind (hremove _ (by simp)) fun _ => uses_exit fun _ => hcreate _

theorem staging_stageWrite (c : Ctx) : Uses Staging (stageWrite c) :=
  uses_checked (target_mem c) fun _ => trivial

theorem uses_readback {C : Cmd → Prop} (hq : ∀ c, c.Query → C c) (c : Ctx) (n : String)
    (hread : C (.ubiRead ubiReadbackAddr n c.fitLen)) : Uses C (readback c n) := by
  refine uses_checked hread fun _ => ?_
  refine uses_bind (uses_memEqual (inert_of_query hq) _ _ _) fun _ =>
    uses_exit fun _ => ?_
  exact uses_bind (uses_fdtCheckHeaderAt (inert_of_query hq) _) fun _ =>
    uses_exit fun _ => trivial

theorem staging_stageVerify (c : Ctx) : Uses Staging (stageVerify c) := by
  refine uses_bind (uses_readback staging_of_query _ _ rfl) fun r => ?_
  cases r <;> trivial

theorem staging_promote (c : Ctx) : Uses Staging (promote c) := by
  have hnew : Uses Staging (promoteNew c) :=
    uses_checked (.inr ⟨rfl, rfl⟩) fun _ => trivial
  refine uses_next trivial fun _ => uses_ite (fun _ => ?_) fun _ => hnew
  exact uses_checked (.inl ⟨rfl, rfl⟩) fun _ => hnew

theorem staging_runStage {c : Ctx} (h : c.stage ≠ .finalVerify) : Uses Staging (runStage c) := by
  unfold runStage
  cases hs : c.stage with
  | precheck => exact staging_precheck c
  | stagePrep => exact staging_stagePrep c
  | stageWrite => exact staging_stageWrite c
  | stageVerify => exact staging_stageVerify c
  | promote => exact staging_promote c
  | finalVerify => exact absurd hs h
  | idle | complete | failed => trivial

theorem settling_applySettings (c : Ctx) : Uses (Settling c.keepSettings) (applySettings c) := by
  unfold applySettings
  cases c.keepSettings with
  | false => exact settling_resetSettings
  | true =>
    refine uses_bind (uses_currentRootfsData (settling_of_query true)) fun r => ?_
    cases r with
    | error e => trivial
    | ok bytes =>
      exact uses_bind (uses_storeRootfsDataMax (settling_of_query true) trivial bytes) fun _ => trivial

theorem uses_runStage (c : Ctx) :
    Uses (fun d => Staging d ∨ Settling c.keepSettings d) (runStage c) := by
  by_cases h : c.stage = .finalVerify
  · have hq : ∀ d, d.Query → Staging d ∨ Settling c.keepSettings d := fun d hd =>
      .inl (staging_of_query d hd)
    simp only [runStage, h]
    refine uses_bind (uses_readback hq _ _ (.inl rfl)) fun r => ?_
    cases r with
    | some ret => trivial
    | none =>
      refine uses_bind ((settling_applySettings c).mono fun _ hd => .inr hd) fun _ =>
        uses_exit fun _ => ?_
      exact uses_bind (uses_verifyVolumeManifest hq _) fun _ =>
        uses_exit fun _ => trivial
  · exact (staging_runStage h).mono fun _ hd => .inl hd

theorem issues_runStage (c : Ctx) : Uses Issues (runStage c) :=
  (uses_runStage c).mono fun _ h => h.elim .inl Settling.issues

theorem issues_step (c : Ctx) : Uses Issues (step c) := by
  refine uses_exit fun _ => uses_ite (fun _ => ?_) fun _ => ?_
  · exact uses_next (.inl trivial) fun _ => trivial
  · exact uses_checked (.inl trivial) fun _ =>
      issues_runStage _

theorem issues_start (c : Ctx) (mig : Bool) (addr len : ℕ) (keep : Bool) :
    Uses Issues (start c mig addr len keep) := by
  refine uses_exit fun _ => uses_exit fun _ => ?_
  exact uses_bind (uses_fdtCheckHeaderAt (inert_of_query issues_of_query) _) fun _ =>
    uses_exit fun _ => trivial

end UbiUpdate

/-! ## The FIP update -/

namespace FipUpdate

def Stage.Stock : Stage → Prop
  | .stockBackup | .stockErase | .stockWrite | .stockVerify => True
  | _ => False

/-- The commands of the native layout's stages, apart from dropping the active `fip`, blanking the
environment and exchanging names. -/
def Routine : Cmd → Prop
  | .printf _ => True
  | .ubiPart _ => True
  | .ubiCreate n _ _ _ => n = "fip.new"
  | .ubiRemove n => n ∈ ["fip.new", "fip.old", "fip.bad"]
  | .ubiRename a b => (a = "fip.new" ∧ b = "fip") ∨ (a = "fip" ∧ b = "fip.bad")
  | .ubiWrite _ n _ => n = "fip.new"
  | .ubiRead addr _ _ => addr = ubiReadbackAddr
  | .writeMem addr _ => addr = ubiReadbackAddr
  | c => c.Query

/-- The active `fip` is dropped. -/
def Drops (c : Cmd) : Prop := c = .ubiRemove "fip"

def envNames : List String := ["ubootenv", "ubootenv2"]

def Blanks (c : Cmd) : Prop := ∃ addr size, ∃ n ∈ ["ubootenv", "ubootenv2"], c = .ubiWrite addr n size

/-- The commands of the native layout's stages that act on one named volume. -/
def Issues : Cmd → Prop
  | .printf _ => True
  | .ubiPart _ => True
  | .ubiCreate n _ _ _ => n = "fip.new"
  | .ubiRemove n => n ∈ ["fip", "fip.new", "fip.old", "fip.bad"]
  | .ubiRename a b => (a = "fip.new" ∧ b = "fip") ∨ (a = "fip" ∧ b = "fip.bad")
  | .ubiWrite _ n _ => n ∈ ["fip.new", "ubootenv", "ubootenv2"]
  | .ubiRead addr _ _ => addr = ubiReadbackAddr
  | .writeMem addr _ => addr = ubiReadbackAddr
  | c => c.Query

def IssuesStock : Cmd → Prop
  | .nandErase off len => off = 0 ∧ len = stockBootSize
  | .nandWrite off _ => off = 0
  | c => c.Inert

theorem routine_of_query (c : Cmd) (h : c.Query) : Routine c := by
  cases c <;> first | exact h | exact h.elim

theorem Routine.not_blanks {c : Cmd} (h : Routine c) : ¬ Blanks c := by
  rintro ⟨addr, size, n, hn, rfl⟩
  obtain rfl : n = "fip.new" := h
  exact absurd hn (by decide)

theorem issues_of_routine {c : Cmd} (h : Routine c) : Issues c := by
  cases c with
  | ubiRemove n => exact List.mem_cons_of_mem _ h
  | ubiWrite addr n size => exact List.mem_cons.2 (.inl h)
  | _ => exact h

theorem issues_of_query (c : Cmd) (h : c.Query) : Issues c := issues_of_routine (routine_of_query c h)

theorem issues_of_drops {c : Cmd} (h : Drops c) : Issues c := by
  rw [h]
  exact List.mem_cons_self

theorem issues_of_blanks {c : Cmd} (h : Blanks c) : Issues c := by
  obtain ⟨addr, size, n, hn, rfl⟩ := h
  exact List.mem_cons_of_mem _ hn

theorem issuesStock_of_inert (c : Cmd) (h : c.Inert) : IssuesStock c := by
  cases c <;> first | exact h | exact h.elim

theorem issues_startKind (P : Platform) (c : Ctx) (addr len : ℕ) (kind : FipKind) :
    Uses Cmd.Inert (startKind P c addr len kind) := by
  refine uses_exit fun _ => uses_bind (uses_detectUbiLayout fun c hc => hc) fun r => ?_
  cases r with
  | error e => trivial
  | ok isUbi =>
    refine uses_bind (uses_fipValidateKind (fun c hc => hc) P _ _ _ _) fun _ =>
      uses_exit fun _ => ?_
    refine uses_ite (fun _ => ?_) fun _ => uses_next trivial fun _ => trivial
    refine uses_bind (uses_installedBl2MatchesPin (fun c hc => hc) P) fun _ =>
      uses_exit fun _ => uses_next trivial fun _ => trivial

theorem routine_ubiAttach (P : Platform) (c : Ctx) : Uses Routine (ubiAttach P c) := by
  refine uses_bind (uses_ensureUbiAttachment routine_of_query fun _ => trivial) fun _ =>
    uses_exit fun _ => ?_
  refine uses_bind (uses_classifyActiveFip routine_of_query P fun _ => rfl) fun _ => ?_
  exact uses_exit fun _ => trivial

theorem routine_removeIfPresent {n : String} (hn : n ∈ ["fip.new", "fip.old", "fip.bad"]) :
    Uses Routine (removeIfPresent n) := uses_removeIfPresent trivial hn

theorem uses_ubiStagePrep_drops (c : Ctx) :
    Uses (fun c => Routine c ∨ Drops c) (ubiStagePrep c) := by
  have hremove : ∀ n ∈ ["fip.new", "fip.old", "fip.bad"],
      Routine (.ubiRemove n) ∨ Drops (.ubiRemove n) := fun n hn => .inl hn
  exact uses_ubiStagePrep (fun c hc => .inl (routine_of_query c hc)) c (hremove _ (by simp))
    (fun _ => hremove _ (by simp)) (hremove _ (by simp)) (fun _ _ => .inr rfl) fun _ _ _ => .inl rfl

theorem routine_ubiStageWrite (c : Ctx) : Uses Routine (ubiStageWrite c) :=
  uses_checked rfl fun _ => trivial

theorem routine_ubiStageVerify (P : Platform) (c : Ctx) : Uses Routine (ubiStageVerify P c) := by
  refine uses_checked rfl fun _ => ?_
  refine uses_bind (uses_fipValidateKind (inert_of_query routine_of_query) P _ _ _ _) fun _ =>
    uses_exit fun _ => ?_
  refine uses_next trivial fun _ => uses_next trivial fun _ => ?_
  exact uses_exit fun _ => trivial

theorem routine_postcommitFailed (c : Ctx) (ret : ℤ) : Uses Routine (postcommitFailed c ret) :=
  uses_ite (fun _ => uses_bind (routine_removeIfPresent (by simp)) fun _ =>
    uses_next (.inr ⟨rfl, rfl⟩) fun _ => trivial) fun _ => trivial

theorem uses_vanillaResetEnv_blanks : Uses (fun c => Routine c ∨ Blanks c) vanillaResetEnv :=
  uses_vanillaResetEnv (fun c hc => .inl (routine_of_query c hc))
    (fun n hn addr size => .inr ⟨addr, size, n, hn, rfl⟩) (fun _ _ => .inl rfl) fun _ => .inl rfl

theorem uses_ubiVerify_blanks (P : Platform) (c : Ctx) :
    Uses (fun c => Routine c ∨ Blanks c) (ubiVerify P c) := by
  have hfailed : ∀ ret, Uses (fun c => Routine c ∨ Blanks c) (postcommitFailed c ret) := fun ret =>
    (routine_postcommitFailed c ret).mono fun _ h => .inl h
  refine uses_next (.inl rfl) fun _ => uses_ite (fun _ => hfailed _) fun _ => ?_
  refine uses_bind (uses_fipValidateKind (fun c hc => .inl (routine_of_query c hc.query)) P _ _ _ _)
    fun _ => uses_ite (fun _ => hfailed _) fun _ => ?_
  refine uses_ite (fun _ => uses_bind uses_vanillaResetEnv_blanks fun _ => ?_) fun _ => trivial
  exact uses_exit fun _ => trivial

theorem issues_stock (P : Platform) {c : Ctx} (h : c.stage.Stock) :
    Uses IssuesStock (runStage P c) := by
  unfold runStage
  cases hs : c.stage with
  | stockBackup =>
    refine uses_bind (uses_badInRange issuesStock_of_inert _ _ _) fun _ =>
      uses_exit fun _ => ?_
    refine uses_next trivial fun _ => uses_next trivial fun _ => ?_
    refine uses_exit fun _ => ?_
    refine uses_bind (uses_readExact issuesStock_of_inert _ _) fun _ =>
      uses_exit fun _ => ?_
    refine uses_bind (uses_fipValidateCurrent issuesStock_of_inert P _) fun r => ?_
    cases r with
    | error e => trivial
    | ok oldEnd =>
      exact uses_exit fun _ => uses_next trivial fun _ => trivial
  | stockErase =>
    exact uses_checked ⟨rfl, rfl⟩ fun _ => trivial
  | stockWrite =>
    exact uses_checked rfl fun _ =>
      uses_exit fun _ => trivial
  | stockVerify =>
    exact uses_bind (uses_readExact issuesStock_of_inert _ _) fun _ =>
      uses_exit fun _ => uses_exit fun _ => trivial
  | _ =>
    rw [hs] at h
    exact h.elim

end FipUpdate

end UrsusBoot
