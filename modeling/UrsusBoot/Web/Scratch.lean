import UrsusBoot.Engine.Scratch
import UrsusBoot.Web.Loop

/-!
# RAM WebFailsafe writes

Apart from the bytes of a chunk, nothing WebFailsafe does stores below the readback window: neither
the validation of what has been staged, nor a request, nor the end of an iteration, nor what follows
the loop.
-/

namespace UrsusBoot

open Prog

theorem sparesStage_logf (line : LogLine) : Uses Cmd.SparesStage (logf line) :=
  (uses_perform _ _).2 (sparesStage_of_silent fun _ => id)

theorem sparesStage_inert (c : Cmd) (h : c.Inert) : c.SparesStage := sparesStage_of_query c h.query

/-! ## Validation -/

section Validation

variable (P : Platform) (L : FitLib)

theorem sparesStage_fitDefaultPlatform (addr : ℕ) (fit : List UInt8) (s : ImageState) :
    Uses Cmd.SparesStage (fitDefaultPlatform L addr fit s) := by
  unfold fitDefaultPlatform
  split
  · refine uses_exit fun _ => uses_exit fun _ => ?_
    split
    · trivial
    · refine uses_exit fun _ => uses_ite (fun _ => ?_) fun _ => trivial
      refine uses_next (sparesStage_of_silent fun _ => id) fun _ => ?_
      exact uses_exit fun _ => uses_bind (sparesStage_logf _) fun _ => trivial
  · trivial

theorem sparesStage_stagedFit (layout : Layout) (m : FwtoolMeta) (addr : ℕ) (buf : List UInt8)
    (s : ImageState) : Uses Cmd.SparesStage (stagedFit L layout m addr buf s) := by
  refine uses_exit fun _ => uses_exit fun _ => ?_
  exact uses_ite
    (fun _ => uses_bind (sparesStage_fitDefaultPlatform L addr buf _) fun _ => trivial)
    fun _ => uses_bind (sparesStage_fitDefaultPlatform L addr buf _) fun _ => trivial

theorem sparesStage_stagedVerdict (layout : Layout) (addr : ℕ) (buf : List UInt8) :
    Uses Cmd.SparesStage (stagedVerdict L layout addr buf) := by
  refine uses_exit fun _ => uses_exit fun _ => ?_
  refine uses_exit fun _ => uses_exit fun _ => ?_
  exact uses_ite (fun _ => sparesStage_stagedFit L layout _ addr buf _) fun _ => trivial

theorem sparesStage_validateStaged (layout : Layout) (addr len : ℕ) :
    Uses Cmd.SparesStage (validateStaged L layout addr len) := by
  refine uses_bind (sparesStage_logf _) fun _ => ?_
  refine uses_next (sparesStage_of_silent fun _ => id) fun buf => ?_
  refine uses_bind (sparesStage_stagedVerdict L layout addr buf) fun _ => ?_
  exact uses_bind (sparesStage_logf _) fun _ => uses_bind (sparesStage_logf _) fun _ => trivial

theorem sparesStage_expertVerdict (layout : Layout) (addr : ℕ) (buf : List UInt8) :
    Uses Cmd.SparesStage (expertVerdict L layout addr buf) := by
  refine uses_exit fun _ => uses_exit fun _ => ?_
  refine uses_exit fun _ => uses_exit fun _ => ?_
  refine uses_exit fun _ => ?_
  exact uses_bind (sparesStage_fitDefaultPlatform L addr buf _) fun _ => trivial

theorem sparesStage_validateExpertFit (layout : Layout) (addr len : ℕ) :
    Uses Cmd.SparesStage (validateExpertFit L layout addr len) := by
  refine uses_bind (sparesStage_logf _) fun _ => ?_
  refine uses_next (sparesStage_of_silent fun _ => id) fun buf => ?_
  refine uses_bind (sparesStage_expertVerdict L layout addr buf) fun _ => ?_
  exact uses_bind (sparesStage_logf _) fun _ => trivial

/-- **Validation** stores nothing in the staging windows. -/
theorem sparesStage_completeUpload (s : Web) (k : UploadKind) :
    Uses Cmd.SparesStage (completeUpload P L s k) := by
  cases k with
  | firmware => exact uses_bind (sparesStage_validateStaged L _ _ _) fun _ => trivial
  | initramfs => exact uses_bind (sparesStage_validateExpertFit L _ _ _) fun _ => trivial
  | ubiPreloader =>
    refine uses_bind (uses_bind (uses_validatePreloader sparesStage_inert P _ _) fun _ => ?_)
      fun _ => trivial
    exact uses_exit fun _ => uses_prepareBl2Candidate sparesStage_inert P _ _ _
  | ursusFip => exact uses_bind (uses_fipValidate sparesStage_inert P _ _ _) fun _ => trivial
  | vanillaFip =>
    refine uses_bind (uses_bind (uses_vanillaFipValidate sparesStage_inert P _ _ _) fun _ => ?_)
      fun _ => trivial
    refine uses_exit fun _ => ?_
    exact uses_bind (uses_installedBl2MatchesPin sparesStage_inert P) fun _ => trivial

end Validation

/-! ## Requests -/

section Requests

variable (P : Platform) (h : List UInt8) (s : Web)

theorem sparesStage_uploadReject (status : ℕ) (rc : ReasonClass) (reason : String)
    (expected got : ℕ) : Uses Cmd.SparesStage (uploadReject s status rc reason expected got) :=
  uses_bind (sparesStage_logf _) fun _ => trivial

theorem sparesStage_beginUpload (k : UploadKind) : Uses Cmd.SparesStage (beginUpload k h s) := by
  unfold beginUpload
  dsimp only
  repeat' split
  all_goals first
    | exact sparesStage_uploadReject s _ _ _ _ _
    | exact uses_bind (sparesStage_logf _) fun _ => trivial

theorem sparesStage_prepareChunk (k : UploadKind) : Uses Cmd.SparesStage (prepareChunk k h s) := by
  unfold prepareChunk
  dsimp only
  repeat' split
  all_goals first
    | exact uses_bind (sparesStage_uploadReject s _ _ _ _ _) fun _ => trivial
    | trivial

theorem sparesStage_factoryResetSettings : Uses Cmd.SparesStage factoryResetSettings := by
  have hsilent : ∀ {c : Cmd}, (∀ x, ¬ c.WritesRam x) → c.SparesStage := sparesStage_of_silent
  refine uses_checked (hsilent fun _ => id) fun _ => ?_
  refine uses_next (hsilent fun _ => id) fun _ => ?_
  refine uses_checked (hsilent fun _ => id) fun _ => ?_
  refine uses_checked (hsilent fun _ => id) fun _ => ?_
  refine uses_checked (hsilent fun _ => id) fun _ => ?_
  refine uses_checked (hsilent fun _ => id) fun _ => ?_
  exact (uses_perform _ _).2 (hsilent fun _ => id)

theorem sparesStage_resetSettingsRequest : Uses Cmd.SparesStage (resetSettingsRequest h s) := by
  have hreply : ∀ ret, Uses Cmd.SparesStage (resetSettingsReply s ret) := fun _ =>
    uses_bind (sparesStage_logf _) fun _ => uses_exit fun _ => trivial
  have hreset : Uses Cmd.SparesStage resetSettings :=
    UbiUpdate.issues_resetSettings.mono fun _ hc => hc.sparesStage
  refine uses_exit fun _ => uses_exit fun _ => ?_
  split
  · exact uses_bind hreset hreply
  · exact uses_bind sparesStage_factoryResetSettings hreply
  · trivial

theorem sparesStage_installUbi : Uses Cmd.SparesStage (installUbi h s) := by
  refine uses_exit fun _ => uses_exit fun _ => ?_
  refine uses_ite (fun _ => ?_) fun _ => uses_exit fun _ => ?_
  · refine uses_exit fun _ => uses_exit fun _ => ?_
    refine uses_bind (UbiUpdate.sparesStage_start _ _ _ _ _) fun _ => ?_
    exact uses_exit fun _ => uses_bind (sparesStage_logf _) fun _ => trivial
  · refine uses_exit fun _ => uses_exit fun _ => ?_
    exact uses_bind (sparesStage_logf _) fun _ => trivial

theorem sparesStage_fipRequest (q : FipRequest) : Uses Cmd.SparesStage (fipRequest P q h s) := by
  refine uses_exit fun _ => uses_exit fun _ => ?_
  refine uses_exit fun _ => ?_
  refine uses_bind (FipUpdate.sparesStage_startKind P _ _ _ _) fun _ => ?_
  exact uses_exit fun _ => uses_bind (sparesStage_logf _) fun _ => trivial

theorem sparesStage_rebootRequest : Uses Cmd.SparesStage (rebootRequest h s) := by
  refine uses_bind (sparesStage_logf _) fun _ => uses_ite (fun _ => ?_) fun _ => ?_
  · exact uses_bind (sparesStage_logf _) fun _ => trivial
  · exact uses_next (sparesStage_of_silent fun _ => id) fun _ =>
      uses_bind (sparesStage_logf _) fun _ => trivial

/-- **A request** stores nothing in the staging windows. -/
theorem sparesStage_routeReady : Uses Cmd.SparesStage (routeReady P h s) := by
  have harmed : ∀ {c : Prop} [Decidable c] {r r' : Served} {line : LogLine},
      Uses Cmd.SparesStage (if c then Prog.ret r else (logf line).bind fun _ => Prog.ret r') :=
    uses_exit fun _ => uses_bind (sparesStage_logf _) fun _ => trivial
  unfold routeReady
  split
  · trivial
  · exact uses_bind (uses_bind (sparesStage_logf _) fun _ => trivial) fun _ => trivial
  · exact uses_bind (sparesStage_beginUpload h s _) fun _ => trivial
  · refine uses_bind (sparesStage_prepareChunk h s _) fun r => ?_
    cases r <;> trivial
  · exact uses_bind harmed fun _ => trivial
  · exact uses_bind (uses_exit fun _ => harmed) fun _ => trivial
  · exact uses_bind (sparesStage_installUbi h s) fun _ => trivial
  · exact uses_bind (sparesStage_resetSettingsRequest h s) fun _ => trivial
  · exact uses_bind (sparesStage_fipRequest P h s _) fun _ => trivial
  · exact uses_bind (sparesStage_fipRequest P h s _) fun _ => trivial
  · exact uses_bind (sparesStage_rebootRequest h s) fun _ => trivial
  · trivial

end Requests

/-! ## The loop -/

section Loop

variable (P : Platform)

theorem sparesStage_noteQueued (s : Web) (c : Conn) : Uses Cmd.SparesStage (noteQueued s c) := by
  refine uses_exit fun _ => uses_ite (fun _ => ?_) fun _ => trivial
  exact uses_next (sparesStage_of_silent fun _ => id) fun _ =>
    uses_bind (sparesStage_logf _) fun _ => trivial

theorem sparesStage_pumpConn (p : Pump) (s : Web) (c : Conn) :
    Uses Cmd.SparesStage (pumpConn p s c) := by
  cases p with
  | more => trivial
  | failed => trivial
  | queued => exact uses_bind (sparesStage_noteQueued s c) fun _ => trivial

theorem sparesStage_noteEof (s : Web) (c : Conn) : Uses Cmd.SparesStage (noteEof s c) := by
  unfold noteEof
  split
  · trivial
  · exact uses_ite (fun _ => sparesStage_logf _) fun _ => trivial

theorem sparesStage_serviceUpdate (probe : Probe) (s : Web) :
    Uses Cmd.SparesStage (serviceUpdate probe s) := by
  refine uses_exit fun _ => uses_bind (UbiUpdate.sparesStage_step _) fun _ => ?_
  refine uses_ite (fun _ => uses_bind (sparesStage_logf _) fun _ => trivial) fun _ => ?_
  refine uses_ite (fun _ => ?_) fun _ => trivial
  exact uses_bind (sparesStage_logf _) fun _ => uses_bind (sparesStage_logf _) fun _ => trivial

theorem sparesStage_serviceMigration (s : Web) : Uses Cmd.SparesStage (serviceMigration P s) := by
  refine uses_exit fun _ => uses_bind (Migration.sparesStage_step P _ _) fun _ => ?_
  refine uses_ite (fun _ => uses_bind (sparesStage_logf _) fun _ => trivial) fun _ => ?_
  refine uses_ite (fun _ => ?_) fun _ => trivial
  exact uses_bind (sparesStage_logf _) fun _ => uses_bind (sparesStage_logf _) fun _ => trivial

theorem sparesStage_serviceBootloader (s : Web) : Uses Cmd.SparesStage (serviceBootloader P s) := by
  refine uses_exit fun _ => uses_bind (FipUpdate.sparesStage_step P _) fun _ => ?_
  refine uses_ite (fun _ => uses_bind (sparesStage_logf _) fun _ => trivial) fun _ => ?_
  exact uses_ite (fun _ => uses_bind (sparesStage_logf _) fun _ => trivial) fun _ => trivial

/-- **The end of an iteration** stores nothing in the staging windows. -/
theorem sparesStage_service (probe : Probe) (s : Web) : Uses Cmd.SparesStage (service P probe s) := by
  have hengines : Uses Cmd.SparesStage (serviceEngines P probe s) :=
    uses_bind (sparesStage_serviceUpdate probe s) fun _ =>
      uses_bind (sparesStage_serviceMigration P _) fun _ => sparesStage_serviceBootloader P _
  have htimer : ∀ {base limit : ℕ} {line : LogLine} {p : FlashProg Web}, Uses Cmd.SparesStage p →
      Uses Cmd.SparesStage ((getTimer base).bind fun t =>
        if limit ≤ t then (logf line).bind fun _ => Prog.ret { s with stop := true } else p) :=
    fun hp => uses_next (sparesStage_of_silent fun _ => id) fun _ =>
      uses_ite (fun _ => uses_bind (sparesStage_logf _) fun _ => trivial) fun _ => hp
  have hforced : ∀ {p : FlashProg Web}, Uses Cmd.SparesStage p → Uses Cmd.SparesStage
      (if s.pendingReboot && s.rebootRequestAt != 0 then (getTimer s.rebootRequestAt).bind fun t =>
        if rebootForceMs ≤ t then (logf .rebootForced).bind fun _ => Prog.ret { s with stop := true }
        else p
      else p) := fun hp => uses_ite (fun _ => htimer hp) fun _ => hp
  unfold service
  exact uses_ite (fun _ => htimer (hforced hengines)) fun _ => hforced hengines

theorem sparesStage_resetAttempts (ns : List ℕ) : Uses Cmd.SparesStage (resetAttempts ns) := by
  induction ns with
  | nil => exact sparesStage_logf _
  | cons n ns ih =>
    refine uses_bind (sparesStage_logf _) fun _ => ?_
    refine uses_next (sparesStage_of_silent fun _ => id) fun r => ?_
    cases r with
    | none => trivial
    | some ret => exact uses_bind (sparesStage_logf _) fun _ => ih

theorem sparesStage_factoryKernelUsable (offs : List ℕ) (usable : ℕ) :
    Uses Cmd.SparesStage (factoryKernelUsable offs usable) := by
  induction offs generalizing usable with
  | nil => trivial
  | cons off offs ih =>
    exact uses_checked (sparesStage_of_silent fun _ => id) fun _ => ih _

theorem sparesStage_factoryInstall (img : ImageState) (layout : Layout) :
    Uses Cmd.SparesStage (factoryInstall img layout) := by
  have hsilent : ∀ {c : Cmd}, (∀ x, ¬ c.WritesRam x) → c.SparesStage := sparesStage_of_silent
  have hkernelRead : ∀ len, Cmd.SparesStage (.factoryKernelRead readbackAddr len) := by
    intro len x hx hst
    exact absurd hx (not_lt.2 hst)
  have hcompare : ∀ off addr len, Uses Cmd.SparesStage (compareStageReadback off addr len) :=
    fun _ _ _ => uses_memEqual sparesStage_inert _ _ _
  refine uses_exit fun _ => uses_exit fun _ => ?_
  refine uses_exit fun _ => ?_
  refine uses_checked (hsilent fun _ => id) fun _ => ?_
  refine uses_bind (uses_bind (sparesStage_factoryKernelUsable _ _) fun r => ?_) fun _ =>
    uses_exit fun _ => uses_bind ?_ fun _ => uses_exit fun _ => ?_
  · cases r <;> trivial
  · refine uses_next (hsilent fun _ => id) fun _ => ?_
    refine uses_checked (hsilent fun _ => id) fun _ => ?_
    refine uses_checked (hsilent fun _ => id) fun _ => ?_
    refine uses_checked (hsilent fun _ => id) fun _ => ?_
    refine uses_checked (hsilent fun _ => id) fun _ => ?_
    refine uses_checked (hsilent fun _ => id) fun _ => ?_
    refine uses_checked (sparesStage_ubiRead (le_refl _) _ _) fun _ => hcompare _ _ _
  · refine uses_checked (hsilent fun _ => id) fun _ => ?_
    refine uses_checked (hsilent fun _ => id) fun _ => ?_
    exact uses_checked (hkernelRead _) fun _ => hcompare _ _ _

/-- **What follows the loop** stores nothing in the staging windows. -/
theorem sparesStage_afterLoop (s : Web) : Uses Cmd.SparesStage (afterLoop s) := by
  refine uses_exit fun _ => uses_ite (fun _ => sparesStage_resetAttempts _) fun _ => ?_
  refine uses_ite (fun _ => ?_) fun _ => uses_ite (fun _ => ?_) fun _ => trivial
  · refine uses_bind (sparesStage_factoryInstall _ _) fun _ => uses_ite (fun _ => ?_) fun _ => trivial
    exact uses_next (sparesStage_of_silent fun _ => id) fun _ => trivial
  · exact uses_next (sparesStage_of_silent fun _ => id) fun _ => trivial

end Loop

end UrsusBoot
