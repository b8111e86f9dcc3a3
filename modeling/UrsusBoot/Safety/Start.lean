import UrsusBoot.Engine.Handover
import UrsusBoot.Engine.Report
import UrsusBoot.Safety.FipProgress

/-!
# Refused starts

The start functions of the two engines of `ursusubi.c` check their arguments before they clear the
context; that of the FIP update clears it first. A start of the FIP update that is refused for
another reason than a running update therefore forgets how the previous one ended.
-/

namespace UrsusBoot

open Prog

namespace FipUpdate

/-- The contexts the engine can have: the one it boots with, and what starts and steps make of it,
on any board and however their commands turn out. -/
inductive Reachable (P : Platform) : Ctx → Prop
  | fresh : Reachable P {}
  | start {c : Ctx} (addr len : ℕ) (kind : FipKind) (outs : ℕ → Outcome) (w : World)
      (h : Reachable P c) : Reachable P (Prog.run exec (startKind P c addr len kind) outs w).val.2
  | step {c : Ctx} (outs : ℕ → Outcome) (w : World) (h : Reachable P c) :
      Reachable P (Prog.run exec (step P c) outs w).val.2

variable {A : FlashEvent → Prop} {P : Platform} {c : Ctx}

theorem startKind_cases (P : Platform) (c : Ctx) (addr len : ℕ) (kind : FipKind) :
    Yields exec A (fun r => r.1 = 0 ∧ r.2.stage = .precheck ∨
      r.1 ≠ 0 ∧ (c.active = true ∧ r.2 = c ∨ c.active = false ∧ r.2 = {}))
      (startKind P c addr len kind) := by
  refine yields_ite (fun hact => yields_ret (.inr ⟨by simp, .inl ⟨hact, rfl⟩⟩)) fun hact => ?_
  have hidle : c.active = false := by simpa using hact
  refine yields_bind yields_detectUbiLayout fun r hr => ?_
  cases r with
  | error e =>
    have hneg : e < 0 := hr e rfl
    exact yields_ret (.inr ⟨ne_of_lt hneg, .inr ⟨hidle, rfl⟩⟩)
  | ok isUbi =>
    refine yields_then fun ret =>
      yields_ite (fun hret => yields_ret (.inr ⟨hret, .inr ⟨hidle, rfl⟩⟩)) fun _ => ?_
    refine yields_ite (fun _ => yields_then fun ret => ?_) fun _ => ?_
    · refine yields_ite (fun hret => yields_ret (.inr ⟨hret, .inr ⟨hidle, rfl⟩⟩)) fun _ => ?_
      exact yields_then fun buf => yields_ret (.inl ⟨rfl, rfl⟩)
    · exact yields_then fun buf => yields_ret (.inl ⟨rfl, rfl⟩)

theorem step_ne_idle (hc : c.active = true → c.stage ≠ .idle) :
    Yields exec A (fun r => c.active = false ∧ r.2 = c ∨ r.2.stage ≠ .idle) (step P c) := by
  refine yields_ite (fun hact => yields_ret (.inl ⟨by simpa using hact, rfl⟩)) fun hact => ?_
  have hidle : c.stage ≠ .idle := hc (by simpa using hact)
  refine yields_ite (fun _ => yields_then fun now => yields_ret (.inr hidle)) fun _ => ?_
  refine yields_then fun t => yields_exit (.inr hidle) fun _ => ?_
  exact (runStage_handover P _).mono fun r hr => .inr hr.ne_idle

theorem Reachable.eq_of_idle (h : Reachable P c) (hidle : c.stage = .idle) : c = {} := by
  induction h with
  | fresh => rfl
  | @start c addr len kind outs w h ih =>
    have hcase := (startKind_cases (A := fun _ => True) P c addr len kind).run_of outs w
      fun _ _ => trivial
    rcases hcase with ⟨-, hst⟩ | ⟨-, ⟨-, heq⟩ | ⟨-, heq⟩⟩
    · rw [hidle] at hst
      cases hst
    · rw [heq] at hidle ⊢
      exact ih hidle
    · exact heq
  | @step c outs w h ih =>
    have hact : c.active = true → c.stage ≠ .idle := by
      intro hact hst
      rw [ih hst] at hact
      cases hact
    have hcase := (step_ne_idle (A := fun _ => True) (P := P) hact).run_of outs w fun _ _ => trivial
    rcases hcase with ⟨-, heq⟩ | hne
    · rw [heq] at hidle ⊢
      exact ih hidle
    · exact absurd hidle hne

theorem startKind_refused (h : Reachable P c) (addr len : ℕ) (kind : FipKind) (outs : ℕ → Outcome)
    (w : World) (hret : (Prog.run exec (startKind P c addr len kind) outs w).val.1 ≠ 0) :
    (Prog.run exec (startKind P c addr len kind) outs w).val.2.report = c.report ↔
      c.active = true ∨ c.stage = .idle := by
  have hcase := (startKind_cases (A := fun _ => True) P c addr len kind).run_of outs w
    fun _ _ => trivial
  rcases hcase with ⟨hz, -⟩ | ⟨-, ⟨hact, heq⟩ | ⟨hact, heq⟩⟩
  · exact absurd hz hret
  · rw [heq]
    exact ⟨fun _ => .inl hact, fun _ => rfl⟩
  · rw [heq]
    constructor
    · intro hrep
      -- the names of the stages tell the idle one from all others
      have hname : Stage.name .idle = c.stage.name := congrArg (fun r => r.stage) hrep
      right
      cases hst : c.stage <;> first | rfl | (rw [hst] at hname; exact absurd hname (by decide))
    · rintro (hact' | hidle)
      · rw [hact] at hact'
        cases hact'
      · rw [h.eq_of_idle hidle]

end FipUpdate

theorem UbiUpdate.start_refused (c : UbiUpdate.Ctx) (mig : Bool) (addr len : ℕ) (keep : Bool) :
    Gives (fun r => r.1 ≠ 0 → r.2 = c)
      (UbiUpdate.start c mig addr len keep) := by
  refine yields_exit (fun _ => rfl) fun _ => ?_
  refine yields_exit (fun _ => rfl) fun _ => ?_
  refine yields_then fun ret => yields_exit (fun _ => rfl) fun _ => ?_
  exact yields_ret fun h => absurd rfl h

theorem Migration.start_refused (c : Migration.Ctx) (fitAddr fitLen preAddr preLen : ℕ)
    (h : (Migration.start c fitAddr fitLen preAddr preLen).1 ≠ 0) :
    (Migration.start c fitAddr fitLen preAddr preLen).2 = c := by
  unfold Migration.start at h ⊢
  split_ifs at h ⊢
  · rfl
  · rfl
  · exact absurd rfl h

/-- **Refused starts.** Whatever its arguments, the board and the outcomes of its commands are, a
start of the UBI update or of the migration that is refused changes nothing the engine reports. A
start of the FIP update that is refused changes nothing exactly when that engine is busy or idle. -/
theorem refused_start_keeps_report (P : Platform) :
    (∀ (c : UbiUpdate.Ctx) (mig : Bool) (addr len : ℕ) (keep : Bool) (outs : ℕ → Outcome)
        (w : World),
      (Prog.run exec (UbiUpdate.start c mig addr len keep) outs w).val.1 ≠ 0 →
      (Prog.run exec (UbiUpdate.start c mig addr len keep) outs w).val.2.report = c.report) ∧
    (∀ (c : Migration.Ctx) (fitAddr fitLen preAddr preLen : ℕ),
      (Migration.start c fitAddr fitLen preAddr preLen).1 ≠ 0 →
      (Migration.start c fitAddr fitLen preAddr preLen).2.report = c.report) ∧
    ∀ (c : FipUpdate.Ctx), FipUpdate.Reachable P c →
      ∀ (addr len : ℕ) (kind : FipKind) (outs : ℕ → Outcome) (w : World),
      (Prog.run exec (FipUpdate.startKind P c addr len kind) outs w).val.1 ≠ 0 →
      ((Prog.run exec (FipUpdate.startKind P c addr len kind) outs w).val.2.report = c.report ↔
        c.active = true ∨ c.stage = .idle) := by
  refine ⟨?_, ?_, ?_⟩
  · intro c mig addr len keep outs w hret
    have h := (UbiUpdate.start_refused c mig addr len keep).run_of outs w fun _ _ => trivial
    rw [h hret]
  · intro c fitAddr fitLen preAddr preLen hret
    rw [Migration.start_refused c fitAddr fitLen preAddr preLen hret]
  · intro c hc addr len kind outs w hret
    exact FipUpdate.startKind_refused hc addr len kind outs w hret

section Sample

open FipUpdate

theorem startKind_noNand (P : Platform) {c : Ctx} (hact : c.active = false) (addr len : ℕ)
    (kind : FipKind) (w : World) :
    (Prog.run exec (startKind P c addr len kind) (fun _ => noNand) w).val = (-enodev, {}) := by
  unfold startKind
  rw [hact]
  rfl

theorem Attempt.run_reachable {P : Platform} {s : Attempt} (h : Reachable P s.ctx)
    (is : List Call) : Reachable P (runFrom (Attempt.call P) s is).ctx := by
  induction is generalizing s with
  | nil => exact h
  | cons i is ih => exact ih (h.step i.outs _)

theorem lostNand_reachable :
    ∃ c, Reachable samplePlatform c ∧ c.active = false ∧ c.stage = .failed ∧
      c.errorCode = "PRECHECK_LAYOUT_DETECT_FAILED" := by
  obtain ⟨outs, hstart, -⟩ := sampleAttempt_start freshTable
  have h₀ : Reachable samplePlatform (sampleAttempt freshTable).ctx := by
    have h := Reachable.start sampleAddr 1174 .ursus outs (sampleWorld freshTable)
      (.fresh (P := samplePlatform))
    rwa [hstart] at h
  have hreach : (sampleAttempt freshTable).CanReach samplePlatform (fun _ _ => True) fun s =>
      s.ctx.active = false ∧ s.ctx.stage = .failed ∧
        s.ctx.errorCode = "PRECHECK_LAYOUT_DETECT_FAILED" := by
    refine Attempt.canReach_stage (sampleRam false) rfl rfl (fun _ => trivial)
      (fun _ _ _ _ => trivial) fun n t es _ => ?_
    exact may_precheck_noNand (Attempt.canReach_here ⟨rfl, rfl, rfl⟩)
  obtain ⟨is, -, hact, hst, hcode⟩ := hreach
  exact ⟨_, Attempt.run_reachable h₀ is, hact, hst, hcode⟩

/-- An update has failed; a start is refused because the NAND is not found, and afterwards the
failure is no longer reported. -/
theorem refused_start_forgets_failure :
    ∃ c, Reachable samplePlatform c ∧ c.report.stage = "FAILED" ∧
      c.report.errorCode = "PRECHECK_LAYOUT_DETECT_FAILED" ∧
      (Prog.run exec (startKind samplePlatform c sampleAddr 1174 .ursus) (fun _ => noNand)
        (sampleWorld freshTable)).val.1 = -enodev ∧
      (Prog.run exec (startKind samplePlatform c sampleAddr 1174 .ursus) (fun _ => noNand)
        (sampleWorld freshTable)).val.2.report.stage = "IDLE" ∧
      (Prog.run exec (startKind samplePlatform c sampleAddr 1174 .ursus) (fun _ => noNand)
        (sampleWorld freshTable)).val.2.report.errorCode = "NONE" := by
  obtain ⟨c, hc, hact, hst, hcode⟩ := lostNand_reachable
  refine ⟨c, hc, ?_, ?_, ?_⟩
  · simp only [Ctx.report, hst]
    rfl
  · simp only [Ctx.report, hcode]
    rfl
  · rw [startKind_noNand samplePlatform hact]
    exact ⟨rfl, rfl, rfl⟩

/-- A start of an engine that has never run is refused, and it still reports that it is idle. -/
theorem refused_start_keeps_report_idle :
    (Prog.run exec (startKind samplePlatform {} sampleAddr 1174 .ursus) (fun _ => noNand)
      (sampleWorld freshTable)).val.1 ≠ 0 ∧
    (Prog.run exec (startKind samplePlatform {} sampleAddr 1174 .ursus) (fun _ => noNand)
      (sampleWorld freshTable)).val.2.report = ({} : Ctx).report := by
  have hret : (Prog.run exec (startKind samplePlatform {} sampleAddr 1174 .ursus)
      (fun _ => noNand) (sampleWorld freshTable)).val.1 ≠ 0 := by
    rw [startKind_noNand samplePlatform rfl]
    decide
  have h := (refused_start_keeps_report samplePlatform).2.2 {} .fresh sampleAddr 1174 .ursus
    (fun _ => noNand) (sampleWorld freshTable) hret
  exact ⟨hret, h.2 (.inr rfl)⟩

end Sample

end UrsusBoot
