import UrsusBoot.Engine.Handover
import UrsusBoot.Engine.Pace

/-!
# The progress of the engines

A call of an active engine announces its stage, waits, or runs the stage; the stages follow each
other in an order that ends.
-/

namespace UrsusBoot

open Prog

/-! ## The clock -/

namespace World

variable (w : World) (o : Outcome)

@[simp] theorem ubiCells_clock : (w.ubiCells o).clock = w.clock := by
  unfold ubiCells
  split <;> rfl

@[simp] theorem setUbi_clock (a : UbiArea) (u : UbiImage) : (w.setUbi a u).clock = w.clock := rfl

@[simp] theorem ubiPart_clock (p : UbiPart) : (w.ubiPart o p).2.clock = w.clock := by
  unfold ubiPart
  split_ifs <;> simp

@[simp] theorem ubiRead_clock (addr : ℕ) (n : String) (size : ℕ) :
    (w.ubiRead o addr n size).2.clock = w.clock := by
  unfold ubiRead
  repeat' split
  all_goals simp

@[simp] theorem ubiWrite_clock (n : String) (bs : List UInt8) :
    (w.ubiWrite o n bs).2.clock = w.clock := by
  unfold ubiWrite
  repeat' split
  all_goals simp

@[simp] theorem shellUbi_clock (f : UbiImage → Option UbiImage) :
    (w.shellUbi o f).2.clock = w.clock := by
  unfold shellUbi
  repeat' split
  all_goals simp

end World

/-- **The clock never goes back.** -/
theorem exec_clock (c : Cmd) (o : Outcome) (w : World) : w.clock ≤ (exec c o w).2.clock := by
  cases c with
  | getTimer base => exact Nat.le_add_right _ _
  | ubiCheck | ubiCreate | ubiRemove | ubiRename | ubiWrite | ubiOpenVolume => simp [exec]
  | ubiPart p => exact (World.ubiPart_clock w o p).ge
  | ubiRead addr n size => exact (World.ubiRead_clock w o addr n size).ge
  | ubiReadWhole addr n => exact (World.ubiRead_clock w o addr n 0).ge
  | envSave =>
    simp only [exec, World.envSave]
    split_ifs <;> simp
  | _ =>
    simp only [exec, World.ubiRenameVolumes, World.ubiRegisterMtd, World.updateRegisterUbiPart,
      World.factoryRegisterMtd, World.factoryKernelWrite, World.factoryKernelRead, World.mtdErased]
    repeat' split
    all_goals simp [World.mtdStore, World.rawWrite, World.rawErase, World.rawTorn]

theorem spec_clock {α : Type} {A : FlashEvent → Prop} (p : FlashProg α) (w : World) :
    Spec exec A (fun _ => True) (fun _ w' => w.clock ≤ w'.clock) p w := by
  induction p generalizing w with
  | ret a => exact le_rfl
  | cmd c k ih =>
    intro o _
    refine ⟨trivial, (ih _ _).mono ?_⟩
    intro _ w' hw'
    exact (exec_clock c o w).trans hw'

/-! ## Pace -/

/-- What decides when an engine runs its next stage: `left` stages may still have to run. -/
structure Pace where
  active : Bool
  announced : Bool
  since : ℕ
  left : ℕ
  /-- The stage is COMPLETE or FAILED. -/
  finished : Bool

namespace Pace

/-- The announcements and the stages that are left. -/
def steps (p : Pace) : ℕ := 2 * p.left + if p.announced then 0 else 1

def Ended (p : Pace) : Prop := p.active = false ∧ p.finished = true

def Timed (p : Pace) (w : World) : Prop := p.announced = true → p.since ≤ w.clock

/-- What a call in the world `w` may come to: it ends the engine, brings it closer to its end, or
finds a stage that has not been held for `hold` ms. -/
inductive Moves (hold : ℕ) (w : World) (p q : Pace) (w' : World) : Prop
  | ended : q.Ended → Moves hold w p q w'
  | closer : q.active = true → q.Timed w' → q.steps < p.steps → Moves hold w p q w'
  | held : q = p → (w'.clock < 2 ^ 64 → p.announced = true ∧ w.clock < p.since + hold) →
      Moves hold w p q w'

theorem Timed.mono {p : Pace} {w w' : World} (h : p.Timed w) (hclock : w.clock ≤ w'.clock) :
    p.Timed w' := fun hann => (h hann).trans hclock

theorem Moves.mono {hold : ℕ} {p q : Pace} {w₀ w w' w₁ : World} (h : Moves hold w p q w')
    (hbefore : w₀.clock ≤ w.clock) (hafter : w'.clock ≤ w₁.clock) : Moves hold w₀ p q w₁ := by
  cases h with
  | ended h => exact .ended h
  | closer hact htimed hsteps => exact .closer hact (htimed.mono hafter) hsteps
  | held heq hheld =>
    refine .held heq fun hclock => ?_
    obtain ⟨hann, hlt⟩ := hheld (hafter.trans_lt hclock)
    exact ⟨hann, hbefore.trans_lt hlt⟩

def Passes (p q : Pace) : Prop :=
  q.Ended ∨ q.active = true ∧ q.announced = false ∧ q.left < p.left

theorem Passes.moves {hold : ℕ} {p q : Pace} {w w' : World} (h : p.Passes q) :
    Moves hold w p q w' := by
  rcases h with h | ⟨hact, hann, hleft⟩
  · exact .ended h
  · refine .closer hact (fun h => ?_) ?_
    · rw [hann] at h
      cases h
    · unfold steps
      split_ifs <;> omega

theorem passes_of {σ : Type} [DecidableEq σ] {complete failed st st' : σ} {left : σ → ℕ}
    {act ann act' ann' : Bool} {since since' : ℕ} (hact : act = true) (hann : ann = false)
    (hactive : act' = true → st' ≠ failed ∧ st' ≠ complete)
    (hmoves : st' = failed ∨ st' = complete ∨ act' = act ∧ ann' = ann)
    (hstage : st' = failed ∨ left st' < left st) :
    Passes ⟨act, ann, since, left st, decide (st = complete ∨ st = failed)⟩
      ⟨act', ann', since', left st', decide (st' = complete ∨ st' = failed)⟩ := by
  by_cases hover : st' = complete ∨ st' = failed
  · have hidle : act' = false := by
      by_contra hrun
      obtain ⟨hfailed, hcomplete⟩ := hactive (by simpa using hrun)
      exact hover.elim hcomplete hfailed
    exact .inl ⟨hidle, decide_eq_true hover⟩
  · obtain ⟨hcomplete, hfailed⟩ := not_or.1 hover
    obtain ⟨hrun, hquiet⟩ := (hmoves.resolve_left hfailed).resolve_left hcomplete
    exact .inr ⟨hrun.trans hact, hquiet.trans hann, hstage.resolve_left hfailed⟩

end Pace

/-- **A call** of a paced engine moves it, when its stages do. -/
theorem spec_paced {α : Type} (view : α → Pace) {p : Pace} {hold : ℕ} {rest wait : α}
    {announce : ℕ → α} {stage : FlashProg α} {w : World} (hact : p.active = true)
    (htimed : p.Timed w) (hwait : view wait = p)
    (hannounce : ∀ n, view (announce n) = { p with announced := true, since := n })
    (hstage : Gives (fun a => p.Passes (view a)) stage) :
    Ensures (fun a w' => Pace.Moves hold w p (view a) w')
      (paced p.active p.announced p.since hold rest wait announce stage) w := by
  unfold paced
  rw [if_neg (by simp [hact])]
  by_cases hann : p.announced = true
  · rw [if_neg (by simp [hann])]
    intro o _
    refine ⟨trivial, ?_⟩
    apply spec_ite
    · intro hheld
      refine .held hwait fun hclock => ⟨hann, ?_⟩
      have hsince : p.since ≤ w.clock := htimed hann
      -- the difference does not wrap: the announcement is not later than the clock
      have hread : (w.clock + o.tick + (2 ^ 64 - p.since % 2 ^ 64)) % 2 ^ 64 < hold := hheld
      have hclock' : w.clock + o.tick < 2 ^ 64 := hclock
      omega
    · intro _
      exact (hstage _).mono fun _ _ h => h.moves
  · rw [if_pos (by simp [hann])]
    intro o _
    refine ⟨trivial, .closer ?_ ?_ ?_⟩
    · rw [hannounce]
      exact hact
    · rw [hannounce]
      intro _
      show (w.clock + o.tick + (2 ^ 64 - 0 % 2 ^ 64)) % 2 ^ 64 ≤ w.clock + o.tick
      omega
    · rw [hannounce]
      simp [Pace.steps, hann]

/-! ## The three engines -/

variable {c : Ctx}

namespace UbiUpdate

def Stage.left : Stage → ℕ
  | .precheck => 6
  | .stagePrep => 5
  | .stageWrite => 4
  | .stageVerify => 3
  | .promote => 2
  | .finalVerify => 1
  | .complete | .failed | .idle => 0

theorem Stage.left_of_next {st st' : Stage} (h : st' ∈ st.next) : st'.left < st.left := by
  cases st <;> simp only [next, List.mem_cons, List.not_mem_nil, or_false] at h <;>
    rcases h with rfl | rfl <;> decide

def Ctx.pace (c : Ctx) : Pace :=
  ⟨c.active, c.announced, c.announcedAt, c.stage.left,
    decide (c.stage = .complete ∨ c.stage = .failed)⟩

theorem Handover.passes {r : ℤ × Ctx} (h : Handover c r) (hact : c.active = true)
    (hann : c.announced = false) : c.pace.Passes r.2.pace :=
  Pace.passes_of hact hann h.active h.moves (h.stage.imp_right Stage.left_of_next)

theorem step_moves {w : World} (hact : c.active = true) (htimed : c.pace.Timed w) :
    Ensures
      (fun r w' => Pace.Moves stageHoldMs w c.pace r.2.pace w') (step c) w := by
  apply spec_paced (fun r : ℤ × Ctx => r.2.pace) hact htimed rfl (fun _ => rfl)
  exact (runStage_handover { c with announced := false }).mono fun _ hr => hr.passes hact rfl

end UbiUpdate

namespace Migration

def Stage.left : Stage → ℕ
  | .precheck => 17
  | .backupBosa => 16
  | .backupRi => 15
  | .backupFip => 14
  | .formatUbi => 13
  | .attachUbi => 12
  | .createVolumes => 11
  | .writeBosa => 10
  | .writeRi => 9
  | .writeFip => 8
  | .writeFit => 7
  | .verifyBosa => 6
  | .verifyRi => 5
  | .verifyFip => 4
  | .verifyFit => 3
  | .commitBl2 => 2
  | .verifyBl2 => 1
  | .complete | .failed | .idle => 0

theorem Stage.left_of_next {st st' : Stage} (h : st.next = some st') : st'.left < st.left := by
  cases st <;> cases h <;> decide

def Ctx.pace (c : Ctx) : Pace :=
  ⟨c.active, c.announced, c.announcedAt, c.stage.left,
    decide (c.stage = .complete ∨ c.stage = .failed)⟩

theorem Handover.passes {r : ℤ × Ctx} (h : Handover c r) (hact : c.active = true)
    (hann : c.announced = false) : c.pace.Passes r.2.pace :=
  Pace.passes_of hact hann h.active h.moves (h.stage.imp_right Stage.left_of_next)

theorem stage_passes (P : Platform) (b : Bl2Candidate) (hact : c.active = true)
    (hann : c.announced = false) :
    Gives (fun r => c.pace.Passes r.1.2.pace)
      (if c.stage = .precheck then precheck P b c else do
        let r ← runStage b c
        return (r, b)) := by
  apply yields_ite
  · intro hpre
    exact (precheck_handover P b hpre).mono fun _ hr => hr.passes hact hann
  · intro _
    apply yields_bind (runStage_handover b c)
    intro r hr
    exact yields_ret (hr.passes hact hann)

theorem step_moves (P : Platform) (b : Bl2Candidate) {w : World} (hact : c.active = true)
    (htimed : c.pace.Timed w) :
    Ensures
      (fun r w' => Pace.Moves stageHoldMs w c.pace r.1.2.pace w') (step P b c) w := by
  apply spec_paced (fun r : (ℤ × Ctx) × Bl2Candidate => r.1.2.pace) hact htimed rfl (fun _ => rfl)
  exact (stage_passes P b (c := { c with announced := false }) hact rfl).mono fun _ hr => hr

end Migration

namespace FipUpdate

def Stage.left : Stage → ℕ
  | .precheck => 8
  | .stockBackup => 4
  | .stockErase => 3
  | .stockWrite => 2
  | .stockVerify => 1
  | .ubiAttach => 7
  | .ubiStagePrep => 6
  | .ubiStageWrite => 5
  | .ubiStageVerify => 4
  | .ubiPromote => 3
  | .ubiVerify => 2
  | .ubiRollback => 1
  | .complete | .failed | .idle => 0

theorem Stage.left_of_next {st st' : Stage} (h : st' ∈ st.next) : st'.left < st.left := by
  cases st <;> simp only [next, List.mem_cons, List.not_mem_nil, or_false] at h <;>
    rcases h with rfl | rfl <;> decide

def Ctx.pace (c : Ctx) : Pace :=
  ⟨c.active, c.announced, c.announcedAt, c.stage.left,
    decide (c.stage = .complete ∨ c.stage = .failed)⟩

theorem Handover.passes {r : ℤ × Ctx} (h : Handover c r) (hact : c.active = true)
    (hann : c.announced = false) : c.pace.Passes r.2.pace :=
  Pace.passes_of hact hann h.active h.moves (h.stage.imp_right Stage.left_of_next)

theorem step_moves (P : Platform) {w : World} (hact : c.active = true) (htimed : c.pace.Timed w) :
    Ensures
      (fun r w' => Pace.Moves stageHoldMs w c.pace r.2.pace w') (step P c) w := by
  apply spec_paced (fun r : ℤ × Ctx => r.2.pace) hact htimed rfl (fun _ => rfl)
  exact (runStage_handover P { c with announced := false }).mono fun _ hr => hr.passes hact rfl

end FipUpdate

end UrsusBoot
