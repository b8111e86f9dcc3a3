import UrsusBoot.Engine.Progress
import UrsusBoot.Safety.WebBoard

/-!
# An active operation is driven

The loop steps an engine when the engine is active and its flag is set. The engines live on when
`ursusweb` is left and run again, the flags do not.
-/

namespace UrsusBoot

open Prog
open FipUpdate (samplePlatform sampleWorld freshTable)

inductive EngineName
  | update
  | migration
  | bootloader
deriving DecidableEq

namespace Drive

def pace (d : Drive) : EngineName → Pace
  | .update => d.engines.upd.pace
  | .migration => d.engines.mig.pace
  | .bootloader => d.engines.fip.pace

def flag (d : Drive) : EngineName → Bool
  | .update => d.ubiUpdate
  | .migration => d.ubiMigration
  | .bootloader => d.bootloader

theorem steps_le (d : Drive) (e : EngineName) : (d.pace e).steps ≤ 35 := by
  have hsteps : ∀ p : Pace, p.left ≤ 17 → p.steps ≤ 35 := by
    intro p hp
    unfold Pace.steps
    split_ifs <;> omega
  apply hsteps
  cases e with
  | update =>
    show d.engines.upd.stage.left ≤ 17
    cases d.engines.upd.stage <;> decide
  | migration =>
    show d.engines.mig.stage.left ≤ 17
    cases d.engines.mig.stage <;> decide
  | bootloader =>
    show d.engines.fip.stage.left ≤ 17
    cases d.engines.fip.stage <;> decide

end Drive

/-- `URSUS_UPD_STAGE_HOLD_MS` and the others. -/
def EngineName.hold : EngineName → ℕ
  | .update => UbiUpdate.stageHoldMs
  | .migration => Migration.stageHoldMs
  | .bootloader => FipUpdate.stageHoldMs

abbrev longestHold : ℕ := 350

theorem EngineName.hold_le (e : EngineName) : e.hold ≤ longestHold := by
  cases e <;> decide

/-! ## Requests -/

theorem Starts.keeps {ro : Option Route} {l : Layout} {d d' : Drive} (h : Starts ro l d d')
    {e : EngineName} (hact : (d.pace e).active = true) :
    d'.pace e = d.pace e ∧ (d.flag e = true → d'.flag e = true) := by
  have hno : ∀ {b : Bool} {q : Prop}, b = true → b = false → q := by
    intro b q ht hf
    rw [ht] at hf
    cases hf
  cases h with
  | none bl2 => cases e <;> exact ⟨rfl, fun h => h⟩
  | update upd _ _ hnone _ _ =>
    simp only [Engines.anyActive, Bool.or_eq_false_iff] at hnone
    cases e with
    | update => exact hno hact hnone.1.1
    | migration => exact hno hact hnone.1.2
    | bootloader => exact hno hact hnone.2
  | migration mig _ _ hidle _ _ =>
    cases e with
    | migration => exact hno hact hidle
    | update => exact ⟨rfl, fun h => h⟩
    | bootloader => exact ⟨rfl, fun h => h⟩
  | bootloader fip _ _ hidle _ _ =>
    cases e with
    | bootloader => exact hno hact hidle
    | update => exact ⟨rfl, fun h => h⟩
    | migration => exact ⟨rfl, fun h => h⟩
  | cleared fip _ _ hidle _ _ =>
    cases e with
    | bootloader => exact hno hact hidle
    | update => exact ⟨rfl, fun h => h⟩
    | migration => exact ⟨rfl, fun h => h⟩

theorem Starts.ready {ro : Option Route} {l : Layout} {d d' : Drive} (h : Starts ro l d d')
    {e : EngineName} (hidle : (d.pace e).active = false) (hact : (d'.pace e).active = true) :
    d'.flag e = true ∧ (d'.pace e).announced = false := by
  have hno : ∀ {b : Bool} {q : Prop}, b = true → b = false → q := by
    intro b q ht hf
    rw [ht] at hf
    cases hf
  cases h with
  | none bl2 => cases e <;> exact hno hact hidle
  | update upd _ _ _ _ hnew =>
    cases e with
    | update => exact ⟨rfl, hnew.2⟩
    | migration => exact hno hact hidle
    | bootloader => exact hno hact hidle
  | migration mig _ _ _ _ hnew =>
    cases e with
    | migration => exact ⟨rfl, hnew.2⟩
    | update => exact hno hact hidle
    | bootloader => exact hno hact hidle
  | bootloader fip _ _ _ _ hnew =>
    cases e with
    | bootloader => exact ⟨rfl, hnew.2⟩
    | update => exact hno hact hidle
    | migration => exact hno hact hidle
  | cleared fip _ _ _ hoff _ =>
    cases e with
    | bootloader => exact hno hact hoff
    | update => exact hno hact hidle
    | migration => exact hno hact hidle

/-! ## The end of an iteration -/

theorem Serviced.keeps {d d' : Drive} (h : Serviced d d') (e : EngineName) :
    d'.flag e = d.flag e ∧ ((d.pace e).active = false → d'.pace e = d.pace e) := by
  cases e with
  | update =>
    refine ⟨h.ubiUpdate, fun hidle => congrArg UbiUpdate.Ctx.pace (h.upd ?_)⟩
    have hidle' : d.engines.upd.active = false := hidle
    rw [hidle', Bool.and_false]
  | migration =>
    refine ⟨h.ubiMigration, fun hidle => congrArg Migration.Ctx.pace (h.mig ?_)⟩
    have hidle' : d.engines.mig.active = false := hidle
    rw [hidle', Bool.and_false]
  | bootloader =>
    refine ⟨h.bootloader, fun hidle => congrArg FipUpdate.Ctx.pace (h.fip ?_)⟩
    have hidle' : d.engines.fip.active = false := hidle
    rw [hidle', Bool.and_false]

section Turns

variable (P : Platform) {s : Web} {w : World}

theorem serviceUpdate_moves (probe : Probe) (hflag : s.pendingUbiUpdate = true)
    (hact : s.engines.upd.active = true) (htimed : s.engines.upd.pace.Timed w) :
    Ensures
      (fun s' w' => Pace.Moves UbiUpdate.stageHoldMs w s.engines.upd.pace s'.engines.upd.pace w')
      (serviceUpdate probe s) w := by
  unfold serviceUpdate
  rw [if_neg (by simp [hflag, hact])]
  apply (UbiUpdate.step_moves hact htimed).bind
  intro r w' hr
  apply spec_ite
  · exact fun _ _ _ => ⟨trivial, hr⟩
  intro _
  apply spec_ite
  · exact fun _ _ _ => ⟨trivial, fun _ _ => ⟨trivial, hr⟩⟩
  · exact fun _ => hr

theorem serviceMigration_moves (hflag : s.pendingUbiMigration = true)
    (hact : s.engines.mig.active = true) (htimed : s.engines.mig.pace.Timed w) :
    Ensures
      (fun s' w' => Pace.Moves Migration.stageHoldMs w s.engines.mig.pace s'.engines.mig.pace w')
      (serviceMigration P s) w := by
  unfold serviceMigration
  rw [if_neg (by simp [hflag, hact])]
  apply (Migration.step_moves P s.engines.bl2 hact htimed).bind
  intro r w' hr
  apply spec_ite
  · exact fun _ _ _ => ⟨trivial, hr⟩
  intro _
  apply spec_ite
  · exact fun _ _ _ => ⟨trivial, fun _ _ => ⟨trivial, hr⟩⟩
  · exact fun _ => hr

theorem serviceBootloader_moves (hflag : s.pendingBootloaderUpdate = true)
    (hact : s.engines.fip.active = true) (htimed : s.engines.fip.pace.Timed w) :
    Ensures
      (fun s' w' => Pace.Moves FipUpdate.stageHoldMs w s.engines.fip.pace s'.engines.fip.pace w')
      (serviceBootloader P s) w := by
  unfold serviceBootloader
  rw [if_neg (by simp [hflag, hact])]
  apply (FipUpdate.step_moves P hact htimed).bind
  intro r w' hr
  apply spec_ite
  · exact fun _ _ _ => ⟨trivial, hr⟩
  intro _
  apply spec_ite
  · exact fun _ _ _ => ⟨trivial, hr⟩
  · exact fun _ => hr

theorem spec_turn {p : FlashProg Web} {Q : Web → Prop} (h : Gives Q p) :
    Ensures (fun s' w' => Q s' ∧ w.clock ≤ w'.clock) p w :=
  ((h w).and (spec_clock p w)).weaken (fun _ h => h) (fun _ _ _ => trivial)

/-- **An iteration moves every engine that is ready.** -/
theorem serviceEngines_moves (probe : Probe) (e : EngineName) (hflag : s.drive.flag e = true)
    (hact : (s.drive.pace e).active = true) (htimed : (s.drive.pace e).Timed w) :
    Ensures
      (fun s' w' => Pace.Moves e.hold w (s.drive.pace e) (s'.drive.pace e) w')
      (serviceEngines P probe s) w := by
  unfold serviceEngines
  cases e with
  | update =>
    apply (serviceUpdate_moves probe hflag hact htimed).bind
    intro s₁ w₁ h₁
    apply (spec_turn (serviceMigration_yields P s₁)).bind
    rintro s₂ w₂ ⟨⟨mig, bl2, h₂, -⟩, hw₂⟩
    apply (spec_turn (serviceBootloader_yields P s₂)).mono
    rintro s₃ w₃ ⟨⟨fip, h₃, -⟩, hw₃⟩
    have hlast : s₃.engines.upd = s₁.engines.upd := by
      have e₃ : s₃.engines = { s₂.engines with fip } := congrArg Drive.engines h₃
      have e₂ : s₂.engines = { s₁.engines with mig, bl2 } := congrArg Drive.engines h₂
      rw [e₃, e₂]
    show Pace.Moves _ w s.engines.upd.pace s₃.engines.upd.pace w₃
    rw [hlast]
    exact h₁.mono le_rfl (hw₂.trans hw₃)
  | migration =>
    apply (spec_turn (serviceUpdate_yields probe s)).bind
    rintro s₁ w₁ ⟨⟨upd, h₁, -⟩, hw₁⟩
    have e₁ : s₁.engines = { s.engines with upd } := congrArg Drive.engines h₁
    have hmig : s₁.engines.mig = s.engines.mig := by rw [e₁]
    have hflag₁ : s₁.pendingUbiMigration = true :=
      (congrArg Drive.ubiMigration h₁).trans hflag
    apply (serviceMigration_moves P hflag₁ (by rw [hmig]; exact hact)
      (by rw [hmig]; exact Pace.Timed.mono htimed hw₁)).bind
    intro s₂ w₂ h₂
    rw [hmig] at h₂
    apply (spec_turn (serviceBootloader_yields P s₂)).mono
    rintro s₃ w₃ ⟨⟨fip, h₃, -⟩, hw₃⟩
    have e₃ : s₃.engines = { s₂.engines with fip } := congrArg Drive.engines h₃
    have hlast : s₃.engines.mig = s₂.engines.mig := by rw [e₃]
    show Pace.Moves _ w s.engines.mig.pace s₃.engines.mig.pace w₃
    rw [hlast]
    exact h₂.mono hw₁ hw₃
  | bootloader =>
    apply (spec_turn (serviceUpdate_yields probe s)).bind
    rintro s₁ w₁ ⟨⟨upd, h₁, -⟩, hw₁⟩
    apply (spec_turn (serviceMigration_yields P s₁)).bind
    rintro s₂ w₂ ⟨⟨mig, bl2, h₂, -⟩, hw₂⟩
    have hfip : s₂.engines.fip = s.engines.fip := by
      have e₂ : s₂.engines = { s₁.engines with mig, bl2 } := congrArg Drive.engines h₂
      have e₁ : s₁.engines = { s.engines with upd } := congrArg Drive.engines h₁
      rw [e₂, e₁]
    have hflag₂ : s₂.pendingBootloaderUpdate = true :=
      (congrArg Drive.bootloader h₂).trans ((congrArg Drive.bootloader h₁).trans hflag)
    have hw : w.clock ≤ w₂.clock := hw₁.trans hw₂
    apply (serviceBootloader_moves P hflag₂ (by rw [hfip]; exact hact)
      (by rw [hfip]; exact Pace.Timed.mono htimed hw)).mono
    intro s₃ w₃ h₃
    rw [hfip] at h₃
    exact h₃.mono hw le_rfl

/-- **The end of an iteration**: unless a reboot stops the loop, every engine that is ready moves. -/
theorem service_moves (probe : Probe) (e : EngineName) (hflag : s.drive.flag e = true)
    (hact : (s.drive.pace e).active = true) (htimed : (s.drive.pace e).Timed w) :
    Ensures
      (fun s' w' => s'.stop = true ∧ s'.drive = s.drive ∨
        Pace.Moves e.hold w (s.drive.pace e) (s'.drive.pace e) w')
      (service P probe s) w := by
  have hengines : ∀ w₁ : World, w.clock ≤ w₁.clock → Ensures
      (fun s' w' => s'.stop = true ∧ s'.drive = s.drive ∨
        Pace.Moves e.hold w (s.drive.pace e) (s'.drive.pace e) w') (serviceEngines P probe s) w₁ := by
    intro w₁ hw₁
    apply (serviceEngines_moves P probe e hflag hact (htimed.mono hw₁)).mono
    intro s' w' h'
    exact .inr (h'.mono hw₁ le_rfl)
  have hforce : ∀ w₁ : World, w.clock ≤ w₁.clock → Ensures
      (fun s' w' => s'.stop = true ∧ s'.drive = s.drive ∨
        Pace.Moves e.hold w (s.drive.pace e) (s'.drive.pace e) w')
      (do
        if s.pendingReboot && s.rebootRequestAt != 0 then
          if rebootForceMs ≤ (← getTimer s.rebootRequestAt) then
            logf .rebootForced
            return { s with stop := true }
        serviceEngines P probe s) w₁ := by
    intro w₁ hw₁
    apply spec_ite
    · intro _ o _
      refine ⟨trivial, spec_ite ?_ ?_⟩
      · exact fun _ _ _ => ⟨trivial, .inl ⟨rfl, rfl⟩⟩
      · exact fun _ => hengines _ (hw₁.trans (Nat.le_add_right _ _))
    · exact fun _ => hengines _ hw₁
  unfold service
  apply spec_ite
  · intro _ o _
    refine ⟨trivial, spec_ite ?_ ?_⟩
    · exact fun _ _ _ => ⟨trivial, .inl ⟨rfl, rfl⟩⟩
    · exact fun _ => hforce _ (Nat.le_add_right _ _)
  · exact fun _ => hforce _ le_rfl

end Turns

/-! ## Events -/

/-- The engine is active, its flag is set, and its announcement lies in the past. -/
structure Ready (e : EngineName) (b : Board) : Prop where
  active : (b.host.web.drive.pace e).active = true
  flag : b.host.web.drive.flag e = true
  timed : (b.host.web.drive.pace e).Timed b.world

def Done (e : EngineName) (b : Board) : Prop := (b.host.web.drive.pace e).Ended

/-- `ursusweb` is only run again when no engine is active. -/
def RestartsIdle (b : Board) (i : Input × (ℕ → Outcome)) : Prop :=
  ∀ probe ok, i.1 = .restart probe ok → b.host.web.engines.anyActive = false

theorem active_of_anyActive {d : Drive} (h : d.engines.anyActive = false) (e : EngineName) :
    (d.pace e).active = false := by
  simp only [Engines.anyActive, Bool.or_eq_false_iff] at h
  cases e with
  | update => exact h.1.1
  | migration => exact h.1.2
  | bootloader => exact h.2

section Events

variable (P : Platform) (L : FitLib) {b : Board} {i : Input × (ℕ → Outcome)} {e : EngineName}

theorem Board.step_clock (b : Board) (i : Input × (ℕ → Outcome)) :
    b.world.clock ≤ (b.step P L i).world.clock :=
  ((spec_clock (b.host.react P L i.1) b.world).run_of i.2 fun _ _ => trivial).2

theorem Board.step_service (hready : Ready e b) (hphase : b.host.phase = .net) {probe : Probe}
    (hi : i.1 = .service probe) :
    (b.step P L i).host.phase = .exited ∧
        (b.step P L i).host.web.drive.pace e = b.host.web.drive.pace e ∨
      Pace.Moves e.hold b.world (b.host.web.drive.pace e)
        ((b.step P L i).host.web.drive.pace e) (b.step P L i).world := by
  have hreact : b.host.react P L i.1 = (do
      let web ← service P probe b.host.web
      return if web.stop then ({ b.host with web }).exit
        else { b.host with web, phase := .top }) := by
    simp only [Host.react, hi, hphase]
  have hspec : Ensures
      (fun h' w' => h'.phase = .exited ∧ h'.web.drive.pace e = b.host.web.drive.pace e ∨
        Pace.Moves e.hold b.world (b.host.web.drive.pace e) (h'.web.drive.pace e) w')
      (b.host.react P L i.1) b.world := by
    rw [hreact]
    apply (service_moves P probe e hready.flag hready.active hready.timed).bind
    intro s' w' hs'
    rcases hs' with ⟨hstop, hsame⟩ | hmoves
    · rw [hstop]
      exact .inl ⟨rfl, congrArg (fun d => Drive.pace d e) hsame⟩
    · apply Or.inr
      split_ifs
      · exact hmoves
      · exact hmoves
  exact (hspec.run_of i.2 fun _ _ => trivial).2

/-- **An event** leaves a ready engine as it is, or is an iteration that moves it. -/
theorem Board.step_pace (hready : Ready e b) (hidle : RestartsIdle b i) :
    (b.step P L i).host.web.drive.flag e = true ∧
      ((b.step P L i).host.web.drive.pace e = b.host.web.drive.pace e ∨
        Pace.Moves e.hold b.world (b.host.web.drive.pace e)
          ((b.step P L i).host.web.drive.pace e) (b.step P L i).world) := by
  have hstep := Board.step_drive P L b i
  generalize hd : (b.step P L i).host.web.drive = d at hstep
  cases hstep with
  | starts hs =>
    obtain ⟨hsame, hflag⟩ := hs.keeps hready.active
    exact ⟨hflag hready.flag, .inl hsame⟩
  | serviced probe hphase hi hs =>
    refine ⟨((hs.keeps e).1).trans hready.flag, ?_⟩
    rw [← hd]
    rcases Board.step_service P L hready hphase hi with ⟨-, hsame⟩ | hmoves
    · exact .inl hsame
    · exact .inr hmoves
  | restarted probe ok _ hi =>
    have hoff := active_of_anyActive (d := b.host.web.drive) (hidle probe ok hi) e
    rw [hready.active] at hoff
    cases hoff

theorem Ready.step (hready : Ready e b) (hidle : RestartsIdle b i) :
    Done e (b.step P L i) ∨ Ready e (b.step P L i) ∧
      ((b.step P L i).host.web.drive.pace e = b.host.web.drive.pace e ∨
        ((b.step P L i).host.web.drive.pace e).steps < (b.host.web.drive.pace e).steps) := by
  obtain ⟨hflag, hpace⟩ := Board.step_pace P L hready hidle
  have hsame : (b.step P L i).host.web.drive.pace e = b.host.web.drive.pace e →
      Ready e (b.step P L i) := by
    intro hsame
    refine ⟨by rw [hsame]; exact hready.active, hflag, ?_⟩
    rw [hsame]
    exact hready.timed.mono (Board.step_clock P L b i)
  rcases hpace with heq | hmoves
  · exact .inr ⟨hsame heq, .inl heq⟩
  · cases hmoves with
    | ended h => exact .inl h
    | closer hact htimed hsteps => exact .inr ⟨⟨hact, hflag, htimed⟩, .inr hsteps⟩
    | held heq _ => exact .inr ⟨hsame heq, .inl heq⟩

/-- **Invariant.** Every active engine is ready, as long as `ursusweb` is only run again when no
engine is active. -/
theorem ready_step (h : ∀ e, (b.host.web.drive.pace e).active = true → Ready e b)
    (hidle : RestartsIdle b i) (e : EngineName)
    (hact : ((b.step P L i).host.web.drive.pace e).active = true) : Ready e (b.step P L i) := by
  by_cases hbefore : (b.host.web.drive.pace e).active = true
  · rcases (h e hbefore).step P L hidle with hdone | hready
    · have hoff := hdone.1
      rw [hact] at hoff
      cases hoff
    · exact hready.1
  · have hoff : (b.host.web.drive.pace e).active = false := by simpa using hbefore
    have hno : (b.step P L i).host.web.drive.pace e ≠ b.host.web.drive.pace e := by
      intro hsame
      rw [hsame] at hact
      exact hbefore hact
    have hstep := Board.step_drive P L b i
    generalize hd : (b.step P L i).host.web.drive = d at hstep
    cases hstep with
    | starts hs =>
      obtain ⟨hflag, hquiet⟩ := hs.ready hoff (hd ▸ hact)
      refine ⟨hact, hd ▸ hflag, fun hann => ?_⟩
      rw [hd, hquiet] at hann
      cases hann
    | serviced probe _ _ hs => exact absurd (hd ▸ (hs.keeps e).2 hoff) hno
    | restarted probe ok _ _ =>
      refine absurd ?_ hno
      rw [hd]
      cases e <;> rfl

end Events

/-! ## Rounds -/

/-- Some events that end with an iteration after which the loop goes on; when it comes, the longest
hold time has passed since they began. -/
structure Round (P : Platform) (L : FitLib) (b : Board) (r : List (Input × (ℕ → Outcome))) :
    Prop where
  iteration : ∃ ms probe outs, r = ms ++ [(.service probe, outs)] ∧
    (runFrom (Board.step P L) b ms).host.phase = .net ∧
    b.world.clock + longestHold ≤ (runFrom (Board.step P L) b ms).world.clock
  goesOn : (runFrom (Board.step P L) b r).host.phase = .top

section Rounds

variable (P : Platform) (L : FitLib) {b : Board} {e : EngineName}

theorem runFrom_clock (b : Board) (is : List (Input × (ℕ → Outcome))) :
    b.world.clock ≤ (runFrom (Board.step P L) b is).world.clock := by
  induction is generalizing b with
  | nil => exact le_rfl
  | cons i is ih => exact (Board.step_clock P L b i).trans (ih _)

/-- **Events** end the engine, or leave it ready and not farther from its end. -/
theorem Ready.run (hready : Ready e b) {is : List (Input × (ℕ → Outcome))}
    (hidle : Along (Board.step P L) RestartsIdle b is) :
    (∃ js, js <+: is ∧ Done e (runFrom (Board.step P L) b js)) ∨
      Ready e (runFrom (Board.step P L) b is) ∧
        ((runFrom (Board.step P L) b is).host.web.drive.pace e = b.host.web.drive.pace e ∨
          ((runFrom (Board.step P L) b is).host.web.drive.pace e).steps <
            (b.host.web.drive.pace e).steps) := by
  induction is generalizing b with
  | nil => exact .inr ⟨hready, .inl rfl⟩
  | cons i is ih =>
    rcases hready.step P L hidle.1 with hdone | ⟨hnext, hsteps⟩
    · exact .inl ⟨[i], by simp, hdone⟩
    rcases ih hnext hidle.2 with ⟨js, hjs, hdone⟩ | ⟨hlast, hsteps'⟩
    · exact .inl ⟨i :: js, by simpa using hjs, hdone⟩
    · refine .inr ⟨hlast, ?_⟩
      rcases hsteps' with heq | hlt
      · simp only [runFrom_cons]
        rw [heq]
        exact hsteps
      · rcases hsteps with heq | hlt'
        · rw [heq] at hlt
          exact .inr hlt
        · exact .inr (hlt.trans hlt')

/-- **A round** ends the engine or brings it closer to its end. -/
theorem Ready.round (hready : Ready e b) {r : List (Input × (ℕ → Outcome))}
    (hround : Round P L b r) (hidle : Along (Board.step P L) RestartsIdle b r)
    (hclock : (runFrom (Board.step P L) b r).world.clock < 2 ^ 64) :
    (∃ js, js <+: r ∧ Done e (runFrom (Board.step P L) b js)) ∨
      Ready e (runFrom (Board.step P L) b r) ∧
        ((runFrom (Board.step P L) b r).host.web.drive.pace e).steps <
          (b.host.web.drive.pace e).steps := by
  obtain ⟨⟨ms, probe, outs, rfl, hnet, htime⟩, hon⟩ := hround
  rw [along_append] at hidle
  simp only [runFrom_append, runFrom_cons, runFrom_nil] at hon hclock ⊢
  rcases hready.run P L hidle.1 with ⟨js, hjs, hdone⟩ | ⟨hmid, hsteps⟩
  · exact .inl ⟨js, hjs.trans (List.prefix_append _ _), hdone⟩
  generalize hb' : runFrom (Board.step P L) b ms = b' at *
  rcases hmid.step P L hidle.2.1 with hdone | ⟨hlast, -⟩
  · refine .inl ⟨ms ++ [(.service probe, outs)], List.prefix_refl _, ?_⟩
    rw [runFrom_append, hb']
    exact hdone
  refine .inr ⟨hlast, ?_⟩
  rcases Board.step_service P L (i := (.service probe, outs)) hmid hnet rfl with ⟨hexit, -⟩ | hmoves
  · rw [hon] at hexit
    cases hexit
  cases hmoves with
  | ended h =>
    have hoff := h.1
    rw [hlast.active] at hoff
    cases hoff
  | closer _ _ hlt =>
    rcases hsteps with heq | hlt'
    · rw [← heq]
      exact hlt
    · exact hlt.trans hlt'
  | held heq hheld =>
    rw [heq]
    rcases hsteps with hsame | hlt'
    · -- it had been announced before the round began, so it has been held long enough
      obtain ⟨hann, hlt⟩ := hheld hclock
      rw [hsame] at hann hlt
      have hsince := hready.timed hann
      have hhold := e.hold_le
      omega
    · exact hlt'

/-- **Enough rounds** end the engine. -/
theorem Ready.rounds (hready : Ready e b) {rs : List (List (Input × (ℕ → Outcome)))}
    (hrounds : Along (runFrom (Board.step P L)) (Round P L) b rs)
    (hidle : Along (Board.step P L) RestartsIdle b rs.flatten)
    (hclock : (runFrom (Board.step P L) b rs.flatten).world.clock < 2 ^ 64)
    (hlen : (b.host.web.drive.pace e).steps < rs.length) :
    ∃ js, js <+: rs.flatten ∧ Done e (runFrom (Board.step P L) b js) := by
  induction rs generalizing b with
  | nil => exact absurd hlen (Nat.not_lt_zero _)
  | cons r rs ih =>
    rw [List.flatten_cons, along_append] at hidle
    rw [List.flatten_cons, runFrom_append] at hclock
    have hclock' := (runFrom_clock P L _ rs.flatten).trans_lt hclock
    rw [List.flatten_cons]
    rcases hready.round P L hrounds.1 hidle.1 hclock' with ⟨js, hjs, hdone⟩ | ⟨hnext, hsteps⟩
    · exact ⟨js, hjs.trans (List.prefix_append _ _), hdone⟩
    · rw [List.length_cons] at hlen
      obtain ⟨js, hjs, hdone⟩ := ih hnext hrounds.2 hidle.2 hclock (by omega)
      refine ⟨r ++ js, (List.prefix_append_right_inj r).2 hjs, ?_⟩
      rw [runFrom_append]
      exact hdone

end Rounds

end UrsusBoot
