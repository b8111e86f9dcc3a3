import UrsusBoot.Safety.FipFrame
import UrsusBoot.Safety.VanillaProgress

/-!
# The environment after a failed Vanilla replacement

UBI_VERIFY blanks `ubootenv` and `ubootenv2` one after the other, and any failure in between leads
to UBI_ROLLBACK, which exchanges the names of the bootloader volumes and nothing else. So what has
been blanked by then stays blank.
-/

namespace UrsusBoot

open Prog

namespace FipUpdate

/-- The check of the second environment volume finds it, and the read of an environment volume does
not fail. -/
structure Undisturbed (e : FlashEvent) : Prop where
  found : e.cmd = .ubiCheck "ubootenv2" → e.out.err = none ∧
    ∃ p i, e.before.attached = some p ∧ (e.before.vols p.area).find? "ubootenv2" = some i
  read : ∀ addr n size, n ∈ envNames → e.cmd = .ubiRead addr n size → e.out.err = none

/-- The environment volumes are the same in both worlds. -/
def SameEnv (w w' : World) : Prop := ∀ n ∈ envNames, ∀ a, Slots.Agree n (w.vols a) (w'.vols a)

theorem SameEnv.trans {w w' w'' : World} (h : SameEnv w w') (h' : SameEnv w' w'') : SameEnv w w'' :=
  fun n hn a => (h n hn a).trans (h' n hn a)

theorem sameEnv_of_vols {w w' : World} (h : ∀ a, w'.vols a = w.vols a) : SameEnv w w' := by
  intro n _ a
  rw [h a]
  exact .refl _ _

theorem sameEnv_of_within {w w' : World} (h : Within fipNames w w') : SameEnv w w' := by
  have hout : ∀ n ∈ envNames, n ∉ fipNames := by decide
  exact fun n hn a => h.volumes n (hout n hn) a

section Stages

variable {P : Platform} {c : Ctx}

theorem vanillaResetEnv_undisturbed (w : World) :
    Spec exec (fun e => EnvWritten e ∧ Undisturbed e) (fun _ => True)
      (fun ret w' => ret = 0 ∨ SameEnv w w') vanillaResetEnv w := by
  have hdone : ∀ n ∈ envNames, ∀ w, Spec exec (fun e => EnvWritten e ∧ Undisturbed e) (fun _ => True)
      (fun ret w' => ret = 0 ∨ (∀ a, w'.vols a = w.vols a) ∧
        ∃ o, (EnvWritten ⟨.ubiCheck n, o, w⟩ ∧ Undisturbed ⟨.ubiCheck n, o, w⟩) ∧
          (exec (.ubiCheck n) o w).1 ≠ 0) (vanillaResetVolume n) w := by
    intro n hn w
    exact vanillaResetVolume_done n w (fun o w h => h.1 _ n _ hn rfl) fun o w h => h.2.read _ n _ hn rfl
  refine (hdone "ubootenv" (by decide) w).bind fun ret w₁ h₁ => ?_
  apply spec_ite
  · intro hne
    exact .inr (sameEnv_of_vols (h₁.resolve_left hne).1)
  · intro _
    refine (hdone "ubootenv2" (by decide) w₁).mono fun ret₂ w₂ h₂ => .inl ?_
    rcases h₂ with h₂ | ⟨-, o, ⟨-, hund⟩, hfail⟩
    · exact h₂
    · -- the check cannot have failed
      obtain ⟨herr, p, i, hp, hi⟩ := hund.found rfl
      exact absurd (World.ubiCheck_zero hp hi herr) hfail

theorem ubiVerify_env (w : World) :
    Spec exec (fun e => EnvWritten e ∧ Undisturbed e) (fun _ => True)
      (fun r w' => r.2.stage = .complete ∨ SameEnv w w') (ubiVerify P c) w := by
  have hkeep : ∀ {α : Type} {p : FlashProg α} (w : World), Uses Routine p →
      Spec exec (fun e => EnvWritten e ∧ Undisturbed e) (fun _ => True) (fun _ w' => SameEnv w w') p w := by
    intro α p w hp
    refine Spec.of_uses (I := SameEnv w) (fun c o w' hc _ h => ⟨trivial, ?_⟩) hp fun n _ a => .refl _ _
    exact h.trans (sameEnv_of_within (Routine.within hc o w'))
  have hfailed : ∀ ret w₁, SameEnv w w₁ →
      Spec exec (fun e => EnvWritten e ∧ Undisturbed e) (fun _ => True)
        (fun r w' => r.2.stage = .complete ∨ SameEnv w w') (postcommitFailed c ret) w₁ := by
    intro ret w₁ h₁
    exact (hkeep w₁ (routine_postcommitFailed c ret)).mono fun _ _ h => .inr (h₁.trans h)
  refine (hkeep w (p := ubiRead ubiReadbackAddr "fip" c.len) ⟨rfl, fun _ => trivial⟩).bind
    fun ret w₁ h₁ => ?_
  refine spec_ite (fun _ => hfailed ret w₁ h₁) fun _ => ?_
  have hvalid : Uses Routine (fipValidateKind P ubiReadbackAddr c.len false c.kind) :=
    uses_fipValidateKind (inert_of_query routine_of_query) P _ _ _ _
  refine (hkeep w₁ hvalid).bind fun ret₂ w₂ h₂ => ?_
  refine spec_ite (fun _ => hfailed ret₂ w₂ (h₁.trans h₂)) fun _ => ?_
  refine spec_ite (fun _ => ?_) fun _ => .inl rfl
  refine (vanillaResetEnv_undisturbed w₂).bind fun ret₃ w₃ h₃ => ?_
  apply spec_ite
  · intro hne
    exact .inr ((h₁.trans h₂).trans (h₃.resolve_left hne))
  · exact fun _ => .inl rfl

/-- **Every native stage** completes the update or leaves the environment alone. -/
theorem runStage_env (hstock : ¬ c.stage.Stock) (w : World) :
    Spec exec (fun e => EnvWritten e ∧ Undisturbed e) (fun _ => True)
      (fun r w' => r.2.stage = .complete ∨ SameEnv w w') (runStage P c) w := by
  by_cases hverify : c.stage = .ubiVerify
  · simp only [runStage, hverify]
    exact ubiVerify_env w
  · have hwithin : Emits exec (fun e => Within fipNames e.before (e.after exec)) (runStage P c) :=
      emits_native P hstock (fun c o w hc => hc.within o w) (fun _ c o w hc => hc.within o w)
        (fun hv => absurd hv hverify) fun _ _ _ e hs he => he.within hs
    have hkeep : Emits exec (fun e => (EnvWritten e ∧ Undisturbed e) → SameEnv w e.before →
        SameEnv w (e.after exec)) (runStage P c) := fun w' =>
      (hwithin w').weaken (fun _ h => h) fun e _ he _ hbefore => hbefore.trans (sameEnv_of_within he)
    have hspec := hkeep.invariant (fun n _ a => .refl _ _ : SameEnv w w)
    exact (hspec.weaken (fun _ h => h) fun _ _ _ => trivial).mono fun _ _ h => .inr h

end Stages

/-! ## Attempts -/

structure EnvKept (s₀ s : Attempt) : Prop where
  kind : s.ctx.kind = .vanilla
  native : ¬ s.ctx.stage.Stock
  live : s.ctx.active = true → s.ctx.stage ≠ .complete
  env : (∀ e ∈ s.trace, EnvWritten e ∧ Undisturbed e) → s.ctx.stage ≠ .complete →
    SameEnv s₀.world s.world

section Runs

variable {P : Platform} {s₀ s : Attempt}

theorem EnvKept.stage (h : EnvKept s₀ s) (hact : s.ctx.active = true) (outs : ℕ → Outcome) :
    EnvKept s₀ (s.stage P outs) := by
  have hover := s.stage_handover P outs
  have hkind : (s.stage P outs).ctx.kind = .vanilla := hover.continues.kind.trans h.kind
  refine ⟨hkind, fun hst => ?_, fun hact' => (hover.active hact').2, fun htrace hne => ?_⟩
  · have hursus := hover.stock_kind (fun hs => absurd hs h.native) hst
    exact absurd (hursus.symm.trans hkind) (by decide)
  · have hold : ∀ e ∈ s.trace, EnvWritten e ∧ Undisturbed e := fun e he =>
      htrace e (List.mem_append_left _ he)
    have hnew := (runStage_env (P := P) h.native s.world).run_of outs fun e he =>
      htrace e (List.mem_append_right _ he)
    exact (h.env hold (h.live hact)).trans (hnew.2.resolve_left hne)

theorem envKept_run (hbegin : s₀.Begins P) (hkind : s₀.ctx.kind = .vanilla) (is : List Call) :
    EnvKept s₀ (runFrom (Attempt.call P) s₀ is) := by
  refine history_run (J := fun _ => EnvKept s₀) ?_ (fun is i h => ?_) is
  · have hst := hbegin.started.stage
    refine ⟨hkind, ?_, ?_, fun _ _ n _ a => .refl _ _⟩
    · simp [hst, Stage.Stock]
    · simp [hst]
  · refine Attempt.call_keeps i (fun b n t es _ => ?_) fun s' hs' hact _ outs => hs'.stage hact outs
    exact ⟨h.kind, h.native, h.live, fun htrace hne =>
      h.env (fun e he => htrace e (List.mem_append_left _ he)) hne⟩

end Runs

/-! ## A read-back that fails -/

theorem unblanked_run {P : Platform} {s₀ : Attempt} (hbegin : s₀.Begins P) (is : List Call)
    (hst : (runFrom (Attempt.call P) s₀ is).ctx.stage ∉ [.complete, .ubiRollback, .failed]) :
    ∀ e ∈ (runFrom (Attempt.call P) s₀ is).trace, ¬ Blanks e.cmd := by
  revert hst
  refine history_run (J := fun _ (s : Attempt) => s.ctx.stage ∉ [.complete, .ubiRollback, .failed] →
      ∀ e ∈ s.trace, ¬ Blanks e.cmd) (fun _ => ?_) (fun is i h => ?_) is
  · obtain ⟨c, addr, len, kind, outs, w, -, -, htrace⟩ := hbegin
    rw [htrace]
    exact fun e he => absurd he (List.not_mem_nil)
  · refine Attempt.call_keeps i (J := fun s => s.ctx.stage ∉ [.complete, .ubiRollback, .failed] →
      ∀ e ∈ s.trace, ¬ Blanks e.cmd) (fun b n t es hticks hst e he => ?_)
      fun s hs _ _ outs hst e he => ?_
    · rcases List.mem_append.1 he with he | he
      · exact h hst e he
      · obtain ⟨base, hcmd⟩ := (hticks e he).timer
        rw [hcmd]
        exact Routine.not_blanks (c := .getTimer base) trivial
    · -- a stage that leads to an early one is an earlier one
      have hnext : (s.stage P outs).ctx.stage ∈ s.ctx.stage.next :=
        (s.stage_next P outs).resolve_left fun hf => hst (by rw [hf]; decide)
      have hearly : s.ctx.stage ≠ .ubiVerify ∧
          s.ctx.stage ∉ [.complete, .ubiRollback, .failed] := by
        generalize (s.stage P outs).ctx.stage = st at hnext hst
        revert hnext hst
        generalize s.ctx.stage = st₀
        cases st₀ <;> cases st <;> decide
      rcases List.mem_append.1 he with he | he
      · exact hs hearly.2 e he
      · exact ((runStage_not_blanks (P := P) hearly.1).run_of outs s.world) e he

def vanillaPromoted : UbiImage :=
  { ((stagedImage vanillaTable).setVolume 0 vanillaVolume) with
    vols := ((stagedImage vanillaTable).setVolume 0 vanillaVolume).vols.switch 4 "fip.old" 0 "fip" }

theorem vanillaPromoted_reachable : vanillaAttempt.CanReach vanillaPlatform (fun _ _ => True) fun s =>
    Running (.normal, 0) vanillaAttempt.ctx s.ctx .ubiVerify ∧ Mounted vanillaPromoted s.world ∧
      s.world.lebSize = 0x1f000 := by
  refine Promotable.canReach (s := vanillaAttempt) vanilla_promotable (by decide) vanillaAttempt_normal
    (fun _ _ _ _ _ _ _ => trivial) (fun _ _ _ _ _ _ _ _ => trivial) fun c w tr hc hw hleb => ?_
  exact Attempt.canReach_here ⟨hc, hw, hleb⟩

theorem vanilla_completes : ∃ is,
    (runFrom (Attempt.call vanillaPlatform) vanillaAttempt is).ctx.stage = .complete := by
  obtain ⟨is, -, hc, hw, hleb⟩ := vanillaPromoted_reachable
  set s := runFrom (Attempt.call vanillaPlatform) vanillaAttempt is with hs
  have hfip : vanillaPromoted.vols.lookup "fip" = some (0, vanillaVolume) :=
    Slots.lookup_eq_some.2 ⟨by decide, rfl⟩
  have henv : vanillaPromoted.vols.lookup "ubootenv" = some (5, envVolume) :=
    Slots.lookup_eq_some.2 ⟨by decide, rfl⟩
  have henv' : (blanked vanillaPromoted 5 envVolume s.world.lebSize vanillaEnvResetLen).vols.lookup
      "ubootenv2" = some (6, envVolume) := by
    rw [hleb]
    exact Slots.lookup_eq_some.2 ⟨by decide, rfl⟩
  have hfits : vanillaEnvResetLen ≤ envVolume.reservedPebs * s.world.lebSize := by
    rw [hleb]
    decide
  obtain ⟨js, -, hdone⟩ := s.canReach_completed vanillaRam hc rfl hw hfip rfl length_vanillaFip
    vanillaFip_accepted henv hfits henv' hfits
  refine ⟨is ++ js, ?_⟩
  rw [runFrom_append]
  exact hdone

theorem envVolume_blanked : (envVolume.written 0x1f000 (List.replicate vanillaEnvResetLen 0)) ≠
    envVolume := by
  intro h
  have htake := written_zeros envVolume 0x1f000 vanillaEnvResetLen
  rw [h] at htake
  have hhead := congrArg (fun bs : List UInt8 => bs[0]?) htake
  simp only [envVolume, List.getElem?_take, List.getElem?_replicate] at hhead
  exact absurd hhead (by decide)

theorem undisturbed_of_inert {e : FlashEvent} (h : e.cmd.Inert) : EnvWritten e ∧ Undisturbed e := by
  refine ⟨envWritten_of_not_blanks (routine_of_query _ h.query).not_blanks, fun hcmd => ?_, ?_⟩
  · rw [hcmd] at h
    exact h.elim
  · intro addr n size _ hcmd
    rw [hcmd] at h
    exact h.elim

end FipUpdate

end UrsusBoot
