import UrsusBoot.Boot.Dispatch
import UrsusBoot.Lib.Run

/-!
# Recovery over a power cycle

`ursusdispatch` may be entered any number of times before the power goes: as the boot command, from
the shell, from the console of the Web page. All that one run of it leaves to the next are its
static variables.
-/

namespace UrsusBoot

/-- One run of `ursusdispatch`: how often it looks at a held button at most, what the environment
decides, and the board it begins on. -/
structure Invocation where
  polls : ℕ
  outs : ℕ → BootOutcome
  world : World

namespace Invocation

def result (c : DispatchCtx) (i : Invocation) :
    Prog.Result BootCmd BootOutcome World (DispatchEnd × DispatchCtx) :=
  Prog.run execBoot (dispatch i.polls c) i.outs i.world

/-- The static variables a run leaves. They are set before `ursusweb` is started and not after it
has returned, so that a run from within `ursusweb` begins with them too. -/
def next (c : DispatchCtx) (i : Invocation) : DispatchCtx := (i.result c).val.2

def Returns (c : DispatchCtx) (i : Invocation) : Prop :=
  ∃ ret, (i.result c).val.1 = .returned ret

end Invocation

/-- The static variables after the runs `is` of one power cycle. -/
def afterRuns (is : List Invocation) : DispatchCtx := runFrom Invocation.next {} is

def BootCmd.Boots : BootCmd → Prop
  | .flash (.bootm _) => True
  | .ursusstockboot => True
  | _ => False

/-- Every sample of the button reads ON. The timer read right after the last one is 750 ms or more
past the reading the debounce starts with. -/
structure Held (tr : List BootEvent) : Prop where
  samples : ∀ e ∈ tr, e.cmd = .buttonGetState → e.out.button = .on
  timed : ∃ before start mid sample reading base, tr = before ++ start :: mid ++ [sample, reading] ∧
    start.cmd = .flash (.getTimer 0) ∧ sample.cmd = .buttonGetState ∧
    reading.cmd = .flash (.getTimer base) ∧
    (start.after execBoot).clock + resetBootDebounceMs ≤ (reading.after execBoot).clock

/-- `ursusweb` has not been run. -/
def NoWeb (tr : List BootEvent) : Prop := ∀ e ∈ tr, e.cmd ≠ .ursusweb

/-- How a run of `ursusdispatch` ends that has the record `tr`. -/
structure Ends (r : DispatchEnd × DispatchCtx) (tr : List BootEvent) : Prop where
  web : ∀ ret, r.1 = .returned ret → ∃ before e, tr = before ++ [e] ∧ e.cmd = .ursusweb ∧
    NoWeb before ∧ (r.2.recoveryReason = "RESET_HELD_AT_BOOT" → Held before)
  latched : ∀ ret, r.1 = .returned ret → r.2.recoveryLatched = true

open Prog

section Dispatch

variable {c : DispatchCtx} {w : World} {tr : List BootEvent}

theorem NoWeb.concat (h : NoWeb tr) {e : BootEvent} (he : e.cmd ≠ .ursusweb) : NoWeb (tr ++ [e]) := by
  intro x hx
  rcases List.mem_append.1 hx with hx | hx
  · exact h x hx
  · obtain rfl := List.mem_singleton.1 hx
    exact he

theorem ends_of_not_returned {r : DispatchEnd × DispatchCtx} (h : ∀ ret, r.1 ≠ .returned ret) :
    Ends r tr :=
  ⟨fun ret hret => absurd hret (h ret), fun ret hret => absurd hret (h ret)⟩

theorem enterWebfailsafe_ends {reason : String} (h : NoWeb tr)
    (hreason : reason = "RESET_HELD_AT_BOOT" → Held tr) :
    Records execBoot (fun _ _ => True) (fun r _ tr' => Ends r tr') (enterWebfailsafe c reason) w tr := by
  refine records_next BootCmd.ursusweb fun o => ⟨trivial, ?_⟩
  exact ⟨fun _ _ => ⟨tr, _, rfl, rfl, h, hreason⟩, fun _ _ => rfl⟩

/-! ## The normal boot -/

theorem flashProg_noWeb {α : Type} (p : FlashProg α) (h : NoWeb tr) :
    Records execBoot (fun _ _ => True) (fun _ _ tr' => NoWeb tr') (flashProg p) w tr := by
  induction p generalizing w tr with
  | ret a => exact h
  | cmd c k ih => exact fun o => ⟨trivial, ih _ (h.concat (by simp))⟩

theorem startsWith_noWeb (nand : Option NandGeometry) (off : ℕ) (magic : List UInt8) (h : NoWeb tr) :
    Records execBoot (fun _ _ => True) (fun _ _ tr' => NoWeb tr') (startsWith nand off magic) w tr := by
  refine records_ite (fun _ => h) fun _ => ?_
  exact records_next (BootCmd.flash (.nandRead off magic.length)) fun o =>
    ⟨trivial, h.concat (by simp)⟩

theorem bootFactoryKernel_ends (h : NoWeb tr) :
    Records execBoot (fun _ _ => True) (fun r _ tr' => Ends r tr') (bootFactoryKernel c) w tr := by
  refine records_next
    (BootCmd.mtdReadMaster factoryLoadAddr factoryKernelOff factoryKernelSize)
    fun o => ⟨trivial, ?_⟩
  have h := h.concat
    (e := ⟨.mtdReadMaster factoryLoadAddr factoryKernelOff factoryKernelSize, o, w⟩) (by simp)
  refine records_ite (fun _ => enterWebfailsafe_ends h fun hr => absurd hr (by decide)) fun _ => ?_
  refine records_next (BootCmd.flash (.bootm factoryLoadAddr))
    fun o' => ⟨trivial, ?_⟩
  refine records_ite (fun _ => ends_of_not_returned (by simp)) fun _ => ?_
  exact enterWebfailsafe_ends (h.concat (by simp)) fun hr => absurd hr (by decide)

theorem bootStock_ends (h : NoWeb tr) :
    Records execBoot (fun _ _ => True) (fun r _ tr' => Ends r tr') (bootStock c) w tr := by
  refine records_next BootCmd.ursusstockboot fun o => ⟨trivial, ?_⟩
  refine records_ite (fun _ => ends_of_not_returned (by simp)) fun _ => ?_
  exact enterWebfailsafe_ends (h.concat (by simp)) fun hr => absurd hr (by decide)

/-- **The normal boot** ends in `ursusweb` unless a system takes over, and never for the reason of a
held button. -/
theorem normalBoot_ends (h : NoWeb tr) :
    Records execBoot (fun _ _ => True) (fun r _ tr' => Ends r tr') (normalBoot c) w tr := by
  refine records_next (BootCmd.flash .findMasterNand) fun o => ⟨trivial, ?_⟩
  refine (startsWith_noWeb _ ubiBase (asciiBytes "UBI#") (h.concat (by simp))).bind
    fun b w₁ tr₁ h₁ => records_ite (fun _ => ?_) fun _ => ?_
  · refine (flashProg_noWeb ubiBoot h₁).bind fun r w₂ tr₂ h₂ => ?_
    refine records_ite (fun _ => ends_of_not_returned (by simp)) fun _ => ?_
    refine enterWebfailsafe_ends h₂ fun hr => absurd hr ?_
    cases r.reason <;> decide
  · refine (startsWith_noWeb _ factoryKernelOff fdtMagicBytes h₁).bind fun b w₂ tr₂ h₂ => ?_
    exact records_ite (fun _ => bootFactoryKernel_ends h₂) fun _ => bootStock_ends h₂

/-! ## The held button -/

/-- While the button is held: every sample so far read ON, and the timer has not gone back since the
debounce began, with its reading being `start`. -/
structure Debouncing (start : ℕ) (w : World) (tr : List BootEvent) : Prop where
  noWeb : NoWeb tr
  samples : ∀ e ∈ tr, e.cmd = .buttonGetState → e.out.button = .on
  begun : ∃ before b mid, tr = before ++ b :: mid ∧ b.cmd = .flash (.getTimer 0) ∧
    start = (b.after execBoot).clock % 2 ^ 64 ∧ (b.after execBoot).clock ≤ w.clock

theorem Debouncing.concat {start : ℕ} (h : Debouncing start w tr) {e : BootEvent}
    (hclock : w.clock ≤ (e.after execBoot).clock) (hweb : e.cmd ≠ .ursusweb)
    (hon : e.cmd = .buttonGetState → e.out.button = .on) :
    Debouncing start (e.after execBoot) (tr ++ [e]) := by
  obtain ⟨before, b, mid, rfl, hb, hstart, hle⟩ := h.begun
  refine ⟨h.noWeb.concat hweb, ?_, before, b, mid ++ [e], by simp, hb, hstart, hle.trans hclock⟩
  intro x hx
  rcases List.mem_append.1 hx with hx | hx
  · exact h.samples x hx
  · obtain rfl := List.mem_singleton.1 hx
    exact hon

theorem getTimer_le {w : World} {o : Outcome} {t : ℕ} (ht : t ≤ w.clock) :
    t + (w.getTimer o (t % 2 ^ 64)).1 ≤ (w.getTimer o (t % 2 ^ 64)).2.clock := by
  simp only [World.getTimer]
  omega

/-- **The loop over the held button.** -/
theorem debounce_ends {start : ℕ} (polls : ℕ) (h : Debouncing start w tr) :
    Records execBoot (fun _ _ => True) (fun r _ tr' => Ends r tr') (debounce c start polls) w tr := by
  induction polls generalizing w tr with
  | zero => exact ends_of_not_returned (by simp)
  | succ polls ih =>
    refine records_next BootCmd.buttonGetState fun o => ⟨trivial, ?_⟩
    refine records_next (BootCmd.flash (.getTimer start)) fun o' => ⟨trivial, ?_⟩
    have hnoWeb : NoWeb (tr ++ [⟨.buttonGetState, o, w⟩] ++ [⟨.flash (.getTimer start), o', w⟩]) :=
      (h.noWeb.concat (by simp)).concat (by simp)
    show Records execBoot _ _ (match o.button with
      | .error _ => normalBoot c
      | .off => normalBoot c
      | .on => _) _ _
    cases hb : o.button with
    | error e => exact normalBoot_ends hnoWeb
    | off => exact normalBoot_ends hnoWeb
    | on =>
      have hsample := h.concat (e := ⟨.buttonGetState, o, w⟩) le_rfl (by simp) fun _ => hb
      have hreading := hsample.concat (e := ⟨.flash (.getTimer start), o', w⟩)
        (Nat.le_add_right _ _) (by simp) (by simp)
      refine records_ite (fun helapsed => ?_) fun _ => ?_
      · refine enterWebfailsafe_ends hnoWeb fun _ => ⟨hreading.samples, ?_⟩
        obtain ⟨before, b, mid, rfl, hcmd, rfl, hle⟩ := h.begun
        refine ⟨before, b, mid, ⟨.buttonGetState, o, w⟩, ⟨.flash (.getTimer _), o', w⟩, _,
          List.append_assoc _ [_] [_], hcmd, rfl, rfl, ?_⟩
        exact (Nat.add_le_add_left helapsed _).trans (getTimer_le hle)
      · refine records_next (BootCmd.udelay resetPollUs) fun o'' =>
          ⟨trivial, ih ?_⟩
        exact hreading.concat (e := ⟨.udelay resetPollUs, o'', _⟩) (Nat.le_add_right _ _)
          (by simp) (by simp)

/-- **One run** that finds recovery not latched. -/
theorem dispatch_ends (polls : ℕ) (hc : c.recoveryLatched = false) :
    Records execBoot (fun _ _ => True) (fun r _ tr' => Ends r tr') (dispatch polls c) w [] := by
  unfold dispatch
  rw [hc, if_neg Bool.false_ne_true]
  refine records_next BootCmd.buttonGetByLabel fun o => ⟨trivial, ?_⟩
  have h : NoWeb [(⟨.buttonGetByLabel, o, w⟩ : BootEvent)] := by simp [NoWeb]
  refine records_ite (fun _ => normalBoot_ends h) fun _ => ?_
  refine records_next BootCmd.buttonGetState fun o₁ => ⟨trivial, ?_⟩
  have h := h.concat (e := ⟨.buttonGetState, o₁, w⟩) (by simp)
  show Records execBoot _ _ (match o₁.button with
    | .error _ => normalBoot c
    | .off => normalBoot c
    | .on => _) _ _
  cases hb : o₁.button with
  | error e => exact normalBoot_ends h
  | off => exact normalBoot_ends h
  | on =>
    refine records_next (BootCmd.flash (.getTimer 0)) fun o₂ => ⟨trivial, ?_⟩
    refine debounce_ends polls ⟨h.concat (by simp), by simp [hb], ?_⟩
    refine ⟨_, ⟨.flash (.getTimer 0), o₂, w⟩, [], rfl, rfl, ?_, le_rfl⟩
    show (w.clock + o₂.flash.tick + (2 ^ 64 - 0 % 2 ^ 64)) % 2 ^ 64 = (w.clock + o₂.flash.tick) % 2 ^ 64
    omega

end Dispatch

/-! ## A power cycle -/

namespace Invocation

variable {c : DispatchCtx}

theorem result_latched (hc : c.recoveryLatched = true) (i : Invocation) :
    ((i.result c).val.2.recoveryLatched = true ∧ (i.result c).val.2.recoveryReason = "STICKY_REENTRY") ∧
      (i.result c).trace = [⟨.ursusweb, i.outs 0, i.world⟩] := by
  have hprog : dispatch i.polls c = enterWebfailsafe c "STICKY_REENTRY" := by
    unfold dispatch
    rw [hc, if_pos rfl]
  rw [result, hprog]
  exact ⟨⟨rfl, rfl⟩, rfl⟩

theorem result_ends (i : Invocation) (c : DispatchCtx) : Ends (i.result c).val (i.result c).trace := by
  cases hc : c.recoveryLatched with
  | false => exact ((dispatch_ends i.polls hc).run_of i.outs (recorded_nil _)).2
  | true =>
    obtain ⟨⟨hlatched, hreason⟩, htr⟩ := i.result_latched hc
    refine ⟨fun _ _ => ⟨[], _, htr, rfl, by simp [NoWeb], ?_⟩, fun _ _ => hlatched⟩
    intro h
    exact absurd (hreason.symm.trans h) (by decide)

end Invocation

theorem afterRuns_latched {is js : List Invocation} {i : Invocation}
    (hi : i.Returns (afterRuns is)) : (afterRuns (is ++ i :: js)).recoveryLatched = true := by
  obtain ⟨ret, hret⟩ := hi
  rw [afterRuns, runFrom_append, runFrom_cons]
  refine history_run (J := fun _ (c : DispatchCtx) => c.recoveryLatched = true) ?_
    (fun _ j hc => (j.result_latched hc).1.1) js
  exact (i.result_ends (afterRuns is)).latched ret hret

/-- **Recovery over a power cycle.** Take any runs of `ursusdispatch` and one more. If it enters
recovery because of the button, every sample it took read ON, and the timer it read right after the
last one was at least 750 ms past the start of the debounce. If it returns, it has run `ursusweb`
once, as its last command. If one before it has entered recovery, it starts no system. -/
theorem recovery_dispatch (is : List Invocation) (i : Invocation) :
    (i.Returns (afterRuns is) → (i.next (afterRuns is)).recoveryReason = "RESET_HELD_AT_BOOT" →
      ∃ before e, (i.result (afterRuns is)).trace = before ++ [e] ∧ e.cmd = .ursusweb ∧ Held before) ∧
    (i.Returns (afterRuns is) → ∃ before e, (i.result (afterRuns is)).trace = before ++ [e] ∧
      e.cmd = .ursusweb ∧ ∀ x ∈ before, x.cmd ≠ .ursusweb) ∧
    ((∃ js j ks, is = js ++ j :: ks ∧ j.Returns (afterRuns js)) →
      ∀ e ∈ (i.result (afterRuns is)).trace, ¬ e.cmd.Boots) := by
  have hends := i.result_ends (afterRuns is)
  refine ⟨?_, ?_, ?_⟩
  · rintro ⟨ret, hret⟩ hreason
    obtain ⟨before, e, htr, he, -, hheld⟩ := hends.web ret hret
    exact ⟨before, e, htr, he, hheld hreason⟩
  · rintro ⟨ret, hret⟩
    obtain ⟨before, e, htr, he, hno, -⟩ := hends.web ret hret
    exact ⟨before, e, htr, he, hno⟩
  · rintro ⟨js, j, ks, rfl, hj⟩ e he
    rw [(i.result_latched (afterRuns_latched hj)).2, List.mem_singleton] at he
    rw [he]
    exact id

/-- A board with an erased NAND, as it is switched on. -/
def bareWorld : World where
  ram _ := 0
  nand _ := 0xff
  badBlock _ := false
  geometry := some .supported
  lebSize := 0x1f000
  attached := none
  ubi _ := ⟨fun _ => none, 0, 0, 0, 0⟩
  updatePart := none
  ubiMtdReady := false
  factoryMtdReady := false
  rootfsDataMax := 0
  envRedund := false
  clock := 0

/-- The button is held on it. The first round of the loop takes 729 ms, and in the second the timer
moves on by one between the sample and its reading. -/
def heldRun : Invocation where
  polls := 2
  outs n := { flash := { tick := if n = 4 then 729 else if n = 7 then 1 else 0 }, button := .on }
  world := bareWorld

theorem recovery_dispatch_held :
    ∃ before e, (heldRun.result (afterRuns [])).trace = before ++ [e] ∧ e.cmd = .ursusweb ∧
      Held before :=
  (recovery_dispatch [] heldRun).1 ⟨0, rfl⟩ rfl

theorem held_sample_early :
    heldRun.Returns (afterRuns []) ∧
      (heldRun.next (afterRuns [])).recoveryReason = "RESET_HELD_AT_BOOT" ∧
      ∃ before start mid sample reading web,
        (heldRun.result (afterRuns [])).trace = before ++ start :: mid ++ [sample, reading, web] ∧
        start.cmd = .flash (.getTimer 0) ∧ sample.cmd = .buttonGetState ∧
        reading.cmd = .flash (.getTimer 0) ∧ web.cmd = .ursusweb ∧
        sample.before.clock = (start.after execBoot).clock + 749 :=
  ⟨⟨0, rfl⟩, rfl, [_, _], _, [_, _, _], _, _, _, rfl, rfl, rfl, rfl, rfl, rfl⟩

end UrsusBoot
