import UrsusBoot.Engine.FipAccept
import UrsusBoot.Engine.Pace
import UrsusBoot.Lib.Run

/-!
# Attempts of a FIP update

An attempt is a successful start followed by calls of the engine. Between two calls the rest of
U-Boot may have put anything into RAM, but no one else writes flash. The attempt keeps the record
of all commands, so that a property of it speaks about a stop after any single command.
-/

namespace UrsusBoot

open Prog

namespace FipUpdate

/-- One call of the engine: what RAM holds by then, and how the commands turn out. -/
structure Call where
  ram : Mem UInt8
  outs : ℕ → Outcome

structure Attempt where
  ctx : Ctx
  world : World
  trace : List FlashEvent

def Attempt.call (P : Platform) (s : Attempt) (i : Call) : Attempt :=
  let r := Prog.run exec (step P s.ctx) i.outs { s.world with ram := i.ram }
  ⟨r.val.2, r.world, s.trace ++ r.trace⟩

def Attempt.Begins (P : Platform) (s : Attempt) : Prop :=
  ∃ (c : Ctx) (addr len : ℕ) (kind : FipKind) (outs : ℕ → Outcome) (w : World),
    (Prog.run exec (startKind P c addr len kind) outs w).val = (0, s.ctx) ∧
      (Prog.run exec (startKind P c addr len kind) outs w).world = s.world ∧ s.trace = []

/-- What a successful start leaves in the context. -/
structure Started (c : Ctx) : Prop where
  stage : c.stage = .precheck
  active : c.active = true
  mode : c.ubiFipMode = .normal
  invalidRet : c.ubiFipInvalidRet = 0

theorem startKind_started (P : Platform) (c : Ctx) (addr len : ℕ) (kind : FipKind) :
    Gives (fun r => r.1 = 0 → Started r.2) (startKind P c addr len kind) := by
  refine yields_exit (fun h => absurd h (by simp)) fun _ => ?_
  refine yields_bind yields_detectUbiLayout fun r hr => ?_
  cases r with
  | error e =>
    have hneg : e < 0 := hr e rfl
    exact yields_ret fun h => absurd h (ne_of_lt hneg)
  | ok isUbi =>
    refine yields_then fun ret => yields_ite (fun h => yields_ret fun h' => absurd h' h) fun _ => ?_
    have hstart : ∀ buf : List UInt8, Started
        { addr, len, kind, ubiLayout := isUbi, digest := P.sha256 buf, stage := .precheck,
          active := true } := fun buf => ⟨rfl, rfl, rfl, rfl⟩
    refine yields_ite (fun _ => yields_then fun ret => ?_) fun _ => ?_
    · refine yields_ite (fun h => yields_ret fun h' => absurd h' h) fun _ => ?_
      exact yields_then fun buf => yields_ret fun _ => hstart buf
    · exact yields_then fun buf => yields_ret fun _ => hstart buf

theorem Attempt.Begins.started {P : Platform} {s : Attempt} (h : s.Begins P) : Started s.ctx := by
  obtain ⟨c, addr, len, kind, outs, w, hval, -, -⟩ := h
  have hst := (startKind_started P c addr len kind).run_of outs w fun _ _ => trivial
  rw [hval] at hst
  exact hst rfl

/-! ## Calls -/

/-- The attempt after some time: RAM holds `m`, and the clock has been asked. -/
def Attempt.waited (s : Attempt) (m : Mem UInt8) (b : Bool) (n t : ℕ) (es : List FlashEvent) :
    Attempt :=
  ⟨{ s.ctx with announced := b, announcedAt := n }, { s.world with ram := m, clock := t },
    s.trace ++ es⟩

/-- The attempt after the work of its current stage. -/
def Attempt.stage (P : Platform) (s : Attempt) (outs : ℕ → Outcome) : Attempt :=
  let r := Prog.run exec (runStage P s.ctx) outs s.world
  ⟨r.val.2, r.world, s.trace ++ r.trace⟩

/-- **Inversion** of a call: it marks time, or it also runs the stage. -/
theorem Attempt.call_cases (P : Platform) (s : Attempt) (i : Call) :
    ∃ b n t es, (∀ e ∈ es, Tick { s.world with ram := i.ram } e) ∧
      (s.call P i = s.waited i.ram b n t es ∨
        s.ctx.active = true ∧ b = false ∧
          ∃ outs, s.call P i = (s.waited i.ram b n t es).stage P outs) := by
  have hstep : step P s.ctx = paced s.ctx.active s.ctx.announced s.ctx.announcedAt stageHoldMs
      (if s.ctx.stage = .complete then 1 else if s.ctx.stage = .failed then s.ctx.error else 0, s.ctx)
      (0, s.ctx) (fun now => (0, { s.ctx with announced := true, announcedAt := now }))
      (runStage P { s.ctx with announced := false }) := rfl
  unfold Attempt.call
  rw [hstep]
  obtain ⟨x, t, es, hrun, hx, hticks⟩ | ⟨hact, outs, t, e, htick, hrun⟩ := run_paced s.ctx.active
    s.ctx.announced s.ctx.announcedAt stageHoldMs _ (0, s.ctx) _
    (runStage P { s.ctx with announced := false }) i.outs { s.world with ram := i.ram }
  · rw [hrun]
    rcases hx with rfl | rfl | ⟨n, rfl⟩
    · exact ⟨s.ctx.announced, s.ctx.announcedAt, t, es, hticks, .inl rfl⟩
    · exact ⟨s.ctx.announced, s.ctx.announcedAt, t, es, hticks, .inl rfl⟩
    · exact ⟨true, n, t, es, hticks, .inl rfl⟩
  · rw [hrun]
    refine ⟨false, s.ctx.announcedAt, t, [e], ?_, .inr ⟨hact, rfl, outs, ?_⟩⟩
    · intro e' he'
      rw [List.mem_singleton.1 he']
      exact htick
    · simp only [Attempt.stage, Attempt.waited, List.append_assoc, List.singleton_append]

/-- **Invariant rule** for a call: what waiting keeps and the stage keeps, a call keeps. -/
theorem Attempt.call_keeps {P : Platform} {J : Attempt → Prop} {s : Attempt} (i : Call)
    (hwait : ∀ b n t es, (∀ e ∈ es, Tick { s.world with ram := i.ram } e) →
      J (s.waited i.ram b n t es))
    (hstage : ∀ s', J s' → s'.ctx.active = true → s'.world.ram = i.ram →
      ∀ outs, J (s'.stage P outs)) : J (s.call P i) := by
  obtain ⟨b, n, t, es, hticks, hcall | ⟨hact, -, outs, hcall⟩⟩ := s.call_cases P i
  · rw [hcall]
    exact hwait b n t es hticks
  · rw [hcall]
    exact hstage _ (hwait b n t es hticks) hact rfl outs

/-- What an invariant has to withstand besides the stages: a longer record, other contents of RAM,
time, and the announcement of a stage. -/
structure Stable (J : Ctx → World → List FlashEvent → Prop) : Prop where
  trace : ∀ {c w tr tr'}, J c w tr → tr <+: tr' → J c w tr'
  ram : ∀ {c w tr} (m : Mem UInt8), J c w tr → J c { w with ram := m } tr
  clock : ∀ {c w tr} (t : ℕ), J c w tr → J c { w with clock := t } tr
  announced : ∀ {c w tr} (b : Bool) (n : ℕ), J c w tr →
    J { c with announced := b, announcedAt := n } w tr

section Calls

variable {P : Platform} {I J : Ctx → World → List FlashEvent → Prop}
  {G : List FlashEvent → FlashEvent → Prop}

theorem step_records (hJ : Stable J) (hJI : ∀ {c w tr}, J c w tr → I c w tr)
    (htimer : ∀ {c w tr} (base : ℕ) (o : Outcome), J c w tr → G tr ⟨.getTimer base, o, w⟩)
    (hstage : ∀ {c w tr}, c.active = true → J c w tr →
      Records exec G (fun r w' tr' => I r.2 w' tr') (runStage P c) w tr)
    {c : Ctx} {w : World} {tr : List FlashEvent} (h : J c w tr) :
    Records exec G (fun r w' tr' => I r.2 w' tr') (step P c) w tr := by
  have hgrow : ∀ e : FlashEvent, tr <+: tr ++ [e] := fun e => List.prefix_append tr [e]
  refine records_ite (fun _ => hJI h) fun hact => ?_
  refine records_ite (fun _ => ?_) fun _ => ?_
  · refine records_next (Cmd.getTimer 0) fun o => ⟨htimer 0 o h, ?_⟩
    exact hJI (hJ.announced true _ (hJ.clock _ (hJ.trace h (hgrow _))))
  · refine records_next (Cmd.getTimer c.announcedAt) fun o =>
      ⟨htimer c.announcedAt o h, ?_⟩
    have h' := hJ.clock (w.clock + o.tick) (hJ.trace h (hgrow ⟨.getTimer c.announcedAt, o, w⟩))
    refine records_ite (fun _ => hJI h') fun _ => hstage (by simpa using hact) ?_
    exact hJ.announced false c.announcedAt h'

/-- **Invariant rule** for a call of an attempt. -/
theorem Attempt.call_invariant (hJ : Stable J) (hJI : ∀ {c w tr}, J c w tr → I c w tr)
    (htimer : ∀ {c w tr} (base : ℕ) (o : Outcome), J c w tr → G tr ⟨.getTimer base, o, w⟩)
    (hstage : ∀ {c w tr}, c.active = true → J c w tr →
      Records exec G (fun r w' tr' => I r.2 w' tr') (runStage P c) w tr)
    {s : Attempt} (i : Call) (h : J s.ctx s.world s.trace) (hG : Recorded G s.trace) :
    Recorded G (s.call P i).trace ∧ I (s.call P i).ctx (s.call P i).world (s.call P i).trace := by
  have hrec := step_records hJ hJI htimer hstage (hJ.ram i.ram h)
  exact hrec.run_of i.outs hG

end Calls

end FipUpdate

end UrsusBoot
