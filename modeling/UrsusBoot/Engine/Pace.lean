import UrsusBoot.Engine.Basic

/-!
# The pace of the engines

The three `step` functions announce a stage, hold it for a while and run it in a later call.
`run_paced` says what one call can come to: it marks time, or it runs the stage.
-/

namespace UrsusBoot

open Prog

/-- The common body of the `step` functions: `rest` when the engine is not active, `announce` for a
stage that has not been announced, `wait` while it is held, then `stage`. -/
def paced {α : Type} (active announced : Bool) (since hold : ℕ) (rest wait : α) (announce : ℕ → α)
    (stage : FlashProg α) : FlashProg α := do
  if !active then return rest
  if !announced then
    let now ← getTimer 0
    return announce now
  if (← getTimer since) < hold then return wait
  stage

/-- The event asks for the time in the world `w`. -/
structure Tick (w : World) (e : FlashEvent) : Prop where
  before : e.before = w
  timer : ∃ base, e.cmd = .getTimer base

theorem Tick.after {w : World} {e : FlashEvent} (h : Tick w e) :
    ∃ t, e.after exec = { w with clock := t } := by
  obtain ⟨base, hcmd⟩ := h.timer
  obtain ⟨cmd, out, before⟩ := e
  obtain rfl : before = w := h.before
  obtain rfl : cmd = .getTimer base := hcmd
  exact ⟨before.clock + out.tick, rfl⟩

theorem tick_getTimer (base : ℕ) (o : Outcome) (w : World) : Tick w ⟨.getTimer base, o, w⟩ :=
  ⟨rfl, base, rfl⟩

/-- **A call** marks time, or runs the stage after asking for the time once. -/
theorem run_paced {α : Type} (active announced : Bool) (since hold : ℕ) (rest wait : α)
    (announce : ℕ → α) (stage : FlashProg α) (outs : ℕ → Outcome) (w : World) :
    (∃ x t es, run exec (paced active announced since hold rest wait announce stage) outs w =
        ⟨x, { w with clock := t }, es⟩ ∧
      (x = rest ∨ x = wait ∨ ∃ n, x = announce n) ∧ ∀ e ∈ es, Tick w e) ∨
    active = true ∧ ∃ outs' t e, Tick w e ∧
      run exec (paced active announced since hold rest wait announce stage) outs w =
        ⟨(run exec stage outs' { w with clock := t }).val,
          (run exec stage outs' { w with clock := t }).world,
          e :: (run exec stage outs' { w with clock := t }).trace⟩ := by
  have hsingle : ∀ base, ∀ e ∈ [(⟨.getTimer base, outs 0, w⟩ : FlashEvent)], Tick w e := by
    intro base e he
    rw [List.mem_singleton.1 he]
    exact tick_getTimer base (outs 0) w
  cases active with
  | false => exact .inl ⟨rest, w.clock, [], rfl, .inl rfl, by simp⟩
  | true =>
    cases announced with
    | false =>
      exact .inl ⟨_, w.clock + (outs 0).tick, _, rfl, .inr (.inr ⟨_, rfl⟩), hsingle 0⟩
    | true =>
      let next : ℕ → FlashProg α := fun t => if t < hold then Prog.ret wait else stage
      by_cases hheld : (exec (.getTimer since) (outs 0) w).1 < hold
      · have hnext : next (exec (.getTimer since) (outs 0) w).1 = Prog.ret wait := if_pos hheld
        have hrun : run exec ((getTimer since).bind next) outs w = _ := run_perform_bind hnext
        exact .inl ⟨_, w.clock + (outs 0).tick, _, hrun, .inr (.inl rfl), hsingle since⟩
      · have hnext : next (exec (.getTimer since) (outs 0) w).1 = stage := if_neg hheld
        have hrun : run exec ((getTimer since).bind next) outs w = _ := run_perform_bind hnext
        exact .inr ⟨rfl, _, w.clock + (outs 0).tick, _, tick_getTimer since (outs 0) w, hrun⟩

/-! ## Timers -/

theorem World.getTimer_now (w : World) :
    w.getTimer .ok 0 = (w.clock % 2 ^ 64, { w with clock := w.clock }) := by
  have hnow : (w.clock + 0 + (2 ^ 64 - 0 % 2 ^ 64)) % 2 ^ 64 = w.clock % 2 ^ 64 := by omega
  exact Prod.ext hnow rfl

theorem World.getTimer_elapsed (w : World) {n : ℕ} (h : n < 2 ^ 64) :
    w.getTimer { tick := n } (w.clock % 2 ^ 64) = (n, { w with clock := w.clock + n }) := by
  have helapsed : (w.clock + n + (2 ^ 64 - w.clock % 2 ^ 64 % 2 ^ 64)) % 2 ^ 64 = n := by omega
  exact Prod.ext helapsed rfl

end UrsusBoot
