import UrsusBoot.Engine.Pace
import UrsusBoot.Engine.Footprint
import UrsusBoot.Lib.Run

/-!
# Episodes of a paced engine

The engines differ in their contexts and stages, not in how they are called. An `Engine` is what
they have in common; an episode is a state of one of them, the board and the record of all commands
performed so far. Between two calls the rest of U-Boot may have put anything into RAM.
-/

namespace UrsusBoot

open Prog

/-- An engine that announces its stages, with contexts `Γ` and answers `α`. -/
structure Engine (Γ α : Type) where
  active : Γ → Bool
  announced : Γ → Bool
  announcedAt : Γ → ℕ
  hold : ℕ
  /-- Note whether and when the stage was announced. -/
  mark : Bool → ℕ → Γ → Γ
  /-- The answer of an engine that is not active. -/
  rest : Γ → α
  /-- The answer while the stage is held. -/
  wait : Γ → α
  announce : ℕ → Γ → α
  /-- The work of the current stage. -/
  work : Γ → FlashProg α
  /-- The context an answer leaves. -/
  out : α → Γ
  out_rest : ∀ c, out (rest c) = c
  out_wait : ∀ c, out (wait c) = c
  out_announce : ∀ n c, out (announce n c) = mark true n c
  mark_self : ∀ c, mark (announced c) (announcedAt c) c = c
  announced_mark : ∀ b n c, announced (mark b n c) = b
  announcedAt_mark : ∀ b n c, announcedAt (mark b n c) = n
  active_mark : ∀ b n c, active (mark b n c) = active c
  mark_mark : ∀ b n b' n' c, mark b n (mark b' n' c) = mark b n c

variable {Γ α : Type} (E : Engine Γ α)

def Engine.step (c : Γ) : FlashProg α :=
  paced (E.active c) (E.announced c) (E.announcedAt c) E.hold (E.rest c) (E.wait c)
    (fun now => E.announce now c) (E.work (E.mark false (E.announcedAt c) c))

/-- One call: what RAM holds by then, and how the commands turn out. -/
structure EngineCall where
  ram : Mem UInt8
  outs : ℕ → Outcome

structure Episode (Γ : Type) where
  ctx : Γ
  world : World
  trace : List FlashEvent

namespace Episode

variable {E} {s : Episode Γ}

def events (E : Engine Γ α) (s : Episode Γ) (i : EngineCall) : List FlashEvent :=
  (Prog.run exec (E.step s.ctx) i.outs { s.world with ram := i.ram }).trace

def call (E : Engine Γ α) (s : Episode Γ) (i : EngineCall) : Episode Γ :=
  let r := Prog.run exec (E.step s.ctx) i.outs { s.world with ram := i.ram }
  ⟨E.out r.val, r.world, s.trace ++ r.trace⟩

/-- The episode after some time: RAM holds `m`, and the clock has been asked. -/
def waited (E : Engine Γ α) (s : Episode Γ) (m : Mem UInt8) (b : Bool) (n t : ℕ)
    (es : List FlashEvent) : Episode Γ :=
  ⟨E.mark b n s.ctx, { s.world with ram := m, clock := t }, s.trace ++ es⟩

/-- The episode after the work of its current stage. -/
def stage (E : Engine Γ α) (s : Episode Γ) (outs : ℕ → Outcome) : Episode Γ :=
  let r := Prog.run exec (E.work s.ctx) outs s.world
  ⟨E.out r.val, r.world, s.trace ++ r.trace⟩

/-- **Inversion** of a call: it marks time, or it also runs the stage. -/
theorem call_cases (E : Engine Γ α) (s : Episode Γ) (i : EngineCall) :
    ∃ b n t es, (∀ e ∈ es, Tick { s.world with ram := i.ram } e) ∧
      (s.call E i = s.waited E i.ram b n t es ∧ s.events E i = es ∨
        E.active s.ctx = true ∧ b = false ∧
          ∃ outs, s.call E i = (s.waited E i.ram b n t es).stage E outs ∧
            s.events E i = es ++ (Prog.run exec (E.work (E.mark b n s.ctx)) outs
              { s.world with ram := i.ram, clock := t }).trace) := by
  unfold call events Engine.step
  obtain ⟨x, t, es, hrun, hx, hticks⟩ | ⟨hact, outs, t, e, htick, hrun⟩ := run_paced (E.active s.ctx)
    (E.announced s.ctx) (E.announcedAt s.ctx) E.hold (E.rest s.ctx) (E.wait s.ctx)
    (fun now => E.announce now s.ctx) (E.work (E.mark false (E.announcedAt s.ctx) s.ctx)) i.outs
    { s.world with ram := i.ram }
  · rw [hrun]
    rcases hx with rfl | rfl | ⟨n, rfl⟩
    · refine ⟨E.announced s.ctx, E.announcedAt s.ctx, t, es, hticks, .inl ⟨?_, rfl⟩⟩
      simp only [waited, E.out_rest, E.mark_self]
    · refine ⟨E.announced s.ctx, E.announcedAt s.ctx, t, es, hticks, .inl ⟨?_, rfl⟩⟩
      simp only [waited, E.out_wait, E.mark_self]
    · refine ⟨true, n, t, es, hticks, .inl ⟨?_, rfl⟩⟩
      simp only [waited, E.out_announce]
  · rw [hrun]
    refine ⟨false, E.announcedAt s.ctx, t, [e], ?_, .inr ⟨hact, rfl, outs, ?_, rfl⟩⟩
    · intro e' he'
      rw [List.mem_singleton.1 he']
      exact htick
    · simp only [stage, waited, List.append_assoc, List.singleton_append]

/-- **Invariant rule** for a call: what waiting keeps and the stage keeps, a call keeps. -/
theorem call_keeps {J : Episode Γ → Prop} (i : EngineCall)
    (hwait : ∀ b n t es, (∀ e ∈ es, Tick { s.world with ram := i.ram } e) →
      J (s.waited E i.ram b n t es))
    (hstage : ∀ s', J s' → E.active s'.ctx = true → s'.world.ram = i.ram →
      ∀ outs, J (s'.stage E outs)) : J (s.call E i) := by
  obtain ⟨b, n, t, es, hticks, ⟨hcall, -⟩ | ⟨hact, -, outs, hcall, -⟩⟩ := s.call_cases E i
  · rw [hcall]
    exact hwait b n t es hticks
  · rw [hcall]
    exact hstage _ (hwait b n t es hticks) ((E.active_mark b n s.ctx).trans hact) rfl outs

/-- **Invariant rule** for runs. -/
theorem run_keeps {J : Episode Γ → Prop} (h₀ : J s)
    (hwait : ∀ s, J s → ∀ (m : Mem UInt8) b n t es,
      (∀ e ∈ es, Tick { s.world with ram := m } e) → J (s.waited E m b n t es))
    (hstage : ∀ s, J s → E.active s.ctx = true → ∀ outs, J (s.stage E outs))
    (is : List EngineCall) : J (runFrom (call E) s is) := by
  refine history_run (J := fun _ => J) h₀ (fun is i h => ?_) is
  exact call_keeps i (fun b n t es hes => hwait _ h i.ram b n t es hes) fun s' hs' hact _ outs =>
    hstage s' hs' hact outs

end Episode

end UrsusBoot
