import Mathlib.Algebra.GroupWithZero.Nat
import Mathlib.Tactic.Common

/-!
# Command programs

A program that talks to a device one command at a time. `Prog C R α` is the tree of commands a
program issues, `Device C R O W` says how a device in a state `W` answers a command once the
environment has picked an outcome `O`, and `Prog.run` is the execution against one stream of
outcomes together with its trace.

`Prog.Spec` asks its guarantee of *every* command, so it speaks about a program that is stopped after
any one of them. `Prog.Records` also speaks about what has been performed, and `Prog.May` exhibits an
execution.
-/

/-- A program issuing commands `c : C`, each answered by a value of `R c`. -/
inductive Prog (C : Type) (R : C → Type) (α : Type) where
  | ret (a : α)
  | cmd (c : C) (k : R c → Prog C R α)

/-- How a device answers a command, given the outcome picked by the environment. -/
abbrev Device (C : Type) (R : C → Type) (O W : Type) := (c : C) → O → W → R c × W

namespace Prog

variable {C : Type} {R : C → Type} {O W α β γ : Type}

def bind : Prog C R α → (α → Prog C R β) → Prog C R β
  | ret a, f => f a
  | cmd c k, f => cmd c fun r => bind (k r) f

instance : Monad (Prog C R) where
  pure := ret
  bind := bind

@[simp] theorem pure_def (a : α) : (pure a : Prog C R α) = ret a := rfl

@[simp] theorem bind_def (p : Prog C R α) (f : α → Prog C R β) : p >>= f = p.bind f := rfl

@[simp] theorem ret_bind (a : α) (f : α → Prog C R β) : (ret a).bind f = f a := rfl

@[simp] theorem cmd_bind (c : C) (k : R c → Prog C R α) (f : α → Prog C R β) :
    (cmd c k).bind f = cmd c fun r => (k r).bind f := rfl

theorem bind_bind (p : Prog C R α) (f : α → Prog C R β) (g : β → Prog C R γ) :
    (p.bind f).bind g = p.bind fun a => (f a).bind g := by
  induction p with
  | ret a => rfl
  | cmd c k ih =>
    simp only [cmd_bind]
    congr 1
    funext r
    exact ih r

@[simp] theorem map_def (f : α → β) (p : Prog C R α) : f <$> p = p.bind fun a => ret (f a) := rfl

/-- The program that issues one command and returns its answer. -/
def perform (c : C) : Prog C R (R c) := cmd c ret

/-- A program as one over a larger set of commands: `f` embeds the commands, `g` reads off their
answers. -/
def embed {C' : Type} {R' : C' → Type} (f : C → C') (g : ∀ c, R' (f c) → R c) :
    Prog C R α → Prog C' R' α
  | ret a => ret a
  | cmd c k => cmd (f c) fun r => embed f g (k (g c r))

/-! ## Execution -/

/-- A command performed: the outcome picked for it and the state it was issued in. -/
structure Event (C O W : Type) where
  cmd : C
  out : O
  before : W

def Event.after (D : Device C R O W) (e : Event C O W) : W := (D e.cmd e.out e.before).2

def Event.res (D : Device C R O W) (e : Event C O W) : R e.cmd := (D e.cmd e.out e.before).1

structure Result (C O W α : Type) where
  val : α
  world : W
  trace : List (Event C O W)

/-- Execute a program against a stream of outcomes. -/
def run (D : Device C R O W) : Prog C R α → (ℕ → O) → W → Result C O W α
  | ret a, _, w => ⟨a, w, []⟩
  | cmd c k, os, w =>
    let r := D c (os 0) w
    let t := run D (k r.1) (fun n => os (n + 1)) r.2
    ⟨t.val, t.world, ⟨c, os 0, w⟩ :: t.trace⟩

variable {w : W} {D : Device C R O W}

theorem run_perform_bind {c : C} {f : R c → Prog C R β} {p : Prog C R β} {os : ℕ → O}
    (h : f (D c (os 0) w).1 = p) :
    run D ((perform c).bind f) os w =
      ⟨(run D p (fun n => os (n + 1)) (D c (os 0) w).2).val,
        (run D p (fun n => os (n + 1)) (D c (os 0) w).2).world,
        ⟨c, os 0, w⟩ :: (run D p (fun n => os (n + 1)) (D c (os 0) w).2).trace⟩ := by
  subst h
  rfl

theorem run_bind (D : Device C R O W) (p : Prog C R α) (f : α → Prog C R β) (os : ℕ → O) (w : W) :
    run D (p.bind f) os w =
      let r := run D p os w
      let t := run D (f r.val) (fun n => os (n + r.trace.length)) r.world
      ⟨t.val, t.world, r.trace ++ t.trace⟩ := by
  induction p generalizing os w with
  | ret a => rfl
  | cmd c k ih => simp only [cmd_bind, run, ih, List.length_cons, List.cons_append, Nat.add_assoc]

theorem run_bind_ret (D : Device C R O W) (p : Prog C R α) (f : α → β) (os : ℕ → O) (w : W) :
    run D (p.bind fun a => ret (f a)) os w =
      ⟨f (run D p os w).val, (run D p os w).world, (run D p os w).trace⟩ := by
  induction p generalizing os w with
  | ret a => rfl
  | cmd c k ih => simp only [cmd_bind, run, ih]

variable {p : Prog C R α}

theorem exists_out_eq {os : ℕ → O} {e : Event C O W} (he : e ∈ (run D p os w).trace) :
    ∃ n, e.out = os n := by
  induction p generalizing os w with
  | ret a => simp [run] at he
  | cmd c k ih =>
    simp only [run, List.mem_cons] at he
    rcases he with rfl | he
    · exact ⟨0, rfl⟩
    · obtain ⟨n, hn⟩ := ih _ he
      exact ⟨n + 1, hn⟩

theorem exists_run_of_pick [Inhabited O] (D : Device C R O W) (pick : C → O) (p : Prog C R α)
    (w : W) : ∃ os, ∀ e ∈ (run D p os w).trace, e.out = pick e.cmd := by
  induction p generalizing w with
  | ret a => exact ⟨fun _ => default, fun _ he => nomatch he⟩
  | cmd c k ih =>
    obtain ⟨os, hos⟩ := ih (D c (pick c) w).1 (D c (pick c) w).2
    let os' : ℕ → O
      | 0 => pick c
      | n + 1 => os n
    refine ⟨os', fun e he => ?_⟩
    rcases List.mem_cons.1 he with rfl | he
    · rfl
    · exact hos e he

/-! ## Specifications -/

/-- Under the assumption `A` on the commands performed, each of them meets `G`, and the program
ends in `Q`. -/
def Spec (D : Device C R O W) (A G : Event C O W → Prop) (Q : α → W → Prop) :
    Prog C R α → W → Prop
  | ret a, w => Q a w
  | cmd c k, w => ∀ o, A ⟨c, o, w⟩ → G ⟨c, o, w⟩ ∧ Spec D A G Q (k (D c o w).1) (D c o w).2

variable {f : α → Prog C R β} {G' : Event C O W → Prop}

section Rules

variable {D : Device C R O W} {A G : Event C O W → Prop}

@[simp] theorem spec_ret (Q : α → W → Prop) (a : α) (w : W) :
    Spec D A G Q (ret a : Prog C R α) w ↔ Q a w := Iff.rfl

theorem spec_cmd (Q : α → W → Prop) (c : C) (k : R c → Prog C R α) (w : W) :
    Spec D A G Q (cmd c k) w ↔
      ∀ o, A ⟨c, o, w⟩ → G ⟨c, o, w⟩ ∧ Spec D A G Q (k (D c o w).1) (D c o w).2 := Iff.rfl

theorem spec_next (c : C) {f : R c → Prog C R β} {Q : β → W → Prop}
    (h : ∀ o, A ⟨c, o, w⟩ → G ⟨c, o, w⟩ ∧ Spec D A G Q (f (D c o w).1) (D c o w).2) :
    Spec D A G Q ((perform c).bind f) w := h

theorem spec_bind (Q : β → W → Prop) (p : Prog C R α) (f : α → Prog C R β) (w : W) :
    Spec D A G Q (p.bind f) w ↔ Spec D A G (fun a w' => Spec D A G Q (f a) w') p w := by
  induction p generalizing w with
  | ret a => rfl
  | cmd c k ih => simp only [cmd_bind, spec_cmd, ih]

theorem spec_ite {Q : α → W → Prop} {c : Prop} [Decidable c] {p q : Prog C R α}
    (hp : c → Spec D A G Q p w) (hq : ¬ c → Spec D A G Q q w) :
    Spec D A G Q (if c then p else q) w := by
  split_ifs with h
  · exact hp h
  · exact hq h

theorem Spec.mono {Q Q' : α → W → Prop} (h : Spec D A G Q p w) (hQ : ∀ a w', Q a w' → Q' a w') :
    Spec D A G Q' p w := by
  induction p generalizing w with
  | ret a => exact hQ a w h
  | cmd c k ih => exact fun o ho => ⟨(h o ho).1, ih _ (h o ho).2⟩

theorem Spec.bind {Q : β → W → Prop} {P : α → W → Prop} (hp : Spec D A G P p w)
    (hf : ∀ a w', P a w' → Spec D A G Q (f a) w') :
    Spec D A G Q (p.bind f) w :=
  (spec_bind Q p f w).2 (hp.mono hf)

theorem Spec.and {Q Q' : α → W → Prop} (h : Spec D A G Q p w) (h' : Spec D A G' Q' p w) :
    Spec D A (fun e => G e ∧ G' e) (fun a w => Q a w ∧ Q' a w) p w := by
  induction p generalizing w with
  | ret a => exact ⟨h, h'⟩
  | cmd c k ih =>
    exact fun o ho => ⟨⟨(h o ho).1, (h' o ho).1⟩, ih _ (h o ho).2 (h' o ho).2⟩

theorem Spec.weaken {A' G' : Event C O W → Prop} {Q : α → W → Prop} (h : Spec D A G Q p w)
    (hA : ∀ e, A' e → A e) (hG : ∀ e, A' e → G e → G' e) :
    Spec D A' G' Q p w := by
  induction p generalizing w with
  | ret a => exact h
  | cmd c k ih =>
    intro o ho
    obtain ⟨hg, hk⟩ := h o (hA _ ho)
    exact ⟨hG _ ho hg, ih _ hk⟩

/-- **Transfer.** A specification holds of every execution whose events meet the assumption. -/
theorem Spec.run_of {Q : α → W → Prop} (h : Spec D A G Q p w) (os : ℕ → O)
    (hA : ∀ e ∈ (run D p os w).trace, A e) :
    (∀ e ∈ (run D p os w).trace, G e) ∧ Q (run D p os w).val (run D p os w).world := by
  induction p generalizing w os with
  | ret a => exact ⟨by simp [run], h⟩
  | cmd c k ih =>
    simp only [run, List.mem_cons, forall_eq_or_imp] at hA ⊢
    obtain ⟨hg, hk⟩ := h (os 0) hA.1
    obtain ⟨hG, hQ⟩ := ih _ hk _ hA.2
    exact ⟨⟨hg, hG⟩, hQ⟩

end Rules

/-! ## Values -/

/-- Whatever state it is run in, under the assumption `A` on its commands, the program can only
return a value in `Q`. -/
def Yields (D : Device C R O W) (A : Event C O W → Prop) (Q : α → Prop) (p : Prog C R α) : Prop :=
  ∀ w, Spec D A (fun _ => True) (fun a _ => Q a) p w

section Yields

variable {D : Device C R O W} {A : Event C O W → Prop}

theorem yields_ret {Q : α → Prop} {a : α} (h : Q a) : Yields D A Q (ret a : Prog C R α) :=
  fun _ => h

theorem yields_perform {c : C} {Q : R c → Prop} (h : ∀ o w, A ⟨c, o, w⟩ → Q (D c o w).1) :
    Yields D A Q (perform c : Prog C R (R c)) :=
  fun w o ho => ⟨trivial, h o w ho⟩

theorem yields_true (p : Prog C R α) : Yields D A (fun _ => True) p := by
  intro w
  induction p generalizing w with
  | ret a => trivial
  | cmd c k ih => exact fun o _ => ⟨trivial, ih _ _⟩

theorem Yields.mono {Q Q' : α → Prop} (h : Yields D A Q p) (hQ : ∀ a, Q a → Q' a) :
    Yields D A Q' p :=
  fun w => (h w).mono fun a _ => hQ a

theorem yields_bind {P : α → Prop} {Q : β → Prop} (hp : Yields D A P p)
    (hf : ∀ a, P a → Yields D A Q (f a)) : Yields D A Q (p.bind f) :=
  fun w => (hp w).bind fun a w' ha => hf a ha w'

theorem yields_then {Q : β → Prop} (hf : ∀ a, Yields D A Q (f a)) : Yields D A Q (p.bind f) :=
  yields_bind (yields_true p) fun a _ => hf a

theorem yields_ite {Q : α → Prop} {c : Prop} [Decidable c] {p q : Prog C R α}
    (hp : c → Yields D A Q p) (hq : ¬ c → Yields D A Q q) : Yields D A Q (if c then p else q) := by
  split_ifs with h
  · exact hp h
  · exact hq h

/-- A program that may leave early with a value in `Q`. -/
theorem yields_exit {Q : α → Prop} {c : Prop} [Decidable c] {a : α} {q : Prog C R α} (ha : Q a)
    (hq : ¬ c → Yields D A Q q) : Yields D A Q (if c then ret a else q) :=
  yields_ite (fun _ => yields_ret ha) hq

theorem Yields.run_of {Q : α → Prop} (h : Yields D A Q p) (os : ℕ → O) (w : W)
    (hA : ∀ e ∈ (run D p os w).trace, A e) : Q (run D p os w).val :=
  ((h w).run_of os hA).2

end Yields

/-! ## Events -/

/-- Whatever state it is run in, every command the program performs meets `G`. -/
def Emits (D : Device C R O W) (G : Event C O W → Prop) (p : Prog C R α) : Prop :=
  ∀ w, Spec D (fun _ => True) G (fun _ _ => True) p w

section Emits

variable {D : Device C R O W} {G : Event C O W → Prop}

theorem emits_ret (a : α) : Emits D G (ret a : Prog C R α) := fun _ => trivial

theorem emits_next {c : C} {f : R c → Prog C R β} (hc : ∀ o w, G ⟨c, o, w⟩)
    (hf : ∀ r, Emits D G (f r)) : Emits D G ((perform c).bind f) :=
  fun w o _ => ⟨hc o w, hf _ _⟩

theorem emits_bind (hp : Emits D G p) (hf : ∀ a, Emits D G (f a)) : Emits D G (p.bind f) :=
  fun w => (hp w).bind fun a w' _ => hf a w'

theorem emits_ite {c : Prop} [Decidable c] {p q : Prog C R α} (hp : c → Emits D G p)
    (hq : ¬ c → Emits D G q) : Emits D G (if c then p else q) := by
  split_ifs with h
  · exact hp h
  · exact hq h

theorem Emits.run_of (h : Emits D G p) (os : ℕ → O) (w : W) :
    ∀ e ∈ (run D p os w).trace, G e :=
  ((h w).run_of os fun _ _ => trivial).1

end Emits

/-! ## The commands a program issues -/

/-- `p` only issues commands in `P`, whatever it is answered. -/
def Uses (P : C → Prop) : Prog C R α → Prop
  | ret _ => True
  | cmd c k => P c ∧ ∀ r, Uses P (k r)

@[simp] theorem uses_ret (P : C → Prop) (a : α) : Uses P (ret a : Prog C R α) := trivial

@[simp] theorem uses_perform (P : C → Prop) (c : C) :
    Uses P (perform c : Prog C R (R c)) ↔ P c := ⟨fun h => h.1, fun h => ⟨h, fun _ => trivial⟩⟩

theorem uses_bind {P : C → Prop} (hp : Uses P p) (hf : ∀ a, Uses P (f a)) : Uses P (p.bind f) := by
  induction p with
  | ret a => exact hf a
  | cmd c k ih => exact ⟨hp.1, fun r => ih r (hp.2 r)⟩

theorem Uses.mono {P P' : C → Prop} (h : Uses P p) (hP : ∀ c, P c → P' c) :
    Uses P' p := by
  induction p with
  | ret a => trivial
  | cmd c k ih => exact ⟨hP c h.1, fun r => ih r (h.2 r)⟩

/-- **Frame rule.** An invariant kept by every command in `P` is kept, command by command, by a
program that only uses `P`. -/
theorem Spec.of_uses {A G : Event C O W → Prop} {P : C → Prop} {I : W → Prop}
    (hstep : ∀ c o w, P c → A ⟨c, o, w⟩ → I w → G ⟨c, o, w⟩ ∧ I (D c o w).2) (hp : Uses P p)
    (hw : I w) : Spec D A G (fun _ => I) p w := by
  induction p generalizing w with
  | ret a => exact hw
  | cmd c k ih =>
    intro o ho
    obtain ⟨hG, hI⟩ := hstep c o w hp.1 ho hw
    exact ⟨hG, ih _ (hp.2 _) hI⟩

theorem Emits.of_uses {G : Event C O W → Prop} {P : C → Prop} (hstep : ∀ c o w, P c → G ⟨c, o, w⟩)
    (hp : Uses P p) : Emits D G p :=
  fun _ => (Spec.of_uses (I := fun _ => True) (fun c o w hc _ _ => ⟨hstep c o w hc, trivial⟩) hp
    trivial).mono fun _ _ _ => trivial

/-- **Invariants from events.** If every performed command that meets `A` keeps `I`, so does the
program as long as its commands meet `A`. -/
theorem Emits.invariant {A : Event C O W → Prop} {I : W → Prop}
    (h : Emits D (fun e => A e → I e.before → I (e.after D)) p) (hw : I w) :
    Spec D A (fun e => I (e.after D)) (fun _ w' => I w') p w := by
  have hspec := h w
  clear h
  induction p generalizing w with
  | ret a => exact hw
  | cmd c k ih =>
    intro o ho
    obtain ⟨hkeep, hrest⟩ := hspec o trivial
    have hw' : I (D c o w).2 := hkeep ho hw
    exact ⟨hw', ih _ hw' hrest⟩

/-! ## Specifications with a record -/

/-- What an event of a record satisfies may depend on the record before it. -/
def Recorded (G : List (Event C O W) → Event C O W → Prop) (tr : List (Event C O W)) : Prop :=
  ∀ before e after, tr = before ++ e :: after → G before e

variable {tr : List (Event C O W)}

theorem Recorded.mono {G G' : List (Event C O W) → Event C O W → Prop} (h : Recorded G tr)
    (hG : ∀ tr' e, G tr' e → G' tr' e) : Recorded G' tr :=
  fun before e after htr => hG before e (h before e after htr)

theorem recorded_nil (G : List (Event C O W) → Event C O W → Prop) : Recorded G [] := by
  intro before e after h
  simp at h

theorem recorded_concat {G : List (Event C O W) → Event C O W → Prop} {e : Event C O W}
    (h : Recorded G tr) (he : G tr e) : Recorded G (tr ++ [e]) := by
  intro before e' after heq
  -- the last event is either the new one or one of the old ones
  rcases List.eq_nil_or_concat after with rfl | ⟨after', x, rfl⟩
  · obtain ⟨rfl, h'⟩ := List.append_inj' heq rfl
    cases h'
    exact he
  · have h' : tr ++ [e] = (before ++ e' :: after') ++ [x] := by simpa using heq
    obtain ⟨h', -⟩ := List.append_inj' h' rfl
    exact h _ _ _ h'

theorem recorded_append {G : List (Event C O W) → Event C O W → Prop} {tr es : List (Event C O W)}
    (h : Recorded G tr) (hes : ∀ e ∈ es, ∀ tr', tr <+: tr' → G tr' e) : Recorded G (tr ++ es) := by
  induction es generalizing tr with
  | nil => simpa using h
  | cons e es ih =>
    have hhead := hes e List.mem_cons_self tr (List.prefix_refl tr)
    have hrest := ih (recorded_concat h hhead) fun e' he' tr' htr =>
      hes e' (List.mem_cons_of_mem e he') tr' ((List.prefix_append tr [e]).trans htr)
    simpa using hrest

/-- A specification that sees the record of what has been performed: `G` is asked of every command
together with the record before it, `Q` of the result together with the whole record. -/
def Records (D : Device C R O W) (G : List (Event C O W) → Event C O W → Prop)
    (Q : α → W → List (Event C O W) → Prop) : Prog C R α → W → List (Event C O W) → Prop
  | ret a, w, tr => Q a w tr
  | cmd c k, w, tr =>
    ∀ o, G tr ⟨c, o, w⟩ ∧ Records D G Q (k (D c o w).1) (D c o w).2 (tr ++ [⟨c, o, w⟩])

variable {Q : β → W → List (Event C O W) → Prop}

section Records

variable {D : Device C R O W} {G : List (Event C O W) → Event C O W → Prop}

@[simp] theorem records_ret (Q : α → W → List (Event C O W) → Prop) (a : α) (w : W)
    (tr : List (Event C O W)) : Records D G Q (ret a : Prog C R α) w tr ↔ Q a w tr := Iff.rfl

theorem records_next (c : C) {f : R c → Prog C R β}
    (h : ∀ o, G tr ⟨c, o, w⟩ ∧ Records D G Q (f (D c o w).1) (D c o w).2 (tr ++ [⟨c, o, w⟩])) :
    Records D G Q ((perform c).bind f) w tr := h

theorem records_ite {Q : α → W → List (Event C O W) → Prop} {c : Prop} [Decidable c]
    {p q : Prog C R α} (hp : c → Records D G Q p w tr) (hq : ¬ c → Records D G Q q w tr) :
    Records D G Q (if c then p else q) w tr := by
  split_ifs with h
  · exact hp h
  · exact hq h

theorem Records.bind {M : α → W → List (Event C O W) → Prop} (hp : Records D G M p w tr)
    (hf : ∀ a w' tr', M a w' tr' → Records D G Q (f a) w' tr') :
    Records D G Q (p.bind f) w tr := by
  induction p generalizing w tr with
  | ret a => exact hf a w tr hp
  | cmd c k ih => exact fun o => ⟨(hp o).1, ih _ (hp o).2⟩

theorem Records.mono {Q Q' : α → W → List (Event C O W) → Prop} (h : Records D G Q p w tr)
    (hQ : ∀ a w' tr', Q a w' tr' → Q' a w' tr') : Records D G Q' p w tr := by
  induction p generalizing w tr with
  | ret a => exact hQ a w tr h
  | cmd c k ih => exact fun o => ⟨(h o).1, ih _ (h o).2⟩

theorem Records.and_spec {Q : α → W → List (Event C O W) → Prop} {Q' : α → W → Prop}
    (h : Records D G Q p w tr) (h' : Spec D (fun _ => True) (fun _ => True) Q' p w) :
    Records D G (fun a w tr => Q a w tr ∧ Q' a w) p w tr := by
  induction p generalizing w tr with
  | ret a => exact ⟨h, h'⟩
  | cmd c k ih => exact fun o => ⟨(h o).1, ih _ (h o).2 (h' o trivial).2⟩

/-- **Frame rule**, with the record: what every command in `P` keeps, a program that only uses `P`
keeps. -/
theorem Records.of_uses {P : C → Prop} {I : W → List (Event C O W) → Prop}
    (hstep : ∀ c o w tr, P c → I w tr → G tr ⟨c, o, w⟩ ∧ I (D c o w).2 (tr ++ [⟨c, o, w⟩]))
    (hp : Uses P p) (h : I w tr) :
    Records D G (fun _ w' tr' => I w' tr') p w tr := by
  induction p generalizing w tr with
  | ret a => exact h
  | cmd c k ih =>
    intro o
    obtain ⟨hG, hI⟩ := hstep c o w tr hp.1 h
    exact ⟨hG, ih _ (hp.2 _) hI⟩

theorem Records.of_emits {I : W → List (Event C O W) → Prop}
    (hstep : ∀ e tr, G' e → I e.before tr → G tr e ∧ I (e.after D) (tr ++ [e])) (hp : Emits D G' p)
    (h : I w tr) :
    Records D G (fun _ w' tr' => I w' tr') p w tr := by
  have hspec := hp w
  clear hp
  induction p generalizing w tr with
  | ret a => exact h
  | cmd c k ih =>
    intro o
    obtain ⟨hG, hI⟩ := hstep ⟨c, o, w⟩ tr (hspec o trivial).1 h
    exact ⟨hG, ih _ hI (hspec o trivial).2⟩

/-- A plain specification, read with the record: what it guarantees of a command has to give `G`
whatever the record has grown to. -/
theorem Records.of_spec {Q : α → W → Prop} (h : Spec D (fun _ => True) G' Q p w)
    (hG : ∀ e tr', tr <+: tr' → G' e → G tr' e) :
    Records D G (fun a w' tr' => Q a w' ∧ tr <+: tr') p w tr := by
  induction p generalizing w tr with
  | ret a => exact ⟨h, List.prefix_refl tr⟩
  | cmd c k ih =>
    intro o
    obtain ⟨hg, hk⟩ := h o trivial
    have hgrow : tr <+: tr ++ [⟨c, o, w⟩] := List.prefix_append tr _
    have hrest := ih _ hk fun e tr' htr he => hG e tr' (hgrow.trans htr) he
    exact ⟨hG _ _ (List.prefix_refl tr) hg, hrest.mono fun a w' tr' h => ⟨h.1, hgrow.trans h.2⟩⟩

/-- **Transfer**, with the record. -/
theorem Records.run_of {Q : α → W → List (Event C O W) → Prop} (h : Records D G Q p w tr)
    (os : ℕ → O) (htr : Recorded G tr) :
    Recorded G (tr ++ (run D p os w).trace) ∧
      Q (run D p os w).val (run D p os w).world (tr ++ (run D p os w).trace) := by
  induction p generalizing w os tr with
  | ret a =>
    simp only [run, List.append_nil]
    exact ⟨htr, h⟩
  | cmd c k ih =>
    obtain ⟨hg, hk⟩ := h (os 0)
    have hrest := ih _ hk (fun n => os (n + 1)) (recorded_concat htr hg)
    simpa only [run, List.append_assoc, List.singleton_append] using hrest

theorem records_run [Inhabited O] (p : Prog C R α) (w : W) (tr : List (Event C O W)) :
    Records D (fun _ _ => True) (fun a w' tr' => ∃ os, (run D p os w).val = a ∧
      (run D p os w).world = w' ∧ tr' = tr ++ (run D p os w).trace) p w tr := by
  induction p generalizing w tr with
  | ret a => exact ⟨fun _ => default, rfl, rfl, (List.append_nil tr).symm⟩
  | cmd c k ih =>
    intro o
    refine ⟨trivial, (ih _ _ _).mono ?_⟩
    rintro a w' tr' ⟨os, rfl, rfl, rfl⟩
    let os' : ℕ → O
      | 0 => o
      | n + 1 => os n
    exact ⟨os', rfl, rfl, by rw [List.append_assoc]; rfl⟩

end Records

/-! ## Possible executions -/

/-- The environment may pick outcomes under which the program ends in `Q`. -/
def May (D : Device C R O W) (Q : α → W → List (Event C O W) → Prop) :
    Prog C R α → W → List (Event C O W) → Prop
  | ret a, w, tr => Q a w tr
  | cmd c k, w, tr => ∃ o, May D Q (k (D c o w).1) (D c o w).2 (tr ++ [⟨c, o, w⟩])

section May

variable {D : Device C R O W}

@[simp] theorem may_ret (Q : α → W → List (Event C O W) → Prop) (a : α) (w : W)
    (tr : List (Event C O W)) : May D Q (ret a : Prog C R α) w tr ↔ Q a w tr := Iff.rfl

theorem may_next {c : C} {f : R c → Prog C R β} (o : O)
    (h : May D Q (f (D c o w).1) (D c o w).2 (tr ++ [⟨c, o, w⟩])) :
    May D Q ((perform c).bind f) w tr := ⟨o, h⟩

theorem may_answer {c : C} {f : R c → Prog C R β} {w w' : W} {o : O} {r : R c}
    (ho : D c o w = (r, w')) (h : May D Q (f r) w' (tr ++ [⟨c, o, w⟩])) :
    May D Q ((perform c).bind f) w tr := by
  refine ⟨o, ?_⟩
  rw [ho]
  exact h

theorem May.bind {M : α → W → List (Event C O W) → Prop} (hp : May D M p w tr)
    (hf : ∀ a w' tr', M a w' tr' → May D Q (f a) w' tr') : May D Q (p.bind f) w tr := by
  induction p generalizing w tr with
  | ret a => exact hf a w tr hp
  | cmd c k ih =>
    obtain ⟨o, ho⟩ := hp
    exact ⟨o, ih _ ho⟩

theorem may_bind (h : May D (fun a w' tr' => May D Q (f a) w' tr') p w tr) : May D Q (p.bind f) w tr :=
  h.bind fun _ _ _ h => h

theorem May.mono {Q Q' : α → W → List (Event C O W) → Prop} (h : May D Q p w tr)
    (hQ : ∀ a w' tr', Q a w' tr' → Q' a w' tr') :
    May D Q' p w tr := by
  induction p generalizing w tr with
  | ret a => exact hQ a w tr h
  | cmd c k ih =>
    obtain ⟨o, ho⟩ := h
    exact ⟨o, ih _ ho⟩

/-- What a specification promises under its assumption may happen, if some outcome always meets the
assumption. -/
theorem may_of_spec {A G : Event C O W → Prop} {Q : α → W → Prop} (h : Spec D A G Q p w) (o : O)
    (ho : ∀ c w, A ⟨c, o, w⟩) (tr : List (Event C O W)) :
    May D (fun a w' _ => Q a w') p w tr := by
  induction p generalizing w tr with
  | ret a => exact h
  | cmd c k ih => exact ⟨o, ih _ (h o (ho c w)).2 _⟩

/-- What may happen does so by commands that meet what the program guarantees of them. -/
theorem May.of_emits {G : Event C O W → Prop} {Q : α → W → List (Event C O W) → Prop}
    (h : May D Q p w tr) (hp : Emits D G p) :
    May D (fun a w' tr' => Q a w' tr' ∧ ∃ es, tr' = tr ++ es ∧ ∀ e ∈ es, G e) p w tr := by
  have hspec := hp w
  clear hp
  suffices hgen : ∀ tr₀ es₀, tr = tr₀ ++ es₀ → (∀ e ∈ es₀, G e) →
      May D (fun a w' tr' => Q a w' tr' ∧ ∃ es, tr' = tr₀ ++ es ∧ ∀ e ∈ es, G e) p w tr from
    hgen tr [] (List.append_nil tr).symm (fun _ he => nomatch he)
  intro tr₀ es₀ htr hes₀
  induction p generalizing w tr es₀ with
  | ret a => exact ⟨h, es₀, htr, hes₀⟩
  | cmd c k ih =>
    obtain ⟨o, ho⟩ := h
    obtain ⟨hg, hrest⟩ := hspec o trivial
    have hes : ∀ e ∈ es₀ ++ [(⟨c, o, w⟩ : Event C O W)], G e := by
      intro e he
      rcases List.mem_append.1 he with he | he
      · exact hes₀ e he
      · rw [List.mem_singleton.1 he]
        exact hg
    exact ⟨o, ih _ ho hrest (es₀ ++ [⟨c, o, w⟩]) (by rw [htr, List.append_assoc]) hes⟩

theorem May.of_records {Q Q' : α → W → List (Event C O W) → Prop} (h : May D Q p w tr)
    (h' : Records D (fun _ _ => True) Q' p w tr) :
    May D (fun a w' tr' => Q a w' tr' ∧ Q' a w' tr') p w tr := by
  induction p generalizing w tr with
  | ret a => exact ⟨h, h'⟩
  | cmd c k ih =>
    obtain ⟨o, ho⟩ := h
    exact ⟨o, ih _ ho (h' o).2⟩

theorem may_extend [Inhabited O] (p : Prog C R α) (w : W) (tr : List (Event C O W)) :
    May D (fun _ _ tr' => tr <+: tr') p w tr := by
  induction p generalizing w tr with
  | ret a => exact List.prefix_refl tr
  | cmd c k ih =>
    have hgrow : tr <+: tr ++ [⟨c, default, w⟩] := List.prefix_append _ _
    exact ⟨default, (ih _ _ _).mono fun _ _ _ h => hgrow.trans h⟩

/-- **Transfer.** What may happen does so under some stream of outcomes. -/
theorem May.run_of [Inhabited O] {Q : α → W → List (Event C O W) → Prop} (h : May D Q p w tr) :
    ∃ os, Q (run D p os w).val (run D p os w).world (tr ++ (run D p os w).trace) := by
  induction p generalizing w tr with
  | ret a => exact ⟨fun _ => default, by simpa [run] using h⟩
  | cmd c k ih =>
    obtain ⟨o, ho⟩ := h
    obtain ⟨os, hos⟩ := ih _ ho
    rw [List.append_assoc, List.singleton_append] at hos
    let os' : ℕ → O
      | 0 => o
      | n + 1 => os n
    exact ⟨os', hos⟩

end May

end Prog
