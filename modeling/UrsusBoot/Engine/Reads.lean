import UrsusBoot.Engine.Footprint

/-!
# What the reading helpers deliver

The helpers that read raw NAND, and the checks made on what they read. Each lemma says that the
helper leaves flash and RAM alone, and what a success tells about the contents of NAND.
-/

namespace UrsusBoot

open Prog

variable {A : FlashEvent → Prop}

/-- The helper asks questions only, and ends in `Q`. -/
abbrev Finds {α : Type} (A : FlashEvent → Prop) (w : World) (Q : α → Prop) (p : FlashProg α) : Prop :=
  Spec exec A (fun e => InertStep w (e.after exec)) (fun a w' => InertStep w w' ∧ Q a) p w

theorem finds_of_yields {α : Type} {Q : α → Prop} {p : FlashProg α} (hp : Uses Cmd.Inert p)
    (h : Yields exec A Q p) (w : World) : Finds A w Q p :=
  ((spec_inert hp w).and (h w)).weaken (fun _ he => he) fun _ _ he => he.1

theorem Finds.shift {α : Type} {w w' : World} {Q : α → Prop} {p : FlashProg α}
    (h : Finds A w' Q p) (hw : InertStep w w') :
    Spec exec A (fun e => InertStep w (e.after exec)) (fun a w'' => InertStep w w'' ∧ Q a) p w' := by
  have h' : Spec exec A (fun e => InertStep w (e.after exec))
      (fun a w'' => InertStep w' w'' ∧ Q a) p w' := Spec.weaken h (fun _ he => he) fun _ _ he => hw.trans he
  exact h'.mono fun a w'' ha => ⟨hw.trans ha.1, ha.2⟩

theorem Finds.then {α β : Type} {w : World} {Q : α → Prop} {Q' : β → Prop} {p : FlashProg α}
    {f : α → FlashProg β} (hp : Finds A w Q p)
    (hf : ∀ a w', InertStep w w' → Q a → Finds A w' Q' (f a)) : Finds A w Q' (p.bind f) := by
  apply Spec.bind hp
  intro a w' ha
  exact (hf a w' ha.1 ha.2).shift ha.1

theorem finds_issue {c : Cmd} {β : Type} {w : World} {Q : β → Prop} {f : c.Resp → FlashProg β}
    (hc : c.Inert) (hf : ∀ o, A ⟨c, o, w⟩ → Finds A (exec c o w).2 Q (f (exec c o w).1)) :
    Finds A w Q ((issue c).bind f) := by
  intro o ho
  have hstep := exec_inert hc o w
  exact ⟨hstep, (hf o ho).shift hstep⟩

theorem finds_ret {α : Type} {w : World} {Q : α → Prop} {a : α} (h : Q a) :
    Finds A w Q (Prog.ret a) := ⟨.refl w, h⟩

theorem World.nandRead_eq {w : World} {o : Outcome} {off len : ℕ}
    (h : (w.nandRead o off len).1 = 0 ∨ (w.nandRead o off len).1 = -euclean) :
    (w.nandRead o off len).2 = w.nand.slice off len := by
  unfold World.nandRead at h ⊢
  cases herr : o.err with
  | none => rfl
  | some e =>
    have hneg := e.neg
    rw [herr] at h
    by_cases hcode : e.code = -euclean
    · simp [hcode]
    · have hne : e.code ≠ 0 := by omega
      simp only [hcode, if_false] at h
      exact absurd h (by simp [hne])

theorem readExact_finds (off len : ℕ) (w : World) :
    Finds A w (fun r => r.1 = 0 → r.2 = w.nand.slice off len) (readExact off len) := by
  apply finds_issue (c := .nandRead off len) trivial
  intro o _
  apply finds_ret
  intro hret
  apply World.nandRead_eq (o := o)
  by_contra hno
  obtain ⟨hzero, hclean⟩ := not_or.1 hno
  have hfail : ¬ ((if (w.nandRead o off len).1 = -euclean then 0 else (w.nandRead o off len).1) = 0 ∧
      (w.nandRead o off len).2.length = len) := by
    rw [if_neg hclean]
    exact fun h => hzero h.1
  have hio : (if (if (w.nandRead o off len).1 = -euclean then 0 else (w.nandRead o off len).1) = 0 ∧
      (w.nandRead o off len).2.length = len then (0 : ℤ) else -eio) = 0 := hret
  rw [if_neg hfail] at hio
  exact absurd hio (by decide)

theorem installedBl2MatchesPin_finds (P : Platform) (w : World) :
    Finds A w (fun ret => ret = 0 → P.sha256 (w.nand.slice 0 ubiBl2Size) = P.bl2ImageSha256)
      (installedBl2MatchesPin P) := by
  apply finds_issue (c := .findMasterNand) trivial
  intro o _
  cases (exec .findMasterNand o w).1 with
  | none => exact finds_ret fun h => absurd h (by decide)
  | some g =>
    apply finds_issue (c := .malloc ubiBl2Size) trivial
    intro o' _
    apply spec_ite
    · intro _
      exact finds_ret fun h => absurd h (by decide)
    intro _
    apply (readExact_finds 0 ubiBl2Size _).then
    intro r w' _ hr
    apply spec_ite
    · intro hne
      exact finds_ret fun h => absurd h hne
    intro hret
    have hread := hr (not_not.1 hret)
    apply finds_ret
    intro hmatch
    by_contra hne
    have hbuf : P.sha256 r.2 ≠ P.bl2ImageSha256 := by
      rw [hread]
      exact hne
    rw [if_pos hbuf] at hmatch
    exact absurd hmatch (by decide)

theorem memEqual_finds (a b len : ℕ) (w : World) :
    Finds A w (fun ret => ret = 0 → w.ram.slice a len = w.ram.slice b len) (memEqual a b len) := by
  apply finds_issue (c := .readMem a len) trivial
  intro o _
  apply finds_issue (c := .readMem b len) trivial
  intro o' _
  apply finds_ret
  intro hret
  by_contra hne
  exact absurd ((if_neg hne).symm.trans hret) (by decide)

theorem fdtCheckHeaderAt_finds (addr : ℕ) (w : World) :
    Finds A w (fun ret => ret = fdtCheckHeader (w.ram.slice addr 40)) (fdtCheckHeaderAt addr) := by
  apply finds_issue (c := .readMem addr 40) trivial
  intro o _
  exact finds_ret rfl

end UrsusBoot
