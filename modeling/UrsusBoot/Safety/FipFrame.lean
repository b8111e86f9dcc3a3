import UrsusBoot.Engine.Handover
import UrsusBoot.Safety.FipTransaction

/-!
# The frame of a FIP update

What an update leaves alone, after every single command. In the native layout it keeps to the
volumes of the transaction; the environment is blanked only for a Vanilla FIP, and only once the
promoted `fip` has been read back and accepted. In the stock layout it keeps to the bootloader's
span, and a completed update has replaced the FIP in it and nothing else.
-/

namespace UrsusBoot

open Prog

namespace FipUpdate

def fipNames : List String := ["fip", "fip.new", "fip.old", "fip.bad"]

/-! ## Commands -/

theorem Routine.spares {c : Cmd} {n : String} (h : Routine c) (hn : n ∉ fipNames) : c.Spares n := by
  have hne : ∀ m ∈ fipNames, m ≠ n := fun m hm heq => hn (heq ▸ hm)
  cases c with
  | ubiCreate m size st id =>
    obtain rfl : m = "fip.new" := h
    exact hne _ (by decide)
  | ubiRemove m => exact hne m (List.mem_cons_of_mem _ h)
  | ubiRename a b =>
    rcases h with ⟨rfl, rfl⟩ | ⟨rfl, rfl⟩
    · exact ⟨hne _ (by decide), hne _ (by decide)⟩
    · exact ⟨hne _ (by decide), hne _ (by decide)⟩
  | ubiWrite addr m size =>
    obtain rfl : m = "fip.new" := h
    exact hne _ (by decide)
  | envSave | ubiRenameVolumes | mtdErase | mtdWrite | nandErase | nandWrite => exact h.elim
  | factoryUbiErase | factoryKernelErase | factoryKernelWrite => exact h.elim
  | _ => trivial

theorem Routine.sparesBl2 {c : Cmd} (h : Routine c) : c.SparesBl2 := by
  cases c <;> trivial

theorem Routine.within {c : Cmd} (h : Routine c) (o : Outcome) (w : World) :
    Within fipNames w (exec c o w).2 :=
  exec_within (fun _ hn => h.spares hn) h.sparesBl2 o w

theorem Drops.within {c : Cmd} (h : Drops c) (o : Outcome) (w : World) :
    Within fipNames w (exec c o w).2 := by
  have hspares : ∀ n, n ∉ fipNames → Cmd.Spares n (.ubiRemove "fip") := by
    rintro n hn rfl
    exact hn (by decide)
  rw [h]
  exact exec_within hspares trivial o w

theorem Blanks.within {c : Cmd} (h : Blanks c) (o : Outcome) (w : World) :
    Within (fipNames ++ envNames) w (exec c o w).2 := by
  obtain ⟨addr, size, m, hm, rfl⟩ := h
  have hspares : ∀ n, n ∉ fipNames ++ envNames → Cmd.Spares n (.ubiWrite addr m size) := by
    rintro n hn rfl
    exact hn (List.mem_append_right _ hm)
  exact exec_within hspares trivial o w

theorem Exchange.within {current candidate backup : String} {e : FlashEvent}
    (hs : (current, candidate, backup) ∈ switches) (h : Exchange current candidate backup e) :
    Within fipNames e.before (e.after exec) := by
  have hin : ∀ s ∈ switches, s.1 ∈ fipNames ∧ s.2.1 ∈ fipNames ∧ s.2.2 ∈ fipNames := by decide
  obtain ⟨hcur, hcand, hback⟩ := hin _ hs
  constructor
  · intro x hx
    obtain ⟨p, i, j, -, -, -, hcmd⟩ := h
    obtain ⟨cmd, o, w⟩ := e
    obtain rfl : cmd = _ := hcmd
    exact exec_bl2 (c := .ubiRenameVolumes [(i, backup), (j, current)]) trivial o w hx
  · intro n hn a
    have hne : ∀ m ∈ fipNames, m ≠ n := fun m hm heq => hn (heq ▸ hm)
    exact h.agree (hne _ hcur) (hne _ hcand) (hne _ hback) a

/-! ## The native layout -/

section Native

variable (P : Platform) (s₀ : Attempt)

/-- `fip` has been read back, and what was read is an acceptable FIP. -/
def FipVerified (c₀ : Ctx) (tr : List FlashEvent) : Prop :=
  ∃ e ∈ tr, e.cmd = .ubiRead ubiReadbackAddr "fip" c₀.len ∧
    (exec (.ubiRead ubiReadbackAddr "fip" c₀.len) e.out e.before).1 = 0 ∧
    fipAccepts P c₀.kind ((e.after exec).ram.slice ubiReadbackAddr c₀.len) = true

/-- What an update of the native layout has changed, given the record. -/
structure NativeFrame (tr : List FlashEvent) (w : World) : Prop where
  volumes : Within (fipNames ++ envNames) s₀.world w
  env : ¬ (s₀.ctx.kind = .vanilla ∧ FipVerified P s₀.ctx tr) → Within fipNames s₀.world w

variable {P s₀} {c : Ctx} {w w' : World} {tr tr' : List FlashEvent}

theorem FipVerified.mono {c₀ : Ctx} (h : FipVerified P c₀ tr) (htr : tr <+: tr') :
    FipVerified P c₀ tr' := by
  obtain ⟨e, he, hv⟩ := h
  exact ⟨e, htr.subset he, hv⟩

theorem nativeFrame_refl : NativeFrame P s₀ tr s₀.world := ⟨.refl _ _, fun _ => .refl _ _⟩

theorem NativeFrame.step (h : NativeFrame P s₀ tr w) (hw : Within fipNames w w')
    (htr : tr <+: tr') : NativeFrame P s₀ tr' w' := by
  constructor
  · exact h.volumes.trans (hw.mono fun n hn => List.mem_append_left _ hn)
  · intro hno
    exact (h.env fun hv => hno ⟨hv.1, hv.2.mono htr⟩).trans hw

theorem NativeFrame.blank (h : NativeFrame P s₀ tr w) (hw : Within (fipNames ++ envNames) w w')
    (htr : tr <+: tr') (hkind : s₀.ctx.kind = .vanilla) (hv : FipVerified P s₀.ctx tr) :
    NativeFrame P s₀ tr' w' :=
  ⟨h.volumes.trans hw, fun hno => absurd ⟨hkind, hv.mono htr⟩ hno⟩

theorem NativeFrame.congr (h : NativeFrame P s₀ tr w) (hnand : w'.nand = w.nand)
    (hubi : w'.ubi = w.ubi) : NativeFrame P s₀ tr w' :=
  ⟨h.volumes.congr hnand hubi, fun hno => (h.env hno).congr hnand hubi⟩

theorem nativeFrame_emits {α : Type} {p : FlashProg α}
    (hp : Emits exec (fun e => Within fipNames e.before (e.after exec)) p)
    (h : NativeFrame P s₀ tr w) :
    Records exec (fun tr e => NativeFrame P s₀ tr (e.after exec))
      (fun _ w' tr' => NativeFrame P s₀ tr' w') p w tr :=
  Records.of_emits (fun e tr he h => ⟨h.step he (List.prefix_refl tr), h.step he (List.prefix_append tr [e])⟩) hp h

theorem emits_routine {α : Type} {p : FlashProg α} (hp : Uses Routine p) :
    Emits exec (fun e => Within fipNames e.before (e.after exec)) p :=
  .of_uses (fun _ o w hc => Routine.within hc o w) hp

theorem ubiVerify_frame (hc : SameRequest s₀.ctx c) (h : NativeFrame P s₀ tr w) :
    Records exec (fun tr e => NativeFrame P s₀ tr (e.after exec))
      (fun _ w' tr' => NativeFrame P s₀ tr' w') (ubiVerify P c) w tr := by
  obtain ⟨-, hlen, hkind⟩ := hc
  have hfailed : ∀ ret {w : World} {tr : List FlashEvent}, NativeFrame P s₀ tr w →
      Records exec (fun tr e => NativeFrame P s₀ tr (e.after exec))
        (fun _ w' tr' => NativeFrame P s₀ tr' w') (postcommitFailed c ret) w tr := fun ret _ _ h =>
    nativeFrame_emits (emits_routine (routine_postcommitFailed c ret)) h
  unfold ubiVerify
  rw [hlen, hkind]
  apply records_next (Cmd.ubiRead ubiReadbackAddr "fip" s₀.ctx.len)
  intro o
  set e₁ : FlashEvent := ⟨.ubiRead ubiReadbackAddr "fip" s₀.ctx.len, o, w⟩ with he₁
  have hread : Within fipNames w (e₁.after exec) :=
    Routine.within (c := .ubiRead ubiReadbackAddr "fip" s₀.ctx.len) rfl o w
  refine ⟨h.step hread (List.prefix_refl tr), ?_⟩
  have h₁ : NativeFrame P s₀ (tr ++ [e₁]) (e₁.after exec) := h.step hread (List.prefix_append _ _)
  apply records_ite
  · intro _
    exact hfailed _ h₁
  intro hret
  have hinert : Uses Cmd.Inert (fipValidateKind P ubiReadbackAddr s₀.ctx.len false s₀.ctx.kind) :=
    uses_fipValidateKind (fun c hc => hc) P _ _ _ _
  have hvalidate := (spec_inert (A := fun _ => True) hinert (e₁.after exec)).and
    (fipValidateKind_accepts P ubiReadbackAddr s₀.ctx.len false s₀.ctx.kind (e₁.after exec))
  refine (Records.of_spec hvalidate fun e tr' htr' he => ?_).bind fun ret₂ w₂ tr₂ hr => ?_
  · have h₂ := h₁.congr he.1.nand he.1.ubi
    exact h₂.step (.refl _ _) htr'
  obtain ⟨⟨hstep, haccepts⟩, htr₂⟩ := hr
  have h₂ : NativeFrame P s₀ tr₂ w₂ := (h₁.congr hstep.nand hstep.ubi).step (.refl _ _) htr₂
  apply records_ite
  · intro _
    exact hfailed _ h₂
  intro hret₂
  apply records_ite
  · intro hvanilla
    -- from here on the record shows that `fip` has been verified
    have hverified : FipVerified P s₀.ctx tr₂ :=
      ⟨e₁, htr₂.subset (by simp), rfl, not_not.1 hret, haccepts (not_not.1 hret₂)⟩
    have hreset : Records exec (fun tr e => NativeFrame P s₀ tr (e.after exec))
        (fun _ w' tr' => NativeFrame P s₀ tr' w' ∧ FipVerified P s₀.ctx tr') vanillaResetEnv w₂
        tr₂ := by
      refine Records.of_uses (I := fun w' tr' => NativeFrame P s₀ tr' w' ∧ FipVerified P s₀.ctx tr')
        (fun c o w' tr' hc h' => ?_) uses_vanillaResetEnv_blanks ⟨h₂, hverified⟩
      have hwithin : Within (fipNames ++ envNames) w' (exec c o w').2 := by
        rcases hc with hc | hc
        · exact (Routine.within hc o w').mono fun n hn => List.mem_append_left _ hn
        · exact Blanks.within hc o w'
      have hgrow : tr' <+: tr' ++ [⟨c, o, w'⟩] := List.prefix_append _ _
      exact ⟨h'.1.blank hwithin (List.prefix_refl _) hvanilla h'.2,
        h'.1.blank hwithin hgrow hvanilla h'.2, h'.2.mono hgrow⟩
    refine hreset.bind fun ret₃ w₃ tr₃ h₃ => ?_
    exact records_ite (fun _ => h₃.1) fun _ => h₃.1
  · intro _
    exact h₂

/-- **Every native stage** keeps to the frame after each of its commands. -/
theorem runStage_frame (hc : SameRequest s₀.ctx c) (hstock : ¬ c.stage.Stock)
    (h : NativeFrame P s₀ tr w) :
    Records exec (fun tr e => NativeFrame P s₀ tr (e.after exec))
      (fun _ w' tr' => NativeFrame P s₀ tr' w') (runStage P c) w tr := by
  by_cases hverify : c.stage = .ubiVerify
  · simp only [runStage, hverify]
    exact ubiVerify_frame hc h
  · refine nativeFrame_emits (emits_native P hstock (fun c o w hc => hc.within o w)
      (fun _ c o w hc => hc.within o w) (fun hv => absurd hv hverify) fun _ _ _ e hs he => ?_) h
    exact he.within hs

/-- The attempt has kept to the frame so far, at present and after every command on record. -/
structure NativeRun (P : Platform) (s₀ s : Attempt) : Prop where
  now : NativeFrame P s₀ s.trace s.world
  record : Recorded (fun tr e => NativeFrame P s₀ tr (e.after exec)) s.trace

theorem Attempt.stage_handover (P : Platform) (s : Attempt) (outs : ℕ → Outcome) :
    Handover s.ctx (run exec (runStage P s.ctx) outs s.world).val :=
  (runStage_handover (A := fun _ => True) P s.ctx).run_of outs s.world fun _ _ => trivial

theorem Attempt.stage_next (P : Platform) (s : Attempt) (outs : ℕ → Outcome) :
    (s.stage P outs).ctx.stage = .failed ∨
      (s.stage P outs).ctx.stage ∈ s.ctx.stage.next := (s.stage_handover P outs).stage

structure Framed (P : Platform) (s₀ s : Attempt) : Prop where
  request : SameRequest s₀.ctx s.ctx
  stock : s.ctx.stage.Stock → s.ctx.ubiLayout = false
  native : s.ctx.ubiLayout = true ∨ s.ctx.stage = .precheck → NativeRun P s₀ s

variable {s : Attempt}

theorem NativeRun.waited (h : NativeRun P s₀ s) {m : Mem UInt8} {es : List FlashEvent}
    (hes : ∀ e ∈ es, Tick { s.world with ram := m } e) (b : Bool) (n t : ℕ) :
    NativeRun P s₀ (s.waited m b n t es) := by
  constructor
  · have hnow : NativeFrame P s₀ s.trace { s.world with ram := m, clock := t } := h.now.congr rfl rfl
    exact hnow.step (.refl _ _) (List.prefix_append _ _)
  · apply recorded_append h.record
    intro e he tr' htr'
    obtain ⟨t', ht'⟩ := (hes e he).after
    rw [ht']
    have hnow : NativeFrame P s₀ s.trace { s.world with ram := m, clock := t' } := h.now.congr rfl rfl
    exact hnow.step (.refl _ _) htr'

theorem Framed.waited (h : Framed P s₀ s) {m : Mem UInt8} {es : List FlashEvent}
    (hes : ∀ e ∈ es, Tick { s.world with ram := m } e) (b : Bool) (n t : ℕ) :
    Framed P s₀ (s.waited m b n t es) :=
  ⟨h.request, h.stock, fun hnative => (h.native hnative).waited hes b n t⟩

theorem Framed.stage (h : Framed P s₀ s) (outs : ℕ → Outcome) : Framed P s₀ (s.stage P outs) := by
  have hover := s.stage_handover P outs
  have hcont := hover.continues
  refine ⟨?_, hover.stock_layout h.stock, ?_⟩
  · obtain ⟨haddr, hlen, hkind⟩ := h.request
    exact ⟨hcont.addr.trans haddr, hcont.len.trans hlen, hcont.kind.trans hkind⟩
  · intro hafter
    have hlayout := hafter.resolve_right hover.ne_precheck
    -- a stage other than PRECHECK keeps the layout, so the attempt was a native one before
    have hbefore : s.ctx.ubiLayout = true ∨ s.ctx.stage = .precheck := by
      by_cases hpre : s.ctx.stage = .precheck
      · exact .inr hpre
      · exact .inl ((hcont.layout hpre).symm.trans hlayout)
    have hstock : ¬ s.ctx.stage.Stock := by
      intro hst
      rcases hbefore with hubi | hpre
      · rw [h.stock hst] at hubi
        cases hubi
      · rw [hpre] at hst
        exact hst
    have hrun := h.native hbefore
    obtain ⟨hrecord, hnow⟩ := (runStage_frame h.request hstock hrun.now).run_of outs hrun.record
    exact ⟨hnow, hrecord⟩

/-- **Every attempt** keeps to the frame of the native layout while it is in it. -/
theorem framed_run (hbegin : s₀.Begins P) (is : List Call) :
    Framed P s₀ (runFrom (Attempt.call P) s₀ is) := by
  refine history_run (J := fun _ => Framed P s₀) ?_ (fun is i h => ?_) is
  · have hstage := hbegin.started.stage
    refine ⟨⟨rfl, rfl, rfl⟩, ?_, fun _ => ⟨nativeFrame_refl, ?_⟩⟩
    · intro hst
      rw [hstage] at hst
      exact hst.elim
    · obtain ⟨-, -, -, -, -, -, -, -, htrace⟩ := hbegin
      rw [htrace]
      exact recorded_nil _
  · exact Attempt.call_keeps i (fun b n t es hes => h.waited hes b n t) fun s' hs' _ _ outs =>
      hs'.stage outs

end Native

end FipUpdate

end UrsusBoot
