import UrsusBoot.Engine.Status
import UrsusBoot.Lib.Run
import UrsusBoot.Engine.Issues

/-!
# What a stage does to its context

For each engine the stages a stage can hand over to, and what the context keeps on the way.
`runStage_handover` says all of it once; the safety results read off what they need.
-/

namespace UrsusBoot

open Prog

variable {A : FlashEvent → Prop}

/-! ## The FIP update -/

namespace FipUpdate

/-- The stages that may follow a stage which does not fail. -/
def Stage.next : Stage → List Stage
  | .precheck => [.ubiAttach, .stockBackup]
  | .stockBackup => [.stockErase]
  | .stockErase => [.stockWrite]
  | .stockWrite => [.stockVerify]
  | .stockVerify => [.complete]
  | .ubiAttach => [.ubiStagePrep]
  | .ubiStagePrep => [.ubiStageWrite]
  | .ubiStageWrite => [.ubiStageVerify]
  | .ubiStageVerify => [.ubiPromote]
  | .ubiPromote => [.ubiVerify]
  | .ubiVerify => [.complete, .ubiRollback]
  | .ubiRollback | .complete | .failed | .idle => []

/-- The stages whose first act is to note that writing has started. -/
def Stage.Opens (st : Stage) : Prop := st = .ubiStagePrep ∨ st = .stockErase

/-- `d` continues the request of `c`. -/
structure Continues (c d : Ctx) : Prop where
  addr : d.addr = c.addr
  len : d.len = c.len
  kind : d.kind = c.kind
  layout : c.stage ≠ .precheck → d.ubiLayout = c.ubiLayout
  writes : c.writeStarted = true ∨ c.stage.Opens → d.writeStarted = true

structure Handover (c : Ctx) (r : ℤ × Ctx) : Prop where
  stage : r.2.stage = .failed ∨ r.2.stage ∈ c.stage.next
  continues : Continues c r.2
  active : r.2.active = true → r.2.stage ≠ .failed ∧ r.2.stage ≠ .complete
  moves : r.2.stage = .failed ∨ r.2.stage = .complete ∨
    r.2.active = c.active ∧ r.2.announced = c.announced
  stock : r.2.stage = .stockBackup → r.2.ubiLayout = false ∧ c.kind = .ursus ∧ c.len < fipMax
  native : r.2.stage = .ubiAttach → r.2.ubiLayout = true

theorem Handover.ne_idle {c : Ctx} {r : ℤ × Ctx} (h : Handover c r) : r.2.stage ≠ .idle := by
  intro hidle
  rcases h.stage with hst | hst
  · rw [hidle] at hst
    cases hst
  · rw [hidle] at hst
    cases hc : c.stage <;> simp [hc, Stage.next] at hst

/-- The stages of the native layout after PRECHECK. -/
def Stage.Ubi : Stage → Prop
  | .ubiAttach | .ubiStagePrep | .ubiStageWrite | .ubiStageVerify => True
  | .ubiPromote | .ubiVerify | .ubiRollback => True
  | _ => False

theorem Stage.stock_of_next {st next : Stage} (h : next ∈ st.next) (hs : next.Stock)
    (hne : next ≠ .stockBackup) : st.Stock := by
  cases next with
  | stockBackup => exact absurd rfl hne
  | stockErase | stockWrite | stockVerify => cases st <;> trivial
  | _ => exact hs.elim

section Layout

variable {c : Ctx} {r : ℤ × Ctx}

theorem Handover.ne_precheck (h : Handover c r) : r.2.stage ≠ .precheck := by
  intro hpre
  rcases h.stage with hst | hst
  · rw [hpre] at hst
    cases hst
  · rw [hpre] at hst
    cases hc : c.stage <;> simp [hc, Stage.next] at hst

theorem Handover.stock_layout (h : Handover c r) (hc : c.stage.Stock → c.ubiLayout = false)
    (hr : r.2.stage.Stock) : r.2.ubiLayout = false := by
  rcases h.stage with hst | hst
  · rw [hst] at hr
    exact hr.elim
  by_cases hfirst : r.2.stage = .stockBackup
  · exact (h.stock hfirst).1
  have hstock : c.stage.Stock := Stage.stock_of_next hst hr hfirst
  have hpre : c.stage ≠ .precheck := by
    intro hpre
    rw [hpre] at hstock
    exact hstock
  rw [h.continues.layout hpre]
  exact hc hstock

theorem Handover.stock_kind (h : Handover c r) (hc : c.stage.Stock → c.kind = .ursus)
    (hr : r.2.stage.Stock) : r.2.kind = .ursus := by
  rw [h.continues.kind]
  rcases h.stage with hst | hst
  · rw [hst] at hr
    exact hr.elim
  by_cases hfirst : r.2.stage = .stockBackup
  · exact (h.stock hfirst).2.1
  · exact hc (Stage.stock_of_next hst hr hfirst)

end Layout

section Results

variable {c d : Ctx}

theorem Continues.refl (h : ¬ c.stage.Opens) : Continues c c :=
  ⟨rfl, rfl, rfl, fun _ => rfl, fun hw => hw.resolve_right h⟩

theorem Continues.failReason (h : Continues c d) (ret : ℤ) (code : String) :
    Handover c (failReason d ret code) :=
  ⟨.inl rfl, ⟨h.addr, h.len, h.kind, h.layout, h.writes⟩, (fun hact => nomatch hact),
    .inl rfl, (fun hst => nomatch hst), (fun hst => nomatch hst)⟩

theorem Continues.fail (h : Continues c d) (ret : ℤ) : Handover c (fail d ret) :=
  h.failReason ret _

/-- The stages that are reached by a plain hand-over, without a decision about the layout. -/
def Stage.Plain (st : Stage) : Prop :=
  st ≠ .failed ∧ st ≠ .complete ∧ st ≠ .stockBackup ∧ st ≠ .ubiAttach

theorem Continues.advance (h : Continues c d) {next : Stage} (hnext : next ∈ c.stage.next)
    (hplain : next.Plain) (hrun : d.active = c.active ∧ d.announced = c.announced) :
    Handover c (d.advance next) :=
  ⟨.inr hnext, ⟨h.addr, h.len, h.kind, h.layout, h.writes⟩, fun _ => ⟨hplain.1, hplain.2.1⟩,
    .inr (.inr hrun), fun hst => absurd hst hplain.2.2.1, fun hst => absurd hst hplain.2.2.2⟩

end Results

section Stages

variable (P : Platform) {c : Ctx}

theorem fipValidateKind_stock (addr len : ℕ) (kind : FipKind) :
    Yields exec A (fun ret => ret = 0 → kind = .ursus ∧ len < fipMax)
      (fipValidateKind P addr len true kind) := by
  cases kind with
  | vanilla => exact yields_ret fun h => absurd h (by decide)
  | ursus =>
    apply yields_then
    intro buf
    refine yields_exit (fun h => absurd h (by decide)) fun hlimit => ?_
    have hlen : len < fipMax := not_le.1 fun hle => hlimit ⟨rfl, hle⟩
    exact (yields_true _).mono fun _ _ _ => ⟨rfl, hlen⟩

theorem precheck_handover (h : c.stage = .precheck) : Yields exec A (Handover c) (precheck P c) := by
  have hopen : ¬ c.stage.Opens := by simp [h, Stage.Opens]
  have hc : Continues c c := .refl hopen
  have hd : ∀ isUbi, Continues c { c with ubiLayout := isUbi } := fun isUbi =>
    ⟨rfl, rfl, rfl, fun hne => absurd h hne, hc.writes⟩
  have hdone : ∀ isUbi : Bool, (isUbi = false → c.kind = .ursus ∧ c.len < fipMax) → Handover c
      ({ c with ubiLayout := isUbi }.advance (if isUbi then .ubiAttach else .stockBackup)) := by
    intro isUbi hstock
    have hd := hd isUbi
    have hcont : Continues c ({ c with ubiLayout := isUbi }.advance
        (if isUbi then .ubiAttach else .stockBackup)).2 :=
      ⟨hd.addr, hd.len, hd.kind, hd.layout, hd.writes⟩
    cases isUbi
    · exact ⟨.inr (by simp [h, Stage.next, Ctx.advance]), hcont,
        fun _ => ⟨(fun hst => nomatch hst), (fun hst => nomatch hst)⟩, .inr (.inr ⟨rfl, rfl⟩),
        fun _ => ⟨rfl, hstock rfl⟩,
        (fun hst => nomatch hst)⟩
    · exact ⟨.inr (by simp [h, Stage.next, Ctx.advance]), hcont,
        fun _ => ⟨(fun hst => nomatch hst), (fun hst => nomatch hst)⟩, .inr (.inr ⟨rfl, rfl⟩),
        (fun hst => nomatch hst), fun _ => rfl⟩
  apply yields_then
  intro r
  cases r with
  | error e => exact yields_ret (hc.failReason _ _)
  | ok isUbi =>
    have hvalidate : Yields exec A
        (fun ret => ret = 0 → isUbi = false → c.kind = .ursus ∧ c.len < fipMax)
        (fipValidateKind P c.addr c.len (!isUbi) c.kind) := by
      cases isUbi with
      | true => exact (yields_true _).mono fun _ _ _ hubi => nomatch hubi
      | false => exact (fipValidateKind_stock P c.addr c.len c.kind).mono fun _ hret hz _ => hret hz
    apply yields_bind hvalidate
    intro ret hret
    apply yields_ite
    · exact fun _ => yields_ret ((hd isUbi).failReason _ _)
    intro hzero
    have hdone := hdone isUbi (hret (not_not.1 hzero))
    apply yields_ite
    · intro _
      apply yields_then
      intro ret'
      exact yields_exit ((hd isUbi).failReason _ _) fun _ => yields_ret hdone
    · exact fun _ => yields_ret hdone

theorem stockBackup_handover (h : c.stage = .stockBackup) :
    Yields exec A (Handover c) (stockBackup P c) := by
  have hc : Continues c c := .refl (by simp [h, Stage.Opens])
  refine yields_then fun ret => yields_exit (hc.fail _) fun _ => ?_
  refine yields_then fun cand => yields_then fun rb =>
    yields_exit (hc.fail _) fun _ => ?_
  refine yields_then fun old => yields_exit (hc.fail _) fun _ => ?_
  refine yields_then fun r => ?_
  cases r with
  | error e => exact yields_ret (hc.fail _)
  | ok oldEnd =>
    refine yields_exit (hc.fail _) fun _ => yields_then fun src => ?_
    have hd : Continues c { c with stockCandidate := some (stockImage old.2 src) } :=
      ⟨rfl, rfl, rfl, fun _ => rfl, hc.writes⟩
    exact yields_ret (hd.advance (by simp [h, Stage.next]) (by simp [Stage.Plain]) ⟨rfl, rfl⟩)

theorem stockErase_handover (h : c.stage = .stockErase) :
    Yields exec A (Handover c) (stockErase c) := by
  have hd : Continues c { c with writeStarted := true, commitStarted := true } :=
    ⟨rfl, rfl, rfl, fun _ => rfl, fun _ => rfl⟩
  refine yields_then fun ret => yields_exit (hd.fail _) fun _ => ?_
  exact yields_ret (hd.advance (by simp [h, Stage.next]) (by simp [Stage.Plain]) ⟨rfl, rfl⟩)

theorem stockWrite_handover (h : c.stage = .stockWrite) :
    Yields exec A (Handover c) (stockWrite c) := by
  have hc : Continues c c := .refl (by simp [h, Stage.Opens])
  refine yields_then fun r => yields_exit (hc.fail _) fun _ => ?_
  refine yields_exit (hc.fail _) fun _ => ?_
  exact yields_ret (hc.advance (by simp [h, Stage.next]) (by simp [Stage.Plain]) ⟨rfl, rfl⟩)

theorem stockVerify_handover (h : c.stage = .stockVerify) :
    Yields exec A (Handover c) (stockVerify c) := by
  have hc : Continues c c := .refl (by simp [h, Stage.Opens])
  refine yields_then fun r => yields_exit (hc.fail _) fun _ => ?_
  refine yields_exit (hc.fail _) fun _ => yields_ret ?_
  exact ⟨.inr (by simp [h, Stage.next]), ⟨rfl, rfl, rfl, fun _ => rfl, hc.writes⟩, by simp,
      .inr (.inl rfl), by simp, by simp⟩

theorem ubiAttach_handover (h : c.stage = .ubiAttach) :
    Yields exec A (Handover c) (ubiAttach P c) := by
  have hc : Continues c c := .refl (by simp [h, Stage.Opens])
  refine yields_then fun ret => yields_exit (hc.failReason _ _) fun _ => ?_
  refine yields_then fun k => ?_
  have hd : Continues c { c with ubiFipMode := k.1, ubiFipInvalidRet := k.2 } :=
    ⟨rfl, rfl, rfl, fun _ => rfl, hc.writes⟩
  refine yields_exit ?_ fun _ => ?_
  · split_ifs
    · exact hd.failReason _ _
    · exact hd.failReason _ _
  · exact yields_ret (hd.advance (by simp [h, Stage.next]) (by simp [Stage.Plain]) ⟨rfl, rfl⟩)

theorem createFipNew_handover {d : Ctx} (h : c.stage = .ubiStagePrep) (hd : Continues c d)
    (hrun : d.active = c.active ∧ d.announced = c.announced) (avail need : ℕ) :
    Yields exec A (Handover c) (createFipNew d avail need) := by
  refine yields_exit (hd.failReason _ _) fun _ => ?_
  refine yields_then fun ret => yields_exit (hd.fail _) fun _ => ?_
  exact yields_ret (hd.advance (by simp [h, Stage.next]) (by simp [Stage.Plain]) hrun)

theorem ubiStagePrep_handover (h : c.stage = .ubiStagePrep) :
    Yields exec A (Handover c) (ubiStagePrep c) := by
  have hd : Continues c { c with writeStarted := true } :=
    ⟨rfl, rfl, rfl, fun _ => rfl, fun _ => rfl⟩
  have hm : Continues c { c with writeStarted := true, ubiFipMode := .repairMissing } :=
    ⟨rfl, rfl, rfl, fun _ => rfl, fun _ => rfl⟩
  have hreserve : Yields exec A (Handover c) (reserveFipNew { c with writeStarted := true }) := by
    refine yields_then fun room => ?_
    cases room with
    | none => exact yields_ret (hd.failReason _ _)
    | some room =>
      refine yields_ite (fun _ => ?_) fun _ => createFipNew_handover h hd ⟨rfl, rfl⟩ _ _
      refine yields_then fun ret => yields_exit (hd.failReason _ _) fun _ => ?_
      refine yields_then fun room => ?_
      cases room with
      | none => exact yields_ret (hm.failReason _ _)
      | some room => exact createFipNew_handover h hm ⟨rfl, rfl⟩ _ _
  refine yields_then fun _ => yields_ite (fun _ => ?_) fun _ => ?_
  · exact yields_then fun _ => yields_then fun _ => hreserve
  · exact yields_then fun _ => hreserve

theorem ubiStageWrite_handover (h : c.stage = .ubiStageWrite) :
    Yields exec A (Handover c) (ubiStageWrite c) := by
  have hc : Continues c c := .refl (by simp [h, Stage.Opens])
  refine yields_then fun ret => yields_exit (hc.fail _) fun _ => ?_
  exact yields_ret (hc.advance (by simp [h, Stage.next]) (by simp [Stage.Plain]) ⟨rfl, rfl⟩)

theorem ubiStageVerify_handover (h : c.stage = .ubiStageVerify) :
    Yields exec A (Handover c) (ubiStageVerify P c) := by
  have hc : Continues c c := .refl (by simp [h, Stage.Opens])
  refine yields_then fun ret => yields_exit (hc.fail _) fun _ => ?_
  refine yields_then fun ret => yields_exit (hc.fail _) fun _ => ?_
  refine yields_then fun src => yields_then fun rb =>
    yields_exit (hc.fail _) fun _ => ?_
  exact yields_ret (hc.advance (by simp [h, Stage.next]) (by simp [Stage.Plain]) ⟨rfl, rfl⟩)

theorem ubiPromote_handover (h : c.stage = .ubiPromote) :
    Yields exec A (Handover c) (ubiPromote c) := by
  have hopen : ¬ c.stage.Opens := by simp [h, Stage.Opens]
  have hd : Continues c { c with commitStarted := true } :=
    ⟨rfl, rfl, rfl, fun _ => rfl, (Continues.refl hopen).writes⟩
  have hnext : Handover c ({ c with commitStarted := true }.advance .ubiVerify) :=
    hd.advance (by simp [h, Stage.next]) (by simp [Stage.Plain]) ⟨rfl, rfl⟩
  unfold ubiPromote
  cases hm : c.ubiFipMode with
  | repairMissing =>
    refine yields_then fun ret => yields_exit ?_ fun _ => yields_ret ?_
    · exact hm ▸ hd.failReason _ _
    · exact hm ▸ hnext
  | repairInvalid =>
    refine yields_then fun ret => yields_exit ?_ fun _ => yields_ret ?_
    · exact hm ▸ hd.failReason _ _
    · exact hm ▸ hnext
  | normal =>
    refine yields_then fun ret => yields_exit ?_ fun _ => yields_ret ?_
    · exact hm ▸ hd.fail _
    · exact hm ▸ hnext

theorem ubiVerify_handover (h : c.stage = .ubiVerify) :
    Yields exec A (Handover c) (ubiVerify P c) := by
  have hc : Continues c c := .refl (by simp [h, Stage.Opens])
  have hback : Handover c (c.advance .ubiRollback) :=
    hc.advance (by simp [h, Stage.next]) (by simp [Stage.Plain]) ⟨rfl, rfl⟩
  have hdone : Handover c (1, { c with stage := .complete, active := false }) :=
    ⟨.inr (by simp [h, Stage.next]), ⟨rfl, rfl, rfl, fun _ => rfl, hc.writes⟩, by simp,
      .inr (.inl rfl), by simp, by simp⟩
  have hfailed : ∀ ret, Yields exec A (Handover c) (postcommitFailed c ret) := by
    intro ret
    refine yields_ite (fun _ => ?_) fun _ => yields_ret hback
    exact yields_then fun _ => yields_then fun _ => yields_ret (hc.failReason _ _)
  refine yields_then fun ret => yields_ite (fun _ => hfailed ret) fun _ => ?_
  refine yields_then fun ret => yields_ite (fun _ => hfailed ret) fun _ => ?_
  refine yields_ite (fun _ => ?_) fun _ => yields_ret hdone
  exact yields_then fun ret => yields_exit hback fun _ => yields_ret hdone

theorem ubiRollback_handover (h : c.stage = .ubiRollback) :
    Yields exec A (Handover c) (ubiRollback c) := by
  have hc : Continues c c := .refl (by simp [h, Stage.Opens])
  unfold ubiRollback
  cases c.ubiFipMode with
  | repairInvalid =>
    refine yields_then fun ret => yields_exit (hc.failReason _ _) fun _ => ?_
    exact yields_then fun _ => yields_ret (hc.fail _)
  | repairMissing => exact yields_ret (hc.failReason _ _)
  | normal =>
    refine yields_then fun _ => yields_then fun ret =>
      yields_exit (hc.fail _) fun _ => ?_
    exact yields_then fun _ => yields_ret (hc.fail _)

/-- **Every stage** hands over to one of the stages that may follow it, or fails. -/
theorem runStage_handover (c : Ctx) : Yields exec A (Handover c) (runStage P c) := by
  unfold runStage
  cases h : c.stage with
  | precheck => exact precheck_handover P h
  | stockBackup => exact stockBackup_handover P h
  | stockErase => exact stockErase_handover h
  | stockWrite => exact stockWrite_handover h
  | stockVerify => exact stockVerify_handover h
  | ubiAttach => exact ubiAttach_handover P h
  | ubiStagePrep => exact ubiStagePrep_handover h
  | ubiStageWrite => exact ubiStageWrite_handover h
  | ubiStageVerify => exact ubiStageVerify_handover P h
  | ubiPromote => exact ubiPromote_handover h
  | ubiVerify => exact ubiVerify_handover P h
  | ubiRollback => exact ubiRollback_handover h
  | idle => exact yields_ret ((Continues.refl (by simp [h, Stage.Opens])).fail _)
  | complete => exact yields_ret ((Continues.refl (by simp [h, Stage.Opens])).fail _)
  | failed => exact yields_ret ((Continues.refl (by simp [h, Stage.Opens])).fail _)

end Stages

end FipUpdate

/-! ## The OpenWrt UBI update -/

namespace UbiUpdate

/-- The stages that may follow a stage which does not fail. -/
def Stage.next : Stage → List Stage
  | .precheck => [.stagePrep]
  | .stagePrep => [.stageWrite]
  | .stageWrite => [.stageVerify]
  | .stageVerify => [.finalVerify, .promote]
  | .promote => [.finalVerify]
  | .finalVerify => [.complete]
  | .complete | .failed | .idle => []

/-- `d` continues the request of `c`. -/
structure Continues (c d : Ctx) : Prop where
  fitAddr : d.fitAddr = c.fitAddr
  fitLen : d.fitLen = c.fitLen
  keepSettings : d.keepSettings = c.keepSettings
  directMode : c.stage ≠ .precheck → d.directMode = c.directMode
  writes : c.writeStarted = true ∨ c.stage = .stagePrep → d.writeStarted = true

structure Handover (c : Ctx) (r : ℤ × Ctx) : Prop where
  stage : r.2.stage = .failed ∨ r.2.stage ∈ c.stage.next
  continues : Continues c r.2
  active : r.2.active = true → r.2.stage ≠ .failed ∧ r.2.stage ≠ .complete
  moves : r.2.stage = .failed ∨ r.2.stage = .complete ∨
    r.2.active = c.active ∧ r.2.announced = c.announced
  staged : r.2.stage = .finalVerify → c.stage = .stageVerify → c.directMode = true

variable {c d : Ctx}

theorem Continues.refl (h : c.stage ≠ .stagePrep) : Continues c c :=
  ⟨rfl, rfl, rfl, fun _ => rfl, fun hw => hw.resolve_right h⟩

theorem Continues.failReason (h : Continues c d) (ret : ℤ) (code : String) :
    Handover c (failReason d ret code) :=
  ⟨.inl rfl, ⟨h.fitAddr, h.fitLen, h.keepSettings, h.directMode, h.writes⟩, (fun hact => nomatch hact),
    .inl rfl, (fun hst => nomatch hst)⟩

theorem Continues.fail (h : Continues c d) (ret : ℤ) : Handover c (fail d ret) :=
  h.failReason ret _

theorem Continues.advance (h : Continues c d) {next : Stage} (hnext : next ∈ c.stage.next)
    (hplain : next ≠ .failed ∧ next ≠ .complete)
    (hrun : d.active = c.active ∧ d.announced = c.announced)
    (hstaged : next = .finalVerify → c.stage = .stageVerify → c.directMode = true) :
    Handover c (d.advance next) :=
  ⟨.inr hnext, ⟨h.fitAddr, h.fitLen, h.keepSettings, h.directMode, h.writes⟩, fun _ => hplain,
    .inr (.inr hrun), hstaged⟩

section Stages

theorem precheck_handover (h : c.stage = .precheck) : Yields exec A (Handover c) (precheck c) := by
  have hc : Continues c c := .refl (by rw [h]; decide)
  have hfail : ∀ (ret : ℤ) (code : String), Handover c (failReason c ret code) := fun ret code =>
    hc.failReason ret code
  have hgo : ∀ (b b' : Bool) (n : ℕ) (direct : Bool), Handover c
      ({ c with fitOldPresent := b, fitPresent := b', fitPebs := n, directMode := direct }.advance
        .stagePrep) := by
    intro b b' n direct
    have hd : Continues c { c with fitOldPresent := b, fitPresent := b', fitPebs := n
                                   directMode := direct } :=
      ⟨rfl, rfl, rfl, fun hne => absurd h hne, hc.writes⟩
    exact hd.advance (by simp [h, Stage.next]) (by decide) ⟨rfl, rfl⟩ (fun hst => nomatch hst)
  refine yields_then fun _ => yields_exit (hfail _ _) fun _ => ?_
  refine yields_then fun _ => yields_then fun _ =>
    yields_exit (hfail _ _) fun _ => ?_
  refine yields_then fun _ => yields_exit (hfail _ _) fun _ => ?_
  refine yields_then fun _ => yields_exit (hfail _ _) fun _ => ?_
  refine yields_then fun _ => yields_exit (hfail _ _) fun _ => ?_
  refine yields_then fun r => ?_
  cases r with
  | none => exact yields_ret (hfail _ _)
  | some dev =>
    refine yields_exit (hfail _ _) fun _ => ?_
    refine yields_then fun _ => yields_then fun _ => yields_then fun fit => ?_
    refine yields_exit (hgo _ _ _ false) fun _ => ?_
    refine yields_exit (hgo _ _ _ true) fun _ => ?_
    have hd : ∀ (b b' : Bool) (n : ℕ), Continues c
        { c with fitOldPresent := b, fitPresent := b', fitPebs := n } := fun b b' n =>
      ⟨rfl, rfl, rfl, fun _ => rfl, hc.writes⟩
    exact yields_ret ((hd _ _ _).failReason _ _)

theorem stagePrep_handover (h : c.stage = .stagePrep) : Yields exec A (Handover c) (stagePrep c) := by
  have hd : Continues c { c with writeStarted := true } :=
    ⟨rfl, rfl, rfl, fun _ => rfl, fun _ => rfl⟩
  have hcreate : Yields exec A (Handover c) (createTarget { c with writeStarted := true }) := by
    refine yields_then fun _ => yields_exit (hd.fail _) fun _ => ?_
    apply yields_ret
    exact hd.advance (by simp [h, Stage.next]) (by decide) ⟨rfl, rfl⟩ (fun hst => nomatch hst)
  refine yields_then fun _ => yields_exit (hd.fail _) fun _ => ?_
  refine yields_then fun _ => yields_exit (hd.fail _) fun _ => ?_
  refine yields_ite (fun _ => yields_then fun _ => ?_) fun _ => hcreate
  exact yields_exit (hd.fail _) fun _ => hcreate

theorem stageWrite_handover (h : c.stage = .stageWrite) :
    Yields exec A (Handover c) (stageWrite c) := by
  have hc : Continues c c := .refl (by rw [h]; decide)
  refine yields_then fun _ => yields_exit (hc.fail _) fun _ => ?_
  apply yields_ret
  exact hc.advance (by simp [h, Stage.next]) (by decide) ⟨rfl, rfl⟩ (fun hst => nomatch hst)

theorem stageVerify_handover (h : c.stage = .stageVerify) :
    Yields exec A (Handover c) (stageVerify c) := by
  have hc : Continues c c := .refl (by rw [h]; decide)
  refine yields_then fun r => ?_
  cases r with
  | some ret => exact yields_ret (hc.fail _)
  | none =>
    apply yields_ret
    cases hd : c.directMode with
    | true => exact hc.advance (by simp [h, Stage.next]) (by decide) ⟨rfl, rfl⟩ fun _ _ => hd
    | false =>
      exact hc.advance (by simp [h, Stage.next]) (by decide) ⟨rfl, rfl⟩ (fun hst => nomatch hst)

theorem promote_handover (h : c.stage = .promote) : Yields exec A (Handover c) (promote c) := by
  have hc : Continues c c := .refl (by rw [h]; decide)
  have hnew : Yields exec A (Handover c) (promoteNew c) := by
    refine yields_then fun _ => yields_exit (hc.fail _) fun _ => ?_
    apply yields_ret
    apply hc.advance (by simp [h, Stage.next]) (by decide) ⟨rfl, rfl⟩
    intro _ hst
    rw [h] at hst
    cases hst
  refine yields_then fun _ => yields_ite (fun _ => yields_then fun _ => ?_) fun _ => hnew
  exact yields_exit (hc.fail _) fun _ => hnew

theorem finalVerify_handover (h : c.stage = .finalVerify) :
    Yields exec A (Handover c) (finalVerify c) := by
  have hc : Continues c c := .refl (by rw [h]; decide)
  refine yields_then fun r => ?_
  cases r with
  | some ret => exact yields_ret (hc.fail _)
  | none =>
    refine yields_then fun _ => yields_exit (hc.fail _) fun _ => ?_
    refine yields_then fun _ => yields_exit (hc.fail _) fun _ => ?_
    apply yields_ret
    exact ⟨.inr (by simp [h, Stage.next]), ⟨rfl, rfl, rfl, fun _ => rfl, hc.writes⟩,
      (fun hact => nomatch hact), .inr (.inl rfl), (fun hst => nomatch hst)⟩

/-- **Every stage** hands over to one of the stages that may follow it, or fails. -/
theorem runStage_handover (c : Ctx) : Yields exec A (Handover c) (runStage c) := by
  unfold runStage
  cases h : c.stage with
  | precheck => exact precheck_handover h
  | stagePrep => exact stagePrep_handover h
  | stageWrite => exact stageWrite_handover h
  | stageVerify => exact stageVerify_handover h
  | promote => exact promote_handover h
  | finalVerify => exact finalVerify_handover h
  | idle | complete | failed => exact yields_ret ((Continues.refl (by rw [h]; decide)).fail _)

end Stages

end UbiUpdate

/-! ## The migration -/

namespace Migration

/-- The stage that follows a stage which does not fail. -/
def Stage.next : Stage → Option Stage
  | .precheck => some .backupBosa
  | .backupBosa => some .backupRi
  | .backupRi => some .backupFip
  | .backupFip => some .formatUbi
  | .formatUbi => some .attachUbi
  | .attachUbi => some .createVolumes
  | .createVolumes => some .writeBosa
  | .writeBosa => some .writeRi
  | .writeRi => some .writeFip
  | .writeFip => some .writeFit
  | .writeFit => some .verifyBosa
  | .verifyBosa => some .verifyRi
  | .verifyRi => some .verifyFip
  | .verifyFip => some .verifyFit
  | .verifyFit => some .commitBl2
  | .commitBl2 => some .verifyBl2
  | .verifyBl2 => some .complete
  | .complete | .failed | .idle => none

/-- `d` continues the request of `c`. -/
structure Continues (c d : Ctx) : Prop where
  fitAddr : d.fitAddr = c.fitAddr
  fitLen : d.fitLen = c.fitLen
  preloaderAddr : d.preloaderAddr = c.preloaderAddr
  preloaderLen : d.preloaderLen = c.preloaderLen
  fipLen : c.stage ≠ .backupFip → d.fipLen = c.fipLen
  writes : c.writeStarted = true ∨ c.stage = .formatUbi → d.writeStarted = true
  commits : c.commitStarted = true ∨ c.stage = .commitBl2 → d.commitStarted = true

structure Handover (c : Ctx) (r : ℤ × Ctx) : Prop where
  stage : r.2.stage = .failed ∨ c.stage.next = some r.2.stage
  continues : Continues c r.2
  active : r.2.active = true → r.2.stage ≠ .failed ∧ r.2.stage ≠ .complete
  moves : r.2.stage = .failed ∨ r.2.stage = .complete ∨
    r.2.active = c.active ∧ r.2.announced = c.announced

variable {c d : Ctx}

theorem Continues.refl (hw : c.stage ≠ .formatUbi) (hb : c.stage ≠ .commitBl2) : Continues c c :=
  ⟨rfl, rfl, rfl, rfl, fun _ => rfl, fun h => h.resolve_right hw, fun h => h.resolve_right hb⟩

theorem Continues.fail (h : Continues c d) (ret : ℤ) : Handover c (fail d ret) :=
  ⟨.inl rfl, ⟨h.fitAddr, h.fitLen, h.preloaderAddr, h.preloaderLen, h.fipLen, h.writes, h.commits⟩,
    (fun hact => nomatch hact), .inl rfl⟩

theorem Continues.advance (h : Continues c d) {next : Stage} (hnext : c.stage.next = some next)
    (hplain : next ≠ .failed ∧ next ≠ .complete)
    (hrun : d.active = c.active ∧ d.announced = c.announced) : Handover c (d.advance next) :=
  ⟨.inr hnext, ⟨h.fitAddr, h.fitLen, h.preloaderAddr, h.preloaderLen, h.fipLen, h.writes, h.commits⟩,
    fun _ => hplain, .inr (.inr hrun)⟩

section Stages

variable (P : Platform) (b : Bl2Candidate)

theorem precheck_handover (h : c.stage = .precheck) :
    Yields exec A (fun r => Handover c r.1) (precheck P b c) := by
  have hc : Continues c c := .refl (by simp [h]) (by simp [h])
  unfold precheck
  refine yields_then fun _ => yields_exit (hc.fail _) fun _ => ?_
  refine yields_then fun _ => yields_exit (hc.fail _) fun _ => ?_
  refine yields_then fun _ => yields_exit (hc.fail _) fun _ => ?_
  refine yields_exit (hc.fail _) fun _ => yields_ret ?_
  exact hc.advance (by simp [h, Stage.next]) (by decide) ⟨rfl, rfl⟩

theorem backup_handover (hd : Continues c d) (hrun : d.active = c.active ∧ d.announced = c.announced)
    (off len addr : ℕ) {next : Stage} (hnext : c.stage.next = some next)
    (hplain : next ≠ .failed ∧ next ≠ .complete) :
    Yields exec A (Handover c) (backup d off len addr next) := by
  refine yields_then fun _ => yields_then fun _ => ?_
  exact yields_exit (hd.fail _) fun _ =>
    yields_ret (hd.advance hnext hplain hrun)

theorem backupFip_handover (h : c.stage = .backupFip) :
    Yields exec A (Handover c) (backupFip c) := by
  have hc : Continues c c := .refl (by simp [h]) (by simp [h])
  refine yields_then fun r => ?_
  cases r with
  | error e => exact yields_ret (hc.fail _)
  | ok fipLen =>
    have hd : Continues c { c with fipLen } :=
      ⟨rfl, rfl, rfl, rfl, fun hne => absurd h hne, hc.writes, hc.commits⟩
    refine yields_exit (hd.fail _) fun _ => ?_
    exact backup_handover hd ⟨rfl, rfl⟩ _ _ _ (by simp [h, Stage.next]) (by decide)

theorem formatUbi_handover (h : c.stage = .formatUbi) :
    Yields exec A (Handover c) (formatUbi c) := by
  have hd : Continues c { c with writeStarted := true } :=
    ⟨rfl, rfl, rfl, rfl, fun _ => rfl, fun _ => rfl, fun hc => hc.resolve_right (by simp [h])⟩
  refine yields_then fun _ => yields_then fun _ =>
    yields_exit (hd.fail _) fun _ => ?_
  exact yields_ret (hd.advance (by simp [h, Stage.next]) (by decide) ⟨rfl, rfl⟩)

theorem attachUbi_handover (h : c.stage = .attachUbi) :
    Yields exec A (Handover c) (attachUbi c) := by
  have hc : Continues c c := .refl (by simp [h]) (by simp [h])
  refine yields_then fun _ => yields_exit (hc.fail _) fun _ => ?_
  exact yields_ret (hc.advance (by simp [h, Stage.next]) (by decide) ⟨rfl, rfl⟩)

theorem createVolumes_handover (h : c.stage = .createVolumes) :
    Yields exec A (Handover c) (createVolumes c) := by
  have hc : Continues c c := .refl (by simp [h]) (by simp [h])
  refine yields_then fun _ => yields_exit (hc.fail _) fun _ => ?_
  refine yields_then fun _ => yields_exit (hc.fail _) fun _ => ?_
  refine yields_then fun _ => yields_exit (hc.fail _) fun _ => ?_
  refine yields_then fun _ => yields_exit (hc.fail _) fun _ => ?_
  exact yields_ret (hc.advance (by simp [h, Stage.next]) (by decide) ⟨rfl, rfl⟩)

theorem writeVolume_handover (hc : Continues c c) (addr : ℕ) (name : String) (len : ℕ) {next : Stage}
    (hnext : c.stage.next = some next) (hplain : next ≠ .failed ∧ next ≠ .complete) :
    Yields exec A (Handover c) (writeVolume c addr name len next) := by
  refine yields_then fun _ => yields_exit (hc.fail _) fun _ => ?_
  exact yields_ret (hc.advance hnext hplain ⟨rfl, rfl⟩)

theorem verifyVolume_handover (hc : Continues c c) (addr : ℕ) (name : String) (len : ℕ)
    {next : Stage} (hnext : c.stage.next = some next) (hplain : next ≠ .failed ∧ next ≠ .complete) :
    Yields exec A (Handover c) (verifyVolume c addr name len next) := by
  refine yields_then fun _ => yields_exit (hc.fail _) fun _ => ?_
  exact yields_ret (hc.advance hnext hplain ⟨rfl, rfl⟩)

theorem verifyFit_handover (h : c.stage = .verifyFit) :
    Yields exec A (Handover c) (verifyFit c) := by
  have hc : Continues c c := .refl (by simp [h]) (by simp [h])
  refine yields_then fun _ => yields_exit (hc.fail _) fun _ => ?_
  refine yields_then fun _ => yields_exit (hc.fail _) fun _ => ?_
  refine yields_then fun r => ?_
  cases r with
  | error e => exact yields_ret (hc.fail _)
  | ok bytes =>
    refine yields_then fun _ => yields_then fun _ =>
      yields_exit (hc.fail _) fun _ => ?_
    exact yields_ret (hc.advance (by simp [h, Stage.next]) (by decide) ⟨rfl, rfl⟩)

theorem commitBl2_handover (h : c.stage = .commitBl2) :
    Yields exec A (Handover c) (commitBl2 b c) := by
  have hd : Continues c { c with commitStarted := true } :=
    ⟨rfl, rfl, rfl, rfl, fun _ => rfl, fun hw => hw.resolve_right (by simp [h]), fun _ => rfl⟩
  refine yields_then fun _ => yields_then fun _ =>
    yields_exit (hd.fail _) fun _ => ?_
  refine yields_then fun _ => yields_exit (hd.fail _) fun _ => ?_
  exact yields_ret (hd.advance (by simp [h, Stage.next]) (by decide) ⟨rfl, rfl⟩)

theorem verifyBl2_handover (h : c.stage = .verifyBl2) :
    Yields exec A (Handover c) (verifyBl2 b c) := by
  have hc : Continues c c := .refl (by simp [h]) (by simp [h])
  refine yields_then fun _ => yields_exit (hc.fail _) fun _ => ?_
  refine yields_then fun _ => yields_exit (hc.fail _) fun _ => yields_ret ?_
  exact ⟨.inr (by simp [h, Stage.next]),
    ⟨rfl, rfl, rfl, rfl, fun _ => rfl, hc.writes, hc.commits⟩, (fun hact => nomatch hact),
    .inr (.inl rfl)⟩

/-- **Every stage** but PRECHECK hands over to the one that follows it, or fails. -/
theorem runStage_handover (c : Ctx) : Yields exec A (Handover c) (runStage b c) := by
  have hc : c.stage ≠ .formatUbi → c.stage ≠ .commitBl2 → Continues c c := Continues.refl
  unfold runStage
  cases h : c.stage with
  | backupBosa | backupRi =>
    exact backup_handover (hc (by simp [h]) (by simp [h])) ⟨rfl, rfl⟩ _ _ _ (by simp [h, Stage.next])
      (by decide)
  | backupFip => exact backupFip_handover h
  | formatUbi => exact formatUbi_handover h
  | attachUbi => exact attachUbi_handover h
  | createVolumes => exact createVolumes_handover h
  | writeBosa | writeRi | writeFip | writeFit =>
    exact writeVolume_handover (hc (by simp [h]) (by simp [h])) _ _ _ (by simp [h, Stage.next])
      (by decide)
  | verifyBosa | verifyRi | verifyFip =>
    exact verifyVolume_handover (hc (by simp [h]) (by simp [h])) _ _ _ (by simp [h, Stage.next])
      (by decide)
  | verifyFit => exact verifyFit_handover h
  | commitBl2 => exact commitBl2_handover b h
  | verifyBl2 => exact verifyBl2_handover b h
  | precheck | idle | complete | failed =>
    exact yields_ret ((hc (by simp [h]) (by simp [h])).fail _)

end Stages

end Migration

end UrsusBoot
