import UrsusBoot.Safety.FipProgress
import UrsusBoot.Safety.Switch

/-!
# Repairs preserve the fallback

An update that found the active `fip` missing or invalid never touches the volumes named `fip.old`,
and an intact foreign `fip` is only ever renamed. `foreign` says that the second half is asked for:
the recorded rejection is then `-ENODEV`, which keeps the stages from dropping `fip` for headroom.
-/

namespace UrsusBoot

open Prog

namespace FipUpdate

/-- The volume in slot `i₀` is still there as `fip` or `fip.bad`. -/
def KeptAside (i₀ : Fin vtblSlots) (v₀ : Volume) (t : VolumeTable) : Prop :=
  t i₀ = some ("fip", v₀) ∨ t i₀ = some ("fip.bad", v₀)

section Tables

variable (foreign : Prop) (t₀ : VolumeTable) (i₀ : Fin vtblSlots) (v₀ : Volume)

/-- What holds after every command of a repair that started with `t₀`. -/
structure Fallback (t : VolumeTable) : Prop where
  old : Slots.Agree "fip.old" t₀ t
  aside : foreign → KeptAside i₀ v₀ t

/-- Before the promotion `fip` has not been touched. -/
structure Untouched (t : VolumeTable) : Prop where
  old : Slots.Agree "fip.old" t₀ t
  fip : foreign → Slots.Agree "fip" t₀ t

/-- After the promotion `fip` has become `fip.bad`. -/
structure Quarantined (t : VolumeTable) : Prop where
  old : Slots.Agree "fip.old" t₀ t
  bad : foreign → t i₀ = some ("fip.bad", v₀)

variable {foreign t₀ i₀ v₀} {t t' : VolumeTable}

theorem Untouched.refl : Untouched foreign t₀ t₀ := ⟨.refl _ _, fun _ => .refl _ _⟩

theorem Untouched.fallback (h₀ : foreign → t₀.lookup "fip" = some (i₀, v₀))
    (h : Untouched foreign t₀ t) : Fallback foreign t₀ i₀ v₀ t :=
  ⟨h.old, fun hf => .inl ((h.fip hf i₀ v₀).1 (Slots.lookup_eq_some.1 (h₀ hf)).2)⟩

theorem Quarantined.fallback (h : Quarantined foreign t₀ i₀ v₀ t) : Fallback foreign t₀ i₀ v₀ t :=
  ⟨h.old, fun hf => .inr (h.bad hf)⟩

theorem Untouched.promote (h₀ : foreign → t₀.lookup "fip" = some (i₀, v₀))
    (h : Untouched foreign t₀ t) (hs : SwitchedTo "fip" "fip.new" "fip.bad" t t') :
    Quarantined foreign t₀ i₀ v₀ t' := by
  refine ⟨h.old.trans (hs.agree (by decide) (by decide) (by decide)), fun hf => ?_⟩
  obtain ⟨i, j, hi, hj, rfl⟩ := hs
  obtain ⟨hfind, hslot⟩ := Slots.lookup_eq_some.1 ((h.fip hf).lookup_eq_some (h₀ hf))
  obtain rfl : i = i₀ := Option.some.inj (hi.symm.trans hfind)
  have hne : i ≠ j := by
    rintro rfl
    exact absurd ((Slots.named_of_find? hi).eq (Slots.named_of_find? hj)) (by decide)
  rw [Slots.switch_left hne, hslot, Option.map_some]

theorem Quarantined.rollback (h : Quarantined foreign t₀ i₀ v₀ t)
    (hs : SwitchedTo "fip" "fip.bad" "fip.new" t t') : Fallback foreign t₀ i₀ v₀ t' := by
  refine ⟨h.old.trans (hs.agree (by decide) (by decide) (by decide)), fun hf => ?_⟩
  obtain ⟨i, j, hi, hj, rfl⟩ := hs
  have hbad := h.bad hf
  have hne : i₀ ≠ i := by
    rintro rfl
    exact absurd ((Slots.named_of_find? hi).eq (Slots.named_of_eq hbad)) (by decide)
  by_cases hj' : i₀ = j
  · subst hj'
    exact .inl (by rw [Slots.switch_right hne.symm, hbad, Option.map_some])
  · exact .inr (by rw [Slots.switch_of_ne hne hj', hbad])

end Tables

/-! ## Frames -/

section Frames

variable {foreign : Prop} {t₀ : VolumeTable} {i₀ : Fin vtblSlots} {v₀ : Volume} {α : Type}
  {p : FlashProg α} {w : World} {ns : List String}

theorem untouched_edits (hp : Uses (Cmd.Edits ns) p) (hold : "fip.old" ∉ ns)
    (hfip : foreign → "fip" ∉ ns) (h : Untouched foreign t₀ (w.vols .native)) (hw : w.Native) :
    Spec exec (fun _ => True) (fun e => Untouched foreign t₀ ((e.after exec).vols .native))
      (fun _ w' => Untouched foreign t₀ (w'.vols .native) ∧ w'.Native) p w := by
  refine Spec.of_uses (I := fun w' : World => Untouched foreign t₀ (w'.vols .native) ∧ w'.Native)
    (fun c o w' hc _ hw => ?_) hp ⟨h, hw⟩
  have hstep : Untouched foreign t₀ ((exec c o w').2.vols .native) :=
    ⟨hw.1.old.trans (exec_agree o w' .native (hc.spares hold)),
      fun hf => (hw.1.fip hf).trans (exec_agree o w' .native (hc.spares (hfip hf)))⟩
  exact ⟨hstep, hstep, hw.2.of_attached (exec_edits hc o w').1⟩

theorem quarantined_edits (hp : Uses (Cmd.Edits ns) p) (hold : "fip.old" ∉ ns)
    (hbad : foreign → "fip.bad" ∉ ns) (h : Quarantined foreign t₀ i₀ v₀ (w.vols .native))
    (hw : w.Native) :
    Spec exec (fun _ => True) (fun e => Quarantined foreign t₀ i₀ v₀ ((e.after exec).vols .native))
      (fun _ w' => Quarantined foreign t₀ i₀ v₀ (w'.vols .native) ∧ w'.Native) p w := by
  refine Spec.of_uses
    (I := fun w' : World => Quarantined foreign t₀ i₀ v₀ (w'.vols .native) ∧ w'.Native)
    (fun c o w' hc _ hw => ?_) hp ⟨h, hw⟩
  have hstep : Quarantined foreign t₀ i₀ v₀ ((exec c o w').2.vols .native) :=
    ⟨hw.1.old.trans (exec_agree o w' .native (hc.spares hold)),
      fun hf => (exec_agree o w' .native (hc.spares (hbad hf)) i₀ v₀).1 (hw.1.bad hf)⟩
  exact ⟨hstep, hstep, hw.2.of_attached (exec_edits hc o w').1⟩

end Frames

/-! ## Stages -/

section Stages

variable (foreign : Prop) (t₀ : VolumeTable) (i₀ : Fin vtblSlots) (v₀ : Volume)

/-- The active `fip` has not been classified yet. -/
def Unclassified (c : Ctx) : Prop := c.stage = .precheck ∨ c.stage = .ubiAttach

/-- An update of the native layout whose active `fip`, once classified, is missing or invalid. -/
def Repairing (c : Ctx) : Prop :=
  c.ubiLayout = true ∧ (Unclassified c ∨ c.ubiFipMode ≠ .normal)

/-- The active `fip`, once classified, was rejected as an intact foreign FIP. -/
def ForeignFip (c : Ctx) : Prop := Unclassified c ∨ c.ubiFipInvalidRet = -enodev

def RepairPhase (w : World) : Stage → Prop
  | .precheck | .ubiAttach => w.vols .native = t₀
  | .ubiStagePrep | .ubiStageWrite | .ubiStageVerify | .ubiPromote =>
    Untouched foreign t₀ (w.vols .native) ∧ w.Native
  | .ubiVerify | .ubiRollback => Quarantined foreign t₀ i₀ v₀ (w.vols .native) ∧ w.Native
  | .complete | .failed | .idle => Fallback foreign t₀ i₀ v₀ (w.vols .native)
  | .stockBackup | .stockErase | .stockWrite | .stockVerify => False

/-- A foreign `fip` is always treated as an invalid one. -/
def ForeignIsInvalid (c : Ctx) : Prop :=
  c.ubiFipInvalidRet = -enodev → c.ubiFipMode = .repairInvalid

def Mending (c : Ctx) (w : World) : Prop :=
  ForeignIsInvalid c ∧ (Repairing c → (foreign → ForeignFip c) →
    RepairPhase foreign t₀ i₀ v₀ w c.stage)

/-- A stage that keeps the fallback after every command and ends in the invariant. -/
abbrev Mends (p : FlashProg (ℤ × Ctx)) (w : World) : Prop :=
  Spec exec (fun _ => True) (fun e => Fallback foreign t₀ i₀ v₀ ((e.after exec).vols .native))
    (fun r w' => Mending foreign t₀ i₀ v₀ r.2 w') p w

variable {foreign t₀ i₀ v₀} {P : Platform} {c : Ctx} {w : World}

theorem mending_failReason {ret : ℤ} {code : String} (hc : ForeignIsInvalid c)
    (h : Fallback foreign t₀ i₀ v₀ (w.vols .native)) :
    Mending foreign t₀ i₀ v₀ (failReason c ret code).2 w := ⟨hc, fun _ _ => h⟩

theorem mending_advance {next : Stage} (hc : ForeignIsInvalid c)
    (h : RepairPhase foreign t₀ i₀ v₀ w next) :
    Mending foreign t₀ i₀ v₀ (c.advance next).2 w := ⟨hc, fun _ _ => h⟩

variable (h₀ : foreign → t₀.lookup "fip" = some (i₀, v₀))
include h₀

theorem precheck_mends (hc : ForeignIsInvalid c) (h : w.vols .native = t₀) :
    Mends foreign t₀ i₀ v₀ (precheck P c) w := by
  have hsame : ∀ {t : VolumeTable}, t = t₀ → Fallback foreign t₀ i₀ v₀ t := by
    rintro t rfl
    exact Untouched.refl.fallback h₀
  have hctx : Gives (fun r => ForeignIsInvalid r.2 ∧
      (r.2.stage = .failed ∨ r.2.stage = .ubiAttach ∨ r.2.ubiLayout = false)) (precheck P c) := by
    refine yields_then fun r => ?_
    cases r with
    | error e => exact yields_ret ⟨hc, .inl rfl⟩
    | ok isUbi =>
      have hdone : (({ c with ubiLayout := isUbi }.advance
            (if isUbi then .ubiAttach else .stockBackup)).2.stage = .failed ∨
          ({ c with ubiLayout := isUbi }.advance
            (if isUbi then .ubiAttach else .stockBackup)).2.stage = .ubiAttach ∨
          ({ c with ubiLayout := isUbi }.advance
            (if isUbi then .ubiAttach else .stockBackup)).2.ubiLayout = false) := by
        cases isUbi
        · exact .inr (.inr rfl)
        · exact .inr (.inl rfl)
      refine yields_then fun ret => yields_exit ⟨hc, .inl rfl⟩ fun _ => ?_
      refine yields_ite (fun _ => yields_then fun ret => ?_) fun _ => yields_ret ⟨hc, hdone⟩
      exact yields_exit ⟨hc, .inl rfl⟩ fun _ => yields_ret ⟨hc, hdone⟩
  have hquery := spec_query (A := fun _ => True) (uses_precheck (fun c hc => hc.query) P c) w
  refine ((hquery.and (hctx w)).weaken (fun _ h => h) fun e _ he => ?_).mono fun r w' hr => ?_
  · exact hsame ((he.1.vols _).trans h)
  · obtain ⟨⟨hstep, -⟩, hinv, hstage⟩ := hr
    refine ⟨hinv, fun hrep _ => ?_⟩
    have hvols : w'.vols .native = t₀ := (hstep.vols _).trans h
    rcases hstage with hs | hs | hs
    · rw [hs]
      exact hsame hvols
    · rw [hs]
      exact hvols
    · rw [hrep.1] at hs
      cases hs

theorem ubiAttach_mends (hc : ForeignIsInvalid c) (h : w.vols .native = t₀) :
    Mends foreign t₀ i₀ v₀ (ubiAttach P c) w := by
  have hsame : ∀ {t : VolumeTable}, t = t₀ → Fallback foreign t₀ i₀ v₀ t := by
    rintro t rfl
    exact Untouched.refl.fallback h₀
  have hattach : Uses Attaches ensureUbiAttachment :=
    uses_ensureUbiAttachment (fun c hc => .inl hc) fun p => .inr ⟨p, rfl⟩
  have hkeeps : Spec exec (fun _ => True) (fun e => (e.after exec).vols .native = t₀)
      (fun _ w' => w'.vols .native = t₀) ensureUbiAttachment w := by
    refine Spec.of_uses (fun c o w' hc _ hw' => ?_) hattach h
    have hstep := (exec_attaches hc o w' .native).trans hw'
    exact ⟨hstep, hstep⟩
  refine Spec.bind ((hkeeps.and (ensureUbiAttachment_native w)).weaken (fun _ h => h)
    fun _ _ h => hsame h.1) fun ret w₁ h₁ => ?_
  refine spec_ite (fun _ => mending_failReason hc (hsame h₁.1)) fun hret => ?_
  have hnative : w₁.Native := h₁.2 (not_not.1 hret)
  -- the answers of the classification
  have hanswer : Gives
      (fun r : Mode × ℤ => r.2 = -enodev → r.1 = .repairInvalid) (classifyActiveFip P) := by
    refine yields_then fun ret => yields_exit (fun h => ?_) fun _ => ?_
    · simp at h
    refine yields_then fun r => ?_
    cases r with
    | error e => exact yields_ret fun _ => rfl
    | ok d =>
      refine yields_exit (fun _ => rfl) fun _ => ?_
      refine yields_then fun ret => yields_exit (fun _ => rfl) fun _ => ?_
      refine yields_then fun buf => yields_then fun r => ?_
      cases r with
      | error e => exact yields_ret fun _ => rfl
      | ok n =>
        refine yields_ret fun h => ?_
        by_cases hn : n = d.usedBytes
        · simp [hn] at h
        · simp [hn]
  have hclassify : Uses Cmd.Reads (classifyActiveFip P) :=
    uses_classifyActiveFip (fun c hc => hc.reads) P fun used => le_refl _
  have hreads := spec_reads (A := fun _ => True) hclassify w₁
  refine Spec.bind ((hreads.and (hanswer w₁)).weaken (fun _ h => h)
    fun e _ he => hsame ((he.1.vols _).trans h₁.1)) fun r w₂ h₂ => ?_
  obtain ⟨hstep, hforeign⟩ := h₂
  have hvols : w₂.vols .native = t₀ := (hstep.vols _).trans h₁.1
  refine spec_ite (fun _ => ?_) fun _ => mending_advance hforeign ⟨?_, ?_⟩
  · split_ifs
    · exact mending_failReason hforeign (hsame hvols)
    · exact mending_failReason hforeign (hsame hvols)
  · rw [hvols]
    exact .refl
  · exact hnative.of_attached hstep.attached

theorem mends_of_edits {p : FlashProg (ℤ × Ctx)} {ns : List String} {next : Stage}
    (hp : Uses (Cmd.Edits ns) p) (hold : "fip.old" ∉ ns) (hfip : foreign → "fip" ∉ ns)
    (hctx : Gives (fun r => ForeignIsInvalid r.2 ∧
      (r.2.stage = .failed ∨ r.2.stage = next)) p)
    (hnext : ∀ w', Untouched foreign t₀ (w'.vols .native) ∧ w'.Native →
      RepairPhase foreign t₀ i₀ v₀ w' next)
    (h : Untouched foreign t₀ (w.vols .native)) (hw : w.Native) :
    Mends foreign t₀ i₀ v₀ p w := by
  have hspec := untouched_edits hp hold hfip h hw
  refine ((hspec.and (hctx w)).weaken (fun _ h => h) fun e _ he => he.1.fallback h₀).mono
    fun r w' hr => ?_
  obtain ⟨huntouched, hinv, hstage⟩ := hr
  refine ⟨hinv, fun _ _ => ?_⟩
  rcases hstage with hs | hs
  · rw [hs]
    exact huntouched.1.fallback h₀
  · rw [hs]
    exact hnext w' huntouched

omit h₀ in
theorem createFipNew_ctx (hc : ForeignIsInvalid c) (avail need : ℕ) :
    Gives (fun r => ForeignIsInvalid r.2 ∧
      (r.2.stage = .failed ∨ r.2.stage = .ubiStageWrite)) (createFipNew c avail need) := by
  refine yields_exit ⟨hc, .inl rfl⟩ fun _ => yields_then fun ret => ?_
  exact yields_exit ⟨hc, .inl rfl⟩ fun _ => yields_ret ⟨hc, .inr rfl⟩

omit h₀ in
theorem reserveFipNew_ctx (hc : ForeignIsInvalid c) :
    Gives (fun r => ForeignIsInvalid r.2 ∧
      (r.2.stage = .failed ∨ r.2.stage = .ubiStageWrite)) (reserveFipNew c) := by
  refine yields_then fun r => ?_
  cases r with
  | none => exact yields_ret ⟨hc, .inl rfl⟩
  | some an =>
    obtain ⟨avail, need⟩ := an
    refine yields_ite (fun hdrop => ?_) fun _ => createFipNew_ctx hc avail need
    have hc' : ForeignIsInvalid { c with ubiFipMode := .repairMissing } := fun h =>
      absurd h hdrop.2.2
    refine yields_then fun ret => yields_exit ⟨hc, .inl rfl⟩ fun _ => ?_
    refine yields_then fun r => ?_
    cases r with
    | none => exact yields_ret ⟨hc', .inl rfl⟩
    | some an => exact createFipNew_ctx hc' an.1 an.2

theorem ubiStagePrep_mends (hc : ForeignIsInvalid c) (hmode : c.ubiFipMode ≠ .normal)
    (hforeign : foreign → c.ubiFipInvalidRet = -enodev)
    (h : Untouched foreign t₀ (w.vols .native)) (hw : w.Native) :
    Mends foreign t₀ i₀ v₀ (ubiStagePrep c) w := by
  have hctx : Gives (fun r => ForeignIsInvalid r.2 ∧
      (r.2.stage = .failed ∨ r.2.stage = .ubiStageWrite)) (ubiStagePrep c) := by
    have hreserve := reserveFipNew_ctx (c := { c with writeStarted := true }) hc
    refine yields_then fun _ => yields_ite (fun h => absurd h hmode) fun _ => ?_
    exact yields_then fun _ => hreserve
  by_cases hf : c.ubiFipInvalidRet = -enodev
  · have huses : Uses (Cmd.Edits ["fip.new", "fip.bad"]) (ubiStagePrep c) :=
      uses_ubiStagePrep (fun c hc => hc.edits _) c (by simp [Cmd.Edits]) (fun h => absurd h hmode)
        (by simp [Cmd.Edits]) (fun _ hne => absurd hf hne) fun _ _ _ => by simp [Cmd.Edits]
    exact mends_of_edits h₀ huses (by decide) (fun _ => by decide) hctx (fun _ h => h) h hw
  · have huses : Uses (Cmd.Edits ["fip.new", "fip.bad", "fip"]) (ubiStagePrep c) :=
      uses_ubiStagePrep (fun c hc => hc.edits _) c (by simp [Cmd.Edits]) (fun h => absurd h hmode)
        (by simp [Cmd.Edits]) (fun _ _ => by simp [Cmd.Edits]) fun _ _ _ => by simp [Cmd.Edits]
    exact mends_of_edits h₀ huses (by decide) (fun hfor => absurd (hforeign hfor) hf) hctx
      (fun _ h => h) h hw

theorem ubiStageWrite_mends (hc : ForeignIsInvalid c) (h : Untouched foreign t₀ (w.vols .native))
    (hw : w.Native) : Mends foreign t₀ i₀ v₀ (ubiStageWrite c) w := by
  have huses : Uses (Cmd.Edits ["fip.new"]) (ubiStageWrite c) :=
    uses_checked (by simp [Cmd.Edits]) fun _ => trivial
  have hctx : Gives (fun r => ForeignIsInvalid r.2 ∧
      (r.2.stage = .failed ∨ r.2.stage = .ubiStageVerify)) (ubiStageWrite c) :=
    yields_then fun _ => yields_exit ⟨hc, .inl rfl⟩ fun _ =>
      yields_ret ⟨hc, .inr rfl⟩
  exact mends_of_edits h₀ huses (by decide) (fun _ => by decide) hctx (fun _ h => h) h hw

theorem ubiStageVerify_mends (hc : ForeignIsInvalid c)
    (h : Untouched foreign t₀ (w.vols .native)) (hw : w.Native) :
    Mends foreign t₀ i₀ v₀ (ubiStageVerify P c) w := by
  have hq : ∀ c : Cmd, c.Query → c.Edits [] := fun c hc => hc.edits []
  have huses : Uses (Cmd.Edits []) (ubiStageVerify P c) := by
    refine uses_checked (le_refl ubiReadbackAddr) fun _ => ?_
    refine uses_bind (uses_fipValidateKind (inert_of_query hq) P _ _ _ _) fun _ =>
      uses_exit fun _ => ?_
    refine uses_next trivial fun _ => uses_next trivial fun _ => ?_
    exact uses_exit fun _ => trivial
  have hctx : Gives (fun r => ForeignIsInvalid r.2 ∧
      (r.2.stage = .failed ∨ r.2.stage = .ubiPromote)) (ubiStageVerify P c) := by
    refine yields_then fun _ => yields_exit ⟨hc, .inl rfl⟩ fun _ => ?_
    refine yields_then fun _ => yields_exit ⟨hc, .inl rfl⟩ fun _ => ?_
    refine yields_then fun _ => yields_then fun _ => ?_
    exact yields_exit ⟨hc, .inl rfl⟩ fun _ => yields_ret ⟨hc, .inr rfl⟩
  exact mends_of_edits h₀ huses List.not_mem_nil (fun _ => List.not_mem_nil) hctx (fun _ h => h) h hw

theorem ubiPromote_mends (hc : ForeignIsInvalid c) (hmode : c.ubiFipMode ≠ .normal)
    (hforeign : foreign → c.ubiFipInvalidRet = -enodev)
    (h : Untouched foreign t₀ (w.vols .native)) (hw : w.Native) :
    Mends foreign t₀ i₀ v₀ (ubiPromote c) w := by
  unfold ubiPromote
  dsimp only
  cases hm : c.ubiFipMode with
  | normal => exact absurd hm hmode
  | repairMissing =>
    -- there is nothing foreign to keep
    have hnot : ¬ foreign := fun hf => by
      have hinvalid := hc (hforeign hf)
      rw [hm] at hinvalid
      cases hinvalid
    refine spec_next (Cmd.ubiRename "fip.new" "fip") fun o _ => ?_
    have hagree : Slots.Agree "fip.old" (w.vols .native)
        ((exec (.ubiRename "fip.new" "fip") o w).2.vols .native) :=
      exec_agree o w .native
        (show "fip.new" ≠ "fip.old" ∧ "fip" ≠ "fip.old" from ⟨by decide, by decide⟩)
    have hq : Quarantined foreign t₀ i₀ v₀
        ((exec (.ubiRename "fip.new" "fip") o w).2.vols .native) :=
      ⟨h.old.trans hagree, fun hf => absurd hf hnot⟩
    refine ⟨hq.fallback, spec_ite (fun _ => mending_failReason ?_ hq.fallback) fun _ =>
      mending_advance ?_ ⟨hq, hw.of_attached (by simp [exec])⟩⟩
    · rw [← hm]
      exact hc
    · rw [← hm]
      exact hc
  | repairInvalid =>
    have hc' : ForeignIsInvalid { c with ubiFipMode := .repairInvalid, commitStarted := true } :=
      fun _ => rfl
    refine Spec.bind ((atomicSwitch_spec "fip" "fip.new" "fip.bad" hw).weaken (fun _ h => h)
      fun e _ he => ?_) fun ret w₁ hr => ?_
    · rcases he.2 with hsame | hs
      · rw [hsame]
        exact h.fallback h₀
      · exact (h.promote h₀ hs).fallback
    · obtain ⟨hat, ⟨hne, hsame⟩ | ⟨hz, hs⟩⟩ := hr
      · rw [if_pos hne]
        refine mending_failReason hc' ?_
        rw [hsame]
        exact h.fallback h₀
      · rw [if_neg (by simp [hz])]
        exact mending_advance hc' ⟨h.promote h₀ hs, hw.of_attached hat⟩

omit h₀ in
theorem postcommitFailed_mends (hc : ForeignIsInvalid c)
    (hforeign : foreign → c.ubiFipInvalidRet = -enodev) (ret : ℤ)
    (h : Quarantined foreign t₀ i₀ v₀ (w.vols .native)) (hw : w.Native) :
    Mends foreign t₀ i₀ v₀ (postcommitFailed c ret) w := by
  refine spec_ite (fun hm => ?_) fun _ => mending_advance hc ⟨h, hw⟩
  have hnot : ¬ foreign := fun hf => by
    have hinvalid := hc (hforeign hf)
    rw [hm] at hinvalid
    cases hinvalid
  have huses : Uses (Cmd.Edits ["fip.bad", "fip"]) ((removeIfPresent "fip.bad").bind fun _ =>
      (ubiRename "fip" "fip.bad").bind fun _ =>
        Prog.ret (failReason c ret "RECOVERY_FIP_POSTCOMMIT_VERIFY_FAILED")) :=
    uses_bind (uses_removeIfPresent trivial (by simp [Cmd.Edits])) fun _ =>
      uses_next (by simp [Cmd.Edits]) fun _ => trivial
  have hctx : Gives
      (fun r => r = failReason c ret "RECOVERY_FIP_POSTCOMMIT_VERIFY_FAILED")
      ((removeIfPresent "fip.bad").bind fun _ => (ubiRename "fip" "fip.bad").bind fun _ =>
        Prog.ret (failReason c ret "RECOVERY_FIP_POSTCOMMIT_VERIFY_FAILED")) :=
    yields_then fun _ => yields_then fun _ => yields_ret rfl
  have hspec := quarantined_edits huses (by decide) (fun hf => absurd hf hnot) h hw
  refine ((hspec.and (hctx w)).weaken (fun _ h => h) fun e _ he => he.1.fallback).mono
    fun r w' hr => ?_
  rw [hr.2]
  exact mending_failReason hc hr.1.1.fallback

omit h₀ in
theorem ubiVerify_mends (hc : ForeignIsInvalid c)
    (hforeign : foreign → c.ubiFipInvalidRet = -enodev)
    (h : Quarantined foreign t₀ i₀ v₀ (w.vols .native)) (hw : w.Native) :
    Mends foreign t₀ i₀ v₀ (ubiVerify P c) w := by
  have hq : ∀ ns : List String, ∀ c : Cmd, c.Query → c.Edits ns := fun ns c hc => hc.edits ns
  have hread : Uses (Cmd.Edits []) (ubiRead ubiReadbackAddr "fip" c.len) :=
    (uses_perform _ _).2 (le_refl ubiReadbackAddr)
  refine Spec.bind ((quarantined_edits hread List.not_mem_nil (fun _ => List.not_mem_nil) h hw).weaken
    (fun _ h => h) fun e _ he => he.fallback) fun ret w₁ h₁ => ?_
  refine spec_ite (fun _ => postcommitFailed_mends hc hforeign ret h₁.1 h₁.2) fun _ => ?_
  have hvalid := uses_fipValidateKind (inert_of_query (hq [])) P ubiReadbackAddr c.len false c.kind
  refine Spec.bind ((quarantined_edits hvalid List.not_mem_nil (fun _ => List.not_mem_nil) h₁.1
    h₁.2).weaken (fun _ h => h) fun e _ he => he.fallback) fun ret w₂ h₂ => ?_
  refine spec_ite (fun _ => postcommitFailed_mends hc hforeign ret h₂.1 h₂.2) fun _ => ?_
  have hdone : ∀ {w' : World}, Quarantined foreign t₀ i₀ v₀ (w'.vols .native) →
      Mending foreign t₀ i₀ v₀ { c with stage := .complete, active := false } w' :=
    fun hw' => ⟨hc, fun _ _ => hw'.fallback⟩
  refine spec_ite (fun _ => ?_) fun _ => hdone h₂.1
  have hreset : Uses (Cmd.Edits ["ubootenv", "ubootenv2"]) vanillaResetEnv :=
    uses_vanillaResetEnv (hq _) (fun _ hn _ _ => hn) (fun _ _ => le_refl _) fun _ => le_refl _
  refine Spec.bind ((quarantined_edits hreset (by decide) (fun _ => by decide) h₂.1 h₂.2).weaken
    (fun _ h => h) fun e _ he => he.fallback) fun ret w₃ h₃ => ?_
  exact spec_ite (fun _ => mending_advance hc h₃) fun _ => hdone h₃.1

omit h₀ in
theorem ubiRollback_mends (hc : ForeignIsInvalid c) (hmode : c.ubiFipMode ≠ .normal)
    (h : Quarantined foreign t₀ i₀ v₀ (w.vols .native)) (hw : w.Native) :
    Mends foreign t₀ i₀ v₀ (ubiRollback c) w := by
  unfold ubiRollback
  cases hm : c.ubiFipMode with
  | normal => exact absurd hm hmode
  | repairMissing => exact mending_failReason hc h.fallback
  | repairInvalid =>
    refine Spec.bind ((atomicSwitch_spec "fip" "fip.bad" "fip.new" hw).weaken (fun _ h => h)
      fun e _ he => ?_) fun ret w₁ hr => ?_
    · rcases he.2 with hsame | hs
      · rw [hsame]
        exact h.fallback
      · exact h.rollback hs
    · obtain ⟨hat, ⟨hne, hsame⟩ | ⟨hz, hs⟩⟩ := hr
      · rw [if_pos hne]
        refine mending_failReason hc ?_
        rw [hsame]
        exact h.fallback
      · rw [if_neg (by simp [hz])]
        refine spec_next (Cmd.printf (rollbackOk .repairInvalid)) fun o _ => ?_
        exact ⟨h.rollback hs, mending_failReason hc (h.rollback hs)⟩

/-- **Every stage** of a repair keeps the fallback after each of its commands. -/
theorem runStage_mends (hc : ForeignIsInvalid c) (hrep : Repairing c)
    (hforeign : foreign → ForeignFip c) (h : RepairPhase foreign t₀ i₀ v₀ w c.stage) :
    Mends foreign t₀ i₀ v₀ (runStage P c) w := by
  have hlate : ¬ Unclassified c → c.ubiFipMode ≠ .normal ∧
      (foreign → c.ubiFipInvalidRet = -enodev) := fun hun =>
    ⟨hrep.2.resolve_left hun, fun hf => (hforeign hf).resolve_left hun⟩
  unfold runStage
  unfold Unclassified at hlate
  generalize hs : c.stage = st at h hlate
  cases st with
  | precheck => exact precheck_mends h₀ hc h
  | ubiAttach => exact ubiAttach_mends h₀ hc h
  | ubiStagePrep =>
    exact ubiStagePrep_mends h₀ hc (hlate (by simp)).1 (hlate (by simp)).2 h.1 h.2
  | ubiStageWrite => exact ubiStageWrite_mends h₀ hc h.1 h.2
  | ubiStageVerify => exact ubiStageVerify_mends h₀ hc h.1 h.2
  | ubiPromote => exact ubiPromote_mends h₀ hc (hlate (by simp)).1 (hlate (by simp)).2 h.1 h.2
  | ubiVerify => exact ubiVerify_mends hc (hlate (by simp)).2 h.1 h.2
  | ubiRollback => exact ubiRollback_mends hc (hlate (by simp)).1 h.1 h.2
  | idle | complete | failed => exact mending_failReason hc h
  | stockBackup | stockErase | stockWrite | stockVerify => exact h.elim

theorem RepairPhase.fallback {st : Stage} (h : RepairPhase foreign t₀ i₀ v₀ w st) :
    Fallback foreign t₀ i₀ v₀ (w.vols .native) := by
  cases st with
  | precheck | ubiAttach =>
    rw [show w.vols .native = t₀ from h]
    exact Untouched.refl.fallback h₀
  | ubiStagePrep | ubiStageWrite | ubiStageVerify | ubiPromote => exact h.1.fallback h₀
  | ubiVerify | ubiRollback => exact h.1.fallback
  | idle | complete | failed => exact h
  | stockBackup | stockErase | stockWrite | stockVerify => exact h.elim

omit h₀ in
theorem RepairPhase.congr {st : Stage} {w' : World} (h : RepairPhase foreign t₀ i₀ v₀ w st)
    (hv : w'.vols .native = w.vols .native) (ha : w'.attached = w.attached) :
    RepairPhase foreign t₀ i₀ v₀ w' st := by
  cases st with
  | precheck | ubiAttach => exact hv.trans h
  | ubiStagePrep | ubiStageWrite | ubiStageVerify | ubiPromote | ubiVerify | ubiRollback =>
    refine ⟨?_, h.2.of_attached ha⟩
    rw [hv]
    exact h.1
  | idle | complete | failed =>
    show Fallback foreign t₀ i₀ v₀ (w'.vols .native)
    rw [hv]
    exact h
  | stockBackup | stockErase | stockWrite | stockVerify => exact h.elim

end Stages

/-! ## Whole repairs -/

theorem Attempt.call_mending {P : Platform} {foreign : Prop} {t₀ : VolumeTable}
    {i₀ : Fin vtblSlots} {v₀ : Volume} (h₀ : foreign → t₀.lookup "fip" = some (i₀, v₀))
    {s : Attempt} (i : Call) (h : Mending foreign t₀ i₀ v₀ s.ctx s.world) (hrep : Repairing s.ctx)
    (hforeign : foreign → ForeignFip s.ctx)
    (hG : Recorded (fun _ e => Fallback foreign t₀ i₀ v₀ ((e.after exec).vols .native)) s.trace) :
    Recorded (fun _ e => Fallback foreign t₀ i₀ v₀ ((e.after exec).vols .native))
        (s.call P i).trace ∧
      Mending foreign t₀ i₀ v₀ (s.call P i).ctx (s.call P i).world := by
  refine Attempt.call_invariant (P := P) (I := fun c w _ => Mending foreign t₀ i₀ v₀ c w)
    (J := fun c w _ => ForeignIsInvalid c ∧ Repairing c ∧ (foreign → ForeignFip c) ∧
      RepairPhase foreign t₀ i₀ v₀ w c.stage) ⟨?_, ?_, ?_, ?_⟩ ?_ ?_ ?_ i
    ⟨h.1, hrep, hforeign, h.2 hrep hforeign⟩ hG
  · intro c w tr tr' h _
    exact h
  · intro c w tr m h
    exact ⟨h.1, h.2.1, h.2.2.1, h.2.2.2.congr rfl rfl⟩
  · intro c w tr t h
    exact ⟨h.1, h.2.1, h.2.2.1, h.2.2.2.congr rfl rfl⟩
  · intro c w tr b n h
    exact h
  · intro c w tr h
    exact ⟨h.1, fun _ _ => h.2.2.2⟩
  · intro c w tr base o h
    exact h.2.2.2.fallback h₀
  · intro c w tr _ h
    exact (Records.of_spec (runStage_mends h₀ h.1 h.2.1 h.2.2.1 h.2.2.2)
      fun e tr' _ he => he).mono fun _ _ _ hr => hr.1

theorem repair_recorded {P : Platform} (foreign : Prop) {s₀ : Attempt} (i₀ : Fin vtblSlots)
    (v₀ : Volume) {is : List Call} (hbegin : s₀.Begins P)
    (h₀ : foreign → (s₀.world.vols .native).lookup "fip" = some (i₀, v₀))
    (hok : Along (Attempt.call P) (fun s _ => Repairing s.ctx ∧ (foreign → ForeignFip s.ctx)) s₀
      is) :
    Recorded (fun _ e => Fallback foreign (s₀.world.vols .native) i₀ v₀
      ((e.after exec).vols .native)) (runFrom (Attempt.call P) s₀ is).trace := by
  have hstart := hbegin.started
  have htrace : s₀.trace = [] := by
    obtain ⟨c, addr, len, kind, outs, w, -, -, htrace⟩ := hbegin
    exact htrace
  have hinit : Mending foreign (s₀.world.vols .native) i₀ v₀ s₀.ctx s₀.world := by
    refine ⟨fun h => ?_, fun _ _ => ?_⟩
    · rw [hstart.invalidRet] at h
      cases h
    · rw [hstart.stage]
      rfl
  have hempty : Recorded (fun _ e => Fallback foreign (s₀.world.vols .native) i₀ v₀
      ((e.after exec).vols .native)) s₀.trace := by
    rw [htrace]
    exact recorded_nil _
  have hrun := invariant_run
    (J := fun s : Attempt => Recorded (fun _ e => Fallback foreign (s₀.world.vols .native) i₀ v₀
        ((e.after exec).vols .native)) s.trace ∧
      Mending foreign (s₀.world.vols .native) i₀ v₀ s.ctx s.world)
    (fun s i hs hok => s.call_mending h₀ i hs.2 hok.1 hok.2 hs.1) ⟨hempty, hinit⟩ hok
  exact hrun.1

/-- **Repairs.** Start an update of the native layout whose active `fip`, once classified, is missing
or invalid. After every single command, under every pattern of failures, the volumes named `fip.old`
are those there were at the start. If `fip` was rejected as an intact foreign FIP, its volume is
still there as `fip` or `fip.bad`. -/
theorem repair_preserves_fallback (P : Platform) (s₀ : Attempt) (is : List Call)
    (hbegin : s₀.Begins P)
    (hrep : Along (Attempt.call P) (fun s _ => Repairing s.ctx) s₀ is) :
    Recorded (fun _ e => Slots.Agree "fip.old" (s₀.world.vols .native)
        ((e.after exec).vols .native)) (runFrom (Attempt.call P) s₀ is).trace ∧
      ∀ i₀ v₀, (s₀.world.vols .native).lookup "fip" = some (i₀, v₀) →
        Along (Attempt.call P) (fun s _ => ForeignFip s.ctx) s₀ is →
        Recorded (fun _ e => KeptAside i₀ v₀ ((e.after exec).vols .native))
          (runFrom (Attempt.call P) s₀ is).trace := by
  constructor
  · have hrun := repair_recorded False 0 ⟨true, 0, [], false⟩ hbegin False.elim
      (hrep.mono fun s _ hs => ⟨hs, False.elim⟩)
    exact hrun.mono fun _ _ h => h.old
  · intro i₀ v₀ hfip hforeign
    have hrun := repair_recorded True i₀ v₀ hbegin (fun _ => hfip)
      ((hrep.and hforeign).mono fun s _ hs => ⟨hs.1, fun _ => hs.2⟩)
    exact hrun.mono fun _ _ h => h.aside trivial

/-- Volumes of a board that somebody has put a foreign bootloader on. -/
def foreignTable : VolumeTable := fun k =>
  if k = 3 then some ("fip.old", sampleVolume true)
  else if k = 5 then some ("fip", ⟨true, 9, foreignFip, false⟩) else none

/-- On such a board an update can be carried to its end as a repair. -/
theorem repair_preserves_fallback_foreign :
    ∃ is, Along (Attempt.call samplePlatform) (fun s _ => Repairing s.ctx)
        (sampleAttempt foreignTable) is ∧
      Along (Attempt.call samplePlatform) (fun s _ => ForeignFip s.ctx)
        (sampleAttempt foreignTable) is ∧
      (runFrom (Attempt.call samplePlatform) (sampleAttempt foreignTable) is).ctx.stage =
        .complete ∧
      Recorded (fun _ e => Slots.Agree "fip.old" foreignTable ((e.after exec).vols .native))
        (runFrom (Attempt.call samplePlatform) (sampleAttempt foreignTable) is).trace ∧
      Recorded (fun _ e => KeptAside 5 ⟨true, 9, foreignFip, false⟩ ((e.after exec).vols .native))
        (runFrom (Attempt.call samplePlatform) (sampleAttempt foreignTable) is).trace := by
  have hnames : foreignTable.Distinct := by decide
  have hfind : foreignTable.find? "fip" = some 5 := by decide
  have hlen : foreignFip.length ≠ 0 ∧ foreignFip.length ≤ ubiFipVolSize := by
    rw [foreignFip, length_fipAround, length_blankLzma]
    decide
  have hboard := sample_promotable (o := .ok) hnames hfind rfl rfl hlen
    foreignFip_classified rfl (by decide) (by decide) rfl fun h => nomatch h
  have hreach : (sampleAttempt foreignTable).CanReach samplePlatform
      (fun s _ => Repairing s.ctx ∧ ForeignFip s.ctx) fun s => s.ctx.stage = .complete := by
    have hearly : ∀ st c (w : World) (tr : List FlashEvent) (outs : ℕ → Outcome),
        Running (.normal, 0) (sampleAttempt foreignTable).ctx { c with announced := false } st →
        st = .precheck ∨ st = .ubiAttach → Repairing c ∧ ForeignFip c := by
      intro st c w tr outs hc hst
      have hun : Unclassified c := by
        rw [← show c.stage = st from hc.stage] at hst
        exact hst
      exact ⟨⟨hc.layout, .inl hun⟩, .inl hun⟩
    have hlate : ∀ {st : Stage} {c : Ctx},
        Running (.repairInvalid, -enodev) (sampleAttempt foreignTable).ctx
          { c with announced := false } st → Repairing c ∧ ForeignFip c := by
      intro st c hc
      have hmode : c.ubiFipMode = .repairInvalid := hc.mode
      refine ⟨⟨hc.layout, .inr ?_⟩, .inr hc.invalidRet⟩
      rw [hmode]
      decide
    refine hboard.canReach (by decide) (sampleAttempt_normal _) hearly
      (fun _ _ _ _ _ hc _ _ => hlate hc) fun c w tr hc hw _ => ?_
    exact Attempt.canReach_verify (m := sampleRam false) (i := 0) (v := sampleVolume false) hc rfl hw
      (Slots.lookup_eq_some.2 ⟨by decide, rfl⟩) rfl (length_sampleFip false)
      (sampleFip_accepted false) (fun _ _ _ _ hc _ => hlate hc)
      fun c w tr hc _ => Attempt.canReach_here hc.1
  obtain ⟨is, hal, hstage⟩ := hreach
  have hrep := hal.mono fun s i h => h.1
  have hforeign := hal.mono fun s i h => h.2
  have hkept := repair_preserves_fallback samplePlatform (sampleAttempt foreignTable) is
    (sampleAttempt_begins _) hrep
  exact ⟨is, hrep, hforeign, hstage, hkept.1,
    hkept.2 5 _ (Slots.lookup_eq_some.2 ⟨hfind, rfl⟩) hforeign⟩

end FipUpdate

end UrsusBoot
