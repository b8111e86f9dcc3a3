import UrsusBoot.Engine.Handover
import UrsusBoot.Engine.Reads
import UrsusBoot.Safety.Episode

/-!
# The frame of an OpenWrt update

What an update of OpenWrt leaves alone. Until its last stage it keeps to the volumes `fit`,
`fit.new` and `fit.old`; the last stage also saves the environment, and replaces `rootfs_data` if
the settings are not to be kept, but only once `fit` has been read back in that stage.
-/

namespace UrsusBoot

open Prog

namespace UbiUpdate

/-! ## Updates -/

def engine : Engine Ctx (ℤ × Ctx) where
  active c := c.active
  announced c := c.announced
  announcedAt c := c.announcedAt
  hold := stageHoldMs
  mark b n c := { c with announced := b, announcedAt := n }
  rest c := (if c.stage = .complete then 1 else if c.stage = .failed then c.error else 0, c)
  wait c := (0, c)
  announce n c := (0, { c with announced := true, announcedAt := n })
  work := runStage
  out r := r.2
  out_rest _ := rfl
  out_wait _ := rfl
  out_announce _ _ := rfl
  mark_self _ := rfl
  announced_mark _ _ _ := rfl
  announcedAt_mark _ _ _ := rfl
  active_mark _ _ _ := rfl
  mark_mark _ _ _ _ _ := rfl

structure SameRequest (c₀ c : Ctx) : Prop where
  fitAddr : c.fitAddr = c₀.fitAddr
  fitLen : c.fitLen = c₀.fitLen
  keepSettings : c.keepSettings = c₀.keepSettings

theorem SameRequest.continues {c₀ c d : Ctx} (h : SameRequest c₀ c) (hd : Continues c d) :
    SameRequest c₀ d :=
  ⟨hd.fitAddr.trans h.fitAddr, hd.fitLen.trans h.fitLen, hd.keepSettings.trans h.keepSettings⟩

theorem stage_handover (s : Episode Ctx) (outs : ℕ → Outcome) :
    Handover s.ctx (run exec (runStage s.ctx) outs s.world).val :=
  (runStage_handover (A := fun _ => True) s.ctx).run_of outs s.world fun _ _ => trivial

/-! ## Reading back -/

/-- The event reads a volume back, and what it reads is the image in RAM and starts with the header
of an FDT. -/
structure ReadsBack (addr len : ℕ) (n : String) (e : FlashEvent) : Prop where
  cmd : e.cmd = .ubiRead ubiReadbackAddr n len
  read : (exec (.ubiRead ubiReadbackAddr n len) e.out e.before).1 = 0
  same : (e.after exec).ram.slice addr len = (e.after exec).ram.slice ubiReadbackAddr len
  header : fdtCheckHeader ((e.after exec).ram.slice ubiReadbackAddr 40) = 0

theorem readback_records {G : List FlashEvent → FlashEvent → Prop} (c : Ctx) (n : String) (w : World)
    (tr : List FlashEvent) (hG : ∀ d o w tr', Cmd.Reads d → G tr' ⟨d, o, w⟩) :
    Records exec G (fun r w' tr' => ReadStep w w' ∧ tr <+: tr' ∧
      (r = none → ∃ e ∈ tr', ReadsBack c.fitAddr c.fitLen n e ∧ e.before = w)) (readback c n) w tr := by
  apply records_next (Cmd.ubiRead ubiReadbackAddr n c.fitLen)
  intro o
  refine ⟨hG _ o w tr (le_refl ubiReadbackAddr), ?_⟩
  set e₁ : FlashEvent := ⟨.ubiRead ubiReadbackAddr n c.fitLen, o, w⟩ with he₁
  have hstep : ReadStep w (e₁.after exec) := .ubiRead w o n c.fitLen (le_refl _)
  have hgrow : tr <+: tr ++ [e₁] := List.prefix_append _ _
  refine records_ite (fun _ => ⟨hstep, hgrow, (fun h => nomatch h)⟩) fun hread => ?_
  -- the rest asks questions about RAM
  have hq : ∀ d : Cmd, d.Query → d.Query := fun _ h => h
  set p : FlashProg (Option ℤ) := (memEqual c.fitAddr ubiReadbackAddr c.fitLen).bind fun ret =>
    if ret ≠ 0 then Prog.ret (some (-ebadmsg)) else (fdtCheckHeaderAt ubiReadbackAddr).bind fun ret =>
      if ret ≠ 0 then Prog.ret (some (-enoexec)) else Prog.ret none with hp
  have huses : Uses Cmd.Query p := by
    refine uses_bind (uses_memEqual (inert_of_query hq) _ _ _) fun _ =>
      uses_exit fun _ => ?_
    exact uses_bind (uses_fdtCheckHeaderAt (inert_of_query hq) _) fun _ =>
      uses_exit fun _ => trivial
  have hfinds : Finds (fun _ => True) (e₁.after exec) (fun r => r = none →
      (e₁.after exec).ram.slice c.fitAddr c.fitLen =
        (e₁.after exec).ram.slice ubiReadbackAddr c.fitLen ∧
      fdtCheckHeader ((e₁.after exec).ram.slice ubiReadbackAddr 40) = 0) p := by
    apply (memEqual_finds c.fitAddr ubiReadbackAddr c.fitLen _).then
    intro ret w₂ h₂ hsame
    apply spec_ite
    · intro _
      exact finds_ret (fun h => nomatch h)
    intro hzero
    apply (fdtCheckHeaderAt_finds ubiReadbackAddr w₂).then
    intro ret' w₃ _ hheader
    apply spec_ite
    · intro _
      exact finds_ret (fun h => nomatch h)
    intro hzero'
    apply finds_ret
    intro _
    refine ⟨hsame (not_not.1 hzero), ?_⟩
    rw [← h₂.ram, ← hheader]
    exact not_not.1 hzero'
  have hrecord : Records exec G (fun _ w' tr' => ReadStep w w' ∧ tr ++ [e₁] <+: tr') p
      (e₁.after exec) (tr ++ [e₁]) := by
    refine Records.of_uses (I := fun w' tr' => ReadStep w w' ∧ tr ++ [e₁] <+: tr')
      (fun d o w' tr' hd hI => ⟨hG d o w' tr' hd.reads, ?_, ?_⟩) huses ⟨hstep, List.prefix_refl _⟩
    · exact hI.1.trans (exec_reads hd.reads o w')
    · exact hI.2.trans (List.prefix_append _ _)
  have hspec : Ensures (fun r _ => r = none →
      (e₁.after exec).ram.slice c.fitAddr c.fitLen =
        (e₁.after exec).ram.slice ubiReadbackAddr c.fitLen ∧
      fdtCheckHeader ((e₁.after exec).ram.slice ubiReadbackAddr 40) = 0) p (e₁.after exec) :=
    (Spec.weaken hfinds (fun _ h => h) fun _ _ _ => trivial).mono fun _ _ h => h.2
  refine (hrecord.and_spec hspec).mono fun r w' tr' hr => ?_
  obtain ⟨⟨hstep', hgrow'⟩, hnone⟩ := hr
  refine ⟨hstep', hgrow.trans hgrow', fun hr => ⟨e₁, hgrow'.subset (by simp), ?_, rfl⟩⟩
  exact ⟨rfl, not_not.1 hread, (hnone hr).1, (hnone hr).2⟩

/-! ## The frame -/

def fitNames : List String := ["fit", "fit.new", "fit.old"]

def envNames : List String := ["ubootenv", "ubootenv2"]

theorem Staging.within {c : Cmd} (h : Staging c) (o : Outcome) (w : World) :
    Within fitNames w (exec c o w).2 := by
  apply exec_within
  · intro n hn
    have hne : ∀ m ∈ fitNames, m ≠ n := fun m hm heq => hn (heq ▸ hm)
    cases c with
    | ubiCreate m | ubiWrite _ m =>
      have hm : m = "fit" ∨ m = "fit.new" := by simpa [Staging] using h
      exact hne m (by rcases hm with rfl | rfl <;> simp [fitNames])
    | ubiRemove m => exact hne m h
    | ubiRename a b =>
      rcases h with ⟨rfl, rfl⟩ | ⟨rfl, rfl⟩
      · exact ⟨hne _ (by simp [fitNames]), hne _ (by simp [fitNames])⟩
      · exact ⟨hne _ (by simp [fitNames]), hne _ (by simp [fitNames])⟩
    | envSave | ubiRenameVolumes | mtdErase | mtdWrite | nandErase | nandWrite => exact h.elim
    | factoryUbiErase | factoryKernelErase | factoryKernelWrite => exact h.elim
    | _ => trivial
  · cases c <;> trivial

theorem Settling.within {keep : Bool} {c : Cmd} (h : Settling keep c) (o : Outcome) (w : World) :
    (c = .envSave ∧ Within envNames w (exec c o w).2) ∨
      Within (if keep then [] else ["rootfs_data"]) w (exec c o w).2 := by
  by_cases hc : c = .envSave
  · subst hc
    have hspares : ∀ n, n ∉ envNames → Cmd.envSave.Spares n := by
      intro n hn
      simpa [envNames, Cmd.Spares] using hn
    exact .inl ⟨rfl, exec_within hspares trivial o w⟩
  refine .inr (exec_within (fun n hn => ?_) ?_ o w)
  · cases c with
    | ubiCreate m | ubiRemove m =>
      obtain ⟨rfl, rfl⟩ := h
      have hne : n ≠ "rootfs_data" := by simpa using hn
      exact hne.symm
    | envSave => exact absurd rfl hc
    | ubiRename | ubiWrite | ubiRenameVolumes | mtdErase | mtdWrite | nandErase | nandWrite =>
      exact h.elim
    | factoryUbiErase | factoryKernelErase | factoryKernelWrite => exact h.elim
    | _ => trivial
  · cases c <;> trivial

theorem within_of_uses {keep : Bool} {c : Cmd} (h : Staging c ∨ Settling keep c) (o : Outcome)
    (w : World) :
    Within (fitNames ++ envNames ++ ["rootfs_data"]) w (exec c o w).2 ∧
      (c ≠ .envSave → Within (fitNames ++ ["rootfs_data"]) w (exec c o w).2) ∧
      (keep = true → Within (fitNames ++ envNames) w (exec c o w).2) := by
  rcases h with h | h
  · have hw := h.within o w
    exact ⟨hw.mono (by simp +contextual), fun _ => hw.mono (by simp +contextual),
      fun _ => hw.mono (by simp +contextual)⟩
  rcases h.within o w with ⟨hsave, hw⟩ | hw
  · exact ⟨hw.mono (by simp +contextual), fun hne => absurd hsave hne,
      fun _ => hw.mono (by simp +contextual)⟩
  · have hroot : Within ["rootfs_data"] w (exec c o w).2 := hw.mono (by cases keep <;> simp)
    refine ⟨hroot.mono (by simp), fun _ => hroot.mono (by simp), fun hkeep => ?_⟩
    rw [hkeep] at hw
    exact hw.mono (by simp)

/-- What a command of a call may change, given the commands of the same call before it. -/
structure Touches (addr len : ℕ) (keep : Bool) (st : Stage) (before : List FlashEvent)
    (e : FlashEvent) : Prop where
  volumes : Within (fitNames ++ envNames ++ ["rootfs_data"]) e.before (e.after exec)
  env : e.cmd ≠ .envSave → Within (fitNames ++ ["rootfs_data"]) e.before (e.after exec)
  settings : ¬ (keep = false ∧ st = .finalVerify ∧ ∃ e' ∈ before, ReadsBack addr len "fit" e') →
    Within (fitNames ++ envNames) e.before (e.after exec)

section Touches

variable {addr len : ℕ} {keep : Bool} {st : Stage} {before : List FlashEvent} {e : FlashEvent}

theorem touches_of_within (h : Within fitNames e.before (e.after exec)) :
    Touches addr len keep st before e :=
  ⟨h.mono (by simp +contextual), fun _ => h.mono (by simp +contextual),
    fun _ => h.mono (by simp +contextual)⟩

theorem touches_of_staging (h : Staging e.cmd) : Touches addr len keep st before e :=
  touches_of_within (h.within e.out e.before)

theorem touches_of_settling (h : Settling keep e.cmd)
    (hback : ∃ e' ∈ before, ReadsBack addr len "fit" e') :
    Touches addr len keep .finalVerify before e := by
  obtain ⟨hall, henv, hkeep⟩ := within_of_uses (.inr h) e.out e.before
  refine ⟨hall, henv, fun hnot => hkeep ?_⟩
  cases keep with
  | true => rfl
  | false => exact absurd ⟨rfl, rfl, hback⟩ hnot

end Touches

/-- **Every stage** keeps to the frame, command by command. -/
theorem runStage_touches (c : Ctx) (w : World) (tr : List FlashEvent) :
    Records exec (Touches c.fitAddr c.fitLen c.keepSettings c.stage) (fun _ _ _ => True)
      (runStage c) w tr := by
  by_cases h : c.stage = .finalVerify
  · simp only [runStage, h]
    have hreads : ∀ (d : Cmd) o w tr', d.Reads →
        Touches c.fitAddr c.fitLen c.keepSettings .finalVerify tr' ⟨d, o, w⟩ := by
      intro d o w tr' hd
      have hw : Within [] w (exec d o w).2 := by
        apply exec_within
        · intro n hn
          exact (hd.edits []).spares hn
        · cases d <;> trivial
      exact touches_of_within (hw.mono (by simp))
    refine (readback_records c "fit" w tr hreads).bind fun r w' tr' hback => ?_
    cases r with
    | some ret => trivial
    | none =>
      obtain ⟨e, he, hback, -⟩ := hback.2.2 rfl
      -- from here on `fit` is on record as read back
      have hsettle : ∀ {β : Type} {p : FlashProg β} {w'' : World} {tr'' : List FlashEvent},
          Uses (Settling c.keepSettings) p → e ∈ tr'' →
          Records exec (Touches c.fitAddr c.fitLen c.keepSettings .finalVerify)
            (fun _ _ tr' => e ∈ tr') p w'' tr'' := fun hp he =>
        Records.of_uses (I := fun _ tr' => e ∈ tr') (fun d o w tr' hd htr =>
          ⟨touches_of_settling hd ⟨e, htr, hback⟩, List.mem_append_left _ htr⟩) hp he
      refine (hsettle (settling_applySettings c) he).bind fun ret w'' tr'' he => ?_
      refine records_ite (fun _ => trivial) fun _ => ?_
      refine (hsettle (uses_verifyVolumeManifest (settling_of_query _) true) he).bind
        fun ret w'' tr'' _ => ?_
      exact records_ite (fun _ => trivial) fun _ => trivial
  · exact (Records.of_uses (I := fun _ _ => True) (fun d o w tr' hd _ =>
      ⟨touches_of_staging hd, trivial⟩) (staging_runStage h) trivial).mono fun _ _ _ _ => trivial

theorem events_touch (s : Episode Ctx) (i : EngineCall) :
    Recorded (Touches s.ctx.fitAddr s.ctx.fitLen s.ctx.keepSettings s.ctx.stage)
      (s.events engine i) := by
  obtain ⟨b, n, t, es, hticks, hcases⟩ := s.call_cases engine i
  have hes : Recorded (Touches s.ctx.fitAddr s.ctx.fitLen s.ctx.keepSettings s.ctx.stage) es := by
    have hnil := recorded_nil (Touches s.ctx.fitAddr s.ctx.fitLen s.ctx.keepSettings s.ctx.stage)
    have hticked : ∀ e ∈ es, ∀ tr', [] <+: tr' →
        Touches s.ctx.fitAddr s.ctx.fitLen s.ctx.keepSettings s.ctx.stage tr' e := by
      intro e he tr' _
      obtain ⟨base, hbase⟩ := (hticks e he).timer
      exact touches_of_staging (by rw [hbase]; trivial)
    have h := recorded_append hnil hticked
    simpa using h
  rcases hcases with ⟨-, hev⟩ | ⟨-, -, outs, -, hev⟩
  · rw [hev]
    exact hes
  · rw [hev]
    exact ((runStage_touches (engine.mark b n s.ctx) _ es).run_of outs hes).1

theorem runStage_within (c : Ctx) (w : World) :
    Ensures (fun _ w' =>
      Within (fitNames ++ envNames ++ ["rootfs_data"]) w w' ∧
        (c.keepSettings = true → Within (fitNames ++ envNames) w w')) (runStage c) w := by
  refine Spec.of_uses (I := fun w' => Within (fitNames ++ envNames ++ ["rootfs_data"]) w w' ∧
    (c.keepSettings = true → Within (fitNames ++ envNames) w w')) ?_ (uses_runStage c)
    ⟨.refl _ w, fun _ => .refl _ w⟩
  intro d o w' hd _ hw
  obtain ⟨hall, -, hkeep⟩ := within_of_uses hd o w'
  exact ⟨trivial, hw.1.trans hall, fun hk => (hw.2 hk).trans (hkeep hk)⟩

structure Framed (s₀ s : Episode Ctx) : Prop where
  request : SameRequest s₀.ctx s.ctx
  volumes : Within (fitNames ++ envNames ++ ["rootfs_data"]) s₀.world s.world
  settings : s₀.ctx.keepSettings = true → Within (fitNames ++ envNames) s₀.world s.world

/-- **Every run** keeps to the frame. -/
theorem framed_run (s₀ : Episode Ctx) (is : List EngineCall) :
    Framed s₀ (runFrom (Episode.call engine) s₀ is) := by
  refine Episode.run_keeps (J := Framed s₀) ⟨⟨rfl, rfl, rfl⟩, .refl _ _, fun _ => .refl _ _⟩ ?_ ?_ is
  · intro s h m b n t es _
    exact ⟨⟨h.request.fitAddr, h.request.fitLen, h.request.keepSettings⟩, h.volumes.congr rfl rfl,
      fun hk => (h.settings hk).congr rfl rfl⟩
  · intro s h _ outs
    obtain ⟨-, hall, hkeep⟩ := (runStage_within s.ctx s.world).run_of outs fun _ _ => trivial
    refine ⟨h.request.continues (stage_handover s outs).continues, h.volumes.trans hall, fun hk => ?_⟩
    exact (h.settings hk).trans (hkeep (h.request.keepSettings.trans hk))

/-- **Frame of an OpenWrt update.** From its start, and from any later state, whatever the commands
answer, an update changes the volumes of `fit` and of the environment and `rootfs_data`, and the
last only if the settings are not to be kept. Command by command: the environment changes by being
saved, and `rootfs_data` changes in FINAL_VERIFY once `fit` has been read back. -/
theorem ubi_update_frame (s₀ : Episode Ctx) (is : List EngineCall) :
    let s := runFrom (Episode.call engine) s₀ is
    Within (fitNames ++ envNames ++ ["rootfs_data"]) s₀.world s.world ∧
      (s₀.ctx.keepSettings = true → Within (fitNames ++ envNames) s₀.world s.world) ∧
      ∀ i, Recorded (Touches s₀.ctx.fitAddr s₀.ctx.fitLen s₀.ctx.keepSettings s.ctx.stage)
        (s.events engine i) := by
  intro s
  have h : Framed s₀ s := framed_run s₀ is
  refine ⟨h.volumes, h.settings, fun i => ?_⟩
  have htouch := events_touch s i
  rw [h.request.fitAddr, h.request.fitLen, h.request.keepSettings] at htouch
  exact htouch

end UbiUpdate

end UrsusBoot
