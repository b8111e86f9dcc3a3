import UrsusBoot.Engine.FipProgress
import UrsusBoot.Engine.Issues
import UrsusBoot.Format.FipTable
import UrsusBoot.Safety.FipAttempt

/-!
# What an attempt can reach

Stages that get done, put together: calls that lead an attempt from stage to stage, and a sample
board to run on.
-/

namespace UrsusBoot

open Prog

namespace FipUpdate

/-! ## Attempts -/

variable {v : Volume} {i : Fin vtblSlots}

section Attempts

variable {P : Platform} {ok : Attempt → Call → Prop} {T : Attempt → Prop} {s : Attempt}

/-- Some calls that meet `ok` lead from `s` to a state in `T`. -/
def Attempt.CanReach (P : Platform) (ok : Attempt → Call → Prop) (T : Attempt → Prop)
    (s : Attempt) : Prop :=
  ∃ is, Along (Attempt.call P) ok s is ∧ T (runFrom (Attempt.call P) s is)

theorem Attempt.canReach_here (h : T s) : s.CanReach P ok T := ⟨[], trivial, h⟩

theorem Attempt.canReach_call (m : Mem UInt8) (hok : ∀ outs, ok s ⟨m, outs⟩)
    (h : May exec (fun r w tr => Attempt.CanReach P ok T ⟨r.2, w, tr⟩) (step P s.ctx)
      { s.world with ram := m } s.trace) : s.CanReach P ok T := by
  obtain ⟨outs, is, hal, hT⟩ := h.run_of
  exact ⟨⟨m, outs⟩ :: is, ⟨hok outs, hal⟩, hT⟩

theorem Attempt.canReach_stage (m : Mem UInt8) (hact : s.ctx.active = true)
    (hann : s.ctx.announced = false) (hok : ∀ outs, ok s ⟨m, outs⟩)
    (hok' : ∀ n t tr outs, ok ⟨{ s.ctx with announced := true, announcedAt := n },
      { s.world with ram := m, clock := t }, tr⟩ ⟨m, outs⟩)
    (h : ∀ n t es, (∀ e ∈ es, ∃ base, e.cmd = .getTimer base) →
      May exec (fun r w tr => Attempt.CanReach P ok T ⟨r.2, w, tr⟩)
        (runStage P { s.ctx with announced := false, announcedAt := n })
        { s.world with ram := m, clock := t } (s.trace ++ es)) : s.CanReach P ok T := by
  have hannounce : exec (.getTimer 0) .ok { s.world with ram := m } =
      (s.world.clock % 2 ^ 64, { s.world with ram := m, clock := s.world.clock }) :=
    World.getTimer_now _
  have hheld : exec (.getTimer (s.world.clock % 2 ^ 64)) { tick := stageHoldMs }
      { s.world with ram := m, clock := s.world.clock } =
      (stageHoldMs, { s.world with ram := m, clock := s.world.clock + stageHoldMs }) :=
    World.getTimer_elapsed _ (by decide)
  refine s.canReach_call m hok ?_
  unfold step
  rw [if_neg (by simp [hact]), if_pos (by simp [hann])]
  refine may_answer hannounce ?_
  refine Attempt.canReach_call m (hok' _ _ _) ?_
  unfold step
  rw [if_neg (by simp [hact]), if_neg (by simp)]
  refine may_answer hheld ?_
  rw [if_neg (lt_irrefl _), List.append_assoc]
  refine h _ _ _ fun e he => ?_
  rcases List.mem_cons.1 he with rfl | he
  · exact ⟨0, rfl⟩
  · rw [List.mem_singleton.1 he]
    exact ⟨_, rfl⟩

/-- What the context of an update of the native layout keeps from stage to stage; `k` is the
classification of the active `fip`. -/
structure Running (k : Mode × ℤ) (c₀ c : Ctx) (stage : Stage) : Prop where
  stage : c.stage = stage
  active : c.active = true
  announced : c.announced = false
  addr : c.addr = c₀.addr
  len : c.len = c₀.len
  kind : c.kind = c₀.kind
  layout : c.ubiLayout = true
  mode : c.ubiFipMode = k.1
  invalidRet : c.ubiFipInvalidRet = k.2

variable {k : Mode × ℤ} {c₀ : Ctx} {u : UbiImage} {m : Mem UInt8} {st next : Stage}

theorem Running.advance {c : Ctx} (hc : Running k c₀ c st) (next : Stage) :
    Running k c₀ (c.advance next).2 next :=
  ⟨rfl, hc.active, hc.announced, hc.addr, hc.len, hc.kind, hc.layout, hc.mode, hc.invalidRet⟩

/-- The calls of one stage, made with the RAM `m` while UBI is as in `w₀`, meet `ok`. -/
def Admits (ok : Attempt → Call → Prop) (k : Mode × ℤ) (c₀ : Ctx) (m : Mem UInt8) (w₀ : World)
    (st : Stage) : Prop :=
  ∀ c w tr outs, Running k c₀ { c with announced := false } st → w.ubi = w₀.ubi →
    ok ⟨c, w, tr⟩ ⟨m, outs⟩

theorem Attempt.canReach_next (m : Mem UInt8) (hc : Running k c₀ s.ctx st)
    (hok : Admits ok k c₀ m s.world st)
    (h : ∀ c t es, Running k c₀ c st → (∀ e ∈ es, ∃ base, e.cmd = .getTimer base) →
      May exec (fun r w tr => Attempt.CanReach P ok T ⟨r.2, w, tr⟩) (runStage P c)
        { s.world with ram := m, clock := t } (s.trace ++ es)) : s.CanReach P ok T := by
  have hc' : ∀ n, Running k c₀ { s.ctx with announced := false, announcedAt := n } st := fun n =>
    ⟨hc.stage, hc.active, rfl, hc.addr, hc.len, hc.kind, hc.layout, hc.mode, hc.invalidRet⟩
  exact s.canReach_stage m hc.active hc.announced (fun outs => hok _ _ _ _ (hc' _) rfl)
    (fun n _ _ outs => hok _ _ _ _ (hc' n) rfl) fun n t es => h _ t es (hc' n)

theorem Attempt.canReach_precheck (hc : Running k c₀ s.ctx .precheck) (hnand : NativeNand s.world)
    (hcand : fipAccepts P c₀.kind (m.slice c₀.addr c₀.len) = true)
    (hpin : c₀.kind = .vanilla → Bl2Pinned P s.world)
    (hok : Admits ok k c₀ m s.world .precheck)
    (hT : ∀ c t es, Running k c₀ c .ubiAttach → (∀ e ∈ es, e.cmd.Inert) →
      Attempt.CanReach P ok T ⟨c, { s.world with ram := m, clock := t }, s.trace ++ es⟩) :
    s.CanReach P ok T := by
  refine s.canReach_next m hc hok fun c t es hc hes => ?_
  simp only [runStage, hc.stage]
  have hcand' : fipAccepts P c.kind (m.slice c.addr c.len) = true := by
    rw [hc.addr, hc.len, hc.kind]
    exact hcand
  have hmay : May exec (fun r w tr => r = { c with ubiLayout := true }.advance .ubiAttach ∧
      w = { s.world with ram := m, clock := t }) (precheck P c)
      { s.world with ram := m, clock := t } (s.trace ++ es) :=
    may_precheck ⟨hnand.geometry, hnand.magic⟩ hcand' (fun hv => hpin (hc.kind.symm.trans hv))
      fun _ => ⟨rfl, rfl⟩
  have hinert : Emits exec (fun e => e.cmd.Inert) (precheck P c) :=
    .of_uses (fun _ _ _ hc => hc) (uses_precheck (fun _ hc => hc) P c)
  refine (hmay.of_emits hinert).mono fun r w tr' hr => ?_
  obtain ⟨⟨rfl, rfl⟩, es', rfl, hes'⟩ := hr
  rw [List.append_assoc]
  refine hT _ _ _ ?_ fun e he => ?_
  · exact ⟨rfl, hc.active, hc.announced, hc.addr, hc.len, hc.kind, rfl, hc.mode, hc.invalidRet⟩
  · rcases List.mem_append.1 he with he | he
    · obtain ⟨base, hcmd⟩ := hes e he
      rw [hcmd]
      trivial
    · exact hes' e he

theorem Attempt.canReach_attach {verdict : Except ℤ ℕ} (hc : Running k c₀ s.ctx .ubiAttach)
    (hkind : (verdictMode v.data.length verdict).1 = .normal ∨ c₀.kind = .ursus)
    (hnand : NativeNand s.world) (hat : s.world.attached = none) (hpart : s.world.updatePart = none)
    (hready : s.world.ubiMtdReady = false) (hnames : (s.world.vols .native).Distinct)
    (hfip : (s.world.vols .native).lookup "fip" = some (i, v)) (hmark : v.updMarker = false)
    (hne : v.data.length ≠ 0) (hmax : v.data.length ≤ ubiFipVolSize)
    (hvalid : ∀ (w' : World) (tr' : List FlashEvent),
      May exec (fun r w₁ _ => r = verdict ∧ w₁ = w') (fipValidateCurrent P v.data) w' tr')
    (hok : Admits ok k c₀ m s.world .ubiAttach)
    (hT : ∀ c w tr, Running (verdictMode v.data.length verdict) c₀ c .ubiStagePrep →
      Mounted (s.world.ubi .native) w → w.lebSize = s.world.lebSize →
      Attempt.CanReach P ok T ⟨c, w, tr⟩) : s.CanReach P ok T := by
  refine s.canReach_next m hc hok fun c t es hc _ => ?_
  simp only [runStage, hc.stage]
  refine may_ubiAttach (hkind.imp id hc.kind.trans) ⟨hnand.geometry, hnand.magic⟩ hat hpart hready
    hnames hfip hmark hne hmax hvalid fun tr' w' hw' hleb => hT _ _ _ ?_ hw' hleb
  exact ⟨rfl, hc.active, hc.announced, hc.addr, hc.len, hc.kind, hc.layout, rfl, rfl⟩

theorem Attempt.canReach_stagePrep {u' : UbiImage} (oOld : Outcome)
    (hc : Running k c₀ s.ctx .ubiStagePrep) (hw : Mounted u s.world)
    (hnew : u.vols.find? "fip.new" = none) (hbad : u.vols.find? "fip.bad" = none)
    (hcells : oOld.cells = none)
    (hold : k.1 = .normal → oOld.err.isSome ∨ u.vols.find? "fip.old" = none)
    (hroom : (ubiFipVolSize + s.world.lebSize - 1) / s.world.lebSize ≤ u.availPebs)
    (hcreate : u.create s.world.lebSize "fip.new" 0x100000 true none = some u')
    (hok : Admits ok k c₀ m s.world .ubiStagePrep)
    (hT : ∀ c w tr, Running k c₀ c .ubiStageWrite → Mounted u' w → w.lebSize = s.world.lebSize →
      Attempt.CanReach P ok T ⟨c, w, tr⟩) : s.CanReach P ok T := by
  refine s.canReach_next m hc hok fun c t es hc _ => ?_
  simp only [runStage, hc.stage]
  have hw' := hw.later m t
  refine may_ubiStagePrep oOld hw' hnew hbad hcells (fun hmode => hold (hc.mode.symm.trans hmode))
    hroom hcreate fun tr' => hT _ _ _ ?_ (hw'.set u') rfl
  exact ⟨rfl, hc.active, hc.announced, hc.addr, hc.len, hc.kind, hc.layout, hc.mode, hc.invalidRet⟩

theorem Attempt.canReach_stageWrite {j : Fin vtblSlots} (hc : Running k c₀ s.ctx .ubiStageWrite)
    (hw : Mounted u s.world) (hnew : u.vols.lookup "fip.new" = some (j, v))
    (hfits : c₀.len ≤ v.reservedPebs * s.world.lebSize)
    (hok : Admits ok k c₀ m s.world .ubiStageWrite)
    (hT : ∀ c w tr, Running k c₀ c .ubiStageVerify →
      Mounted (u.setVolume j (v.written s.world.lebSize (m.slice c₀.addr c₀.len))) w →
      w.lebSize = s.world.lebSize → Attempt.CanReach P ok T ⟨c, w, tr⟩) : s.CanReach P ok T := by
  refine s.canReach_next m hc hok fun c t es hc _ => ?_
  simp only [runStage, hc.stage]
  have hw' := hw.later m t
  refine may_ubiStageWrite hw' hnew (by rw [hc.len]; exact hfits) fun tr' => ?_
  rw [hc.addr, hc.len]
  exact hT _ _ _ (hc.advance _) (hw'.set _) rfl

theorem Attempt.canReach_stageVerify {j : Fin vtblSlots} (hc : Running k c₀ s.ctx .ubiStageVerify)
    (hw : Mounted u s.world) (hnew : u.vols.lookup "fip.new" = some (j, v))
    (hmark : v.updMarker = false) (hdata : v.data = m.slice c₀.addr c₀.len)
    (hwindow : c₀.addr + c₀.len ≤ ubiReadbackAddr) (hacc : fipAccepts P c₀.kind v.data = true)
    (hok : Admits ok k c₀ m s.world .ubiStageVerify)
    (hT : ∀ c w tr, Running k c₀ c .ubiPromote → Mounted u w → w.lebSize = s.world.lebSize →
      Attempt.CanReach P ok T ⟨c, w, tr⟩) : s.CanReach P ok T := by
  refine s.canReach_next m hc hok fun c t es hc _ => ?_
  simp only [runStage, hc.stage]
  have hw' := hw.later m t
  have hdata' : v.data = m.slice c.addr c.len := by rw [hc.addr, hc.len, hdata]
  have hwindow' : c.addr + c.len ≤ ubiReadbackAddr := by rw [hc.addr, hc.len]; exact hwindow
  exact may_ubiStageVerify hw' hnew hmark hdata' hwindow' (by rw [hc.kind]; exact hacc) fun tr' =>
    hT _ _ _ (hc.advance _) (hw'.with_ram _) rfl

theorem Attempt.canReach_promote {i j : Fin vtblSlots} {v v' : Volume}
    (hmode : k.1 ≠ .repairMissing) (hc : Running k c₀ s.ctx .ubiPromote) (hw : Mounted u s.world)
    (hi : u.vols.lookup "fip" = some (i, v)) (hj : u.vols.lookup "fip.new" = some (j, v'))
    (hok : Admits ok k c₀ m s.world .ubiPromote)
    (hT : ∀ c w tr, Running k c₀ c .ubiVerify →
      Mounted { u with vols := u.vols.switch i (backupName k.1) j "fip" } w →
      w.lebSize = s.world.lebSize → Attempt.CanReach P ok T ⟨c, w, tr⟩) : s.CanReach P ok T := by
  refine s.canReach_next m hc hok fun c t es hc _ => ?_
  simp only [runStage, hc.stage]
  have hw' := hw.later m t
  refine may_ubiPromote (by rw [hc.mode]; exact hmode) hw' hi hj fun tr' => ?_
  rw [hc.mode]
  refine hT _ _ _ ?_ (hw'.set _) rfl
  exact ⟨rfl, hc.active, hc.announced, hc.addr, hc.len, hc.kind, hc.layout, rfl, hc.invalidRet⟩

theorem Attempt.canReach_verify (hc : Running k c₀ s.ctx .ubiVerify) (hkind : c₀.kind = .ursus)
    (hw : Mounted u s.world) (hfip : u.vols.lookup "fip" = some (i, v))
    (hmark : v.updMarker = false) (hlen : v.data.length = c₀.len)
    (hacc : fipAccepts P .ursus v.data = true)
    (hok : Admits ok k c₀ m s.world .ubiVerify)
    (hT : ∀ c w tr, c.stage = .complete ∧ c.ubiLayout = true → Mounted u w →
      Attempt.CanReach P ok T ⟨c, w, tr⟩) : s.CanReach P ok T := by
  refine s.canReach_next m hc hok fun c t es hc _ => ?_
  simp only [runStage, hc.stage]
  have hw' := hw.later m t
  exact may_ubiVerify (hc.kind.trans hkind) hw' hfip hmark (hlen.trans hc.len.symm) hacc fun tr' =>
    hT _ _ _ ⟨rfl, hc.layout⟩ (hw'.with_ram _)

theorem Attempt.canReach_unreadable (e : Errno) (hmode : k.1 = .normal)
    (hc : Running k c₀ s.ctx .ubiVerify) (hw : Mounted u s.world)
    (hfip : u.vols.lookup "fip" = some (i, v)) (hmark : v.updMarker = false) (hne : v.data ≠ [])
    (hok : Admits ok k c₀ m s.world .ubiVerify)
    (hT : ∀ c w tr, Running k c₀ c .ubiRollback → Mounted u w → Attempt.CanReach P ok T ⟨c, w, tr⟩) :
    s.CanReach P ok T := by
  refine s.canReach_next m hc hok fun c t es hc _ => ?_
  simp only [runStage, hc.stage]
  have hw' := hw.later m t
  exact may_ubiVerify_unreadable e (hc.mode.trans hmode) hw' hfip hmark hne fun tr' w' hw'' _ =>
    hT _ _ _ (hc.advance _) hw''

theorem Attempt.canReach_rollback {i j : Fin vtblSlots} {v v' : Volume}
    (hmode : k.1 = .normal) (hc : Running k c₀ s.ctx .ubiRollback) (hw : Mounted u s.world)
    (hbad : u.vols.find? "fip.bad" = none) (hi : u.vols.lookup "fip" = some (i, v))
    (hj : u.vols.lookup "fip.old" = some (j, v'))
    (hok : Admits ok k c₀ m s.world .ubiRollback)
    (hT : ∀ c w tr, c.stage = .failed →
      Mounted { u with vols := u.vols.switch i "fip.bad" j "fip" } w →
      Attempt.CanReach P ok T ⟨c, w, tr ++ [⟨.printf (rollbackOk .normal), .ok, w⟩]⟩) :
    s.CanReach P ok T := by
  refine s.canReach_next m hc hok fun c t es hc _ => ?_
  simp only [runStage, hc.stage]
  have hw' := hw.later m t
  exact may_ubiRollback (hc.mode.trans hmode) hw' hbad hi hj rfl fun tr' => hT _ _ _ rfl (hw'.set _)

/-- The validation may classify the bytes of an active `fip` as `k`. -/
def ClassifiedAs (P : Platform) (k : Mode × ℤ) (bs : List UInt8) : Prop :=
  ∃ verdict, verdictMode bs.length verdict = k ∧ ∀ (w : World) (tr : List FlashEvent),
    May exec (fun r w' _ => r = verdict ∧ w' = w) (fipValidateCurrent P bs) w tr

theorem classifiedAs_of_accepted {bs : List UInt8} (h : fipAccepts P .ursus bs = true) :
    ClassifiedAs P (.normal, 0) bs :=
  ⟨.ok bs.length, by simp [verdictMode], fun _ _ => may_fipValidateCurrent h⟩

theorem classifiedAs_of_foreign {bs raw : List UInt8} (hb : bl33 P bs = .ok raw)
    (hursus : ursusIdentity raw = false) (hstock : stockIdentity raw = false) :
    ClassifiedAs P (.repairInvalid, -enodev) bs :=
  ⟨.error (-enodev), rfl, fun _ _ => may_fipValidateCurrent_foreign hb hursus hstock⟩

/-- A board on which an update can be carried to the promotion of its candidate: `k` is the
classification of the active `fip`, `u₁` the device with an empty `fip.new`, `vCand` the volume with
the candidate in it. -/
structure Promotable (P : Platform) (k : Mode × ℤ) (c₀ : Ctx) (m : Mem UInt8) (w : World)
    (oOld : Outcome) (i j : Fin vtblSlots) (v vNew vCand : Volume) (u₁ : UbiImage) : Prop where
  nand : NativeNand w
  unattached : w.attached = none
  unregistered : w.updatePart = none
  notReady : w.ubiMtdReady = false
  names : (w.vols .native).Distinct
  fip : (w.vols .native).lookup "fip" = some (i, v)
  intact : v.updMarker = false
  nonempty : v.data.length ≠ 0
  bounded : v.data.length ≤ ubiFipVolSize
  classified : ClassifiedAs P k v.data
  allowed : k.1 = .normal ∨ c₀.kind = .ursus
  noNew : (w.vols .native).find? "fip.new" = none
  noBad : (w.vols .native).find? "fip.bad" = none
  cells : oOld.cells = none
  old : k.1 = .normal → oOld.err.isSome ∨ (w.vols .native).find? "fip.old" = none
  room : (ubiFipVolSize + w.lebSize - 1) / w.lebSize ≤ (w.ubi .native).availPebs
  create : (w.ubi .native).create w.lebSize "fip.new" 0x100000 true none = some u₁
  new : u₁.vols.lookup "fip.new" = some (j, vNew)
  fits : c₀.len ≤ vNew.reservedPebs * w.lebSize
  cand : vNew.written w.lebSize (m.slice c₀.addr c₀.len) = vCand
  candData : vCand.data = m.slice c₀.addr c₀.len
  candIntact : vCand.updMarker = false
  candidate : fipAccepts P c₀.kind (m.slice c₀.addr c₀.len) = true
  pinned : c₀.kind = .vanilla → Bl2Pinned P w
  window : c₀.addr + c₀.len ≤ ubiReadbackAddr
  fip₂ : (u₁.setVolume j vCand).vols.lookup "fip" = some (i, v)
  new₂ : (u₁.setVolume j vCand).vols.lookup "fip.new" = some (j, vCand)

/-- **Progress.** On such a board an update can be carried to the check of the promoted `fip`. -/
theorem Promotable.canReach {oOld : Outcome} {i j : Fin vtblSlots}
    {v vNew vCand : Volume} {u₁ : UbiImage}
    (h : Promotable P k c₀ m s.world oOld i j v vNew vCand u₁) (hmode : k.1 ≠ .repairMissing)
    (hc : Running (.normal, 0) c₀ s.ctx .precheck)
    (hearly : ∀ st c w tr outs, Running (.normal, 0) c₀ { c with announced := false } st →
      st = .precheck ∨ st = .ubiAttach → ok ⟨c, w, tr⟩ ⟨m, outs⟩)
    (hok : ∀ st c w tr outs, Running k c₀ { c with announced := false } st → ¬ st.Stock →
      (st = .ubiPromote → w.ubi .native = u₁.setVolume j vCand) → ok ⟨c, w, tr⟩ ⟨m, outs⟩)
    (hT : ∀ c w tr, Running k c₀ c .ubiVerify →
      Mounted { (u₁.setVolume j vCand) with
        vols := (u₁.setVolume j vCand).vols.switch i (backupName k.1) j "fip" } w →
      w.lebSize = s.world.lebSize → Attempt.CanReach P ok T ⟨c, w, tr⟩) : s.CanReach P ok T := by
  obtain ⟨verdict, rfl, hvalid⟩ := h.classified
  refine s.canReach_precheck hc h.nand h.candidate h.pinned
    (fun c w tr outs hc _ => hearly _ c w tr outs hc (.inl rfl)) fun c₁ t₁ es₁ hc₁ _ => ?_
  refine Attempt.canReach_attach hc₁ h.allowed ⟨h.nand.geometry, h.nand.magic⟩ h.unattached
    h.unregistered h.notReady h.names h.fip h.intact h.nonempty h.bounded hvalid
    (fun c w tr outs hc _ => hearly _ c w tr outs hc (.inr rfl))
    fun c₂ w₂ tr₂ hc₂ hw₂ hleb₂ => ?_
  have hleb₂ : w₂.lebSize = s.world.lebSize := hleb₂
  refine Attempt.canReach_stagePrep oOld hc₂ hw₂ h.noNew h.noBad h.cells h.old
    (by rw [hleb₂]; exact h.room) (by rw [hleb₂]; exact h.create)
    (fun c w tr outs hc _ => hok _ c w tr outs hc id (by rintro ⟨⟩)) fun c₃ w₃ tr₃ hc₃ hw₃ hleb₃ => ?_
  have hleb₃ : w₃.lebSize = s.world.lebSize := hleb₃.trans hleb₂
  refine Attempt.canReach_stageWrite hc₃ hw₃ h.new (by rw [hleb₃]; exact h.fits)
    (fun c w tr outs hc _ => hok _ c w tr outs hc id (by rintro ⟨⟩)) fun c₄ w₄ tr₄ hc₄ hw₄ hleb₄ => ?_
  have hleb₄ : w₄.lebSize = s.world.lebSize := hleb₄.trans hleb₃
  rw [hleb₃, h.cand] at hw₄
  refine Attempt.canReach_stageVerify hc₄ hw₄ h.new₂ h.candIntact h.candData h.window
    (by rw [h.candData]; exact h.candidate)
    (fun c w tr outs hc _ => hok _ c w tr outs hc id (by rintro ⟨⟩)) fun c₅ w₅ tr₅ hc₅ hw₅ hleb₅ => ?_
  exact Attempt.canReach_promote hmode hc₅ hw₅ h.fip₂ h.new₂ (fun c w tr outs hc hu =>
    hok _ c w tr outs hc id fun _ => by rw [hu]; exact hw₅.ubi) fun c₆ w₆ tr₆ hc₆ hw₆ hleb₆ =>
      hT c₆ w₆ tr₆ hc₆ hw₆ (hleb₆.trans (hleb₅.trans hleb₄))

end Attempts

/-! ## A board to run on -/

section Sample

/-- A BL33 image of 64 KiB that carries UrsusBoot's identity, as LZMA data. -/
def sampleBl33Lzma : List UInt8 :=
  [93, 0, 16, 0, 0, 0, 0, 1, 0, 0, 0, 0, 0, 0, 42, 139, 68, 71, 60, 153, 33, 68, 13, 241, 120, 248,
   3, 92, 34, 49, 81, 48, 214, 203, 198, 50, 84, 202, 30, 78, 65, 222, 13, 100, 195, 13, 70, 176,
   125, 108, 44, 83, 2, 119, 241, 195, 115, 70, 109, 4, 28, 170, 36, 116, 98, 108, 255, 108, 176,
   10, 157, 250, 75, 39, 15, 68, 71, 126, 95, 25, 61, 159, 113, 114, 136, 203, 103, 13, 198, 225,
   90, 17, 203, 145, 61, 186, 215, 170, 130, 188, 120, 194, 179, 129, 218, 26, 173, 127, 15, 95,
   103, 21, 112, 50, 25, 151, 56, 243, 158, 230, 68, 122, 107, 112, 236, 196, 102, 109, 78, 221,
   132, 121, 29, 126, 81, 33, 59, 162, 13, 107, 124, 115, 62, 44, 95, 255, 253, 79, 124, 0]

def sampleBl33 : List UInt8 :=
  asciiBytes "U-Boot 2026.07-UrsusBoot-\x00nokia,xg-040g-md\x00airoha,an7581\x00" ++
    List.replicate 65479 0

/-- 64 KiB of zeros as LZMA data: a payload that identifies nothing. -/
def blankLzma : List UInt8 :=
  [93, 0, 16, 0, 0, 0, 0, 1, 0, 0, 0, 0, 0, 0, 0, 111, 253, 255, 255, 163, 183, 255, 71, 62, 72, 21,
   114, 57, 97, 81, 184, 146, 40, 230, 163, 134, 7, 249, 238, 228, 30, 130, 211, 47, 197, 58, 60, 1,
   75, 177, 126, 201, 138, 138, 77, 47, 163, 13, 217, 127, 166, 227, 140, 35, 17, 83, 224, 89, 24,
   197, 117, 138, 226, 119, 248, 182, 148, 127, 12, 106, 192, 222, 116, 73, 100, 92, 163, 205, 231,
   163, 255, 255, 12, 28, 0, 0]

/-- A FIP around a BL33 payload of less than 256 bytes. -/
def fipAround (flags : UInt8) (nt : List UInt8) : List UInt8 :=
  [0x01, 0x00, 0x64, 0xaa, 0x78, 0x56, 0x34, 0x12] ++ [flags] ++ List.replicate 7 0 ++ ntFwUuid ++
    [0x00, 0x04, 0, 0, 0, 0, 0, 0] ++ [UInt8.ofNat nt.length, 0, 0, 0, 0, 0, 0, 0] ++
    List.replicate 24 0 ++ [UInt8.ofNat nt.length, 0x04, 0, 0, 0, 0, 0, 0] ++
    List.replicate 944 0 ++ nt

/-- Two builds of a FIP with the sample image; they differ in the flags of the header. -/
def sampleFip (build : Bool) : List UInt8 := fipAround (if build then 1 else 0) sampleBl33Lzma

def foreignFip : List UInt8 := fipAround 0 blankLzma

def samplePlatform : Platform where
  sha256 bs :=
    if bs = sampleFip false then
      [96, 8, 191, 196, 203, 134, 139, 173, 239, 140, 110, 101, 59, 254, 18, 111, 129, 147, 63, 87,
       201, 53, 20, 241, 14, 217, 8, 185, 6, 149, 78, 9]
    else if bs = sampleFip true then
      [209, 224, 173, 150, 27, 132, 48, 94, 206, 155, 245, 181, 134, 9, 55, 97, 48, 47, 161, 173,
       209, 80, 186, 37, 131, 166, 211, 33, 217, 226, 125, 135]
    else []
  lzmaBuffToBuffDecompress nt _ :=
    if nt = sampleBl33Lzma then some sampleBl33
    else if nt = blankLzma then some (List.replicate 65536 0)
    else none
  preloaderSha256 := List.replicate 32 0
  bl2ImageSha256 := List.replicate 32 0
  vanillaFipSha256 := List.replicate 32 0
  boardCompatible := "nokia,xg-040g-md"
  boardOtherCompatible := "nokia,xg-040g-mf"
  fit :=
    { checkFormat := fun _ => -einval, allImageVerify := fun _ => false, images := fun _ => []
      defaultConf := fun _ => none, compatible := fun _ => none }

theorem length_sampleBl33Lzma : sampleBl33Lzma.length = 150 := by
  simp only [sampleBl33Lzma, List.length_cons, List.length_nil]

theorem length_blankLzma : blankLzma.length = 96 := by
  simp only [blankLzma, List.length_cons, List.length_nil]

theorem length_sampleBl33 : sampleBl33.length = 65536 := by
  have h : (asciiBytes "U-Boot 2026.07-UrsusBoot-\x00nokia,xg-040g-md\x00airoha,an7581\x00").length =
      57 := by decide
  rw [sampleBl33, List.length_append, List.length_replicate, h]

theorem length_fipAround (flags : UInt8) (nt : List UInt8) :
    (fipAround flags nt).length = 0x400 + nt.length := by
  have huuid : ntFwUuid.length = 16 := rfl
  simp only [fipAround, List.length_append, List.length_replicate, List.length_cons, List.length_nil,
    huuid]

theorem bytesAt_fipAround (flags : UInt8) (nt : List UInt8) :
    bytesAt (fipAround flags nt) 0x400 nt.length = nt := by
  have huuid : ntFwUuid.length = 16 := rfl
  rw [bytesAt, fipAround, List.drop_left', List.take_length]
  simp only [List.length_append, List.length_replicate, List.length_cons, List.length_nil, huuid]

section Around

variable {flags : UInt8} {nt : List UInt8}

theorem fipHeaderOk_fipAround : fipHeaderOk (fipAround flags nt) = true := by
  have hmagic : bytesAt (fipAround flags nt) 0 4 = [0x01, 0x00, 0x64, 0xaa] := rfl
  have hserial : bytesAt (fipAround flags nt) 4 4 = [0x78, 0x56, 0x34, 0x12] := rfl
  rw [fipHeaderOk, hmagic, hserial]
  decide

theorem fipTable_fipAround (hnt : nt.length < 256) :
    fipTable (fipAround flags nt) =
      some ⟨[⟨ntFwUuid, 0x400, nt.length⟩], ⟨List.replicate 16 0, 0x400 + nt.length, 0⟩⟩ := by
  have hlen := length_fipAround flags nt
  have hlow : ∀ b : UInt8, leNat [b, 0, 0, 0, 0, 0, 0, 0] = b.toNat := fun b => by simp [leNat]
  have hend : ∀ b : UInt8, leNat [b, 0x04, 0, 0, 0, 0, 0, 0] = 0x400 + b.toNat := fun b => by
    simp [leNat, Nat.add_comm]
  have hbyte : (UInt8.ofNat nt.length).toNat = nt.length := Nat.mod_eq_of_lt hnt
  have hfirst : fipEntry (fipAround flags nt) 0 = some ⟨ntFwUuid, 0x400, nt.length⟩ := by
    have huuid : bytesAt (fipAround flags nt) 16 16 = ntFwUuid := rfl
    have hoff : bytesAt (fipAround flags nt) 32 8 = [0x00, 0x04, 0, 0, 0, 0, 0, 0] := rfl
    have hsize : bytesAt (fipAround flags nt) 40 8 =
        [UInt8.ofNat nt.length, 0, 0, 0, 0, 0, 0, 0] := rfl
    rw [fipEntry, if_pos (by omega), huuid, hoff, hsize, hend, hlow, hbyte]
    rfl
  have hlast : fipEntry (fipAround flags nt) 1 =
      some ⟨List.replicate 16 0, 0x400 + nt.length, 0⟩ := by
    have huuid : bytesAt (fipAround flags nt) 56 16 = List.replicate 16 0 := rfl
    have hoff : bytesAt (fipAround flags nt) 72 8 =
        [UInt8.ofNat nt.length, 0x04, 0, 0, 0, 0, 0, 0] := rfl
    have hsize : bytesAt (fipAround flags nt) 80 8 = [0, 0, 0, 0, 0, 0, 0, 0] := rfl
    rw [fipEntry, if_pos (by omega), huuid, hoff, hsize, hend, hlow, hbyte]
    rfl
  rw [fipTable, fipTableFrom_cons hfirst rfl, fipTableFrom_nil hlast rfl, Option.map_some]

theorem fipParse_fipAround (hpos : 0 < nt.length) (hnt : nt.length < 256) :
    fipParse (fipAround flags nt) = .ok ⟨0x400, nt.length, 0x400 + nt.length⟩ := by
  have hlen := length_fipAround flags nt
  refine fipParse_ok_iff.2
    ⟨by omega, fipHeaderOk_fipAround, _, fipTable_fipAround hnt, ⟨rfl, ?_, hlen.ge, ?_⟩, rfl, rfl⟩
  · exact Nat.le_add_right _ _
  · simp only [List.mem_singleton, forall_eq]
    exact ⟨le_rfl, hpos, hlen.ge⟩

theorem bl33_fipAround {P : Platform} {raw : List UInt8} {k : ℕ} (hk : nt.length = k)
    (hlow : 13 ≤ k) (hnt : k < 256) (hsize : leNat (bytesAt nt 5 8) = 65536)
    (hlzma : P.lzmaBuffToBuffDecompress nt 65536 = some raw) (hraw : raw.length = 65536) :
    bl33 P (fipAround flags nt) = .ok raw := by
  subst hk
  have hlen := length_fipAround flags nt
  have hmax : 0x500 ≤ ubiFipVolSize := by decide
  refine bl33_ok (by omega) (by omega) (fipParse_fipAround (by omega) hnt) hlen.symm hlow hlen.ge ?_
  dsimp only
  rw [bytesAt_fipAround]
  exact ntRaw_ok hsize (by decide) (by decide) hlzma hraw

end Around

theorem length_sampleFip (build : Bool) : (sampleFip build).length = 1174 := by
  rw [sampleFip, length_fipAround, length_sampleBl33Lzma]

theorem sampleFip_injective : sampleFip true ≠ sampleFip false := by
  intro h
  have hbyte : (sampleFip true)[8]? = (sampleFip false)[8]? := by rw [h]
  exact absurd hbyte (by decide)

theorem fipTable_sampleFip (build : Bool) : fipTable (sampleFip build) =
    some ⟨[⟨ntFwUuid, 0x400, 150⟩], ⟨List.replicate 16 0, 1174, 0⟩⟩ := by
  have hlen := length_sampleBl33Lzma
  rw [sampleFip, fipTable_fipAround (by omega), hlen]

theorem fipParse_sampleFip (build : Bool) :
    fipParse (sampleFip build) = .ok ⟨0x400, 150, 1174⟩ := by
  have hlen := length_sampleBl33Lzma
  rw [sampleFip, fipParse_fipAround (by omega) (by omega), hlen]

theorem bytesAt_sampleFip (build : Bool) : bytesAt (sampleFip build) 0x400 150 = sampleBl33Lzma := by
  rw [sampleFip, ← length_sampleBl33Lzma, bytesAt_fipAround]

theorem lzma_sampleBl33Lzma :
    samplePlatform.lzmaBuffToBuffDecompress sampleBl33Lzma 65536 = some sampleBl33 := by
  simp only [samplePlatform, if_true]

theorem sampleFip_accepted (build : Bool) :
    fipAccepts samplePlatform .ursus (sampleFip build) = true := by
  have hbl33 : bl33 samplePlatform (sampleFip build) = .ok sampleBl33 :=
    bl33_fipAround length_sampleBl33Lzma (by decide) (by decide) (by decide) lzma_sampleBl33Lzma
      length_sampleBl33
  exact fipAccepts_of_ursusIdentity hbl33 (by decide)

theorem bl33_foreignFip : bl33 samplePlatform foreignFip = .ok (List.replicate 65536 0) := by
  have hlzma : samplePlatform.lzmaBuffToBuffDecompress blankLzma 65536 =
      some (List.replicate 65536 0) := by
    have hne : blankLzma ≠ sampleBl33Lzma := by decide
    simp only [samplePlatform, if_neg hne, if_true]
  exact bl33_fipAround length_blankLzma (by decide) (by decide) (by decide) hlzma
    List.length_replicate

theorem foreignFip_classified :
    ClassifiedAs samplePlatform (.repairInvalid, -enodev) foreignFip := by
  refine classifiedAs_of_foreign bl33_foreignFip ?_ ?_
  · rw [ursusIdentity, memHas_replicate (by decide), Bool.false_and, Bool.false_and]
  · rw [stockIdentity, memHas_replicate (by decide), Bool.false_and]

abbrev sampleAddr : ℕ := 0x8e000000

def sampleRam (build : Bool) : Mem UInt8 := Mem.blit (fun _ => 0) sampleAddr (sampleFip build)

theorem slice_sampleRam (build : Bool) :
    (sampleRam build).slice sampleAddr 1174 = sampleFip build := by
  rw [← length_sampleFip build]
  exact Mem.slice_blit _ _ _

/-- A native board with the given volumes, before UBI is attached. -/
def sampleWorld (t : VolumeTable) : World where
  ram := sampleRam false
  nand := Mem.blit (fun _ => 0xff) ubiBase (asciiBytes "UBI#")
  badBlock _ := false
  geometry := some .supported
  lebSize := 0x1f000
  attached := none
  ubi _ := ⟨t, 100, 40, 40, 2000⟩
  updatePart := none
  ubiMtdReady := false
  factoryMtdReady := false
  rootfsDataMax := 0
  envRedund := false
  clock := 0

theorem sampleWorld_native (t : VolumeTable) : NativeNand (sampleWorld t) :=
  ⟨rfl, Mem.slice_blit _ _ (asciiBytes "UBI#")⟩

/-- A static volume that holds one of the sample FIPs. -/
def sampleVolume (build : Bool) : Volume := ⟨true, 9, sampleFip build, false⟩

/-- An update of the sample board that has just been started. -/
def sampleAttempt (t : VolumeTable) : Attempt where
  ctx := { addr := sampleAddr, len := 1174, kind := .ursus, ubiLayout := true
           digest := samplePlatform.sha256 (sampleFip false), stage := .precheck, active := true }
  world := sampleWorld t
  trace := []

theorem sampleAttempt_start (t : VolumeTable) : ∃ outs,
    (Prog.run exec (startKind samplePlatform {} sampleAddr 1174 .ursus) outs (sampleWorld t)).val =
      (0, (sampleAttempt t).ctx) ∧
    (Prog.run exec (startKind samplePlatform {} sampleAddr 1174 .ursus) outs (sampleWorld t)).world =
      sampleWorld t := by
  have hslice : (sampleWorld t).ram.slice sampleAddr 1174 = sampleFip false := slice_sampleRam false
  have hacc : fipAccepts samplePlatform .ursus
      ((sampleWorld t).ram.slice sampleAddr 1174) = true := by
    rw [hslice]
    exact sampleFip_accepted false
  have hstart : May exec (fun r w' _ => r = (0, (sampleAttempt t).ctx) ∧ w' = sampleWorld t)
      (startKind samplePlatform {} sampleAddr 1174 .ursus) (sampleWorld t) [] :=
    may_startKind rfl (sampleWorld_native t) hacc (fun h => nomatch h)
      fun _ => ⟨by rw [hslice]; rfl, rfl⟩
  exact hstart.run_of

theorem sampleAttempt_begins (t : VolumeTable) : (sampleAttempt t).Begins samplePlatform := by
  obtain ⟨outs, hval, hworld⟩ := sampleAttempt_start t
  exact ⟨{}, sampleAddr, 1174, .ursus, outs, sampleWorld t, hval, hworld, rfl⟩

/-- The sample device once `fip.new` has been created in slot 0. -/
def stagedImage (t : VolumeTable) : UbiImage :=
  ⟨t.put 0 "fip.new" ⟨true, 9, [], false⟩, 91, 40, 40, 2000⟩

theorem sampleAttempt_normal (t : VolumeTable) :
    Running (.normal, 0) (sampleAttempt t).ctx (sampleAttempt t).ctx .precheck :=
  ⟨rfl, rfl, rfl, rfl, rfl, rfl, rfl, rfl, rfl⟩

theorem board_promotable {P : Platform} {c₀ : Ctx} {m r : Mem UInt8} {t : VolumeTable}
    {k : Mode × ℤ} {o : Outcome} (hcand : fipAccepts P c₀.kind (m.slice c₀.addr c₀.len) = true)
    (hwindow : c₀.addr + c₀.len ≤ ubiReadbackAddr)
    (hpin : c₀.kind = .vanilla → Bl2Pinned P (sampleWorld t))
    (hallowed : k.1 = .normal ∨ c₀.kind = .ursus) (hnames : t.Distinct)
    (hfind : t.find? "fip" = some i) (hslot : t i = some ("fip", v)) (hintact : v.updMarker = false)
    (hlen : v.data.length ≠ 0 ∧ v.data.length ≤ ubiFipVolSize) (hclass : ClassifiedAs P k v.data)
    (hempty : t 0 = none) (hnew : t.find? "fip.new" = none) (hbad : t.find? "fip.bad" = none)
    (hcells : o.cells = none) (hold : k.1 = .normal → o.err.isSome ∨ t.find? "fip.old" = none) :
    Promotable P k c₀ m { sampleWorld t with ram := r } o i
      0 v ⟨true, 9, [], false⟩ ⟨true, 9, m.slice c₀.addr c₀.len, false⟩ (stagedImage t) where
  nand := ⟨(sampleWorld_native t).geometry, (sampleWorld_native t).magic⟩
  unattached := rfl
  unregistered := rfl
  notReady := rfl
  names := hnames
  fip := Slots.lookup_eq_some.2 ⟨hfind, hslot⟩
  intact := hintact
  nonempty := hlen.1
  bounded := hlen.2
  classified := hclass
  allowed := hallowed
  noNew := hnew
  noBad := hbad
  cells := hcells
  old := hold
  room := show (ubiFipVolSize + 0x1f000 - 1) / 0x1f000 ≤ 100 by decide
  create := by
    have hfree : UbiImage.freeSlot ⟨t, 100, 40, 40, 2000⟩ none = some 0 := by
      have hrange : List.finRange vtblSlots =
          (0 : Fin vtblSlots) :: (List.finRange 127).map Fin.succ := List.finRange_succ
      unfold UbiImage.freeSlot
      rw [hrange, List.find?_cons_of_pos]
      simp [hempty]
    have hsome : (t.find? "fip.new").isSome = false := by rw [hnew]; rfl
    simp only [sampleWorld, UbiImage.create, hfree, hsome]
    rfl
  new := by
    refine Slots.lookup_eq_some.2 ⟨Slots.find?_put_fresh hnew, ?_⟩
    dsimp only [stagedImage]
    rw [Slots.put_self]
  fits := by
    have hmax := (fipAccepts_length hcand).2
    rw [Mem.length_slice] at hmax
    exact hmax.trans (show ubiFipVolSize ≤ 9 * 0x1f000 by decide)
  cand := rfl
  candData := rfl
  candIntact := rfl
  candidate := hcand
  pinned := hpin
  window := hwindow
  fip₂ := by
    have hne : i ≠ 0 := by
      rintro rfl
      rw [hempty] at hslot
      cases hslot
    have hagree : Slots.Agree "fip" t (t.put 0 "fip.new" ⟨true, 9, [], false⟩) :=
      Slots.agree_put hempty (by decide)
    refine Slots.lookup_eq_some.2 ⟨?_, ?_⟩
    · rw [← hfind, hagree.find?_eq]
      exact Slots.find?_setBody
    · rw [← hslot]
      exact (Slots.setBody_of_ne hne).trans (Slots.put_of_ne hne)
  new₂ := by
    refine Slots.lookup_eq_some.2 ⟨?_, ?_⟩
    · exact Slots.find?_setBody.trans (Slots.find?_put_fresh hnew)
    · dsimp only [stagedImage, UbiImage.setVolume]
      rw [Slots.setBody_self, Slots.put_self, Option.map_some]

theorem sample_promotable {t : VolumeTable} {k : Mode × ℤ} {o : Outcome} (hnames : t.Distinct)
    (hfind : t.find? "fip" = some i) (hslot : t i = some ("fip", v)) (hintact : v.updMarker = false)
    (hlen : v.data.length ≠ 0 ∧ v.data.length ≤ ubiFipVolSize)
    (hclass : ClassifiedAs samplePlatform k v.data) (hempty : t 0 = none)
    (hnew : t.find? "fip.new" = none) (hbad : t.find? "fip.bad" = none) (hcells : o.cells = none)
    (hold : k.1 = .normal → o.err.isSome ∨ t.find? "fip.old" = none) :
    Promotable samplePlatform k (sampleAttempt t).ctx (sampleRam false) (sampleWorld t) o i
      0 v ⟨true, 9, [], false⟩ (sampleVolume false) (stagedImage t) := by
  have hslice : (sampleRam false).slice (sampleAttempt t).ctx.addr (sampleAttempt t).ctx.len =
      sampleFip false := slice_sampleRam false
  have hcand : fipAccepts samplePlatform (sampleAttempt t).ctx.kind
      ((sampleRam false).slice (sampleAttempt t).ctx.addr (sampleAttempt t).ctx.len) = true := by
    rw [hslice]
    exact sampleFip_accepted false
  have hboard := board_promotable (r := sampleRam false) hcand
    (show sampleAddr + 1174 ≤ ubiReadbackAddr by decide) (fun h => nomatch h) (.inr rfl) hnames hfind
    hslot hintact hlen hclass hempty hnew hbad hcells hold
  rw [hslice] at hboard
  exact hboard

/-- Volumes of a board that has never been updated. -/
def freshTable : VolumeTable := fun k =>
  if k = 4 then some ("fip", sampleVolume false) else none

theorem fresh_promotable : Promotable samplePlatform (.normal, 0) (sampleAttempt freshTable).ctx
    (sampleRam false) (sampleWorld freshTable) .ok 4 0 (sampleVolume false) ⟨true, 9, [], false⟩
    (sampleVolume false) (stagedImage freshTable) :=
  sample_promotable (by decide) (by decide) rfl rfl
    (fipAccepts_length (sampleFip_accepted false))
    (classifiedAs_of_accepted (sampleFip_accepted false)) rfl (by decide)
    (by decide) rfl fun _ => .inr (by decide)

/-- Volumes of a board that has been updated before: the previous bootloader is still there. -/
def staleTable : VolumeTable := fun k =>
  if k = 4 then some ("fip.old", sampleVolume true)
  else if k = 7 then some ("fip", sampleVolume false) else none

theorem stale_promotable : Promotable samplePlatform (.normal, 0) (sampleAttempt staleTable).ctx
    (sampleRam false) (sampleWorld staleTable) (.fails ⟨-eio, by decide⟩) 7 0 (sampleVolume false)
    ⟨true, 9, [], false⟩ (sampleVolume false) (stagedImage staleTable) :=
  sample_promotable (by decide) (by decide) rfl rfl
    (fipAccepts_length (sampleFip_accepted false))
    (classifiedAs_of_accepted (sampleFip_accepted false)) rfl (by decide)
    (by decide) rfl fun _ => .inl rfl

end Sample

end FipUpdate

end UrsusBoot
