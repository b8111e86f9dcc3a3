import UrsusBoot.Safety.FipFrame

/-!
# Dropping the active `fip`

When `fip.new` does not fit beside an invalid `fip`, UBI_STAGE_PREP removes `fip`. Whether it does
so is decided from the error code of the validator, which does not only reject what cannot boot: it
also rejects FIPs that are too large, followed by other bytes, or unpacked to an unusual size, and
it fails when memory is short.
-/

namespace UrsusBoot

open Prog

namespace FipUpdate

/-! ## What can boot -/

/-- The size to which a BL33 payload says it unpacks. -/
def declaredRaw (nt : List UInt8) : ℕ := leNat (bytesAt nt 5 8)

/-- The bytes parse as a FIP whose BL33 payload unpacks to the size it declares. -/
def Bootable (P : Platform) (bs : List UInt8) : Prop :=
  ∃ toc raw, fipParse bs = .ok toc ∧ 13 ≤ toc.ntSize ∧
    P.lzmaBuffToBuffDecompress (bytesAt bs toc.ntOff toc.ntSize)
      (declaredRaw (bytesAt bs toc.ntOff toc.ntSize)) = some raw ∧
    raw.length = declaredRaw (bytesAt bs toc.ntOff toc.ntSize)

/-- The attached device has an active `fip` that can be read and can boot. -/
def BootableFip (P : Platform) (w : World) : Prop :=
  ∃ p i v, w.attached = some p ∧ (w.vols p.area).lookup "fip" = some (i, v) ∧
    v.updMarker = false ∧ Bootable P v.data

/-- What the validator asks besides: the FIP fills the volume's used bytes and fits the size of a
`fip`, and its payload unpacks to between 64 KiB and 2 MiB. -/
def Plain (bs : List UInt8) : Prop :=
  bs.length ≤ ubiFipVolSize ∧ ∀ toc, fipParse bs = .ok toc → toc.declaredEnd = bs.length ∧
    0x10000 ≤ declaredRaw (bytesAt bs toc.ntOff toc.ntSize) ∧
    declaredRaw (bytesAt bs toc.ntOff toc.ntSize) ≤ fipRawMax

/-- The active `fip` could not be read. -/
def FipUnread (e : FlashEvent) : Prop :=
  ∃ addr size, e.cmd = .ubiRead addr "fip" size ∧
    (exec (.ubiRead addr "fip" size) e.out e.before).1 ≠ 0

/-- The command does not lead to a wrong verdict: memory is not short, and an active `fip` that can
boot is opened and is one the validator knows. -/
structure Judged (P : Platform) (e : FlashEvent) : Prop where
  heap : ∀ size, e.cmd = .malloc size → e.out.err = none
  opened : e.cmd = .ubiOpenVolume "fip" → e.out.err = none
  plain : e.cmd = .ubiOpenVolume "fip" → ∀ p i v, e.before.attached = some p →
    (e.before.vols p.area).lookup "fip" = some (i, v) → Bootable P v.data → Plain v.data

/-- The active `fip` is dropped only if it cannot boot, or could not be read before. -/
def DropsBroken (P : Platform) (before : List FlashEvent) (e : FlashEvent) : Prop :=
  e.cmd = .ubiRemove "fip" → BootableFip P e.before → ∃ e' ∈ before, FipUnread e'

section Verdict

variable {P : Platform} {bs : List UInt8} {w w' : World}

theorem BootableFip.of_agree (h : BootableFip P w) (hat : w'.attached = w.attached)
    (hv : ∀ a, Slots.Agree "fip" (w.vols a) (w'.vols a)) : BootableFip P w' := by
  obtain ⟨p, i, v, hp, hl, hmark, hboot⟩ := h
  exact ⟨p, i, v, hat.trans hp, (hv p.area).lookup_eq_some hl, hmark, hboot⟩

theorem ReadStep.bootableFip (h : ReadStep w w') : BootableFip P w' ↔ BootableFip P w := by
  constructor
  · intro hboot
    refine hboot.of_agree h.attached.symm fun a => ?_
    rw [h.vols a]
    exact .refl _ _
  · intro hboot
    refine hboot.of_agree h.attached fun a => ?_
    rw [h.vols a]
    exact .refl _ _

theorem unpackNt_judged {nt raw : List UInt8} (hmin : 0x10000 ≤ declaredRaw nt)
    (hmax : declaredRaw nt ≤ fipRawMax)
    (hlzma : P.lzmaBuffToBuffDecompress nt (declaredRaw nt) = some raw)
    (hraw : raw.length = declaredRaw nt) :
    Yields exec (Judged P) (fun r => r = .ok raw) (unpackNt P nt) := by
  have hsize : ¬ (leNat (bytesAt nt 5 8) < 0x10000 ∨ fipRawMax < leNat (bytesAt nt 5 8)) := by
    unfold declaredRaw at hmin hmax
    omega
  have hlzma' : P.lzmaBuffToBuffDecompress nt (leNat (bytesAt nt 5 8)) = some raw := hlzma
  unfold unpackNt
  dsimp only
  rw [if_neg hsize, hlzma']
  refine yields_bind (P := fun ok => ok = true) ?_ fun ok hok => ?_
  · intro w o ho
    exact ⟨trivial, by rw [show (exec (.malloc _) o w).1 = o.err.isNone from rfl, ho.heap _ rfl]; rfl⟩
  · rw [hok, if_neg (by simp)]
    exact yields_ret (if_pos hraw)

theorem fipValidateCurrent_judged (hboot : Bootable P bs) (hplain : Plain bs) :
    Yields exec (Judged P) (fun r => r = .ok bs.length ∨ r = .error (-enodev))
      (fipValidateCurrent P bs) := by
  obtain ⟨toc, raw, hparse, hnt, hlzma, hraw⟩ := hboot
  obtain ⟨hend, hmin, hmax⟩ := hplain.2 toc hparse
  obtain ⟨hinside, hlong⟩ := fipParse_inside hparse
  have hrange : ¬ (toc.declaredEnd = 0 ∨ bs.length < toc.declaredEnd ∨ toc.ntSize < 13 ∨
      toc.declaredEnd < toc.ntOff + toc.ntSize) := by omega
  unfold fipValidateCurrent
  rw [hparse]
  dsimp only
  rw [if_neg hrange]
  refine yields_bind (unpackNt_judged hmin hmax hlzma hraw) fun r hr => ?_
  rw [hr]
  apply yields_ret
  split_ifs
  · exact .inr rfl
  · exact .inl (by rw [hend])

theorem classifyActiveFip_judged (w : World) :
    Spec exec (fun e => Judged P e ∧ ¬ FipUnread e) (fun _ => True)
      (fun r w' => r.1 = .repairInvalid → r.2 ≠ -enodev → ¬ BootableFip P w')
      (classifyActiveFip P) w := by
  by_cases hboot : BootableFip P w
  swap
  · have hreads : Uses Cmd.Reads (classifyActiveFip P) :=
      uses_classifyActiveFip (fun c hc => hc.reads) P fun used => le_refl _
    have hkeep := (spec_reads (A := fun e => Judged P e ∧ ¬ FipUnread e) hreads w).weaken
      (fun _ h => h) fun _ _ _ => trivial
    refine hkeep.mono fun r w' hstep _ _ hboot' => hboot ?_
    exact (ReadStep.bootableFip hstep).1 hboot'
  apply spec_next (Cmd.ubiCheck "fip")
  intro o₁ _
  refine ⟨trivial, spec_ite (fun _ h => nomatch h) fun _ => ?_⟩
  set w₁ := (exec (.ubiCheck "fip") o₁ w).2
  have hstep₁ : ReadStep w w₁ := exec_reads (c := .ubiCheck "fip") trivial o₁ w
  obtain ⟨p, i, v, hp, hl, hmark, hboot₁⟩ := (ReadStep.bootableFip hstep₁).2 hboot
  apply spec_next (Cmd.ubiOpenVolume "fip")
  intro o₂ ho₂
  refine ⟨trivial, ?_⟩
  have hplain : Plain v.data := ho₂.1.plain rfl p i v hp hl hboot₁
  set w₂ := (exec (.ubiOpenVolume "fip") o₂ w₁).2
  have hopen : (exec (.ubiOpenVolume "fip") o₂ w₁).1 =
      .ok ⟨i, v.static, v.data.length, v.reservedPebs, w₁.lebSize⟩ := by
    have hl' : (w₁.ubi p.area).vols.lookup "fip" = some (i, v) := hl
    have herr : o₂.err = none := ho₂.1.opened rfl
    simp only [exec, World.ubiOpenVolume, World.device, hp, herr, Option.map_some, Option.bind_some,
      hl']
  have hstep₂ : ReadStep w₁ w₂ := exec_reads (c := .ubiOpenVolume "fip") trivial o₂ w₁
  rw [hopen]
  -- the size is one the classification accepts
  obtain ⟨toc, raw, hparse, -⟩ := id hboot₁
  have hlong := (fipParse_inside hparse).2
  refine spec_ite (fun hbad => ?_) fun _ => ?_
  · have hsize := hplain.1
    dsimp only at hbad
    omega
  apply spec_next (Cmd.ubiRead ubiReadbackAddr "fip" v.data.length)
  intro o₃ ho₃
  have hzero : (w₂.ubiRead o₃ ubiReadbackAddr "fip" v.data.length).1 = 0 := by
    by_contra hne
    exact ho₃.2 ⟨ubiReadbackAddr, v.data.length, rfl, hne⟩
  refine ⟨trivial, spec_ite (fun hne => absurd hzero hne) fun _ => ?_⟩
  -- what it looks at is the content of the volume
  obtain ⟨q, j, x, hq, hx, -, hram⟩ := World.ubiRead_of_zero hzero
  obtain rfl : p = q := Option.some.inj (hp.symm.trans (hstep₂.attached.symm.trans hq))
  have hx' : (w₁.vols p.area).lookup "fip" = some (j, x) := by
    rw [← hstep₂.vols p.area]
    exact hx
  obtain ⟨rfl, rfl⟩ : i = j ∧ v = x := Prod.mk.inj (Option.some.inj (hl.symm.trans hx'))
  apply spec_next (Cmd.readMem ubiReadbackAddr v.data.length)
  intro o₄ _
  refine ⟨trivial, ?_⟩
  have hbuf : (exec (.readMem ubiReadbackAddr v.data.length) o₄
      (exec (.ubiRead ubiReadbackAddr "fip" v.data.length) o₃ w₂).2).1 = v.data := by
    have hram' : (exec (.ubiRead ubiReadbackAddr "fip" v.data.length) o₃ w₂).2.ram =
        w₂.ram.blit ubiReadbackAddr v.data := by
      rw [show (exec (.ubiRead ubiReadbackAddr "fip" v.data.length) o₃ w₂).2.ram =
        (w₂.ubiRead o₃ ubiReadbackAddr "fip" v.data.length).2.ram from rfl, hram, if_neg (by omega),
        List.take_length]
    show (exec (.ubiRead ubiReadbackAddr "fip" v.data.length) o₃ w₂).2.ram.slice ubiReadbackAddr
      v.data.length = v.data
    rw [hram']
    exact Mem.slice_blit _ _ _
  rw [hbuf]
  have hverdict : ∀ w', Spec exec (fun e => Judged P e ∧ ¬ FipUnread e) (fun _ => True)
      (fun r _ => r = .ok v.data.length ∨ r = .error (-enodev)) (fipValidateCurrent P v.data) w' :=
    fun w' => (fipValidateCurrent_judged hboot₁ hplain w').weaken (fun _ h => h.1) fun _ _ _ => trivial
  refine (hverdict _).bind fun r w' hr => ?_
  rcases hr with rfl | rfl
  · intro hmode
    simp at hmode
  · exact fun _ hret => absurd rfl hret

end Verdict

/-! ## Stages -/

section Stages

variable {P : Platform} {c : Ctx}

theorem Routine.not_drops {c : Cmd} (h : Routine c) : ¬ Drops c := by
  rintro rfl
  have hmem : "fip" ∈ ["fip.new", "fip.old", "fip.bad"] := h
  exact absurd hmem (by decide)

theorem runStage_not_drops (hne : c.stage ≠ .ubiStagePrep) :
    Emits exec (fun e => ¬ Drops e.cmd) (runStage P c) := by
  by_cases hstock : c.stage.Stock
  · refine .of_uses (fun c o w hc => ?_) (issues_stock P hstock)
    rintro rfl
    exact hc
  · refine emits_native P hstock (fun c o w hc => hc.not_drops) (fun hs => absurd hs hne)
      (fun _ c o w hc hdrop => ?_) fun cur cand back e _ he hdrop => ?_
    · obtain ⟨addr, size, n, -, hcmd⟩ := hc
      exact Cmd.noConfusion (hdrop.symm.trans hcmd)
    · obtain ⟨p, i, j, -, -, -, hcmd⟩ := he
      exact Cmd.noConfusion (hdrop.symm.trans hcmd)

theorem ubiAttach_judged (w : World) :
    Spec exec (fun e => Judged P e ∧ ¬ FipUnread e) (fun _ => True)
      (fun r w' => r.2.stage = .ubiStagePrep → r.2.ubiFipMode = .repairInvalid →
        r.2.ubiFipInvalidRet ≠ -enodev → ¬ BootableFip P w') (ubiAttach P c) w := by
  have hany : Spec exec (fun e => Judged P e ∧ ¬ FipUnread e) (fun _ => True) (fun _ _ => True)
      ensureUbiAttachment w := yields_true ensureUbiAttachment w
  refine hany.bind fun ret w₁ _ => spec_ite (fun _ h => nomatch h) fun _ => ?_
  refine (classifyActiveFip_judged w₁).bind fun r w₂ hr => ?_
  refine spec_ite (fun _ => ?_) fun _ _ hmode hret => hr hmode hret
  by_cases hmode : r.1 = .repairMissing
  · simp only [hmode, if_true]
    exact fun h => nomatch h
  · simp only [hmode, if_false]
    exact fun h => nomatch h

theorem cleanup_bootableFip {α : Type} {p : FlashProg α} (w : World)
    (hp : Uses (Cmd.Edits ["fip.new", "fip.old", "fip.bad"]) p) :
    Spec exec (fun _ => True) (fun e => ¬ Drops e.cmd)
      (fun _ w' => BootableFip P w' → BootableFip P w) p w := by
  refine Spec.of_uses (I := fun w' => BootableFip P w' → BootableFip P w)
    (fun c o w' hc _ hw' => ⟨?_, fun hboot => hw' ?_⟩) hp id
  · rintro rfl
    have hmem : "fip" ∈ ["fip.new", "fip.old", "fip.bad"] := hc
    exact absurd hmem (by decide)
  · refine hboot.of_agree (exec_edits hc o w').1.symm fun a => ?_
    exact (exec_agree o w' a (hc.spares (by decide))).symm

theorem createFipNew_not_drops (avail need : ℕ) (w : World) :
    Spec exec (fun _ => True) (fun e => ¬ Drops e.cmd) (fun _ _ => True) (createFipNew c avail need) w := by
  have huses : Uses (fun c => ¬ Drops c) (createFipNew c avail need) :=
    uses_createFipNew (fun _ _ _ h => nomatch h) c avail need
  exact Emits.of_uses (fun _ _ _ hc => hc) huses w

theorem fipNewHeadroom_not_drops (w : World) :
    Spec exec (fun _ => True) (fun e => ¬ Drops e.cmd) (fun _ w' => BootableFip P w' → BootableFip P w)
      fipNewHeadroom w :=
  cleanup_bootableFip w (uses_fipNewHeadroom fun _ hc => hc.query.edits _)

theorem ubiStagePrep_drops (w : World) (h : c.ubiFipMode = .repairInvalid →
      c.ubiFipInvalidRet ≠ -enodev → ¬ BootableFip P w) :
    Spec exec (fun _ => True) (fun e => Drops e.cmd → ¬ BootableFip P e.before) (fun _ _ => True)
      (ubiStagePrep c) w := by
  have hquiet : ∀ {α : Type} {p : FlashProg α} {w : World} {Q : α → World → Prop},
      Spec exec (fun _ => True) (fun e => ¬ Drops e.cmd) Q p w →
      Spec exec (fun _ => True) (fun e => Drops e.cmd → ¬ BootableFip P e.before) Q p w :=
    fun hp => hp.weaken (fun _ h => h) fun _ _ hne hdrop => absurd hdrop hne
  have hremove : ∀ n ∈ ["fip.new", "fip.old", "fip.bad"], ∀ w,
      Spec exec (fun _ => True) (fun e => Drops e.cmd → ¬ BootableFip P e.before)
        (fun _ w' => BootableFip P w' → BootableFip P w) (removeIfPresent n) w :=
    fun n hn w => hquiet (cleanup_bootableFip w (uses_removeIfPresent trivial hn))
  -- the decision itself, in a world that is no better than the one the verdict was about
  have hreserve : ∀ w', (BootableFip P w' → BootableFip P w) →
      Spec exec (fun _ => True) (fun e => Drops e.cmd → ¬ BootableFip P e.before) (fun _ _ => True)
        (reserveFipNew { c with writeStarted := true }) w' := by
    intro w' hw'
    refine (hquiet (fipNewHeadroom_not_drops (P := P) w')).bind fun r w₁ h₁ => ?_
    cases r with
    | none => trivial
    | some room =>
      refine spec_ite (fun hcond => ?_) fun _ => hquiet (createFipNew_not_drops _ _ w₁)
      apply spec_next (Cmd.ubiRemove "fip")
      intro o _
      refine ⟨fun _ hboot => h hcond.2.1 hcond.2.2 (hw' (h₁ hboot)), ?_⟩
      refine spec_ite (fun _ => trivial) fun _ => ?_
      refine (hquiet (fipNewHeadroom_not_drops (P := P) _)).bind fun r w₂ _ => ?_
      cases r with
      | none => trivial
      | some room => exact hquiet (createFipNew_not_drops _ _ w₂)
  refine (hremove "fip.new" (by decide) w).bind fun _ w₁ h₁ => ?_
  apply spec_ite
  · intro _
    refine (hremove "fip.old" (by decide) w₁).bind fun _ w₂ h₂ => ?_
    refine (hremove "fip.bad" (by decide) w₂).bind fun _ w₃ h₃ => ?_
    exact hreserve w₃ fun hboot => h₁ (h₂ (h₃ hboot))
  · intro _
    refine (hremove "fip.bad" (by decide) w₁).bind fun _ w₂ h₂ => ?_
    exact hreserve w₂ fun hboot => h₁ (h₂ hboot)

end Stages

/-! ## Attempts -/

/-- The invariant of an update: UBI_STAGE_PREP is entered with a sound verdict, and `fip` has been
dropped on a sound verdict only. -/
structure Sound (P : Platform) (s : Attempt) : Prop where
  verdict : (∀ e ∈ s.trace, Judged P e ∧ ¬ FipUnread e) → s.ctx.stage = .ubiStagePrep →
    s.ctx.ubiFipMode = .repairInvalid → s.ctx.ubiFipInvalidRet ≠ -enodev → ¬ BootableFip P s.world
  record : Recorded (fun before e => (∀ e' ∈ before, Judged P e' ∧ ¬ FipUnread e') →
    Drops e.cmd → ¬ BootableFip P e.before) s.trace

section Runs

variable {P : Platform} {s : Attempt}

theorem Sound.waited (h : Sound P s) {m : Mem UInt8} {es : List FlashEvent}
    (hes : ∀ e ∈ es, Tick { s.world with ram := m } e) (b : Bool) (n t : ℕ) :
    Sound P (s.waited m b n t es) := by
  constructor
  · intro hall hst hmode hret
    exact h.verdict (fun e he => hall e (List.mem_append_left _ he)) hst hmode hret
  · apply recorded_append h.record
    intro e he tr' _ _ hdrop
    obtain ⟨base, hcmd⟩ := (hes e he).timer
    exact Cmd.noConfusion (hcmd.symm.trans hdrop)

theorem Sound.stage (h : Sound P s) (outs : ℕ → Outcome) : Sound P (s.stage P outs) := by
  constructor
  · intro hall hst hmode hret
    rcases s.stage_next P outs with hf | hnext
    · rw [hst] at hf
      cases hf
    -- UBI_ATTACH is the only stage that leads to UBI_STAGE_PREP
    have hattach : s.ctx.stage = .ubiAttach := by
      rw [hst] at hnext
      revert hnext
      cases s.ctx.stage <;> decide
    have hspec : Spec exec (fun e => Judged P e ∧ ¬ FipUnread e) (fun _ => True)
        (fun r w' => r.2.stage = .ubiStagePrep → r.2.ubiFipMode = .repairInvalid →
          r.2.ubiFipInvalidRet ≠ -enodev → ¬ BootableFip P w') (runStage P s.ctx) s.world := by
      simp only [runStage, hattach]
      exact ubiAttach_judged s.world
    have hrun := (hspec.run_of outs fun e he => hall e (List.mem_append_right _ he)).2
    exact hrun hst hmode hret
  · apply recorded_append h.record
    intro e he tr' htr' hall hdrop
    by_cases hprep : s.ctx.stage = .ubiStagePrep
    · have hbefore : ∀ e ∈ s.trace, Judged P e ∧ ¬ FipUnread e := fun e he =>
        hall e (htr'.subset he)
      have hspec : Spec exec (fun _ => True) (fun e => Drops e.cmd → ¬ BootableFip P e.before)
          (fun _ _ => True) (runStage P s.ctx) s.world := by
        simp only [runStage, hprep]
        exact ubiStagePrep_drops s.world (h.verdict hbefore hprep)
      exact (hspec.run_of outs fun _ _ => trivial).1 e he hdrop
    · exact absurd hdrop ((runStage_not_drops (P := P) hprep).run_of outs s.world e he)

theorem sound_run {s₀ : Attempt} (hbegin : s₀.Begins P) (is : List Call) :
    Sound P (runFrom (Attempt.call P) s₀ is) := by
  refine history_run (J := fun _ => Sound P) ?_ (fun is i h => ?_) is
  · constructor
    · intro _ hst
      rw [hbegin.started.stage] at hst
      cases hst
    · obtain ⟨-, -, -, -, -, -, -, -, htrace⟩ := hbegin
      rw [htrace]
      exact recorded_nil _
  · exact Attempt.call_keeps i (fun b n t es hes => h.waited hes b n t) fun s' hs' _ _ outs =>
      hs'.stage outs

end Runs

/-! ## A board without room -/

section Records

variable {P : Platform} {c : Ctx} {w : World} {tr : List FlashEvent}

def NoRead (c : Cmd) : Prop := ∀ addr n size, c ≠ .ubiRead addr n size

theorem noRead_of_query (c : Cmd) (h : c.Query) : NoRead c := by
  rintro addr n size rfl
  exact h

theorem NoRead.not_fipUnread {e : FlashEvent} (h : NoRead e.cmd) : ¬ FipUnread e := by
  rintro ⟨addr, size, hcmd, -⟩
  exact h addr "fip" size hcmd

/-- The record has grown, and not by a failing read of `fip`. -/
def StillReadable (tr tr' : List FlashEvent) : Prop :=
  ∃ es, tr' = tr ++ es ∧ ∀ e ∈ es, ¬ FipUnread e

theorem StillReadable.concat {tr' : List FlashEvent} (h : StillReadable tr tr') {e : FlashEvent}
    (he : ¬ FipUnread e) : StillReadable tr (tr' ++ [e]) := by
  obtain ⟨es, rfl, hes⟩ := h
  refine ⟨es ++ [e], List.append_assoc _ _ _, fun x hx => ?_⟩
  rcases List.mem_append.1 hx with hx | hx
  · exact hes x hx
  · rw [List.mem_singleton.1 hx]
    exact he

theorem stillReadable_of_uses {α : Type} {p : FlashProg α} (hp : Uses NoRead p)
    {tr' : List FlashEvent} (h : StillReadable tr tr') :
    Records exec (fun _ _ => True) (fun _ _ tr'' => StillReadable tr tr'') p w tr' :=
  Records.of_uses (I := fun _ tr'' => StillReadable tr tr'')
    (fun _ _ _ _ hc h => ⟨trivial, h.concat (NoRead.not_fipUnread hc)⟩) hp h

theorem classifyActiveFip_reads {tr' : List FlashEvent} (h : StillReadable tr tr') :
    Records exec (fun _ _ => True) (fun r _ tr'' => r.2 ≠ -eio → StillReadable tr tr'')
      (classifyActiveFip P) w tr' := by
  apply records_next (Cmd.ubiCheck "fip")
  intro o₁
  have h₁ := h.concat (e := ⟨.ubiCheck "fip", o₁, w⟩) (NoRead.not_fipUnread (by rintro _ _ _ ⟨⟩))
  refine ⟨trivial, records_ite (fun _ _ => h₁) fun _ => ?_⟩
  apply records_next (Cmd.ubiOpenVolume "fip")
  intro o₂
  refine ⟨trivial, ?_⟩
  have h₂ := h₁.concat (e := ⟨.ubiOpenVolume "fip", o₂, (exec (.ubiCheck "fip") o₁ w).2⟩)
    (NoRead.not_fipUnread (by rintro _ _ _ ⟨⟩))
  cases (exec (.ubiOpenVolume "fip") o₂ (exec (.ubiCheck "fip") o₁ w).2).1 with
  | error e => exact fun _ => h₂
  | ok d =>
    refine records_ite (fun _ _ => h₂) fun _ => ?_
    apply records_next (Cmd.ubiRead ubiReadbackAddr "fip" d.usedBytes)
    intro o₃
    refine ⟨trivial, records_ite (fun _ hret => absurd rfl hret) fun hzero => ?_⟩
    have h₃ := h₂.concat (e := ⟨.ubiRead ubiReadbackAddr "fip" d.usedBytes, o₃,
      (exec (.ubiOpenVolume "fip") o₂ (exec (.ubiCheck "fip") o₁ w).2).2⟩) (by
        rintro ⟨addr, size, hcmd, hne⟩
        injection hcmd with haddr _ hsize
        subst haddr hsize
        exact hzero hne)
    have hrest : ∀ buf, Uses NoRead (fipValidateCurrent P buf) := fun buf =>
      uses_fipValidateCurrent (inert_of_query noRead_of_query) P buf
    apply records_next (Cmd.readMem ubiReadbackAddr d.usedBytes)
    intro o₄
    refine ⟨trivial, ?_⟩
    have h₄ := fun w' => h₃.concat (e := ⟨.readMem ubiReadbackAddr d.usedBytes, o₄, w'⟩)
      (NoRead.not_fipUnread (by rintro _ _ _ ⟨⟩))
    refine (stillReadable_of_uses (hrest _) (h₄ _)).bind fun r w' tr'' hr => ?_
    cases r with
    | error e => exact fun _ => hr
    | ok n => exact fun _ => hr

theorem ubiAttach_reads : Records exec (fun _ _ => True)
    (fun r _ tr' => r.2.ubiFipInvalidRet ≠ -eio → StillReadable tr tr') (ubiAttach P c) w tr := by
  have hattach : Uses NoRead ensureUbiAttachment :=
    uses_ensureUbiAttachment noRead_of_query fun _ => by rintro _ _ _ ⟨⟩
  have hnil : StillReadable tr tr := ⟨[], (List.append_nil tr).symm, fun _ he => nomatch he⟩
  refine (stillReadable_of_uses hattach hnil).bind fun ret w₁ tr₁ h₁ => ?_
  refine records_ite (fun _ _ => h₁) fun _ => ?_
  refine (classifyActiveFip_reads h₁).bind fun r w₂ tr₂ h₂ => ?_
  refine records_ite (fun _ => ?_) fun _ => h₂
  by_cases hmode : r.1 = .repairMissing
  · rw [if_pos hmode]
    exact h₂
  · rw [if_neg hmode]
    exact h₂

theorem may_fipValidateCurrent_noMemory {buf : List UInt8} {toc : FipToc}
    (hparse : fipParse buf = .ok toc) (hend : toc.declaredEnd = buf.length) (hnt : 13 ≤ toc.ntSize)
    (hmin : 0x10000 ≤ declaredRaw (bytesAt buf toc.ntOff toc.ntSize))
    (hmax : declaredRaw (bytesAt buf toc.ntOff toc.ntSize) ≤ fipRawMax) :
    May exec (fun r w' _ => r = .error (-enomem) ∧ w' = w) (fipValidateCurrent P buf) w tr := by
  obtain ⟨hinside, hlong⟩ := fipParse_inside hparse
  have hrange : ¬ (toc.declaredEnd = 0 ∨ buf.length < toc.declaredEnd ∨ toc.ntSize < 13 ∨
      toc.declaredEnd < toc.ntOff + toc.ntSize) := by omega
  have hsize : ¬ (leNat (bytesAt (bytesAt buf toc.ntOff toc.ntSize) 5 8) < 0x10000 ∨
      fipRawMax < leNat (bytesAt (bytesAt buf toc.ntOff toc.ntSize) 5 8)) := by
    unfold declaredRaw at hmin hmax
    omega
  unfold fipValidateCurrent unpackNt
  rw [hparse]
  dsimp only
  rw [if_neg hrange, if_neg hsize]
  exact ⟨.fails ⟨-enomem, by decide⟩, rfl, rfl⟩

theorem classifiedAs_of_noMemory {buf : List UInt8} {toc : FipToc}
    (hparse : fipParse buf = .ok toc) (hend : toc.declaredEnd = buf.length) (hnt : 13 ≤ toc.ntSize)
    (hmin : 0x10000 ≤ declaredRaw (bytesAt buf toc.ntOff toc.ntSize))
    (hmax : declaredRaw (bytesAt buf toc.ntOff toc.ntSize) ≤ fipRawMax) :
    ClassifiedAs P (.repairInvalid, -enomem) buf :=
  ⟨.error (-enomem), rfl, fun _ _ => may_fipValidateCurrent_noMemory hparse hend hnt hmin hmax⟩

theorem Attempt.canReach_attach_read {s : Attempt} {T : Attempt → Prop} {k₀ k : Mode × ℤ} {c₀ : Ctx}
    {i : Fin vtblSlots} {v : Volume} (m : Mem UInt8) (hc : Running k₀ c₀ s.ctx .ubiAttach)
    (hkind : c₀.kind = .ursus) (hnand : NativeNand s.world) (hat : s.world.attached = none)
    (hpart : s.world.updatePart = none) (hready : s.world.ubiMtdReady = false)
    (hnames : (s.world.vols .native).Distinct)
    (hfip : (s.world.vols .native).lookup "fip" = some (i, v)) (hmark : v.updMarker = false)
    (hne : v.data.length ≠ 0) (hmax : v.data.length ≤ ubiFipVolSize)
    (hclass : ClassifiedAs P k v.data) (hret : k.2 ≠ -eio)
    (hT : ∀ c w es, Running k c₀ c .ubiStagePrep → (∀ e ∈ es, ¬ FipUnread e) →
      Mounted (s.world.ubi .native) w → w.lebSize = s.world.lebSize →
      Attempt.CanReach P (fun _ _ => True) T ⟨c, w, s.trace ++ es⟩) :
    s.CanReach P (fun _ _ => True) T := by
  refine s.canReach_next m hc (fun _ _ _ _ _ _ => trivial) fun c t es hc hes => ?_
  simp only [runStage, hc.stage]
  obtain ⟨verdict, rfl, hvalid⟩ := hclass
  have hmay : May exec (fun r w' _ => Running (verdictMode v.data.length verdict) c₀ r.2 .ubiStagePrep ∧
      Mounted (s.world.ubi .native) w' ∧ w'.lebSize = s.world.lebSize) (ubiAttach P c)
      { s.world with ram := m, clock := t } (s.trace ++ es) := by
    refine may_ubiAttach (.inr (hc.kind.trans hkind)) ⟨hnand.geometry, hnand.magic⟩ hat hpart hready
      hnames hfip hmark hne hmax hvalid fun tr' w' hw' hleb => ⟨?_, hw', hleb⟩
    exact ⟨rfl, hc.active, hc.announced, hc.addr, hc.len, hc.kind, hc.layout, rfl, rfl⟩
  refine (hmay.of_records ubiAttach_reads).mono fun r w' tr' hr => ?_
  obtain ⟨⟨hrun, hw', hleb⟩, hread⟩ := hr
  obtain ⟨es', rfl, hes'⟩ := hread (by rw [hrun.invalidRet]; exact hret)
  rw [List.append_assoc]
  refine hT _ w' _ hrun (fun e he => ?_) hw' hleb
  rcases List.mem_append.1 he with he | he
  · obtain ⟨base, hcmd⟩ := hes e he
    exact NoRead.not_fipUnread (by rw [hcmd]; rintro _ _ _ ⟨⟩)
  · exact hes' e he

theorem may_ubiStagePrep_drops {u : UbiImage} (h : Mounted u w)
    (hmode : c.ubiFipMode = .repairInvalid) (hret : c.ubiFipInvalidRet ≠ -enodev)
    (hnew : u.vols.find? "fip.new" = none) (hbad : u.vols.find? "fip.bad" = none)
    (hroom : u.availPebs < (ubiFipVolSize + w.lebSize - 1) / w.lebSize) :
    May exec (fun _ _ tr' => ∃ w', ⟨.ubiRemove "fip", .ok, w'⟩ ∈ tr' ∧ Mounted u w')
      (ubiStagePrep c) w tr := by
  unfold ubiStagePrep
  dsimp only
  refine may_bind (may_removeIfPresent .ok h rfl (.inr hnew) fun tr' => ?_)
  rw [if_neg (by rw [hmode]; decide)]
  refine may_bind (may_removeIfPresent .ok h rfl (.inr hbad) fun tr₁ => may_next .ok ?_)
  have hu : w.ubi UbiPart.ursusUpdateUbi.area = u := h.ubi
  simp only [exec, h.attached, Option.map_some, hu]
  dsimp only [Prog.pure_def, Prog.ret_bind]
  rw [if_pos ⟨hroom, hmode, hret⟩]
  refine may_next .ok ?_
  refine (may_extend _ _ _).mono fun _ _ tr' htr => ?_
  exact ⟨w, htr.subset (List.mem_append_right _ (List.mem_singleton_self _)), h⟩

end Records

section Sample

theorem sampleFip_bootable (build : Bool) : Bootable samplePlatform (sampleFip build) := by
  have hnt := bytesAt_sampleFip build
  have hsize : declaredRaw sampleBl33Lzma = 65536 := by decide
  refine ⟨⟨0x400, 150, 1174⟩, sampleBl33, fipParse_sampleFip build, by decide, ?_, ?_⟩
  · dsimp only
    rw [hnt, hsize]
    simp only [samplePlatform, if_true]
  · dsimp only
    rw [hnt, hsize]
    exact length_sampleBl33

theorem sampleFip_noMemory :
    ClassifiedAs samplePlatform (.repairInvalid, -enomem) (sampleFip false) := by
  have hsize : declaredRaw (bytesAt (sampleFip false) 0x400 150) = 65536 := by
    rw [bytesAt_sampleFip]
    decide
  have hlen : 1174 = (sampleFip false).length := (length_sampleFip false).symm
  exact classifiedAs_of_noMemory (fipParse_sampleFip false) hlen (by decide) hsize.ge
    (hsize.le.trans (by decide))

def tightImage : UbiImage := ⟨freshTable, 5, 40, 40, 2000⟩

/-- A board that runs the sample FIP and has no room for another one. -/
def tightWorld : World := { sampleWorld freshTable with ubi := fun _ => tightImage }

def tightAttempt : Attempt := { sampleAttempt freshTable with world := tightWorld }

theorem tightWorld_native : NativeNand tightWorld :=
  ⟨(sampleWorld_native freshTable).geometry, (sampleWorld_native freshTable).magic⟩

theorem tightAttempt_begins : tightAttempt.Begins samplePlatform := by
  have hslice : tightWorld.ram.slice sampleAddr 1174 = sampleFip false := slice_sampleRam false
  have hacc : fipAccepts samplePlatform .ursus (tightWorld.ram.slice sampleAddr 1174) = true := by
    rw [hslice]
    exact sampleFip_accepted false
  have hstart : May exec (fun r w' _ => r = (0, tightAttempt.ctx) ∧ w' = tightWorld)
      (startKind samplePlatform {} sampleAddr 1174 .ursus) tightWorld [] :=
    may_startKind rfl tightWorld_native hacc (fun h => nomatch h) fun _ => ⟨by rw [hslice]; rfl, rfl⟩
  obtain ⟨outs, hval, hworld⟩ := hstart.run_of
  exact ⟨{}, sampleAddr, 1174, .ursus, outs, tightWorld, hval, hworld, rfl⟩

theorem tight_attached : tightAttempt.CanReach samplePlatform (fun _ _ => True) fun s =>
    Running (.repairInvalid, -enomem) tightAttempt.ctx s.ctx .ubiStagePrep ∧
      Mounted tightImage s.world ∧ s.world.lebSize = 0x1f000 ∧ ∀ e ∈ s.trace, ¬ FipUnread e := by
  have hcand : fipAccepts samplePlatform tightAttempt.ctx.kind
      ((sampleRam false).slice tightAttempt.ctx.addr tightAttempt.ctx.len) = true := by
    rw [show (sampleRam false).slice tightAttempt.ctx.addr tightAttempt.ctx.len = sampleFip false from
      slice_sampleRam false]
    exact sampleFip_accepted false
  have hfip : (tightWorld.vols .native).lookup "fip" = some (4, sampleVolume false) :=
    Slots.lookup_eq_some.2 ⟨by decide, rfl⟩
  have hlen : (sampleVolume false).data.length ≠ 0 ∧ (sampleVolume false).data.length ≤ ubiFipVolSize :=
    fipAccepts_length (sampleFip_accepted false)
  have hnames : (tightWorld.vols .native).Distinct := by decide
  refine Attempt.canReach_precheck (s := tightAttempt) (sampleAttempt_normal freshTable)
    tightWorld_native hcand (fun h => nomatch h) (fun _ _ _ _ _ _ => trivial) fun c t es hc hes => ?_
  refine Attempt.canReach_attach_read (sampleRam false) hc rfl
    ⟨tightWorld_native.geometry, tightWorld_native.magic⟩ rfl rfl rfl hnames hfip rfl hlen.1 hlen.2
    sampleFip_noMemory (by decide) fun c w es' hc hes' hw hleb => Attempt.canReach_here ?_
  refine ⟨hc, hw, hleb, fun e he => ?_⟩
  rcases List.mem_append.1 he with he | he
  · rcases List.mem_append.1 he with he | he
    · exact absurd he List.not_mem_nil
    · exact NoRead.not_fipUnread (noRead_of_query _ (hes e he).query)
  · exact hes' e he

end Sample

end FipUpdate

end UrsusBoot
