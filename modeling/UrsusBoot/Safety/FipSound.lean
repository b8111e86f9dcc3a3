import UrsusBoot.Engine.Reads
import UrsusBoot.Safety.VanillaEnv

/-!
# A commit is sound for its kind

What a FIP update of the native layout has established when it ends in COMPLETE. RAM may change
between any two calls, so nothing the early stages found in it counts at the end: the content of
`fip` is vouched for by the last read-back alone, which reads as many bytes as the volume has. That
it has enough of them, that the previous `fip` was valid, and where that one is now, is carried from
stage to stage (`Stands`).
-/

namespace UrsusBoot

open Prog

namespace FipUpdate

/-! ## What a commit promises -/

/-- The bytes are a FIP that ends where they end, with a payload of a known identity. -/
def CurrentFip (P : Platform) (bs : List UInt8) : Prop :=
  ∃ toc raw, fipParse bs = .ok toc ∧ toc.declaredEnd = bs.length ∧
    ntRaw P (bytesAt bs toc.ntOff toc.ntSize) = .ok raw ∧
    (ursusIdentity raw = true ∨ stockIdentity raw = true)

/-- The first `len` bytes of `fip` are an acceptable FIP of the kind. -/
def Installed (P : Platform) (kind : FipKind) (len : ℕ) (t : VolumeTable) : Prop :=
  ∃ i v, t.lookup "fip" = some (i, v) ∧ len ≤ v.data.length ∧
    fipAccepts P kind (v.data.take len) = true

/-- The `fip` of `t₀` was valid, and is the volume `fip.old` of `t`. -/
def BackedUp (P : Platform) (t₀ t : VolumeTable) : Prop :=
  ∃ i v, t₀.lookup "fip" = some (i, v) ∧ CurrentFip P v.data ∧ t i = some ("fip.old", v)

/-- The volume of that name starts with as many zeros as a reset writes. -/
def Zeroed (n : String) (t : VolumeTable) : Prop :=
  ∃ i v, t.lookup n = some (i, v) ∧
    v.data.take vanillaEnvResetLen = List.replicate vanillaEnvResetLen 0

/-- What a completed update of the native layout has established. -/
structure Committed (P : Platform) (kind : FipKind) (len : ℕ) (t₀ t : VolumeTable) : Prop where
  installed : Installed P kind len t
  backedUp : kind = .vanilla → BackedUp P t₀ t
  zeroed : kind = .vanilla → Zeroed "ubootenv" t ∧ Zeroed "ubootenv2" t

/-! ## Classification -/

section Classification

variable {P : Platform} {A : FlashEvent → Prop}

theorem fipValidateCurrent_ok (bs : List UInt8) :
    Yields exec A (fun r => ∀ n, r = .ok n → n = bs.length → CurrentFip P bs)
      (fipValidateCurrent P bs) := by
  unfold fipValidateCurrent
  cases hparse : fipParse bs with
  | error e => exact yields_ret (by rintro n ⟨⟩)
  | ok toc =>
    dsimp only
    refine yields_exit (by rintro n ⟨⟩) fun _ => ?_
    refine yields_bind (unpackNt_ok P _) fun r hr => ?_
    cases r with
    | error e => exact yields_ret (by rintro n ⟨⟩)
    | ok raw =>
      apply yields_ret
      intro n hn hlen
      by_cases hid : (!ursusIdentity raw && !stockIdentity raw) = true
      · rw [if_pos hid] at hn
        cases hn
      · rw [if_neg hid] at hn
        cases hn
        refine ⟨toc, raw, hparse, hlen, hr raw rfl, ?_⟩
        simpa [Bool.and_eq_true, or_iff_not_imp_left] using hid

theorem classifyActiveFip_valid (w : World) :
    Spec exec A (fun _ => True) (fun r _ => r.1 = .normal → ∃ p i v, w.attached = some p ∧
      (w.vols p.area).lookup "fip" = some (i, v) ∧ CurrentFip P v.data) (classifyActiveFip P) w := by
  apply spec_next (Cmd.ubiCheck "fip")
  intro o₁ _
  refine ⟨trivial, spec_ite (fun _ h => nomatch h) fun _ => ?_⟩
  set w₁ := (exec (.ubiCheck "fip") o₁ w).2
  have hstep₁ : ReadStep w w₁ := exec_reads (c := .ubiCheck "fip") trivial o₁ w
  apply spec_next (Cmd.ubiOpenVolume "fip")
  intro o₂ _
  refine ⟨trivial, ?_⟩
  cases hopen : (exec (.ubiOpenVolume "fip") o₂ w₁).1 with
  | error e => exact fun h => nomatch h
  | ok d =>
    obtain ⟨p, v, hp, hl, hd⟩ := World.ubiOpenVolume_ok hopen
    have hused : d.usedBytes = v.data.length := congrArg VolumeDesc.usedBytes hd
    set w₂ := (exec (.ubiOpenVolume "fip") o₂ w₁).2
    have hstep₂ : ReadStep w₁ w₂ := exec_reads (c := .ubiOpenVolume "fip") trivial o₂ w₁
    dsimp only
    refine spec_ite (fun _ h => nomatch h) fun hsize => ?_
    apply spec_next (Cmd.ubiRead ubiReadbackAddr "fip" d.usedBytes)
    intro o₃ _
    refine ⟨trivial, spec_ite (fun _ h => nomatch h) fun hread => ?_⟩
    -- the buffer holds all of the volume that was opened
    obtain ⟨q, j, x, hq, hx, -, hram⟩ := World.ubiRead_of_zero (not_not.1 hread)
    obtain rfl : p = q := Option.some.inj (hp.symm.trans (hstep₂.attached.symm.trans hq))
    rw [hstep₂.vols] at hx
    obtain ⟨rfl, rfl⟩ : d.id = j ∧ v = x := Prod.mk.inj (Option.some.inj (hl.symm.trans hx))
    apply spec_next (Cmd.readMem ubiReadbackAddr d.usedBytes)
    intro o₄ _
    refine ⟨trivial, ?_⟩
    have hbuf : (exec (.readMem ubiReadbackAddr d.usedBytes) o₄
        (exec (.ubiRead ubiReadbackAddr "fip" d.usedBytes) o₃ w₂).2).1 = v.data := by
      show (w₂.ubiRead o₃ ubiReadbackAddr "fip" d.usedBytes).2.ram.slice ubiReadbackAddr
        d.usedBytes = v.data
      rw [hram, if_neg (fun h => hsize (.inl h)), hused, List.take_length, Mem.slice_blit]
    rw [hbuf]
    refine (fipValidateCurrent_ok (P := P) v.data _).bind fun r w' hr => ?_
    cases r with
    | error e => exact fun h => nomatch h
    | ok n =>
      intro hmode
      by_cases hn : n = v.data.length
      · refine ⟨p, d.id, v, hstep₁.attached.symm.trans hp, ?_, hr n rfl hn⟩
        rw [← hstep₁.vols]
        exact hl
      · rw [if_pos (by rw [hused]; exact hn)] at hmode
        cases hmode

theorem ensureUbiAttachment_distinct (w : World) :
    Spec exec A (fun _ => True)
      (fun ret _ => ret = 0 → w.Native ∨ (w.vols .native).Distinct) ensureUbiAttachment w := by
  apply spec_next Cmd.updateRegisterUbiPart
  intro o _
  refine ⟨trivial, ?_⟩
  cases hreg : (exec .updateRegisterUbiPart o w).1 with
  | error e =>
    have hneg : e < 0 := (yields_updateRegisterUbiPart (A := fun _ => True) w o trivial).2 e hreg
    exact fun h => absurd h (ne_of_lt hneg)
  | ok p =>
    have hp : p.area = .native := updateRegisterUbiPart_area hreg
    set w₁ := (exec .updateRegisterUbiPart o w).2
    have hstep : ReadStep w w₁ := exec_reads (c := .updateRegisterUbiPart) trivial o w
    apply spec_next Cmd.ubiGetDevice
    intro o' _
    refine ⟨trivial, ?_⟩
    cases hget : (exec .ubiGetDevice o' w₁).1 with
    | some dev =>
      intro hret
      have hmtd : dev.mtd = p := by
        by_contra hne
        rw [if_neg hne] at hret
        exact absurd hret (by decide)
      simp only [exec, Option.map_eq_some_iff] at hget
      obtain ⟨q, hq, rfl⟩ := hget
      exact .inl ⟨q, hstep.attached.symm.trans hq, by rw [show q = p from hmtd, hp]⟩
    | none =>
      simp only [exec, Option.map_eq_none_iff] at hget
      apply spec_next (Cmd.ubiPart p)
      intro o'' _
      refine ⟨trivial, spec_ite (fun hne h => absurd h hne) fun hzero => ?_⟩
      have hdistinct : (w₁.vols .native).Distinct := by
        by_contra hclash
        have hfail : (w₁.ubiPart o'' p).1 = 1 := by
          have hno : ¬ (o''.err.isNone = true ∧ (w₁.ubi p.area).vols.Distinct) := by
            rw [hp]
            exact fun h => hclash h.2
          unfold World.ubiPart
          rw [if_neg (by rw [hget]; rintro ⟨⟩), if_neg hno]
        have hz : (w₁.ubiPart o'' p).1 = 0 := not_not.1 hzero
        rw [hfail] at hz
        exact absurd hz (by decide)
      rw [hstep.vols] at hdistinct
      exact (yields_true _ _).mono fun _ _ _ _ => .inr hdistinct

end Classification

/-! ## Stages -/

section Stages

variable (P : Platform) (t₀ : VolumeTable)

/-- Until the promotion `fip` is one volume, and a valid one is still in its place. -/
structure Pending (kind : FipKind) (mode : Mode) (w : World) : Prop where
  native : w.Native
  unique : (w.vols .native).UniqueName "fip"
  vanilla : kind = .vanilla → mode = .normal
  valid : mode = .normal → Slots.Agree "fip" t₀ (w.vols .native) ∧
    ∃ i v, t₀.lookup "fip" = some (i, v) ∧ CurrentFip P v.data

/-- The volume of that name has at least `len` bytes. -/
def LongEnough (n : String) (len : ℕ) (t : VolumeTable) : Prop :=
  ∀ i v, t.lookup n = some (i, v) → len ≤ v.data.length

/-- After the promotion the candidate is `fip`, and a valid `fip` has become `fip.old`. -/
structure Promoted (kind : FipKind) (mode : Mode) (len : ℕ) (w : World) : Prop where
  native : w.Native
  long : LongEnough "fip" len (w.vols .native)
  vanilla : kind = .vanilla → mode = .normal
  backedUp : mode = .normal → BackedUp P t₀ (w.vols .native)

variable {P t₀} {c : Ctx} {kind : FipKind} {w w' : World}

theorem Pending.step {mode : Mode} (h : Pending P t₀ kind mode w) (hat : w'.attached = w.attached)
    (ha : Slots.Agree "fip" (w.vols .native) (w'.vols .native)) : Pending P t₀ kind mode w' :=
  ⟨h.native.of_attached hat, ha.uniqueName h.unique, h.vanilla, fun hm =>
    ⟨(h.valid hm).1.trans ha, (h.valid hm).2⟩⟩

theorem precheck_finds {A : FlashEvent → Prop} (c : Ctx) (w : World) :
    Finds A w (fun r => r.2.stage = .ubiAttach → w.nand.slice ubiBase 4 = asciiBytes "UBI#" ∧
      (c.kind = .vanilla → Bl2Pinned P w)) (precheck P c) := by
  have hdetect : Finds A w (fun r => r = .ok true → w.nand.slice ubiBase 4 = asciiBytes "UBI#")
      detectUbiLayout := by
    apply finds_issue (c := .findMasterNand) trivial
    intro o _
    cases (exec .findMasterNand o w).1 with
    | none => exact finds_ret (by rintro ⟨⟩)
    | some g =>
      apply spec_ite
      · intro _
        exact finds_ret (by rintro ⟨⟩)
      intro _
      apply (readExact_finds ubiBase 4 _).then
      intro r w' _ hr
      apply finds_ret
      intro hok
      by_cases hret : r.1 = 0
      · rw [if_neg (not_not.2 hret)] at hok
        have hhdr : r.2 = asciiBytes "UBI#" := by simpa using hok
        rw [← hhdr]
        exact (hr hret).symm
      · rw [if_pos hret] at hok
        cases hok
  apply hdetect.then
  intro r w₁ h₁ hr
  cases r with
  | error e => exact finds_ret (by rintro ⟨⟩)
  | ok isUbi =>
    have hvalidate : Finds A w₁ (fun _ => True) (fipValidateKind P c.addr c.len (!isUbi) c.kind) :=
      finds_of_yields (uses_fipValidateKind (fun c hc => hc) P _ _ _ _) (yields_true _) w₁
    apply hvalidate.then
    intro ret w₂ h₂ _
    apply spec_ite
    · intro _
      exact finds_ret (by rintro ⟨⟩)
    intro _
    have hdone : (if isUbi then Stage.ubiAttach else .stockBackup) = .ubiAttach →
        w.nand.slice ubiBase 4 = asciiBytes "UBI#" := by
      cases isUbi with
      | true => exact fun _ => hr rfl
      | false => exact fun h => nomatch h
    apply spec_ite
    · intro _
      apply (installedBl2MatchesPin_finds P w₂).then
      intro ret' w₃ _ hpin
      apply spec_ite
      · intro _
        exact finds_ret (by rintro ⟨⟩)
      intro hzero
      apply finds_ret
      intro hst
      refine ⟨hdone hst, fun _ => ?_⟩
      have hpin := hpin (not_not.1 hzero)
      rw [h₂.nand, h₁.nand] at hpin
      exact hpin
    · intro hkind
      apply finds_ret
      intro hst
      exact ⟨hdone hst, fun hv => absurd hv hkind⟩

theorem ubiAttach_pending (hvols : w.vols .native = t₀)
    (hunique : w.Native → t₀.UniqueName "fip") :
    Ensures
      (fun r w' => r.2.stage = .ubiStagePrep → Pending P t₀ c.kind r.2.ubiFipMode w')
      (ubiAttach P c) w := by
  have hattach : Ensures (fun ret w' => w'.vols .native = t₀ ∧
      (ret = 0 → w'.Native ∧ t₀.UniqueName "fip")) ensureUbiAttachment w := by
    have huses : Uses Attaches ensureUbiAttachment :=
      uses_ensureUbiAttachment (fun c hc => .inl hc) fun p => .inr ⟨p, rfl⟩
    have hkeep : Ensures (fun _ w' => w'.vols .native = t₀)
        ensureUbiAttachment w :=
      Spec.of_uses (fun c o w' hc _ hw' => ⟨trivial, (exec_attaches hc o w' .native).trans hw'⟩)
        huses hvols
    have hboth := (ensureUbiAttachment_native w).and (ensureUbiAttachment_distinct w)
    refine ((hkeep.and hboth).weaken (fun _ h => h) fun _ _ _ => trivial).mono fun ret w' h => ?_
    refine ⟨h.1, fun hz => ⟨h.2.1 hz, ?_⟩⟩
    rcases h.2.2 hz with hn | hd
    · exact hunique hn
    · rw [hvols] at hd
      exact hd.uniqueName "fip"
  refine hattach.bind fun ret w₁ h₁ => spec_ite (fun _ h => nomatch h) fun hret => ?_
  obtain ⟨hnative, huniq⟩ := h₁.2 (not_not.1 hret)
  have hreads : Uses Cmd.Reads (classifyActiveFip P) :=
    uses_classifyActiveFip (fun c hc => hc.reads) P fun used => le_refl _
  have hclassify := (spec_reads (A := fun _ => True) hreads w₁).and
    (classifyActiveFip_valid (P := P) w₁)
  refine (hclassify.weaken (fun _ h => h) fun _ _ _ => trivial).bind fun r w₂ h₂ => ?_
  obtain ⟨hstep, hvalid⟩ := h₂
  apply spec_ite
  · intro _
    by_cases hmode : r.1 = .repairMissing
    · simp only [hmode, if_true]
      exact fun h => nomatch h
    · simp only [hmode, if_false]
      exact fun h => nomatch h
  intro hgo _
  have hvols₂ : w₂.vols .native = t₀ := (hstep.vols .native).trans h₁.1
  refine ⟨hnative.of_attached hstep.attached, ?_, fun hv => ?_, fun hmode => ⟨?_, ?_⟩⟩
  · rw [hvols₂]
    exact huniq
  · by_contra hmode
    exact hgo ⟨hmode, by rw [show c.kind = .vanilla from hv]; decide⟩
  · rw [hvols₂]
    exact .refl _ _
  · obtain ⟨p, i, v, hp, hl, hcur⟩ := hvalid hmode
    obtain ⟨q, hq, harea⟩ := hnative
    obtain rfl : q = p := Option.some.inj (hq.symm.trans hp)
    rw [harea, h₁.1] at hl
    exact ⟨i, v, hl, hcur⟩

theorem ubiStagePrep_mode {A : FlashEvent → Prop} (c : Ctx) :
    Yields exec A (fun r => r.2.ubiFipMode = .normal ↔ c.ubiFipMode = .normal) (ubiStagePrep c) := by
  have hcreate : ∀ (d : Ctx) (avail need : ℕ), Yields exec A
      (fun r => r.2.ubiFipMode = .normal ↔ d.ubiFipMode = .normal) (createFipNew d avail need) := by
    intro d avail need
    refine yields_exit Iff.rfl fun _ => yields_then fun ret => ?_
    exact yields_exit Iff.rfl fun _ => yields_ret Iff.rfl
  have hreserve : Yields exec A (fun r => r.2.ubiFipMode = .normal ↔ c.ubiFipMode = .normal)
      (reserveFipNew { c with writeStarted := true }) := by
    refine yields_then fun r => ?_
    cases r with
    | none => exact yields_ret Iff.rfl
    | some room =>
      refine yields_ite (fun hcond => ?_) fun _ => hcreate { c with writeStarted := true } _ _
      have hinvalid : c.ubiFipMode = .repairInvalid := hcond.2.1
      have hno : (Mode.repairMissing = .normal ↔ c.ubiFipMode = .normal) := by
        rw [hinvalid]
        decide
      refine yields_then fun ret => yields_exit Iff.rfl fun _ => ?_
      refine yields_then fun r => ?_
      cases r with
      | none => exact yields_ret hno
      | some room => exact (hcreate _ _ _).mono fun r hr => hr.trans hno
  refine yields_then fun _ => yields_ite (fun _ => yields_then fun _ => ?_) fun _ => ?_
  · exact yields_then fun _ => hreserve
  · exact yields_then fun _ => hreserve

theorem uniqueName_remove {n m : String} (o : Outcome) (w : World) (a : UbiArea)
    (h : (w.vols a).UniqueName n) : ((exec (.ubiRemove m) o w).2.vols a).UniqueName n := by
  generalize hv : (exec (.ubiRemove m) o w).2.vols a = t'
  have hstep := exec_vols (.ubiRemove m) o w a
  rw [hv] at hstep
  cases hstep with
  | same => exact h
  | remove hi => exact fun j k hj hk => h j k (Slots.named_free.1 hj).2 (Slots.named_free.1 hk).2

theorem ubiStagePrep_pending (h : Pending P t₀ kind c.ubiFipMode w) :
    Ensures (fun r w' => Pending P t₀ kind r.2.ubiFipMode w')
      (ubiStagePrep c) w := by
  have huses : Uses (fun d => d.Edits ["fip.new", "fip.old", "fip.bad"] ∨
      c.ubiFipMode ≠ .normal ∧ d = .ubiRemove "fip") (ubiStagePrep c) := by
    refine uses_ubiStagePrep (fun d hd => .inl (hd.edits _)) c ?_ ?_ ?_ ?_ ?_
    · exact .inl (by simp [Cmd.Edits])
    · exact fun _ => .inl (by simp [Cmd.Edits])
    · exact .inl (by simp [Cmd.Edits])
    · exact fun hmode _ => .inr ⟨by rw [hmode]; decide, rfl⟩
    · exact fun _ _ _ => .inl (by simp [Cmd.Edits])
  have hkeep : Ensures
      (fun _ w' => Pending P t₀ kind c.ubiFipMode w') (ubiStagePrep c) w := by
    refine Spec.of_uses (fun d o w' hd _ hw' => ⟨trivial, ?_⟩) huses h
    rcases hd with hd | ⟨hmode, rfl⟩
    · exact hw'.step (exec_edits hd o w').1 (exec_agree o w' .native (hd.spares (by decide)))
    · have hat : (exec (.ubiRemove "fip") o w').2.attached = w'.attached := by simp [exec]
      exact ⟨hw'.native.of_attached hat, uniqueName_remove o w' .native hw'.unique, hw'.vanilla,
        fun hm => absurd hm hmode⟩
  refine ((hkeep.and (ubiStagePrep_mode c w)).weaken (fun _ h => h) fun _ _ _ => trivial).mono
    fun r w' hr => ?_
  obtain ⟨hp, hmode⟩ := hr
  exact ⟨hp.native, hp.unique, fun hv => hmode.2 (hp.vanilla hv), fun hm => hp.valid (hmode.1 hm)⟩

theorem length_written (v : Volume) (leb : ℕ) (bs : List UInt8) :
    bs.length ≤ (v.written leb bs).data.length := by
  unfold Volume.written
  dsimp only
  split_ifs
  · exact le_refl _
  · rw [List.length_append]
    omega

theorem ubiStageWrite_long (h : Pending P t₀ kind c.ubiFipMode w) :
    Ensures
      (fun r w' => r.2.stage = .ubiStageVerify →
        Pending P t₀ kind r.2.ubiFipMode w' ∧ LongEnough "fip.new" c.len (w'.vols .native))
      (ubiStageWrite c) w := by
  apply spec_next (Cmd.ubiWrite c.addr "fip.new" c.len)
  intro o _
  refine ⟨trivial, spec_ite (fun _ h => nomatch h) fun hret _ => ?_⟩
  have hagree : Slots.Agree "fip" (w.vols .native)
      ((exec (.ubiWrite c.addr "fip.new" c.len) o w).2.vols .native) :=
    exec_agree o w .native (show "fip.new" ≠ "fip" by decide)
  refine ⟨h.step (by simp [exec]) hagree, fun j u hj => ?_⟩
  obtain ⟨p, i, v, hp, hlook, hvols⟩ := World.ubiWrite_of_zero (not_not.1 hret)
  obtain ⟨q, hq, harea⟩ := h.native
  obtain rfl : q = p := Option.some.inj (hq.symm.trans hp)
  rw [harea] at hlook hvols
  obtain ⟨hfind, hslot⟩ := Slots.lookup_eq_some.1 hlook
  have hnew : ((exec (.ubiWrite c.addr "fip.new" c.len) o w).2.vols .native).lookup "fip.new" =
      some (i, v.written w.lebSize (w.ram.slice c.addr c.len)) := by
    rw [show (exec (.ubiWrite c.addr "fip.new" c.len) o w).2.vols .native = _ from hvols]
    refine Slots.lookup_eq_some.2 ⟨Slots.find?_setBody.trans hfind, ?_⟩
    rw [Slots.setBody_self, hslot, Option.map_some]
  obtain ⟨-, rfl⟩ : i = j ∧ _ = u := Prod.mk.inj (Option.some.inj (hnew.symm.trans hj))
  have hlen := length_written v w.lebSize (w.ram.slice c.addr c.len)
  rw [Mem.length_slice] at hlen
  exact hlen

theorem ubiStageVerify_long (h : Pending P t₀ kind c.ubiFipMode w)
    (hlong : LongEnough "fip.new" c.len (w.vols .native)) :
    Ensures
      (fun r w' => Pending P t₀ kind r.2.ubiFipMode w' ∧
        LongEnough "fip.new" c.len (w'.vols .native)) (ubiStageVerify P c) w := by
  have hmode : Gives (fun r => r.2.ubiFipMode = c.ubiFipMode)
      (ubiStageVerify P c) := by
    refine yields_then fun _ => yields_exit rfl fun _ => ?_
    refine yields_then fun _ => yields_exit rfl fun _ => ?_
    refine yields_then fun _ => yields_then fun _ => ?_
    exact yields_exit rfl fun _ => yields_ret rfl
  have huses : Uses Cmd.Reads (ubiStageVerify P c) := by
    refine uses_checked (le_refl ubiReadbackAddr) fun _ => ?_
    refine uses_bind (uses_fipValidateKind (fun d hd => hd.query.reads) P _ _ _ _) fun _ =>
      uses_exit fun _ => ?_
    refine uses_next trivial fun _ => uses_next trivial fun _ => ?_
    exact uses_exit fun _ => trivial
  refine (((spec_reads (A := fun _ => True) huses w).and (hmode w)).weaken (fun _ h => h)
    fun _ _ _ => trivial).mono fun r w' hr => ?_
  obtain ⟨hstep, hr⟩ := hr
  have hvols := hstep.vols .native
  rw [hr]
  refine ⟨h.step hstep.attached ?_, ?_⟩
  · rw [hvols]
    exact .refl _ _
  · rw [hvols]
    exact hlong

theorem SwitchedTo.longEnough {t t' : VolumeTable} {backup : String} {len : ℕ}
    (hs : SwitchedTo "fip" "fip.new" backup t t') (hback : "fip" ≠ backup)
    (hunique : t.UniqueName "fip") (hlong : LongEnough "fip.new" len t) : LongEnough "fip" len t' := by
  obtain ⟨i, j, hi, hj, rfl⟩ := hs
  have hfip := Slots.named_of_find? hi
  obtain ⟨u, hu⟩ := Slots.named_of_find? hj
  have hne : i ≠ j := by
    rintro rfl
    exact absurd (hfip.eq ⟨u, hu⟩) (by decide)
  intro k v hk
  obtain ⟨hfind, hslot⟩ := Slots.lookup_eq_some.1 hk
  obtain rfl := hunique.switch_right hfip hback (Slots.named_of_find? hfind)
  rw [Slots.switch_right hne, hu, Option.map_some] at hslot
  obtain rfl : u = v := congrArg Prod.snd (Option.some.inj hslot)
  exact hlong k u (Slots.lookup_eq_some.2 ⟨hj, hu⟩)

theorem longEnough_rename {t : VolumeTable} {i : Fin vtblSlots} {len : ℕ}
    (hi : t.find? "fip.new" = some i) (hfree : ∀ k, ¬ t.Named k "fip")
    (hlong : LongEnough "fip.new" len t) : LongEnough "fip" len (t.rename i "fip") := by
  obtain ⟨u, hu⟩ := Slots.named_of_find? hi
  intro k v hk
  obtain ⟨hfind, hslot⟩ := Slots.lookup_eq_some.1 hk
  have hki : k = i := by
    by_contra hne
    have hnamed := Slots.named_of_find? hfind
    rw [Slots.named_rename, if_neg hne] at hnamed
    exact hfree k hnamed
  rw [hki, Slots.rename_self, hu, Option.map_some] at hslot
  obtain rfl : u = v := congrArg Prod.snd (Option.some.inj hslot)
  exact hlong i u (Slots.lookup_eq_some.2 ⟨hi, hu⟩)

theorem SwitchedTo.backedUp {t t' : VolumeTable}
    (hs : SwitchedTo "fip" "fip.new" "fip.old" t t') (ha : Slots.Agree "fip" t₀ t)
    (hvalid : ∃ i v, t₀.lookup "fip" = some (i, v) ∧ CurrentFip P v.data) : BackedUp P t₀ t' := by
  obtain ⟨i, v, hl, hcur⟩ := hvalid
  obtain ⟨i', j, hi, hj, rfl⟩ := hs
  obtain ⟨hfind, hslot⟩ := Slots.lookup_eq_some.1 (ha.lookup_eq_some hl)
  obtain rfl : i' = i := Option.some.inj (hi.symm.trans hfind)
  have hne : i' ≠ j := by
    rintro rfl
    exact absurd ((Slots.named_of_find? hi).eq (Slots.named_of_find? hj)) (by decide)
  refine ⟨i', v, hl, hcur, ?_⟩
  rw [Slots.switch_left hne, hslot, Option.map_some]

theorem ubiPromote_promoted (h : Pending P t₀ kind c.ubiFipMode w)
    (hlong : LongEnough "fip.new" c.len (w.vols .native)) :
    Ensures
      (fun r w' => r.2.stage = .ubiVerify → Promoted P t₀ kind r.2.ubiFipMode c.len w')
      (ubiPromote c) w := by
  have hswitch : ∀ backup : String, "fip" ≠ backup → Ensures
      (fun ret w' => ret = 0 → w'.Native ∧ LongEnough "fip" c.len (w'.vols .native) ∧
        SwitchedTo "fip" "fip.new" backup (w.vols .native) (w'.vols .native))
      (atomicSwitch "fip" "fip.new" backup) w := by
    intro backup hback
    refine ((atomicSwitch_spec "fip" "fip.new" backup h.native).weaken (fun _ h => h)
      fun _ _ _ => trivial).mono fun ret w' hr hz => ?_
    obtain ⟨hat, ⟨hne, -⟩ | ⟨-, hs⟩⟩ := hr
    · exact absurd hz hne
    · exact ⟨h.native.of_attached hat, hs.longEnough hback h.unique hlong, hs⟩
  unfold ubiPromote
  cases hmode : c.ubiFipMode with
  | repairMissing =>
    apply spec_next (Cmd.ubiRename "fip.new" "fip")
    intro o _
    refine ⟨trivial, spec_ite (by rintro _ ⟨⟩) fun hret _ => ?_⟩
    have hzero : (exec (.ubiRename "fip.new" "fip") o w).1 = 0 := not_not.1 hret
    simp only [exec] at hzero
    obtain ⟨p, u, hp, hu, hw'⟩ := World.shellUbi_of_zero hzero
    obtain ⟨q, hq, harea⟩ := h.native
    obtain rfl : q = p := Option.some.inj (hq.symm.trans hp)
    obtain ⟨i, hi, hfree, hvols⟩ := UbiImage.rename_eq_some hu
    rw [harea] at hi hfree hvols hw'
    refine ⟨h.native.of_attached (by simp [exec]), ?_, ?_, by rintro ⟨⟩⟩
    · have hafter : (exec (.ubiRename "fip.new" "fip") o w).2.vols .native =
          (w.vols .native).rename i "fip" := by
        simp only [exec]
        rw [hw', World.ubiCells_vols, World.vols, World.setUbi_ubi_self, hvols]
        rfl
      rw [hafter]
      exact longEnough_rename hi hfree hlong
    · rw [← hmode]
      exact h.vanilla
  | repairInvalid =>
    refine (hswitch "fip.bad" (by decide)).bind fun ret w' hr => ?_
    refine spec_ite (by rintro _ ⟨⟩) fun hret _ => ?_
    obtain ⟨hnative, hl, -⟩ := hr (not_not.1 hret)
    refine ⟨hnative, hl, ?_, by rintro ⟨⟩⟩
    rw [← hmode]
    exact h.vanilla
  | normal =>
    refine (hswitch "fip.old" (by decide)).bind fun ret w' hr => ?_
    refine spec_ite (by rintro _ ⟨⟩) fun hret _ => ?_
    obtain ⟨hnative, hl, hs⟩ := hr (not_not.1 hret)
    obtain ⟨ha, hvalid⟩ := h.valid hmode
    exact ⟨hnative, hl, fun _ => rfl, fun _ => hs.backedUp ha hvalid⟩

theorem vanillaResetEnv_committed (w : World) (hw : w.Native) :
    Ensures
      (fun ret w' => (∀ n, n ∉ envNames → Slots.Agree n (w.vols .native) (w'.vols .native)) ∧
        (ret = 0 → Zeroed "ubootenv" (w'.vols .native) ∧ Zeroed "ubootenv2" (w'.vols .native)))
      vanillaResetEnv w := by
  have huses : Uses (Cmd.Edits envNames) vanillaResetEnv :=
    uses_vanillaResetEnv (fun c hc => hc.edits _) (fun _ hn _ _ => hn) (fun _ _ => le_refl _)
      fun _ => le_refl _
  have hkeep : Ensures (fun _ w' => w'.Native ∧
      ∀ n, n ∉ envNames → Slots.Agree n (w.vols .native) (w'.vols .native)) vanillaResetEnv w := by
    refine Spec.of_uses (I := fun w' : World => w'.Native ∧ ∀ n, n ∉ envNames →
      Slots.Agree n (w.vols .native) (w'.vols .native)) (fun c o w' hc _ hw' => ⟨trivial, ?_, ?_⟩)
      huses ⟨hw, fun n _ => .refl n _⟩
    · exact hw'.1.of_attached (exec_edits hc o w').1
    · exact fun n hn => (hw'.2 n hn).trans (exec_agree o w' .native (hc.spares hn))
  have hzeroed : ∀ {n : String} {w' : World}, w'.Native → Blank n w' →
      Zeroed n (w'.vols .native) := by
    rintro n w' ⟨q, hq, harea⟩ ⟨p, i, v, hp, hl, hzeros⟩
    obtain rfl : q = p := Option.some.inj (hq.symm.trans hp)
    rw [harea] at hl
    exact ⟨i, v, hl, hzeros⟩
  refine ((hkeep.and (vanillaResetEnv_blank w)).weaken (fun _ h => h) fun _ _ _ => trivial).mono
    fun ret w' hr => ⟨hr.1.2, fun hz => ?_⟩
  obtain ⟨h₁, h₂⟩ := hr.2 hz
  exact ⟨hzeroed hr.1.1 h₁, hzeroed hr.1.1 h₂⟩

theorem ubiVerify_committed (h : Promoted P t₀ c.kind c.ubiFipMode c.len w) :
    Ensures
      (fun r w' => r.2.stage = .complete → Committed P c.kind c.len t₀ (w'.vols .native))
      (ubiVerify P c) w := by
  have hfailed : ∀ (ret : ℤ) (w : World), Ensures
      (fun r w' => r.2.stage = .complete → Committed P c.kind c.len t₀ (w'.vols .native))
      (postcommitFailed c ret) w := by
    intro ret w
    have hst : Gives (fun r => r.2.stage ≠ .complete)
        (postcommitFailed c ret) := by
      refine yields_ite (fun _ => yields_then fun _ => yields_then fun _ => ?_) fun _ => ?_
      · exact yields_ret (fun h => nomatch h)
      · exact yields_ret (fun h => nomatch h)
    exact (hst w).mono fun r w' hr hdone => absurd hdone hr
  apply spec_next (Cmd.ubiRead ubiReadbackAddr "fip" c.len)
  intro o _
  refine ⟨trivial, spec_ite (fun _ => hfailed _ _) fun hret => ?_⟩
  obtain ⟨p, i, v, hp, hl, -, hram⟩ := World.ubiRead_of_zero (not_not.1 hret)
  obtain ⟨q, hq, harea⟩ := h.native
  obtain rfl : q = p := Option.some.inj (hq.symm.trans hp)
  rw [harea] at hl
  set w₁ := (exec (.ubiRead ubiReadbackAddr "fip" c.len) o w).2 with hw₁
  have hstep₁ : ReadStep w w₁ := .ubiRead w o "fip" c.len (le_refl _)
  have hquery : Uses Cmd.Query (fipValidateKind P ubiReadbackAddr c.len false c.kind) :=
    uses_fipValidateKind (fun c hc => hc.query) P _ _ _ _
  have hvalidate := (spec_query (A := fun _ => True) hquery w₁).and
    (fipValidateKind_accepts P ubiReadbackAddr c.len false c.kind w₁)
  refine (hvalidate.weaken (fun _ h => h) fun _ _ _ => trivial).bind fun ret₂ w₂ h₂ => ?_
  obtain ⟨⟨hstep₂, -⟩, haccepts⟩ := h₂
  refine spec_ite (fun _ => hfailed _ _) fun hret₂ => ?_
  -- the volume is long enough to have filled the window that was validated
  have hacc : fipAccepts P c.kind (v.data.take c.len) = true := by
    have hwindow := haccepts (not_not.1 hret₂)
    have hne : c.len ≠ 0 := by
      have hlen := (fipAccepts_length hwindow).1
      rwa [Mem.length_slice] at hlen
    have hram' : w₁.ram = w.ram.blit ubiReadbackAddr (v.data.take c.len) := by
      rw [if_neg hne] at hram
      exact hram
    have hlen : (v.data.take c.len).length = c.len := by
      have hlong := h.long i v hl
      rw [List.length_take]
      omega
    have hblit := w.ram.slice_blit ubiReadbackAddr (v.data.take c.len)
    rw [hlen, ← hram'] at hblit
    rw [← hblit]
    exact hwindow
  have hvols : w₂.vols .native = w.vols .native := (hstep₂.vols _).trans (hstep₁.vols _)
  have hinstalled : ∀ {t : VolumeTable}, Slots.Agree "fip" (w₂.vols .native) t →
      Installed P c.kind c.len t := by
    intro t ha
    rw [hvols] at ha
    exact ⟨i, v, ha.lookup_eq_some hl, h.long i v hl, hacc⟩
  apply spec_ite
  · intro hkind
    have hnative₂ : w₂.Native := h.native.of_attached (hstep₂.attached.trans hstep₁.attached)
    refine (vanillaResetEnv_committed w₂ hnative₂).bind fun ret₃ w₃ h₃ => ?_
    refine spec_ite (fun _ h => nomatch h) fun hret₃ _ => ⟨?_, fun _ => ?_, fun _ => ?_⟩
    · exact hinstalled (h₃.1 "fip" (by decide))
    · obtain ⟨k, x, hk, hcur, hslot⟩ := h.backedUp (h.vanilla hkind)
      refine ⟨k, x, hk, hcur, ?_⟩
      have hold := h₃.1 "fip.old" (by decide)
      rw [hvols] at hold
      exact (hold k x).1 hslot
    · exact h₃.2 (not_not.1 hret₃)
  · intro hkind _
    exact ⟨hinstalled (.refl _ _), fun hv => absurd hv hkind, fun hv => absurd hv hkind⟩

end Stages

/-! ## Attempts -/

section Runs

variable (P : Platform) (s₀ : Attempt)

/-- What PRECHECK found out about NAND before it went on in the native layout. -/
structure Prechecked (c : Ctx) : Prop where
  layout : c.ubiLayout = true
  magic : s₀.world.nand.slice ubiBase 4 = asciiBytes "UBI#"
  pinned : c.kind = .vanilla → Bl2Pinned P s₀.world

def Stands (c : Ctx) (w : World) : Stage → Prop
  | .precheck => w.nand = s₀.world.nand ∧ w.ubi = s₀.world.ubi ∧ w.attached = s₀.world.attached
  | .ubiAttach => Prechecked P s₀ c ∧ w.ubi = s₀.world.ubi ∧ w.attached = s₀.world.attached
  | .ubiStagePrep | .ubiStageWrite =>
    Prechecked P s₀ c ∧ Pending P (s₀.world.vols .native) c.kind c.ubiFipMode w
  | .ubiStageVerify | .ubiPromote =>
    Prechecked P s₀ c ∧ Pending P (s₀.world.vols .native) c.kind c.ubiFipMode w ∧
      LongEnough "fip.new" c.len (w.vols .native)
  | .ubiVerify => Prechecked P s₀ c ∧ Promoted P (s₀.world.vols .native) c.kind c.ubiFipMode c.len w
  | .stockBackup | .stockErase | .stockWrite | .stockVerify => c.kind = .ursus ∧ c.ubiLayout = false
  | .complete => c.kind = .ursus ∧ c.ubiLayout = false ∨
    Prechecked P s₀ c ∧ Committed P c.kind c.len (s₀.world.vols .native) (w.vols .native)
  | .ubiRollback | .failed | .idle => True

variable {P s₀} {c d : Ctx} {w : World}

theorem Prechecked.keep (h : Prechecked P s₀ c) (hcont : Continues c d) (hne : c.stage ≠ .precheck) :
    Prechecked P s₀ d :=
  ⟨(hcont.layout hne).trans h.layout, h.magic, fun hv => h.pinned (hcont.kind.symm.trans hv)⟩

/-- **Every stage** hands over what the next one relies on. -/
theorem runStage_stands (hunique : s₀.world.Native → (s₀.world.vols .native).UniqueName "fip")
    (h : Stands P s₀ c w c.stage) :
    Ensures (fun r w' => Stands P s₀ r.2 w' r.2.stage)
      (runStage P c) w := by
  -- it remains to say what the stages that may follow rely on
  have hover : ∀ {Q : ℤ × Ctx → World → Prop}, Ensures Q
      (runStage P c) w → (∀ r w', Handover c r → Q r w' → r.2.stage ∈ c.stage.next →
        Stands P s₀ r.2 w' r.2.stage) → Ensures
          (fun r w' => Stands P s₀ r.2 w' r.2.stage) (runStage P c) w := by
    intro Q hQ hnext
    refine ((hQ.and (runStage_handover P c w)).weaken (fun _ h => h) fun _ _ _ => trivial).mono
      fun r w' hr => ?_
    rcases hr.2.stage with hst | hst
    · rw [hst]
      trivial
    · exact hnext r w' hr.2 hr.1 hst
  have hkeep : ∀ {r : ℤ × Ctx}, c.stage ≠ .precheck → Handover c r → Prechecked P s₀ c →
      Prechecked P s₀ r.2 := fun hne hr hpre => hpre.keep hr.continues hne
  cases hs : c.stage with
  | precheck =>
    rw [hs] at h
    obtain ⟨hnand, hubi, hat⟩ := h
    have hinert : Uses Cmd.Inert (precheck P c) := uses_precheck (fun d hd => hd) P c
    have hreads : Uses Cmd.Reads (precheck P c) := hinert.mono fun d hd => hd.query.reads
    have hspec := ((precheck_finds (P := P) (A := fun _ => True) c w).and (spec_reads hreads w)).weaken
      (fun _ h => h) fun _ _ _ => trivial
    refine hover (by simp only [runStage, hs]; exact hspec) fun r w' hr hQ hst => ?_
    obtain ⟨⟨hinert, hfound⟩, hread⟩ := hQ
    rw [hs, Stage.next, List.mem_pair] at hst
    rcases hst with hst | hst
    · obtain ⟨hmagic, hpin⟩ := hfound hst
      rw [hnand] at hmagic
      rw [hst]
      refine ⟨⟨hr.native hst, hmagic, fun hv => ?_⟩, hinert.ubi.trans hubi, hread.attached.trans hat⟩
      exact (hpin (hr.continues.kind.symm.trans hv)).congr hnand.symm
    · rw [hst]
      exact ⟨hr.continues.kind.trans (hr.stock hst).2.1, (hr.stock hst).1⟩
  | ubiAttach =>
    rw [hs] at h
    obtain ⟨hpre, hubi, hat⟩ := h
    have hvols : w.vols .native = s₀.world.vols .native := by
      rw [World.vols, hubi]
      rfl
    have hspec := ubiAttach_pending (P := P) (c := c) hvols fun hn =>
      hunique (hn.of_attached hat.symm)
    refine hover (by simp only [runStage, hs]; exact hspec) fun r w' hr hQ hst => ?_
    have hst : r.2.stage = .ubiStagePrep := by simpa [hs, Stage.next] using hst
    rw [hst]
    refine ⟨hkeep (by rw [hs]; decide) hr hpre, ?_⟩
    rw [hr.continues.kind]
    exact hQ hst
  | ubiStagePrep =>
    rw [hs] at h
    refine hover (by simp only [runStage, hs]; exact ubiStagePrep_pending h.2) fun r w' hr hQ hst => ?_
    have hst : r.2.stage = .ubiStageWrite := by simpa [hs, Stage.next] using hst
    rw [hst]
    refine ⟨hkeep (by rw [hs]; decide) hr h.1, ?_⟩
    rw [hr.continues.kind]
    exact hQ
  | ubiStageWrite =>
    rw [hs] at h
    refine hover (by simp only [runStage, hs]; exact ubiStageWrite_long h.2) fun r w' hr hQ hst => ?_
    have hst : r.2.stage = .ubiStageVerify := by simpa [hs, Stage.next] using hst
    rw [hst]
    refine ⟨hkeep (by rw [hs]; decide) hr h.1, ?_⟩
    rw [hr.continues.kind, hr.continues.len]
    exact hQ hst
  | ubiStageVerify =>
    rw [hs] at h
    refine hover (by simp only [runStage, hs]; exact ubiStageVerify_long h.2.1 h.2.2)
      fun r w' hr hQ hst => ?_
    have hst : r.2.stage = .ubiPromote := by simpa [hs, Stage.next] using hst
    rw [hst]
    refine ⟨hkeep (by rw [hs]; decide) hr h.1, ?_⟩
    rw [hr.continues.kind, hr.continues.len]
    exact hQ
  | ubiPromote =>
    rw [hs] at h
    refine hover (by simp only [runStage, hs]; exact ubiPromote_promoted h.2.1 h.2.2)
      fun r w' hr hQ hst => ?_
    have hst : r.2.stage = .ubiVerify := by simpa [hs, Stage.next] using hst
    rw [hst]
    refine ⟨hkeep (by rw [hs]; decide) hr h.1, ?_⟩
    rw [hr.continues.kind, hr.continues.len]
    exact hQ hst
  | ubiVerify =>
    rw [hs] at h
    refine hover (by simp only [runStage, hs]; exact ubiVerify_committed h.2) fun r w' hr hQ hst => ?_
    rw [hs, Stage.next, List.mem_pair] at hst
    rcases hst with hst | hst
    · rw [hst]
      refine .inr ⟨hkeep (by rw [hs]; decide) hr h.1, ?_⟩
      rw [hr.continues.kind, hr.continues.len]
      exact hQ hst
    · rw [hst]
      trivial
  | stockBackup | stockErase | stockWrite | stockVerify =>
    -- the kind and the layout of the request do not change any more
    rw [hs] at h
    refine hover (yields_true _ w) fun r w' hr _ hst => ?_
    have hstock : r.2.kind = .ursus ∧ r.2.ubiLayout = false :=
      ⟨hr.continues.kind.trans h.1, (hr.continues.layout (by rw [hs]; decide)).trans h.2⟩
    rw [hs, Stage.next, List.mem_singleton] at hst
    rw [hst]
    first | exact hstock | exact .inl hstock
  | ubiRollback | idle | complete | failed =>
    refine hover (yields_true _ w) fun r w' _ _ hst => ?_
    rw [hs] at hst
    cases hst

structure Committing (P : Platform) (s₀ s : Attempt) : Prop where
  request : SameRequest s₀.ctx s.ctx
  stands : Stands P s₀ s.ctx s.world s.ctx.stage

theorem Committing.waited {s : Attempt} (h : Committing P s₀ s) (m : Mem UInt8) (b : Bool) (n t : ℕ)
    (es : List FlashEvent) : Committing P s₀ (s.waited m b n t es) := by
  refine ⟨h.request, ?_⟩
  have hst := h.stands
  have hpre : Prechecked P s₀ s.ctx → Prechecked P s₀ (s.waited m b n t es).ctx := fun hpre =>
    ⟨hpre.layout, hpre.magic, hpre.pinned⟩
  have hpending : ∀ {mode : Mode}, Pending P (s₀.world.vols .native) s.ctx.kind mode s.world →
      Pending P (s₀.world.vols .native) s.ctx.kind mode (s.waited m b n t es).world := fun hp =>
    hp.step rfl (.refl _ _)
  show Stands P s₀ _ _ s.ctx.stage
  generalize s.ctx.stage = st at hst
  cases st with
  | precheck | stockBackup | stockErase | stockWrite | stockVerify => exact hst
  | ubiRollback | failed | idle => trivial
  | ubiAttach => exact ⟨hpre hst.1, hst.2⟩
  | ubiStagePrep | ubiStageWrite => exact ⟨hpre hst.1, hpending hst.2⟩
  | ubiStageVerify | ubiPromote => exact ⟨hpre hst.1, hpending hst.2.1, hst.2.2⟩
  | ubiVerify =>
    obtain ⟨hp, hprom⟩ := hst
    exact ⟨hpre hp, hprom.native.of_attached rfl, hprom.long, hprom.vanilla, hprom.backedUp⟩
  | complete => exact hst.imp id fun hdone => ⟨hpre hdone.1, hdone.2⟩

theorem Committing.stage {s : Attempt} (h : Committing P s₀ s)
    (hunique : s₀.world.Native → (s₀.world.vols .native).UniqueName "fip") (outs : ℕ → Outcome) :
    Committing P s₀ (s.stage P outs) := by
  have hcont := (s.stage_handover P outs).continues
  obtain ⟨haddr, hlen, hkind⟩ := h.request
  refine ⟨⟨hcont.addr.trans haddr, hcont.len.trans hlen, hcont.kind.trans hkind⟩, ?_⟩
  exact ((runStage_stands hunique h.stands).run_of outs fun _ _ => trivial).2

/-- **Every attempt** keeps what its stages rely on. -/
theorem committing_run (hbegin : s₀.Begins P)
    (hunique : s₀.world.Native → (s₀.world.vols .native).UniqueName "fip") (is : List Call) :
    Committing P s₀ (runFrom (Attempt.call P) s₀ is) := by
  refine history_run (J := fun _ => Committing P s₀) ?_ (fun is i h => ?_) is
  · refine ⟨⟨rfl, rfl, rfl⟩, ?_⟩
    rw [hbegin.started.stage]
    exact ⟨rfl, rfl, rfl⟩
  · exact Attempt.call_keeps i (fun b n t es _ => h.waited i.ram b n t es) fun s' hs' _ _ outs =>
      hs'.stage hunique outs

end Runs

/-- **A commit of the native layout is sound for its kind.** The first `len` bytes of `fip` are an
acceptable FIP of the kind. A Vanilla update completes in the native layout only, with the pinned
BL2 in the NAND that PRECHECK looked at, and leaves the previous, valid `fip` as `fip.old` and both
environment volumes blank. UBI refuses to attach a table with a name clash, so a device that is
attached has one `fip`. -/
theorem ubi_commit_sound (P : Platform) (s₀ : Attempt) (is : List Call) (hbegin : s₀.Begins P)
    (hunique : s₀.world.Native → (s₀.world.vols .native).UniqueName "fip")
    (hdone : (runFrom (Attempt.call P) s₀ is).ctx.stage = .complete) :
    ((runFrom (Attempt.call P) s₀ is).ctx.ubiLayout = true →
      Installed P s₀.ctx.kind s₀.ctx.len ((runFrom (Attempt.call P) s₀ is).world.vols .native)) ∧
    (s₀.ctx.kind = .vanilla →
      (runFrom (Attempt.call P) s₀ is).ctx.ubiLayout = true ∧
      s₀.world.nand.slice ubiBase 4 = asciiBytes "UBI#" ∧ Bl2Pinned P s₀.world ∧
      BackedUp P (s₀.world.vols .native) ((runFrom (Attempt.call P) s₀ is).world.vols .native) ∧
      Zeroed "ubootenv" ((runFrom (Attempt.call P) s₀ is).world.vols .native) ∧
      Zeroed "ubootenv2" ((runFrom (Attempt.call P) s₀ is).world.vols .native)) := by
  obtain ⟨⟨-, hlen, hkind⟩, hstands⟩ := committing_run hbegin hunique is
  rw [hdone] at hstands
  rw [← hlen, ← hkind]
  rcases hstands with ⟨hursus, hstock⟩ | ⟨hpre, hcommit⟩
  · refine ⟨fun hubi => ?_, fun hv => ?_⟩
    · rw [hstock] at hubi
      cases hubi
    · rw [hursus] at hv
      cases hv
  · refine ⟨fun _ => hcommit.installed, fun hv => ?_⟩
    exact ⟨hpre.layout, hpre.magic, hpre.pinned hv, hcommit.backedUp hv, hcommit.zeroed hv⟩

/-- A Vanilla update of the sample board completes. -/
theorem ubi_commit_sound_vanilla : ∃ is,
    (runFrom (Attempt.call vanillaPlatform) vanillaAttempt is).ctx.stage = .complete ∧
    Installed vanillaPlatform .vanilla 1152
      ((runFrom (Attempt.call vanillaPlatform) vanillaAttempt is).world.vols .native) ∧
    Bl2Pinned vanillaPlatform vanillaAttempt.world ∧
    BackedUp vanillaPlatform (vanillaAttempt.world.vols .native)
      ((runFrom (Attempt.call vanillaPlatform) vanillaAttempt is).world.vols .native) ∧
    Zeroed "ubootenv2"
      ((runFrom (Attempt.call vanillaPlatform) vanillaAttempt is).world.vols .native) := by
  obtain ⟨is, hdone⟩ := vanilla_completes
  have hdistinct : vanillaTable.Distinct := by decide
  obtain ⟨hinstalled, hvanilla⟩ := ubi_commit_sound vanillaPlatform vanillaAttempt is
    vanillaAttempt_begins (fun _ => hdistinct.uniqueName "fip") hdone
  obtain ⟨hlayout, -, hpin, hback, -, hzero⟩ := hvanilla rfl
  exact ⟨is, hdone, hinstalled hlayout, hpin, hback, hzero⟩

end FipUpdate

end UrsusBoot
