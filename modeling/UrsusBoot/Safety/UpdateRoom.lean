import UrsusBoot.Safety.Room
import UrsusBoot.Safety.UpdateFrame

/-!
# The room PRECHECK predicts

PRECHECK adds the PEBs of the volumes that STAGE_PREP will remove to the free ones and asks for the
candidate and a headroom. The removals first top up the reserve for bad blocks, which PRECHECK does
not count.
-/

namespace UrsusBoot

open Prog

namespace UbiUpdate

/-! ## What PRECHECK computes -/

def requiredPebs (c : Ctx) (leb : ℕ) : ℕ := (c.fitLen + leb - 1) / leb

/-- The free PEBs and those to be reclaimed: `free + reclaim`. -/
def headroom (u : UbiImage) : ℕ := u.availPebs + u.pebsOf "fit.old" + u.pebsOf "fit.new"

/-- There is no room for the candidate next to `fit`. -/
def directly (c : Ctx) (u : UbiImage) (leb : ℕ) : Bool :=
  decide (headroom u < requiredPebs c leb + stagedHeadroomLebs)

def removals (direct : Bool) : List String :=
  if direct then ["fit.new", "fit.old", "fit"] else ["fit.new", "fit.old"]

def reserve (u : UbiImage) (direct : Bool) : ℕ :=
  if direct then min (headroom u) rootfsFreeReserveLebs else stagedHeadroomLebs

/-- PRECHECK accepts: the candidate and the reserve fit in the PEBs it counts. -/
def Counts (c : Ctx) (u : UbiImage) (leb : ℕ) (direct : Bool) : Prop :=
  requiredPebs c leb + reserve u direct ≤ u.pool (removals direct)

theorem pool_removals_false (u : UbiImage) : u.pool (removals false) = headroom u := by
  simp [UbiImage.pool, removals, headroom]
  omega

theorem pool_removals_true (u : UbiImage) :
    u.pool (removals true) = headroom u + u.pebsOf "fit" := by
  simp [UbiImage.pool, removals, headroom]
  omega

section Stages

variable {u : UbiImage} {leb : ℕ} {w : World} {c : Ctx}

theorem openPebs_device (n : String) (h : DeviceIs u leb w) :
    Spec exec Succeeds (fun _ => True)
      (fun r w' => r = (u.vols.lookup n).map (fun x => x.2.reservedPebs) ∧ DeviceIs u leb w')
      (openPebs n) w := by
  refine spec_next (Cmd.ubiOpenVolume n) fun o ho => ⟨trivial, ?_⟩
  have ho' : o.err = none := ho
  have hkeep := h.reads (c := .ubiOpenVolume n) trivial o
  cases hl : u.vols.lookup n with
  | none =>
    have hopen : (exec (.ubiOpenVolume n) o w).1 = .error (-enodev) := by
      simp [exec, World.ubiOpenVolume, ho', h.device, hl]
    rw [hopen]
    exact ⟨rfl, hkeep⟩
  | some x =>
    have hopen : (exec (.ubiOpenVolume n) o w).1 =
        .ok ⟨x.1, x.2.static, x.2.data.length, x.2.reservedPebs, w.lebSize⟩ := by
      simp [exec, World.ubiOpenVolume, ho', h.device, hl]
    rw [hopen]
    exact ⟨rfl, hkeep⟩

theorem reads_volumeFipValid (n : String) : Uses Cmd.Reads (volumeFipValid n) :=
  uses_checked (le_refl ubiReadbackAddr) fun _ =>
    uses_next trivial fun _ => trivial

/-- **What PRECHECK has found when it accepts.** -/
theorem precheck_device (hpebs : c.fitPebs = 0) :
    Spec exec Succeeds (fun _ => True) (fun r w' => r.2.stage = .stagePrep →
      DeviceIs (w.ubi .native) w.lebSize w' ∧ (w.vols .native).Distinct ∧ w.lebSize ≠ 0 ∧
      r.2.fitLen = c.fitLen ∧ r.2.directMode = directly c (w.ubi .native) w.lebSize ∧
      Counts c (w.ubi .native) w.lebSize (directly c (w.ubi .native) w.lebSize))
      (precheck c) w := by
  refine spec_attach_device (fun _ _ _ _ _ => ⟨(by rintro ⟨⟩), (by rintro ⟨⟩)⟩)
    fun hattach w₁ _ h₁ => ?_
  have hd : (w.vols .native).Distinct := hattach.distinct
  generalize hu : w.ubi .native = u at h₁
  generalize hleb : w.lebSize = leb at h₁
  refine spec_next (Cmd.ubiCheck "fip") fun o _ => ⟨trivial, ?_⟩
  refine spec_ite (by rintro _ ⟨⟩) fun _ => ?_
  have h₂ := h₁.reads (c := .ubiCheck "fip") trivial o
  refine (h₂.spec_reads (reads_volumeFipValid "fip")).bind fun b w₃ h₃ => ?_
  refine spec_ite (by rintro _ ⟨⟩) fun _ => ?_
  have hmanifest : Uses Cmd.Reads (verifyVolumeManifest false) :=
    uses_verifyVolumeManifest (fun _ h => h.reads) false
  refine (h₃.spec_reads hmanifest).bind fun ret w₄ h₄ => ?_
  refine spec_ite (by rintro _ ⟨⟩) fun _ => ?_
  obtain ⟨p, hp, harea⟩ := h₄.attached
  refine spec_next Cmd.ubiGetDevice fun o _ => ⟨trivial, ?_⟩
  have hdev : (exec .ubiGetDevice o w₄).1 = some ⟨p, leb, u.availPebs⟩ := by
    simp [exec, hp, h₄.leb, harea, h₄.image]
  rw [hdev]
  refine spec_ite (by rintro _ ⟨⟩) fun hne => ?_
  refine (openPebs_device "fit.old" h₄).bind fun old w₅ h₅ => ?_
  refine (openPebs_device "fit.new" h₅.2).bind fun new w₆ h₆ => ?_
  refine (openPebs_device "fit" h₆.2).bind fun fit w₇ h₇ => ?_
  obtain ⟨rfl, -⟩ := h₅
  obtain ⟨rfl, -⟩ := h₆
  obtain ⟨rfl, h₇⟩ := h₇
  have hfit : (Option.map (fun x => x.2.reservedPebs) (u.vols.lookup "fit")).getD c.fitPebs =
      u.pebsOf "fit" := by
    rw [hpebs]
    rfl
  rw [hfit]
  have hfalse := pool_removals_false u
  have htrue := pool_removals_true u
  refine spec_ite (fun hroom _ => ?_) fun hroom =>
    spec_ite (fun hroom' _ => ?_) fun _ => by rintro ⟨⟩
  · have hroom' : requiredPebs c leb + stagedHeadroomLebs ≤ headroom u := hroom
    have hdirect : directly c u leb = false := decide_eq_false (by omega)
    rw [hdirect]
    refine ⟨h₇, hd, hne, rfl, rfl, ?_⟩
    unfold Counts
    rw [hfalse]
    exact hroom'
  · have hno : ¬ requiredPebs c leb + stagedHeadroomLebs ≤ headroom u := hroom
    have hdirect : directly c u leb = true := decide_eq_true (by omega)
    rw [hdirect]
    refine ⟨h₇, hd, hne, rfl, rfl, ?_⟩
    unfold Counts
    rw [htrue]
    exact hroom'

theorem fail_ne_zero (c : Ctx) (ret : ℤ) : (fail c ret).1 ≠ 0 := by
  show (if ret ≠ 0 then ret else -eio) ≠ 0
  split_ifs with h
  · exact h
  · simp

theorem removals_device {α : Type} {Q : α → World → Prop} {n : String} {k : FlashProg α} {a : α}
    (h : DeviceIs u leb w)
    (hk : ∀ w', DeviceIs (u.dropped n) leb w' → Spec exec Succeeds (fun _ => True) Q k w') :
    Spec exec Succeeds (fun _ => True) Q
      ((removeIfPresent n).bind fun ret => if ret ≠ 0 then Prog.ret a else k) w := by
  refine (removeIfPresent_device h).bind fun ret w' h' => ?_
  obtain ⟨rfl, h'⟩ := h'
  exact spec_ite (fun hne => absurd rfl hne) fun _ => hk w' h'

theorem createTarget_device (h : DeviceIs u leb w) (hlen : c.fitLen ≠ 0)
    (hfresh : u.vols.lookup c.target = none) :
    Spec exec Succeeds (fun _ => True) (fun r w' =>
      (r.1 = 0 ∧ requiredPebs c leb ≤ u.availPebs ∧
        ∃ u', DeviceIs u' leb w' ∧ u'.availPebs = u.availPebs - requiredPebs c leb) ∨
      (r.1 ≠ 0 ∧ DeviceIs u leb w' ∧
        ((∀ i, (u.vols i).isSome) ∨ u.availPebs < requiredPebs c leb))) (createTarget c) w := by
  refine spec_next (Cmd.ubiCreate _ _ _ _) fun o ho => ⟨trivial, ?_⟩
  have hcreate := ubiCreate_device c.target c.fitLen false none h ho
  cases hslot : u.freeSlot none with
  | none =>
    have hfull : ∀ i, (u.vols i).isSome := by
      intro i
      have hi := List.find?_eq_none.1 hslot i (List.mem_finRange i)
      exact Option.isSome_iff_ne_none.2 (by simpa using hi)
    rw [UbiImage.create_refused hlen (.inl hslot)] at hcreate
    have hne : (exec (.ubiCreate c.target c.fitLen false none) o w).1 ≠ 0 := by
      rw [hcreate.1]
      simp
    exact spec_ite (fun _ => .inr ⟨fail_ne_zero c _, hcreate.2, .inl hfull⟩)
      fun hz => absurd hne hz
  | some i =>
    by_cases hroom : requiredPebs c leb ≤ u.availPebs
    · obtain ⟨u', hu', -, havail⟩ := UbiImage.create_of_room false hlen hslot hfresh hroom
      rw [hu'] at hcreate
      refine spec_ite (fun hne => absurd hcreate.1 hne) fun _ => ?_
      exact .inl ⟨rfl, hroom, u', hcreate.2, havail⟩
    · rw [UbiImage.create_refused hlen (.inr (Nat.lt_of_not_le hroom))] at hcreate
      have hne : (exec (.ubiCreate c.target c.fitLen false none) o w).1 ≠ 0 := by
        rw [hcreate.1]
        simp
      exact spec_ite (fun _ => .inr ⟨fail_ne_zero c _, hcreate.2, .inr (Nat.lt_of_not_le hroom)⟩)
        fun hz => absurd hne hz

/-- **When STAGE_PREP creates its volume**, and what is free then. -/
theorem stagePrep_device (h : DeviceIs u leb w) (hd : u.vols.Distinct) (hlen : c.fitLen ≠ 0) :
    Spec exec Succeeds (fun _ => True) (fun r w' =>
      (r.1 = 0 ∧ requiredPebs c leb ≤ (u.dropAll (removals c.directMode)).availPebs ∧
        ∃ u', DeviceIs u' leb w' ∧ u'.availPebs =
          (u.dropAll (removals c.directMode)).availPebs - requiredPebs c leb) ∨
      (r.1 ≠ 0 ∧ DeviceIs (u.dropAll (removals c.directMode)) leb w' ∧
        ((∀ i, ((u.dropAll (removals c.directMode)).vols i).isSome) ∨
          (u.dropAll (removals c.directMode)).availPebs < requiredPebs c leb)))
      (stagePrep c) w := by
  refine removals_device h fun w₁ h₁ => removals_device h₁ fun w₂ h₂ => ?_
  cases hdirect : c.directMode with
  | true =>
    refine spec_ite (fun _ => ?_) fun hno => absurd rfl hno
    refine removals_device h₂ fun w₃ h₃ => createTarget_device h₃ hlen ?_
    show (u.dropAll (removals true)).vols.lookup "fit" = none
    exact UbiImage.lookup_dropAll_of_mem hd (by decide)
  | false =>
    refine spec_ite (fun hyes => nomatch hyes) fun _ => createTarget_device h₂ hlen ?_
    show (u.dropAll (removals false)).vols.lookup "fit.new" = none
    exact UbiImage.lookup_dropAll_of_mem hd (by decide)

/-! ## The headroom -/

/-- The create has not failed, unless every id is taken, and so many PEBs are free. -/
def Sufficient (bound : ℕ) (ret : ℤ) (w : World) : Prop :=
  (ret = 0 ∨ ∀ i, (w.vols .native i).isSome) ∧ bound ≤ (w.ubi .native).availPebs

/-- STAGE_PREP removes no volume, or the PEBs it counts hold what the reserve for bad blocks is
short of as well. -/
def TopUpFits (c : Ctx) (u : UbiImage) (leb : ℕ) (direct : Bool) : Prop :=
  (removals direct).any u.present = false ∨
    requiredPebs c leb + reserve u direct + u.deficit ≤ u.pool (removals direct)

theorem nodup_removals (direct : Bool) : (removals direct).Nodup := by
  cases direct <;> decide

theorem stagePrep_sufficient {d : Ctx} {direct : Bool} (h : DeviceIs u leb w) (hd : u.vols.Distinct)
    (hleb : leb ≠ 0) (hlen : d.fitLen = c.fitLen) (hne : c.fitLen ≠ 0)
    (hdirect : d.directMode = direct) (hcounts : Counts c u leb direct) :
    Spec exec Succeeds (fun _ => True)
      (fun r w' => Sufficient (reserve u direct) r.1 w' ↔ TopUpFits c u leb direct)
      (stagePrep d) w := by
  refine (stagePrep_device h hd (hlen ▸ hne)).mono fun r w' hr => ?_
  have hreq : requiredPebs d leb = requiredPebs c leb := by
    unfold requiredPebs
    rw [hlen]
  have hpos : 0 < requiredPebs c leb := Nat.div_pos (by omega) (by omega)
  rw [hdirect, hreq] at hr
  have havail := UbiImage.dropAll_availPebs (u := u) (nodup_removals direct)
  unfold Counts at hcounts
  unfold TopUpFits Sufficient
  by_cases hany : (removals direct).any u.present = true
  · -- a removal: the reserve is topped up, and an id is free
    rw [if_pos hany] at havail
    obtain ⟨i, hi⟩ := UbiImage.exists_free_dropAll hany
    rcases hr with ⟨hret, hroom, u', hdev, hfree⟩ | ⟨hret, hdev, hfull | hroom⟩
    · rw [hdev.image, hret, hfree]
      simp only [hany, Bool.true_eq_false, false_or, true_or, true_and]
      omega
    · have := hfull i
      rw [hi] at this
      cases this
    · have hno : ¬ ∀ i, (w'.vols .native i).isSome := by
        intro hfull
        have := hfull i
        rw [World.vols, hdev.image, hi] at this
        cases this
      simp only [hret, hno, or_self, false_and, hany, Bool.true_eq_false, false_or, false_iff]
      omega
  · rw [if_neg hany] at havail
    have hpool : u.pool (removals direct) = u.availPebs := by
      rw [UbiImage.pool, UbiImage.sum_pebsOf_of_absent hany, Nat.add_zero]
    refine iff_of_true ?_ (.inl (by simpa using hany))
    rcases hr with ⟨hret, hroom, u', hdev, hfree⟩ | ⟨hret, hdev, hfull | hroom⟩
    · rw [hdev.image, hfree]
      exact ⟨.inl hret, by omega⟩
    · rw [World.vols, hdev.image]
      exact ⟨.inr hfull, by omega⟩
    · omega

structure Begun (c : Ctx) : Prop where
  stage : c.stage = .precheck
  len : c.fitLen ≠ 0
  pebs : c.fitPebs = 0

/-- The STAGE_PREP that follows the PRECHECK of `c`; RAM may have changed in between. -/
def prepared (c : Ctx) (outs outs' : ℕ → Outcome) (m : Mem UInt8) (w : World) :
    Result Cmd Outcome World (ℤ × Ctx) :=
  run exec (runStage (run exec (runStage c) outs w).val.2) outs'
    { (run exec (runStage c) outs w).world with ram := m }

/-! ## Updates that PRECHECK accepts -/

/-- What PRECHECK asks of the volumes besides room. -/
structure Complete (u : UbiImage) (leb : ℕ) : Prop where
  sized : leb ≠ 0
  fip : ∃ x, u.vols.lookup "fip" = some x ∧ fipTocRead ≤ x.2.data.length ∧ x.2.fipOk = true
  core : ∀ n ∈ coreNames, u.present n = true
  rootfsData : ∃ x, u.vols.lookup "rootfs_data" = some x ∧ x.2.static = false ∧
    x.2.reservedPebs ≠ 0 ∧ x.2.reservedPebs * leb % 2 ^ 64 ≠ 0

theorem ubiOpenVolume_device {n : String} {x : Fin vtblSlots × Volume} {o : Outcome}
    (h : DeviceIs u leb w) (ho : o.err = none) (hx : u.vols.lookup n = some x) :
    (exec (.ubiOpenVolume n) o w).1 =
      .ok ⟨x.1, x.2.static, x.2.data.length, x.2.reservedPebs, leb⟩ := by
  simp [exec, World.ubiOpenVolume, ho, h.device, hx, h.leb]

theorem openAll_device {ns : List String} (h : DeviceIs u leb w)
    (hns : ∀ n ∈ ns, u.present n = true) :
    Spec exec Succeeds (fun _ => True) (fun ret w' => ret = 0 ∧ DeviceIs u leb w')
      (openAll ns) w := by
  induction ns generalizing w with
  | nil => exact ⟨rfl, h⟩
  | cons n ns ih =>
    refine spec_next (Cmd.ubiOpenVolume n) fun o ho => ⟨trivial, ?_⟩
    obtain ⟨x, hx⟩ := Option.isSome_iff_exists.1 (hns n List.mem_cons_self)
    rw [ubiOpenVolume_device h ho hx]
    have h' := h.reads (c := .ubiOpenVolume n) trivial o
    exact ih h' fun m hm => hns m (List.mem_cons_of_mem _ hm)

theorem verifyVolumeManifest_device (h : DeviceIs u leb w) (hu : Complete u leb) :
    Spec exec Succeeds (fun _ => True) (fun ret w' => ret = 0 ∧ DeviceIs u leb w')
      (verifyVolumeManifest false) w := by
  obtain ⟨p, hp, -⟩ := h.attached
  refine spec_next Cmd.ubiGetDevice fun o _ => ⟨trivial, ?_⟩
  refine spec_ite (fun hno => by simp [exec, hp] at hno) fun _ => ?_
  refine (openAll_device h hu.core).bind fun ret w₁ h₁ => ?_
  refine spec_ite (fun hne => absurd h₁.1 hne) fun _ => ?_
  obtain ⟨x, hx, hstatic, hpebs, hbytes⟩ := hu.rootfsData
  refine spec_next (Cmd.ubiOpenVolume "rootfs_data") fun o ho => ⟨trivial, ?_⟩
  rw [ubiOpenVolume_device h₁.2 ho hx]
  refine ⟨if_neg ?_, h₁.2.reads (c := .ubiOpenVolume "rootfs_data") trivial o⟩
  simpa [VolumeDesc.bytes, hstatic, hpebs] using hbytes

/-- **What PRECHECK accepts.** -/
theorem precheck_accepts (hw : Attachable w) (hu : Complete (w.ubi .native) w.lebSize)
    (hpebs : c.fitPebs = 0)
    (hcounts : Counts c (w.ubi .native) w.lebSize (directly c (w.ubi .native) w.lebSize)) :
    Spec exec Succeeds (fun _ => True) (fun r _ => r.2.stage = .stagePrep) (precheck c) w := by
  refine spec_attach_device (fun hno => absurd hw hno) fun _ w₁ hat h₁ => ?_
  generalize w.ubi .native = u at h₁ hu hcounts
  generalize w.lebSize = leb at h₁ hu hcounts
  obtain ⟨x, hx, hlen, hvalid⟩ := hu.fip
  refine spec_next (Cmd.ubiCheck "fip") fun o ho => ⟨trivial, ?_⟩
  have hthere : u.present "fip" = true := hu.core "fip" (by decide)
  refine spec_ite (fun hne => absurd ((ubiCheck_device h₁ ho).2 hthere) hne) fun _ => ?_
  have h₂ := h₁.reads (c := .ubiCheck "fip") trivial o
  have hshows : Shows u.vols (exec (.ubiCheck "fip") o w₁).2 :=
    ⟨(exec_reads (c := .ubiCheck "fip") trivial o w₁).attached.trans hat,
      congrArg UbiImage.vols h₂.image⟩
  have hfip : Spec exec Succeeds (fun _ => True) (fun b w' => b = x.2.fipOk ∧ Shows u.vols w')
      (volumeFipValid "fip") (exec (.ubiCheck "fip") o w₁).2 :=
    volumeFipValid_spec hshows hx hlen fun _ _ _ _ => trivial
  have hboth := hfip.and (h₂.spec_reads (reads_volumeFipValid "fip"))
  refine (hboth.weaken (fun _ h => h) fun _ _ _ => trivial).bind fun b w₃ h₃ => ?_
  refine spec_ite (fun hno => by simp [h₃.1.1, hvalid] at hno) fun _ => ?_
  refine (verifyVolumeManifest_device h₃.2 hu).bind fun ret w₄ h₄ => ?_
  refine spec_ite (fun hne => absurd h₄.1 hne) fun _ => ?_
  obtain ⟨p, hp, harea⟩ := h₄.2.attached
  refine spec_next Cmd.ubiGetDevice fun o _ => ⟨trivial, ?_⟩
  have hdev : (exec .ubiGetDevice o w₄).1 = some ⟨p, leb, u.availPebs⟩ := by
    simp [exec, hp, h₄.2.leb, harea, h₄.2.image]
  rw [hdev]
  refine spec_ite (fun hz => absurd hz hu.sized) fun _ => ?_
  refine (openPebs_device "fit.old" h₄.2).bind fun old w₅ h₅ => ?_
  refine (openPebs_device "fit.new" h₅.2).bind fun new w₆ h₆ => ?_
  refine (openPebs_device "fit" h₆.2).bind fun fit w₇ h₇ => ?_
  obtain ⟨rfl, -⟩ := h₅
  obtain ⟨rfl, -⟩ := h₆
  obtain ⟨rfl, h₇⟩ := h₇
  refine spec_ite (fun _ => rfl) fun hroom => spec_ite (fun _ => rfl) fun hroom' => ?_
  have hno : ¬ requiredPebs c leb + stagedHeadroomLebs ≤ headroom u := hroom
  have hdirect : directly c u leb = true := decide_eq_true (by omega)
  unfold Counts at hcounts
  rw [hdirect, pool_removals_true] at hcounts
  refine absurd ?_ hroom'
  rw [hpebs]
  exact hcounts

theorem prepared_spec {Q : ℤ × Ctx → World → Prop} {outs outs' : ℕ → Outcome} {m : Mem UInt8}
    (hc : Begun c) (hok : ∀ e ∈ (run exec (runStage c) outs w).trace, Succeeds e)
    (haccept : (run exec (runStage c) outs w).val.2.stage = .stagePrep)
    (hok' : ∀ e ∈ (prepared c outs outs' m w).trace, Succeeds e)
    (hQ : ∀ d w₁, DeviceIs (w.ubi .native) w.lebSize w₁ → (w.vols .native).Distinct →
      w.lebSize ≠ 0 → d.fitLen = c.fitLen → d.directMode = directly c (w.ubi .native) w.lebSize →
      Counts c (w.ubi .native) w.lebSize (directly c (w.ubi .native) w.lebSize) →
      Spec exec Succeeds (fun _ => True) Q (stagePrep d) w₁) :
    Q (prepared c outs outs' m w).val (prepared c outs outs' m w).world := by
  have hrun : runStage c = precheck c := by
    unfold runStage
    rw [hc.stage]
  rw [hrun] at hok haccept
  obtain ⟨-, hpre⟩ := (precheck_device (w := w) hc.pebs).run_of outs hok
  obtain ⟨hdev, hd, hleb, hlen, hdirect, hcounts⟩ := hpre haccept
  have hrun' : runStage (run exec (precheck c) outs w).val.2 =
      stagePrep (run exec (precheck c) outs w).val.2 := by
    unfold runStage
    rw [haccept]
  unfold prepared at hok' ⊢
  rw [hrun, hrun'] at hok' ⊢
  have hdev' : DeviceIs (w.ubi .native) w.lebSize
      { (run exec (precheck c) outs w).world with ram := m } :=
    ⟨hdev.attached, hdev.image, hdev.leb⟩
  exact ((hQ _ _ hdev' hd hleb hlen hdirect hcounts).run_of outs' hok').2

/-- The volumes of a board that runs OpenWrt, with a `fit.old` of 10 PEBs. -/
def roomTable : VolumeTable := fun k =>
  if k = 0 then some ("ubootenv", lebVolume []) else if k = 1 then some ("ubootenv2", lebVolume [])
  else if k = 2 then some ("bosa", lebVolume []) else if k = 3 then some ("ri", lebVolume [])
  else if k = 4 then some ("fip", sampleFipVolume) else if k = 5 then some ("fit", lebVolume [])
  else if k = 6 then some ("rootfs_data", lebVolume [])
  else if k = 7 then some ("fit.old", { lebVolume [] with reservedPebs := 10 }) else none

/-- Such a board with 11 free PEBs; the reserve for bad blocks holds `rsvd` PEBs of 40. -/
def roomBoard (rsvd : ℕ) : World :=
  { FipUpdate.sampleWorld roomTable with ubi := fun _ => ⟨roomTable, 11, rsvd, 40, 2000⟩ }

def roomCtx : Ctx := { stage := .precheck, active := true, fitAddr := 0x88000000, fitLen := 100 }

theorem roomTable_fip : roomTable.lookup "fip" = some (4, sampleFipVolume) :=
  Slots.lookup_eq_some.2 ⟨by decide, rfl⟩

theorem roomTable_rootfsData : roomTable.lookup "rootfs_data" = some (6, lebVolume []) :=
  Slots.lookup_eq_some.2 ⟨by decide, rfl⟩

theorem roomTable_fitOld :
    roomTable.lookup "fit.old" = some (7, { lebVolume [] with reservedPebs := 10 }) :=
  Slots.lookup_eq_some.2 ⟨by decide, rfl⟩

theorem roomTable_fitNew : roomTable.lookup "fit.new" = none :=
  Slots.lookup_eq_none.2 (Slots.find?_eq_none.1 (by decide))

theorem distinct_roomTable : roomTable.Distinct := Slots.nodup_names.1 (by decide)

theorem present_roomTable : ∀ n ∈ coreNames, (roomTable.find? n).isSome = true := by decide

theorem attachable_roomBoard (rsvd : ℕ) : Attachable (roomBoard rsvd) :=
  ⟨.inr rfl, distinct_roomTable⟩

theorem lebSize_roomBoard (rsvd : ℕ) : (roomBoard rsvd).lebSize = 0x1f000 := rfl

theorem complete_roomBoard (rsvd : ℕ) :
    Complete ((roomBoard rsvd).ubi .native) (roomBoard rsvd).lebSize := by
  rw [lebSize_roomBoard]
  refine ⟨by decide, ⟨_, roomTable_fip, le_length_sampleFipVolume, fipOk_sampleFipVolume⟩, ?_,
    ⟨_, roomTable_rootfsData, rfl, by decide, by decide⟩⟩
  intro n hn
  rw [UbiImage.present_eq]
  exact present_roomTable n hn

theorem headroom_roomBoard (rsvd : ℕ) : headroom ((roomBoard rsvd).ubi .native) = 21 := by
  have hold : ((roomBoard rsvd).ubi .native).pebsOf "fit.old" = 10 := by
    simp [UbiImage.pebsOf, roomBoard, roomTable_fitOld]
  have hnew : ((roomBoard rsvd).ubi .native).pebsOf "fit.new" = 0 := by
    simp [UbiImage.pebsOf, roomBoard, roomTable_fitNew]
  rw [headroom, hold, hnew]
  rfl

theorem requiredPebs_roomCtx : requiredPebs roomCtx 0x1f000 = 1 := by decide

theorem directly_roomBoard (rsvd : ℕ) :
    directly roomCtx ((roomBoard rsvd).ubi .native) (roomBoard rsvd).lebSize = false := by
  rw [directly, headroom_roomBoard, lebSize_roomBoard, requiredPebs_roomCtx]
  rfl

theorem counts_roomBoard (rsvd : ℕ) :
    Counts roomCtx ((roomBoard rsvd).ubi .native) (roomBoard rsvd).lebSize false := by
  rw [Counts, pool_removals_false, headroom_roomBoard, lebSize_roomBoard, requiredPebs_roomCtx]
  exact le_refl 21

theorem roomBoard_accepted (rsvd : ℕ) :
    (run exec (runStage roomCtx) (fun _ => .ok) (roomBoard rsvd)).val.2.stage = .stagePrep := by
  have hcounts := counts_roomBoard rsvd
  rw [← directly_roomBoard rsvd] at hcounts
  have hspec := precheck_accepts (attachable_roomBoard rsvd) (complete_roomBoard rsvd) rfl hcounts
  have hrun : runStage roomCtx = precheck roomCtx := rfl
  rw [hrun]
  exact (hspec.run_of _ succeeds_of_ok).2

end Stages

end UbiUpdate

end UrsusBoot
