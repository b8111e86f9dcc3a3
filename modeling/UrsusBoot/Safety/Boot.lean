import UrsusBoot.Safety.FipProgress
import UrsusBoot.Web.Status

/-!
# What boots, and what the probe says about it

With all UBI commands succeeding, the boot and the probe are functions of the volume table.
-/

namespace UrsusBoot

open Prog

def Succeeds (e : FlashEvent) : Prop := e.out.err = none

/-! ## Volumes as the boot sees them -/

def Volume.fipOk (v : Volume) : Bool := !v.updMarker && fipBufferValid (v.data.take fipTocRead)

def Volume.headerOk (v : Volume) : Bool :=
  !v.updMarker && decide (fdtCheckHeader (v.data.take 40) = 0)

def Volume.fitOk (v : Volume) : Bool :=
  v.headerOk && decide (40 ≤ (fdtHeader (v.data.take 40)).totalsize)

def Volume.bootOk (v : Volume) : Bool := v.headerOk && decide (v.data.length ≤ ubiBootMax)

/-- The table has a volume of that name, and it passes the check. -/
def passes (t : VolumeTable) (n : String) (ok : Volume → Bool) : Bool :=
  (t.lookup n).any fun x => ok x.2

/-- The volume the boot selects: `fit`, or `fit.old` when there is no `fit`. -/
def bootSelect (t : VolumeTable) : Option Volume :=
  ((t.lookup "fit").or (t.lookup "fit.old")).map Prod.snd

/-- The boot finds a FIP in `fip` and a blob of acceptable size in the volume it selects. -/
def Boots (t : VolumeTable) : Prop :=
  passes t "fip" Volume.fipOk = true ∧ ∃ v, bootSelect t = some v ∧ v.bootOk = true

/-- The volumes that are looked at hold at least as many bytes as are looked at. -/
structure Inspectable (t : VolumeTable) : Prop where
  fip : ∀ x, t.lookup "fip" = some x → fipTocRead ≤ x.2.data.length
  fit : ∀ x, t.lookup "fit" = some x → 40 ≤ x.2.data.length
  fitOld : ∀ x, t.lookup "fit.old" = some x → 40 ≤ x.2.data.length

/-- The native UBI device can be registered and attached. -/
structure Attachable (w : World) : Prop where
  registered : w.ubiMtdReady = true ∨ w.geometry = some .supported
  distinct : (w.vols .native).Distinct

/-- The attached device is the one of the table `t`. -/
structure Shows (t : VolumeTable) (w : World) : Prop where
  attached : w.attached = some .ursusUbiFull
  vols : w.vols .native = t

theorem Shows.reads {t : VolumeTable} {w w' : World} (h : Shows t w) (hr : ReadStep w w') :
    Shows t w' :=
  ⟨hr.attached.trans h.attached, (hr.vols .native).trans h.vols⟩

/-! ## Commands that succeed -/

variable {x : Fin vtblSlots × Volume}

section Commands

variable {w : World} {o : Outcome} {t : VolumeTable} {n : String}

theorem ubiRegisterMtd_succeeds (h : w.ubiMtdReady = true ∨ w.geometry = some .supported)
    (ho : o.err = none) : (exec .ubiRegisterMtd o w).1 = 0 := by
  simp only [exec, World.ubiRegisterMtd, ho]
  by_cases hready : w.ubiMtdReady = true
  · simp [hready]
  · have hg : w.geometry = some .supported := h.resolve_left hready
    simp [hready, hg]

theorem ubiDetach_succeeds (ho : o.err = none) :
    (exec .ubiDetach o w).2 = { w with attached := none } := by
  simp [exec, ho]

theorem ubiPart_succeeds {p : UbiPart} (hd : (w.vols p.area).Distinct) (ho : o.err = none) :
    (exec (.ubiPart p) o w).1 = 0 := by
  have hd' : (w.ubi p.area).vols.Distinct := hd
  simp only [exec, World.ubiPart, ho]
  split_ifs <;> simp_all

theorem ubiCheck_eq_zero (h : Shows t w) (ho : o.err = none) :
    (exec (.ubiCheck n) o w).1 = 0 ↔ (t.lookup n).isSome := by
  have hfind : (w.ubi UbiPart.ursusUbiFull.area).vols = t := h.vols
  have hsome : (t.find? n).isSome ↔ (t.lookup n).isSome := by
    cases hf : t.find? n with
    | none => simp [Slots.lookup, hf]
    | some i =>
      obtain ⟨r, hr⟩ := Slots.named_of_find? hf
      have hl : t.lookup n = some (i, r) := Slots.lookup_eq_some.2 ⟨hf, hr⟩
      simp [hl]
  rw [← hsome]
  simp only [exec, World.shellUbi, h.attached, ho, hfind]
  by_cases hn : (t.find? n).isSome
  · simp [hn]
  · simp [hn]

theorem lookup_of_shows (h : Shows t w) : (w.device.bind fun u => u.vols.lookup n) = t.lookup n := by
  have hv : (w.ubi UbiPart.ursusUbiFull.area).vols = t := h.vols
  simp [World.device, h.attached, hv]

theorem ubiRead_succeeds (addr size : ℕ) (h : Shows t w) (ho : o.err = none)
    (hx : t.lookup n = some x) :
    (exec (.ubiRead addr n size) o w).1 = 0 ↔ x.2.updMarker = false := by
  simp only [exec, World.ubiRead, lookup_of_shows h, hx, ho]
  by_cases hm : x.2.updMarker = true
  · simp [hm]
  · by_cases hd : x.2.data = []
    · simp [hm, hd]
    · simp [hm, hd]

theorem ubiRead_window {addr size : ℕ} (h : Shows t w) (hx : t.lookup n = some x) (hsize : size ≠ 0)
    {k : ℕ} (hk : k ≤ size) (hlen : k ≤ x.2.data.length)
    (hz : (exec (.ubiRead addr n size) o w).1 = 0) :
    (exec (.ubiRead addr n size) o w).2.ram.slice addr k = x.2.data.take k := by
  obtain ⟨p, i, v, hp, hl, -, hram⟩ := World.ubiRead_of_zero hz
  obtain rfl : UbiPart.ursusUbiFull = p := Option.some.inj (h.attached.symm.trans hp)
  have hlook : t.lookup n = some (i, v) := by
    rw [← h.vols]
    exact hl
  obtain rfl : x = (i, v) := Option.some.inj (hx.symm.trans hlook)
  simp only [exec] at hram ⊢
  rw [hram, if_neg hsize]
  have htake : (v.data.take size).length = min size v.data.length := List.length_take
  have hread : ((w.ram.blit addr (v.data.take size)).slice addr (v.data.take size).length).take k =
      (v.data.take size).take k := by
    rw [Mem.slice_blit]
  rw [Mem.take_slice _ _ (by rw [htake]; exact le_min hk hlen), List.take_take,
    Nat.min_eq_left hk] at hread
  exact hread

end Commands

/-! ## The boot -/

section Boot

variable {G : FlashEvent → Prop} {w : World} {t : VolumeTable}

theorem spec_attach {α : Type} {Q : α → World → Prop} {f₁ f₂ : ℤ → α} {k : FlashProg α}
    (hw : Attachable w) (hreg : ∀ o w, G ⟨.ubiRegisterMtd, o, w⟩) (hdet : ∀ o w, G ⟨.ubiDetach, o, w⟩)
    (hpart : ∀ o w, G ⟨.ubiPart .ursusUbiFull, o, w⟩)
    (hk : ∀ w', Shows (w.vols .native) w' → w'.ram = w.ram → w'.lebSize = w.lebSize →
      Spec exec Succeeds G Q k w') :
    Spec exec Succeeds G Q (ubiRegisterMtd.bind fun ret =>
      if ret ≠ 0 then Prog.ret (f₁ ret) else ubiDetach.bind fun _ =>
        (ubiPart .ursusUbiFull).bind fun ret => if ret ≠ 0 then Prog.ret (f₂ ret) else k) w := by
  refine spec_next Cmd.ubiRegisterMtd fun o ho => ⟨hreg o w, ?_⟩
  have hzero : (exec .ubiRegisterMtd o w).1 = 0 := ubiRegisterMtd_succeeds hw.registered ho
  have hread : ReadStep w (exec .ubiRegisterMtd o w).2 := exec_reads (c := .ubiRegisterMtd) trivial o w
  have hram : (exec .ubiRegisterMtd o w).2.ram = w.ram :=
    exec_query_ram (c := .ubiRegisterMtd) trivial o w
  refine spec_ite (fun hne => absurd hzero hne) fun _ => ?_
  generalize (exec .ubiRegisterMtd o w).2 = w₁ at hread hram
  refine spec_next Cmd.ubiDetach fun o₂ ho₂ => ⟨hdet o₂ w₁, ?_⟩
  rw [ubiDetach_succeeds ho₂]
  refine spec_next (Cmd.ubiPart .ursusUbiFull) fun o₃ ho₃ =>
    ⟨hpart o₃ _, ?_⟩
  have hd : (({ w₁ with attached := none } : World).vols UbiPart.ursusUbiFull.area).Distinct := by
    show (w₁.vols .native).Distinct
    rw [hread.vols]
    exact hw.distinct
  have hzero₃ := ubiPart_succeeds hd ho₃
  refine spec_ite (fun hne => absurd hzero₃ hne) fun _ => hk _ ⟨?_, ?_⟩ ?_ ?_
  · exact World.ubiPart_attached hzero₃
  · exact (World.ubiPart_vols _ _ _ _).trans (hread.vols .native)
  · simp only [exec, World.ubiPart]
    split_ifs <;> simp [hram]
  · simp only [exec, World.ubiPart]
    split_ifs <;> simp [hread.lebSize]

theorem volumeFipValid_spec {n : String} (h : Shows t w) (hx : t.lookup n = some x)
    (hlen : fipTocRead ≤ x.2.data.length) (hG : ∀ c o w, c.Reads → G ⟨c, o, w⟩) :
    Spec exec Succeeds G (fun b w' => b = x.2.fipOk ∧ Shows t w') (volumeFipValid n) w := by
  have hcmd : (Cmd.ubiRead ubiReadbackAddr n fipTocRead).Reads := le_refl ubiReadbackAddr
  refine spec_next (Cmd.ubiRead ubiReadbackAddr n fipTocRead) fun o ho =>
    ⟨hG _ o w hcmd, ?_⟩
  have hshow := h.reads (exec_reads hcmd o w)
  have hiff := ubiRead_succeeds ubiReadbackAddr fipTocRead h ho hx
  refine spec_ite (fun hne => ⟨?_, hshow⟩) fun hz => ?_
  · have hm : x.2.updMarker = true := by
      by_contra hm
      exact hne (hiff.2 (by simpa using hm))
    simp [Volume.fipOk, hm]
  · have hz' : (exec (.ubiRead ubiReadbackAddr n fipTocRead) o w).1 = 0 := not_not.1 hz
    refine spec_next (Cmd.readMem ubiReadbackAddr fipTocRead) fun o₂ _ =>
      ⟨hG _ o₂ _ trivial, ?_, hshow⟩
    have hwin := ubiRead_window h hx (by decide) (le_refl fipTocRead) hlen hz'
    show fipBufferValid (_ : List UInt8) = _
    simp only [exec] at hwin ⊢
    rw [hwin, Volume.fipOk, hiff.1 hz']
    rfl

/-- Where a boot stands when it has loaded the volume `v`. -/
def Loaded (v : Volume) (e : FlashEvent) : Prop :=
  e.cmd = .bootm ubiBootAddr → e.before.ram.slice ubiBootAddr v.data.length = v.data

/-- The boot has got as far as `bootm`. -/
def BootResult.reached (r : BootResult) : Prop :=
  r.reason = .bootInProgress ∨ r.reason = .bootmReturned

theorem not_reached_bootFailed {ret : ℤ} {reason : BootReason} (h₁ : reason ≠ .bootInProgress)
    (h₂ : reason ≠ .bootmReturned) : ¬ (bootFailed ret reason).reached :=
  fun h => h.elim h₁ h₂

theorem bootVolume_spec {n : String} (h : Shows t w) (hx : t.lookup n = some x)
    (hlen : 40 ≤ x.2.data.length) :
    Spec exec Succeeds (Loaded x.2) (fun r _ => r.reached ↔ x.2.bootOk = true) (bootVolume n) w := by
  have hne : x.2.data ≠ [] := by
    intro hnil
    rw [hnil] at hlen
    simp at hlen
  have hne' : x.2.data.length ≠ 0 := by omega
  refine spec_next (Cmd.ubiReadWhole ubiBootAddr n) fun o ho =>
    ⟨(by rintro ⟨⟩), ?_⟩
  have ho' : o.err = none := ho
  have hexec : exec (.ubiReadWhole ubiBootAddr n) o w =
      if x.2.updMarker = true then ((1, o.filesize), w)
      else ((0, x.2.data.length),
        { w with ram := w.ram.blit ubiBootAddr x.2.data }.ubiCells o) := by
    simp only [exec, World.ubiReadWhole, World.ubiRead, lookup_of_shows h, hx, ho']
    by_cases hm : x.2.updMarker = true
    · simp [hm]
    · simp [hm, hne]
  by_cases hm : x.2.updMarker = true
  · rw [hexec, if_pos hm]
    refine spec_ite (fun _ => ?_) fun hz => absurd (by decide) hz
    show _ ↔ _
    simp [Volume.bootOk, Volume.headerOk, hm, not_reached_bootFailed]
  · rw [hexec, if_neg hm]
    refine spec_ite (fun hz => absurd rfl hz) fun _ => ?_
    set w₁ := ({ w with ram := w.ram.blit ubiBootAddr x.2.data } : World).ubiCells o with hw₁
    have hslice : w₁.ram.slice ubiBootAddr x.2.data.length = x.2.data := by
      rw [hw₁, World.ubiCells_ram]
      exact Mem.slice_blit _ _ _
    have hhead : w₁.ram.slice ubiBootAddr 40 = x.2.data.take 40 := by
      rw [← Mem.take_slice _ _ hlen, hslice]
    refine spec_ite (fun hsize => ?_) fun hsize => ?_
    · have hbig : ¬ x.2.data.length ≤ ubiBootMax := by
        have := hsize.resolve_left hne'
        omega
      show _ ↔ _
      simp [Volume.bootOk, hbig, not_reached_bootFailed]
    · have hfits : x.2.data.length ≤ ubiBootMax := by
        by_contra hbig
        exact hsize (.inr (by omega))
      refine spec_next (Cmd.readMem ubiBootAddr 40) fun o₂ _ =>
        ⟨(by rintro ⟨⟩), ?_⟩
      show Spec _ _ _ _ (if fdtCheckHeader (w₁.ram.slice ubiBootAddr 40) ≠ 0 then _ else _) _
      rw [hhead]
      refine spec_ite (fun hbad => ?_) fun hgood => ?_
      · show _ ↔ _
        simp [Volume.bootOk, Volume.headerOk, hbad, not_reached_bootFailed]
      · have hok : x.2.bootOk = true := by
          simp only [Volume.bootOk, Volume.headerOk, Bool.and_eq_true, decide_eq_true_eq]
          exact ⟨⟨by simpa using hm, not_not.1 hgood⟩, hfits⟩
        refine spec_next (Cmd.bootm ubiBootAddr) fun o₃ ho₃ =>
          ⟨fun _ => hslice, ?_⟩
        have ho₃' : o₃.err = none := ho₃
        simp only [exec, ho₃', Option.isNone_none, ↓reduceIte]
        exact ⟨fun _ => hok, fun _ => .inl rfl⟩

/-- **The boot** reaches `bootm` exactly for a table that boots, and with the selected volume
loaded. -/
theorem ubiBoot_spec (hw : Attachable w) (ht : Inspectable (w.vols .native)) :
    Spec exec Succeeds (fun e => ∀ v, bootSelect (w.vols .native) = some v → Loaded v e)
      (fun r _ => r.reached ↔ Boots (w.vols .native)) ubiBoot w := by
  have hquiet : ∀ (c : Cmd) (o : Outcome) (w' : World), c.Reads →
      ∀ v, bootSelect (w.vols .native) = some v → Loaded v ⟨c, o, w'⟩ := by
    intro c o w' hc v _ hbootm
    rw [show c = .bootm ubiBootAddr from hbootm] at hc
    exact hc.elim
  refine spec_attach hw (fun o w' => hquiet _ o w' trivial) (fun _ _ _ _ h => nomatch h)
    (fun _ _ _ _ h => nomatch h) fun w' hshow _ _ => ?_
  generalize w.vols .native = t at ht hquiet hshow ⊢
  have hcheck : ∀ {w' : World} (n : String) (o : Outcome), Shows t w' →
      Shows t (exec (.ubiCheck n) o w').2 := fun n o h => h.reads (exec_reads (c := .ubiCheck n) trivial o _)
  refine spec_next (Cmd.ubiCheck "fip") fun o ho => ⟨hquiet _ o _ trivial, ?_⟩
  have hpresent := ubiCheck_eq_zero (n := "fip") hshow ho
  refine spec_ite (fun hne => ?_) fun hz => ?_
  · -- no volume `fip`
    have hnone : t.lookup "fip" = none := by
      cases hl : t.lookup "fip" with
      | none => rfl
      | some x => exact absurd (hpresent.2 (by simp [hl])) hne
    show _ ↔ _
    simp [not_reached_bootFailed, Boots, passes, hnone]
  · have hsome : (t.lookup "fip").isSome := hpresent.1 (not_not.1 hz)
    obtain ⟨x, hx⟩ := Option.isSome_iff_exists.1 hsome
    have hshow := hcheck "fip" o hshow
    refine (volumeFipValid_spec hshow hx (ht.fip x hx) hquiet).bind fun b w₁ hb => ?_
    obtain ⟨rfl, hshow⟩ := hb
    have hpass : passes t "fip" Volume.fipOk = x.2.fipOk := by simp [passes, hx]
    refine spec_ite (fun hbad => ?_) fun hgood => ?_
    · have hbad' : x.2.fipOk = false := by simpa using hbad
      show _ ↔ _
      simp [not_reached_bootFailed, Boots, hpass, hbad']
    · have hgood' : x.2.fipOk = true := by simpa using hgood
      have hboots : ∀ y, bootSelect t = some y → (Boots t ↔ y.bootOk = true) := by
        intro y hy
        simp [Boots, hpass, hgood', hy]
      refine spec_next (Cmd.ubiCheck "fit") fun o₂ ho₂ =>
        ⟨hquiet _ o₂ _ trivial, ?_⟩
      have hfit := ubiCheck_eq_zero (n := "fit") hshow ho₂
      have hload : ∀ {n : String} {w' : World} (y : Fin vtblSlots × Volume), Shows t w' →
          t.lookup n = some y → bootSelect t = some y.2 → 40 ≤ y.2.data.length →
          Spec exec Succeeds (fun e => ∀ v, bootSelect t = some v → Loaded v e)
            (fun r _ => r.reached ↔ Boots t) (bootVolume n) w' := by
        intro n w' y hshow hy hsel hlen
        refine ((bootVolume_spec hshow hy hlen).weaken (fun _ h => h) fun e _ he v hv => ?_).mono
          fun r _ hr => hr.trans (hboots y.2 hsel).symm
        obtain rfl : y.2 = v := Option.some.inj (hsel.symm.trans hv)
        exact he
      refine spec_ite (fun hz => ?_) fun hne => ?_
      · obtain ⟨y, hy⟩ := Option.isSome_iff_exists.1 (hfit.1 hz)
        exact hload y (hcheck "fit" o₂ hshow) hy (by simp [bootSelect, hy]) (ht.fit y hy)
      · have hnone : t.lookup "fit" = none := by
          cases hl : t.lookup "fit" with
          | none => rfl
          | some y => exact absurd (hfit.2 (by simp [hl])) hne
        have hshow := hcheck "fit" o₂ hshow
        refine spec_next (Cmd.ubiCheck "fit.old") fun o₃ ho₃ =>
          ⟨hquiet _ o₃ _ trivial, ?_⟩
        have hold := ubiCheck_eq_zero (n := "fit.old") hshow ho₃
        refine spec_ite (fun hz => ?_) fun hne => ?_
        · obtain ⟨y, hy⟩ := Option.isSome_iff_exists.1 (hold.1 hz)
          exact hload y (hcheck "fit.old" o₃ hshow) hy (by simp [bootSelect, hnone, hy])
            (ht.fitOld y hy)
        · have hnone' : t.lookup "fit.old" = none := by
            cases hl : t.lookup "fit.old" with
            | none => rfl
            | some y => exact absurd (hold.2 (by simp [hl])) hne
          show _ ↔ _
          simp [not_reached_bootFailed, Boots, bootSelect, hnone, hnone']

end Boot

/-! ## Reaching `bootm` -/

/-- The run of `ursus_ubi_boot` gets to its `bootm` command. -/
def ReachesBootm (outs : ℕ → Outcome) (w : World) : Prop :=
  ∃ e ∈ (Prog.run exec ubiBoot outs w).trace, e.cmd = .bootm ubiBootAddr

section Bootm

variable {w : World} {tr : List FlashEvent}

/-- No `bootm` has been issued. -/
def NoBootm (tr : List FlashEvent) : Prop := ∀ e ∈ tr, e.cmd ≠ .bootm ubiBootAddr

theorem NoBootm.concat {c : Cmd} {o : Outcome} (h : NoBootm tr) (hc : c ≠ .bootm ubiBootAddr) :
    NoBootm (tr ++ [⟨c, o, w⟩]) := by
  simp only [NoBootm, List.forall_mem_append, List.forall_mem_singleton]
  exact ⟨h, hc⟩

/-- The result tells whether `bootm` is in the record. -/
def TellsBootm (r : BootResult) (tr : List FlashEvent) : Prop :=
  r.reached ↔ ∃ e ∈ tr, e.cmd = .bootm ubiBootAddr

theorem NoBootm.failed (h : NoBootm tr) {ret : ℤ} {reason : BootReason}
    (h₁ : reason ≠ .bootInProgress) (h₂ : reason ≠ .bootmReturned) :
    TellsBootm (bootFailed ret reason) tr :=
  ⟨fun hr => absurd hr (not_reached_bootFailed h₁ h₂), fun ⟨e, he, hc⟩ => absurd hc (h e he)⟩

theorem NoBootm.next {Q : BootResult → World → List FlashEvent → Prop} (c : Cmd)
    {f : c.Resp → FlashProg BootResult} (h : NoBootm tr) (hc : c ≠ .bootm ubiBootAddr)
    (hf : ∀ r w' tr', NoBootm tr' → Records exec (fun _ _ => True) Q (f r) w' tr') :
    Records exec (fun _ _ => True) Q ((issue c).bind f) w tr :=
  records_next c fun _ => ⟨trivial, hf _ _ _ (h.concat hc)⟩

theorem bootVolume_tells (n : String) (h : NoBootm tr) :
    Records exec (fun _ _ => True) (fun r _ tr' => TellsBootm r tr') (bootVolume n) w tr := by
  refine h.next (.ubiReadWhole ubiBootAddr n) (by simp) fun r w₁ tr₁ h => ?_
  refine records_ite (fun _ => h.failed (by decide) (by decide)) fun _ => ?_
  refine records_ite (fun _ => h.failed (by decide) (by decide)) fun _ => ?_
  refine h.next (.readMem ubiBootAddr 40) (by simp) fun hdr w₂ tr₂ h => ?_
  refine records_ite (fun _ => h.failed (by decide) (by decide)) fun _ => ?_
  refine records_next (Cmd.bootm ubiBootAddr) fun o => ⟨trivial, ?_⟩
  split
  · exact ⟨fun _ => ⟨_, List.mem_append_right _ (List.mem_singleton_self _), rfl⟩, fun _ => .inl rfl⟩
  · exact ⟨fun _ => ⟨_, List.mem_append_right _ (List.mem_singleton_self _), rfl⟩, fun _ => .inr rfl⟩

theorem ubiBoot_tells (h : NoBootm tr) :
    Records exec (fun _ _ => True) (fun r _ tr' => TellsBootm r tr') ubiBoot w tr := by
  have hfip : ∀ {w : World} {tr : List FlashEvent}, NoBootm tr →
      Records exec (fun _ _ => True) (fun _ _ tr' => NoBootm tr') (volumeFipValid "fip") w tr := by
    intro w tr h
    refine Records.of_uses (P := fun c => c ≠ .bootm ubiBootAddr) (I := fun _ tr => NoBootm tr)
      (fun c o w tr hc h => ⟨trivial, h.concat hc⟩) ?_ h
    exact ⟨by simp, fun r => uses_exit fun _ => ⟨by simp, fun _ => trivial⟩⟩
  refine h.next .ubiRegisterMtd (by simp) fun ret w₁ tr₁ h => ?_
  refine records_ite (fun _ => h.failed (by decide) (by decide)) fun _ => ?_
  refine h.next .ubiDetach (by simp) fun _ w₂ tr₂ h => ?_
  refine h.next (.ubiPart .ursusUbiFull) (by simp) fun ret w₃ tr₃ h => ?_
  refine records_ite (fun _ => h.failed (by decide) (by decide)) fun _ => ?_
  refine h.next (.ubiCheck "fip") (by simp) fun ret w₄ tr₄ h => ?_
  refine records_ite (fun _ => h.failed (by decide) (by decide)) fun _ => ?_
  refine (hfip h).bind fun b w₅ tr₅ h => ?_
  refine records_ite (fun _ => h.failed (by decide) (by decide)) fun _ => ?_
  refine h.next (.ubiCheck "fit") (by simp) fun ret w₆ tr₆ h => ?_
  refine records_ite (fun _ => bootVolume_tells "fit" h) fun _ => ?_
  refine h.next (.ubiCheck "fit.old") (by simp) fun ret w₇ tr₇ h => ?_
  exact records_ite (fun _ => bootVolume_tells "fit.old" h) fun _ =>
    h.failed (by decide) (by decide)

theorem reached_iff (outs : ℕ → Outcome) (w : World) :
    (Prog.run exec ubiBoot outs w).val.reached ↔ ReachesBootm outs w := by
  have hnil : NoBootm [] := fun e he => absurd he (by simp)
  have h := (ubiBoot_tells (w := w) hnil).run_of outs (recorded_nil _)
  exact h.2

end Bootm

/-- **The boot** on a board whose commands succeed. -/
theorem reachesBootm_iff {outs : ℕ → Outcome} {w : World} (hw : Attachable w)
    (ht : Inspectable (w.vols .native))
    (hok : ∀ e ∈ (Prog.run exec ubiBoot outs w).trace, Succeeds e) :
    ReachesBootm outs w ↔ Boots (w.vols .native) := by
  rw [← reached_iff]
  exact ((ubiBoot_spec hw ht).run_of outs hok).2

/-! ## The probe -/

section Probe

variable {w : World} {t : VolumeTable}

theorem volumeFitValid_spec {n : String} (h : Shows t w) (hx : t.lookup n = some x)
    (hlen : 40 ≤ x.2.data.length) :
    Spec exec Succeeds (fun _ => True) (fun b w' => b = x.2.fitOk ∧ Shows t w')
      (volumeFitValid n) w := by
  have hcmd : (Cmd.ubiRead ubiReadbackAddr n 0x40).Reads := le_refl ubiReadbackAddr
  refine spec_next (Cmd.ubiRead ubiReadbackAddr n 0x40) fun o ho => ⟨trivial, ?_⟩
  have hshow := h.reads (exec_reads hcmd o w)
  have hiff := ubiRead_succeeds ubiReadbackAddr 0x40 h ho hx
  refine spec_ite (fun hne => ⟨?_, hshow⟩) fun hz => ?_
  · have hm : x.2.updMarker = true := by
      by_contra hm
      exact hne (hiff.2 (by simpa using hm))
    simp [Volume.fitOk, Volume.headerOk, hm]
  · have hz' : (exec (.ubiRead ubiReadbackAddr n 0x40) o w).1 = 0 := not_not.1 hz
    refine spec_next (Cmd.readMem ubiReadbackAddr 40) fun o₂ _ =>
      ⟨trivial, ?_, hshow⟩
    have hwin := ubiRead_window (k := 40) h hx (by decide) (by decide) hlen hz'
    have hbuf : (exec (.readMem ubiReadbackAddr 40) o₂
        (exec (.ubiRead ubiReadbackAddr n 0x40) o w).2).1 = x.2.data.take 40 := hwin
    simp only [hbuf, Volume.fitOk, Volume.headerOk, hiff.1 hz', Bool.not_false, Bool.true_and]

theorem fillVolumeDiag_spec {n : String} {validate : String → FlashProg Bool} {ok : Volume → Bool}
    (h : Shows t w)
    (hvalidate : ∀ x w', t.lookup n = some x → Shows t w' →
      Spec exec Succeeds (fun _ => True) (fun b w'' => b = ok x.2 ∧ Shows t w'') (validate n) w') :
    Spec exec Succeeds (fun _ => True)
      (fun d w' => (d.present && d.valid) = passes t n ok ∧ Shows t w')
      (fillVolumeDiag n validate) w := by
  refine spec_next (Cmd.ubiOpenVolume n) fun o ho => ⟨trivial, ?_⟩
  have hshow := h.reads (exec_reads (c := .ubiOpenVolume n) trivial o w)
  have ho' : o.err = none := ho
  cases hx : t.lookup n with
  | none =>
    have hopen : (exec (.ubiOpenVolume n) o w).1 = .error (-enodev) := by
      simp [exec, World.ubiOpenVolume, ho', lookup_of_shows h, hx]
    rw [hopen]
    exact ⟨by simp [passes, hx, VolumeDiag.present], hshow⟩
  | some x =>
    have hopen : (exec (.ubiOpenVolume n) o w).1 =
        .ok ⟨x.1, x.2.static, x.2.data.length, x.2.reservedPebs, w.lebSize⟩ := by
      simp [exec, World.ubiOpenVolume, ho', lookup_of_shows h, hx]
    rw [hopen]
    refine (hvalidate x _ hx hshow).bind fun b w' hb => ?_
    obtain ⟨rfl, hshow'⟩ := hb
    exact ⟨by simp [passes, hx, VolumeDiag.present], hshow'⟩

/-- **The probe** finds in each volume what its check says. -/
theorem probeDiag_spec (hw : Attachable w) (ht : Inspectable (w.vols .native)) :
    Spec exec Succeeds (fun _ => True)
      (fun r _ => r.1 = 0 ∧ r.2.attached = true ∧
        (r.2.fip.present && r.2.fip.valid) = passes (w.vols .native) "fip" Volume.fipOk ∧
        (r.2.fit.present && r.2.fit.valid) = passes (w.vols .native) "fit" Volume.fitOk ∧
        (r.2.fitOld.present && r.2.fitOld.valid) = passes (w.vols .native) "fit.old" Volume.fitOk)
      probeDiag w := by
  refine spec_attach hw (fun _ _ => trivial) (fun _ _ => trivial) (fun _ _ => trivial)
    fun w' hshow _ _ => ?_
  generalize w.vols .native = t at ht hshow ⊢
  refine spec_next Cmd.ubiGetDevice fun o _ => ⟨trivial, ?_⟩
  refine spec_ite (fun hnone => ?_) fun _ => ?_
  · simp [exec, hshow.attached] at hnone
  · refine (fillVolumeDiag_spec hshow fun x w' hx h =>
      volumeFipValid_spec h hx (ht.fip x hx) fun _ _ _ _ => trivial).bind fun fip w₁ hfip => ?_
    refine (fillVolumeDiag_spec hfip.2 fun x w' hx h =>
      volumeFitValid_spec h hx (ht.fit x hx)).bind fun fit w₂ hfit => ?_
    refine (fillVolumeDiag_spec hfit.2 fun x w' hx h =>
      volumeFitValid_spec h hx (ht.fitOld x hx)).bind fun fitOld w₃ hold => ?_
    exact ⟨rfl, rfl, hfip.1, hfit.1, hold.1⟩

theorem run_ubiProbe (outs : ℕ → Outcome) (w : World) :
    (Prog.run exec ubiProbe outs w).trace = (Prog.run exec probeDiag outs w).trace ∧
      ((Prog.run exec probeDiag outs w).val.1 = 0 →
        (Prog.run exec ubiProbe outs w).val.fipOk =
          ((Prog.run exec probeDiag outs w).val.2.fip.present &&
            (Prog.run exec probeDiag outs w).val.2.fip.valid) ∧
        (Prog.run exec ubiProbe outs w).val.fitOk =
          ((Prog.run exec probeDiag outs w).val.2.fit.present &&
              (Prog.run exec probeDiag outs w).val.2.fit.valid ||
            (Prog.run exec probeDiag outs w).val.2.fitOld.present &&
              (Prog.run exec probeDiag outs w).val.2.fitOld.valid)) := by
  have hprobe : ubiProbe = probeDiag.bind fun r => Prog.ret
      (if r.1 ≠ 0 then ⟨r.1, false, false⟩ else ⟨0, r.2.fip.present && r.2.fip.valid,
        r.2.fit.present && r.2.fit.valid || r.2.fitOld.present && r.2.fitOld.valid⟩) := by
    show probeDiag.bind _ = _
    congr 1
    funext r
    by_cases hr : r.1 ≠ 0
    · simp [hr]
    · simp [hr]
  rw [hprobe, Prog.run_bind_ret]
  refine ⟨rfl, fun hz => ?_⟩
  simp [hz]

end Probe

theorem bootValidation_ok_iff {diag : UbiDiag} (h : diag.attached = true)
    (migrationComplete stockFip stockFit : Bool) :
    (bootValidation .openwrtUbi migrationComplete stockFip stockFit diag).result = "OK" ↔
      (diag.fip.present && diag.fip.valid) = true ∧
        ((diag.fit.present && diag.fit.valid) = true ∨
          (diag.fitOld.present && diag.fitOld.valid) = true) := by
  simp only [bootValidation, h]
  cases diag.fip.present <;> cases diag.fip.valid <;> cases diag.fit.present <;>
    cases diag.fit.valid <;> cases diag.fitOld.present <;> cases diag.fitOld.valid <;>
    simp [BootValidation.result]

/-! ## Agreement -/

/-- The probe's view of the images is that of the boot: an image the boot rejects is not made up
for by a good `fit.old`, an image the probe accepts is not too large to be booted, and one that is
booted states a size of at least its header or stands before a good `fit.old`. -/
structure Faithful (t : VolumeTable) : Prop where
  fallback : (∀ v, bootSelect t = some v → v.bootOk = false) →
    passes t "fit.old" Volume.fitOk = false
  size : ∀ v, bootSelect t = some v → v.fitOk = true → v.data.length ≤ ubiBootMax
  header : ∀ v, bootSelect t = some v → v.bootOk = true →
    40 ≤ (fdtHeader (v.data.take 40)).totalsize ∨ passes t "fit.old" Volume.fitOk = true

theorem images_agree_iff (t : VolumeTable) :
    ((passes t "fit" Volume.fitOk = true ∨ passes t "fit.old" Volume.fitOk = true) ↔
      ∃ v, bootSelect t = some v ∧ v.bootOk = true) ↔ Faithful t := by
  -- what the probe says of `fit` is what it says of the selected volume, unless that is `fit.old`
  have hsel : (passes t "fit" Volume.fitOk = true ∨ passes t "fit.old" Volume.fitOk = true) ↔
      (∃ v, bootSelect t = some v ∧ v.fitOk = true) ∨ passes t "fit.old" Volume.fitOk = true := by
    cases hfit : t.lookup "fit" with
    | some x => simp [passes, bootSelect, hfit]
    | none =>
      cases hold : t.lookup "fit.old" with
      | none => simp [passes, bootSelect, hfit, hold]
      | some y => simp [passes, bootSelect, hfit, hold]
  have hfits : ∀ v : Volume, v.fitOk = true → v.data.length ≤ ubiBootMax → v.bootOk = true := by
    intro v hv hlen
    simp only [Volume.fitOk, Volume.bootOk, Bool.and_eq_true, decide_eq_true_eq] at hv ⊢
    exact ⟨hv.1, hlen⟩
  rw [hsel]
  constructor
  · intro h
    refine ⟨fun hnone => ?_, fun v hv hok => ?_, fun v hv hok => ?_⟩
    · by_contra hold
      obtain ⟨v, hv, hok⟩ := h.1 (.inr (by simpa using hold))
      rw [hnone v hv] at hok
      cases hok
    · obtain ⟨v', hv', hok'⟩ := h.1 (.inl ⟨v, hv, hok⟩)
      obtain rfl : v = v' := Option.some.inj (hv.symm.trans hv')
      simp only [Volume.bootOk, Bool.and_eq_true, decide_eq_true_eq] at hok'
      exact hok'.2
    · rcases h.2 ⟨v, hv, hok⟩ with ⟨v', hv', hok'⟩ | hold
      · obtain rfl : v = v' := Option.some.inj (hv.symm.trans hv')
        simp only [Volume.fitOk, Bool.and_eq_true, decide_eq_true_eq] at hok'
        exact .inl hok'.2
      · exact .inr hold
  · intro h
    constructor
    · rintro (⟨v, hv, hok⟩ | hold)
      · exact ⟨v, hv, hfits v hok (h.size v hv hok)⟩
      · by_contra hnone
        have hall : ∀ v, bootSelect t = some v → v.bootOk = false := by
          intro v hv
          by_contra hok
          exact hnone ⟨v, hv, by simpa using hok⟩
        rw [h.fallback hall] at hold
        cases hold
    · rintro ⟨v, hv, hok⟩
      rcases h.header v hv hok with hsize | hold
      · refine .inl ⟨v, hv, ?_⟩
        simp only [Volume.fitOk, Volume.bootOk, Bool.and_eq_true, decide_eq_true_eq] at hok ⊢
        exact ⟨hok.1, hsize⟩
      · exact .inr hold

section Sample

open FipUpdate

theorem succeeds_of_ok {α : Type} {p : FlashProg α} {w : World} :
    ∀ e ∈ (Prog.run exec p (fun _ => .ok) w).trace, Succeeds e := by
  intro e he
  obtain ⟨n, hn⟩ := Prog.exists_out_eq he
  rw [Succeeds, hn]
  rfl

def sampleHeader : List UInt8 :=
  [0xd0, 0x0d, 0xfe, 0xed, 0, 0, 0, 72, 0, 0, 0, 56, 0, 0, 0, 72, 0, 0, 0, 40, 0, 0, 0, 17,
   0, 0, 0, 16, 0, 0, 0, 0, 0, 0, 0, 0, 0, 0, 0, 16]

/-- A volume of one LEB that starts with the given bytes. -/
def lebVolume (bs : List UInt8) : Volume :=
  ⟨false, 1, bs ++ List.replicate (0x1f000 - bs.length) 0xff, false⟩

def sampleFipVolume : Volume := lebVolume (sampleFip false)

theorem length_lebVolume {bs : List UInt8} (h : bs.length ≤ 0x1f000) :
    (lebVolume bs).data.length = 0x1f000 := by
  simp only [lebVolume, List.length_append, List.length_replicate]
  omega

theorem take_lebVolume (bs : List UInt8) {k : ℕ} (h : k ≤ bs.length) :
    (lebVolume bs).data.take k = bs.take k := List.take_append_of_le_length h

theorem le_length_lebVolume {bs : List UInt8} (h : bs.length ≤ 0x1f000) :
    40 ≤ (lebVolume bs).data.length := by
  rw [length_lebVolume h]
  decide

theorem le_length_sampleFipVolume : fipTocRead ≤ sampleFipVolume.data.length := by
  rw [sampleFipVolume, length_lebVolume (by rw [length_sampleFip]; decide)]
  decide

theorem fipOk_sampleFipVolume : sampleFipVolume.fipOk = true := by
  have htake : sampleFipVolume.data.take fipTocRead =
      sampleFip false ++ List.replicate (fipTocRead - 1174) 0xff := by
    have hlen : (sampleFip false).length = 1174 := length_sampleFip false
    simp only [sampleFipVolume, lebVolume, List.take_append, hlen, List.take_replicate]
    rw [List.take_of_length_le (by rw [hlen]; decide)]
    rfl
  rw [Volume.fipOk, htake]
  decide +kernel

theorem fitOk_sampleHeader : (lebVolume sampleHeader).fitOk = true := by
  rw [Volume.fitOk, Volume.headerOk, take_lebVolume sampleHeader (by decide)]
  decide

theorem bootOk_sampleHeader : (lebVolume sampleHeader).bootOk = true := by
  rw [Volume.bootOk, Volume.headerOk, take_lebVolume sampleHeader (by decide),
    length_lebVolume (by decide)]
  decide

/-- A board whose `fit` has been erased while `fit.old` is intact. -/
def erasedFitTable : VolumeTable := fun k =>
  if k = 4 then some ("fip", sampleFipVolume)
  else if k = 5 then some ("fit", lebVolume [])
  else if k = 7 then some ("fit.old", lebVolume sampleHeader) else none

theorem erasedFitTable_fip : erasedFitTable.lookup "fip" = some (4, sampleFipVolume) :=
  Slots.lookup_eq_some.2 ⟨by decide, rfl⟩

theorem erasedFitTable_fit : erasedFitTable.lookup "fit" = some (5, lebVolume []) :=
  Slots.lookup_eq_some.2 ⟨by decide, rfl⟩

theorem erasedFitTable_fitOld :
    erasedFitTable.lookup "fit.old" = some (7, lebVolume sampleHeader) :=
  Slots.lookup_eq_some.2 ⟨by decide, rfl⟩

theorem headerOk_erased : (lebVolume []).headerOk = false := by
  have htake : (lebVolume []).data.take 40 = List.replicate 40 0xff := by
    rw [lebVolume, List.nil_append, List.take_replicate]
    rfl
  have hbad : fdtCheckHeader (List.replicate 40 0xff) ≠ 0 := by decide
  rw [Volume.headerOk, htake, decide_eq_false hbad, Bool.and_false]

theorem attachable_erasedFit : Attachable (sampleWorld erasedFitTable) :=
  ⟨.inr rfl, Slots.nodup_names.1 (by decide)⟩

theorem inspectable_erasedFit : Inspectable erasedFitTable :=
  ⟨fun x hx => Option.some.inj (erasedFitTable_fip.symm.trans hx) ▸ le_length_sampleFipVolume,
    fun x hx => Option.some.inj (erasedFitTable_fit.symm.trans hx) ▸ le_length_lebVolume (by decide),
    fun x hx => Option.some.inj (erasedFitTable_fitOld.symm.trans hx) ▸
      le_length_lebVolume (by decide)⟩

/-- A board with an intact `fit`. -/
def intactFitTable : VolumeTable := fun k =>
  if k = 4 then some ("fip", sampleFipVolume)
  else if k = 5 then some ("fit", lebVolume sampleHeader) else none

end Sample

end UrsusBoot
