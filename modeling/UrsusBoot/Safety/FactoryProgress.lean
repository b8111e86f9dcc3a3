import UrsusBoot.Safety.FactoryInstall
import UrsusBoot.Safety.Room

/-!
# Installations that complete

When nothing goes wrong and there is room, an installation on the stock layout succeeds. The bad
blocks of the kernel partition are left as they are.
-/

namespace UrsusBoot

open Prog

/-- What an installation leaves alone: the staged image, and the cells of bad blocks outside the
device of the root filesystem. -/
structure Spared (w w' : World) : Prop where
  nand : ∀ x, inFactoryUbi x = false → w.badBlock (World.blockOf x) = true → w'.nand x = w.nand x
  ram : ∀ x, x < readbackAddr → w'.ram x = w.ram x
  badBlock : w'.badBlock = w.badBlock
  geometry : w'.geometry = w.geometry

namespace Spared

variable {w w' w'' : World}

theorem refl (w : World) : Spared w w := ⟨fun _ _ _ => rfl, fun _ _ => rfl, rfl, rfl⟩

theorem trans (h : Spared w w') (h' : Spared w' w'') : Spared w w'' where
  nand x hx hb := (h'.nand x hx (by rw [h.badBlock]; exact hb)).trans (h.nand x hx hb)
  ram x hx := (h'.ram x hx).trans (h.ram x hx)
  badBlock := h'.badBlock.trans h.badBlock
  geometry := h'.geometry.trans h.geometry

theorem kernelBlocks (h : Spared w w') : w'.kernelBlocks = w.kernelBlocks := by
  unfold World.kernelBlocks
  rw [h.badBlock]

end Spared

/-! ## The root filesystem -/

section Root

variable {img : ImageState} {w : World}

theorem exists_freeSlot {u : UbiImage} {k : Fin vtblSlots} (h : u.vols k = none) :
    ∃ i, u.freeSlot none = some i ∧ u.vols i = none := by
  have hsome : ((List.finRange vtblSlots).find? fun i => (u.vols i).isNone).isSome = true :=
    List.find?_isSome.2 ⟨k, List.mem_finRange _, by rw [h]; rfl⟩
  obtain ⟨i, hi⟩ := Option.isSome_iff_exists.1 hsome
  have hfree := List.find?_some hi
  exact ⟨i, hi, Option.isNone_iff_eq_none.1 hfree⟩

theorem factory_volumes {u : UbiImage} {leb size : ℕ} (hleb : 0 < leb) (hsize : size ≠ 0)
    (hroom : (size + leb - 1) / leb < u.emptyPebs) :
    ∃ u₁ u₂ i v, u.erased.create leb "rootfs" size false none = some u₁ ∧
      u₁.create leb "rootfs_data" 0 false none = some u₂ ∧
      u₂.vols.lookup "rootfs" = some (i, v) ∧ v.reservedPebs = (size + leb - 1) / leb := by
  have hempty : ∀ n, u.erased.vols.lookup n = none := fun n =>
    Slots.lookup_eq_none.2 fun i h => by simp [Slots.Named, UbiImage.erased] at h
  have hnone : u.erased.vols = fun _ => none := rfl
  obtain ⟨i, hi, -⟩ := exists_freeSlot (u := u.erased) (k := 0) rfl
  have hle : (size + leb - 1) / leb ≤ u.erased.availPebs := Nat.le_of_lt hroom
  obtain ⟨u₁, hu₁, hvols, havail⟩ :=
    UbiImage.create_of_room false hsize hi (hempty "rootfs") hle
  have havail₁ : u₁.availPebs = u.emptyPebs - (size + leb - 1) / leb := havail
  have hname : ∀ i, ¬ u₁.vols.Named i "rootfs_data" := by
    intro i h
    rw [hvols, Slots.named_put] at h
    split_ifs at h with hi
    · exact absurd h (by decide)
    · exact Slots.lookup_eq_none.1 (hempty "rootfs_data") i h
  have hfind : u₁.vols.find? "rootfs_data" = none := Slots.find?_eq_none.2 hname
  -- the second volume takes what is left
  have hpos : 0 < u₁.availPebs * leb := Nat.mul_pos (by omega) hleb
  have hpebs : (u₁.availPebs * leb + leb - 1) / leb = u₁.availPebs := by
    rw [Nat.add_sub_assoc hleb, Nat.mul_comm, Nat.mul_add_div hleb,
      Nat.div_eq_of_lt (Nat.sub_lt hleb Nat.one_pos), Nat.add_zero]
  obtain ⟨k, hk⟩ : ∃ k, u₁.vols k = none := by
    by_cases h0 : i = 0
    · exact ⟨1, by rw [hvols, Slots.put_of_ne (by rw [h0]; decide), hnone]⟩
    · exact ⟨0, by rw [hvols, Slots.put_of_ne (Ne.symm h0), hnone]⟩
  obtain ⟨j, hj, hjfree⟩ := exists_freeSlot hk
  obtain ⟨u₂, hu₂, b, hvols₂⟩ : ∃ u₂, u₁.create leb "rootfs_data" 0 false none = some u₂ ∧
      ∃ b, u₂.vols = u₁.vols.put j "rootfs_data" b := by
    have hok : ¬ (u₁.availPebs * leb = 0 ∨ (u₁.vols.find? "rootfs_data").isSome = true ∨
        u₁.availPebs < (u₁.availPebs * leb + leb - 1) / leb) := by
      rw [hfind, hpebs]
      simp
      omega
    simp only [UbiImage.create, hj, if_true, if_neg hok]
    exact ⟨_, rfl, _, rfl⟩
  have hagree : Slots.Agree "rootfs" u₁.vols u₂.vols := by
    rw [hvols₂]
    exact Slots.agree_put hjfree (by decide)
  have hlookup : ∃ v, u₁.vols.lookup "rootfs" = some (i, v) ∧
      v.reservedPebs = (size + leb - 1) / leb := by
    rw [hvols]
    refine ⟨_, Slots.lookup_eq_some.2 ⟨?_, Slots.put_self⟩, rfl⟩
    exact Slots.find?_put_fresh (Slots.find?_eq_none.2 (Slots.lookup_eq_none.1 (hempty "rootfs")))
  obtain ⟨v, hv, hres⟩ := hlookup
  exact ⟨u₁, u₂, i, v, hu₁, hu₂, by rw [← hagree.lookup_eq]; exact hv, hres⟩

/-- **The root filesystem's half** succeeds. -/
theorem factoryInstallRoot_completes (hleb : 0 < w.lebSize) (hsize : img.rootSize ≠ 0)
    (hroom : (img.rootSize + w.lebSize - 1) / w.lebSize < (w.ubi .factory).emptyPebs)
    (hstage : stageAddr + img.rootOff + img.rootSize ≤ readbackAddr) :
    Spec exec Fine (fun _ => True) (fun ret w' => ret = 0 ∧ Spared w w')
      (factoryInstallRoot img) w := by
  obtain ⟨u₁, u₂, i, v, hu₁, hu₂, hv, hres⟩ := factory_volumes hleb hsize hroom
  set w₁ : World := { w with attached := none }
  have hdetach : exec .ubiDetach .ok w = (0, w₁) := rfl
  refine spec_fine hdetach ?_
  -- the device is erased and attached
  set w₂ := (exec .factoryUbiErase .ok w₁).2 with hw₂
  have hspared : Spared w w₂ := by
    refine ⟨fun x hx _ => ?_, fun _ _ => rfl, rfl, rfl⟩
    show (if inFactoryUbi x && _ then _ else w.nand x) = w.nand x
    rw [hx]
    rfl
  have herased : w₂.ubi .factory = (w.ubi .factory).erased := rfl
  have hleb₂ : w₂.lebSize = w.lebSize := rfl
  have hat₂ : w₂.attached = none := rfl
  have hdistinct : (w₂.ubi .factory).vols.Distinct := by
    rw [herased]
    intro a b n ha
    simp [Slots.Named, UbiImage.erased] at ha
  have herase : exec .factoryUbiErase .ok w₁ = (0, w₂) := rfl
  clear_value w₂
  refine spec_fine herase (spec_ite (fun h => absurd rfl h) fun _ => ?_)
  set w₃ : World := { w₂ with attached := some .ursusFactoryUbi }
  have hat₃ : w₃.attached = some .ursusFactoryUbi := rfl
  have hpart : exec (.ubiPart .ursusFactoryUbi) .ok w₂ = (0, w₃) := ubiPart_fine _ hat₂ hdistinct
  refine spec_fine hpart (spec_ite (fun h => absurd rfl h) fun _ => ?_)
  -- the volumes are created
  have hcreate₁ : (w₃.ubi .factory).create w₃.lebSize "rootfs" img.rootSize false none = some u₁ := by
    rw [show w₃.lebSize = w.lebSize from hleb₂, show w₃.ubi .factory = _ from herased]
    exact hu₁
  have hexec₄ : exec (.ubiCreate "rootfs" img.rootSize false none) .ok w₃ =
      (0, w₃.setUbi .factory u₁) := ubiCreate_fine hat₃ hcreate₁
  refine spec_fine hexec₄ (spec_ite (fun h => absurd rfl h) fun _ => ?_)
  have hcreate₂ : ((w₃.setUbi .factory u₁).ubi .factory).create (w₃.setUbi .factory u₁).lebSize
      "rootfs_data" 0 false none = some u₂ := by
    rw [World.setUbi_ubi_self, show (w₃.setUbi .factory u₁).lebSize = w.lebSize from hleb₂]
    exact hu₂
  set w₅ := (w₃.setUbi .factory u₁).setUbi .factory u₂
  have hexec₅ : exec (.ubiCreate "rootfs_data" 0 false none) .ok (w₃.setUbi .factory u₁) = (0, w₅) :=
    ubiCreate_fine (p := .ursusFactoryUbi) hat₃ hcreate₂
  refine spec_fine hexec₅ (spec_ite (fun h => absurd rfl h) fun _ => ?_)
  have hat₅ : w₅.attached = some .ursusFactoryUbi := rfl
  have hubi₅ : w₅.ubi .factory = u₂ := World.setUbi_ubi_self _ _ _
  have hleb₅ : w₅.lebSize = w.lebSize := hleb₂
  have hspared₅ : Spared w w₅ := ⟨hspared.nand, hspared.ram, hspared.badBlock, hspared.geometry⟩
  clear_value w₅
  -- what is written is what is staged
  set bs := w₅.ram.slice (stageAddr + img.rootOff) img.rootSize with hbs
  have hlen : bs.length = img.rootSize := Mem.length_slice _ _ _
  have hv₅ : (w₅.ubi .factory).vols.lookup "rootfs" = some (i, v) := by rw [hubi₅]; exact hv
  have hfits : bs.length ≤ v.reservedPebs * w₅.lebSize := by
    rw [hlen, hres, hleb₅]
    exact le_ceil_mul hleb img.rootSize
  set w₆ := w₅.setUbi .factory ((w₅.ubi .factory).setVolume i (v.written w₅.lebSize bs))
  have hwrite : exec (.ubiWrite (stageAddr + img.rootOff) "rootfs" img.rootSize) .ok w₅ = (0, w₆) :=
    ubiWrite_fine (p := .ursusFactoryUbi) hat₅ hv₅ hfits
  refine spec_fine hwrite (spec_ite (fun h => absurd rfl h) fun _ => ?_)
  have hat₆ : w₆.attached = some .ursusFactoryUbi := hat₅
  have hv₆ : (w₆.ubi .factory).vols.lookup "rootfs" = some (i, v.written w₅.lebSize bs) := by
    rw [World.setUbi_ubi_self]
    exact Slots.lookup_setBody_self hv₅
  have hram₆ : w₆.ram = w₅.ram := rfl
  have hspared₆ : Spared w w₆ := ⟨hspared₅.nand, hspared₅.ram, hspared₅.badBlock, hspared₅.geometry⟩
  clear_value w₆
  -- and read back
  have htake : (v.written w₅.lebSize bs).data.take img.rootSize = bs := by
    rw [← hlen]
    exact take_written v _ bs
  have hread : exec (.ubiRead readbackAddr "rootfs" img.rootSize) .ok w₆ =
      (0, { w₆ with ram := w₆.ram.blit readbackAddr bs }) := by
    have hle : img.rootSize ≤ (v.written w₅.lebSize bs).data.length := by
      rw [← hlen]
      exact le_length_written v _ bs
    have hread := ubiRead_fine (p := .ursusFactoryUbi) readbackAddr hat₆ hv₆ rfl hsize hle
    rw [htake] at hread
    exact hread
  refine spec_fine hread (spec_ite (fun h => absurd rfl h) fun _ => ?_)
  refine (memEqual_same ?_).mono fun ret w' h => ⟨h.1, ?_⟩
  · show (w₆.ram.blit readbackAddr bs).slice (stageAddr + img.rootOff) img.rootSize =
      (w₆.ram.blit readbackAddr bs).slice readbackAddr img.rootSize
    rw [Mem.slice_blit_of_length _ _ hlen, Mem.slice_blit_disjoint _ (.inl hstage), hram₆]
  · rw [h.2]
    exact ⟨hspared₆.nand, fun x hx => (Mem.blit_apply_of_lt _ _ hx).trans (hspared₆.ram x hx),
      hspared₆.badBlock, hspared₆.geometry⟩

end Root

/-! ## The kernel -/

section Kernel

variable {img : ImageState} {w : World}

theorem kernelBlocks_spec {b : ℕ} (h : b ∈ w.kernelBlocks) :
    b % 0x20000 = 0 ∧ factoryKernelOff ≤ b ∧ b + 0x20000 ≤ factoryKernelOff + factoryKernelSize ∧
      w.badBlock b = false := by
  obtain ⟨hmem, hgood⟩ := List.mem_filter.1 h
  obtain ⟨k, hk, rfl⟩ := List.mem_map.1 hmem
  have hk := List.mem_range.1 hk
  have hoff : factoryKernelOff = 6 * 0x20000 := rfl
  have hsize : factoryKernelSize = 64 * 0x20000 := rfl
  rw [hsize, Nat.mul_div_cancel _ (by decide)] at hk
  refine ⟨?_, ?_, ?_, by simpa using hgood⟩
  · rw [hoff, ← Nat.add_mul, Nat.mul_mod_left]
  · omega
  · omega

theorem nodup_kernelBlocks (w : World) : w.kernelBlocks.Nodup := by
  refine List.Nodup.filter _ (List.Nodup.map ?_ List.nodup_range)
  intro a b hab
  have : factoryKernelOff + a * 0x20000 = factoryKernelOff + b * 0x20000 := hab
  omega

theorem kernelOffset_eq {x : ℕ} (hx : x < w.kernelBlocks.length * 0x20000) :
    World.inFactoryKernel ((w.kernelBlocks[x / 0x20000]?).getD 0 + x % 0x20000) = true ∧
      w.badBlock (World.blockOf ((w.kernelBlocks[x / 0x20000]?).getD 0 + x % 0x20000)) = false ∧
      w.kernelOffset ((w.kernelBlocks[x / 0x20000]?).getD 0 + x % 0x20000) = x := by
  have hk : x / 0x20000 < w.kernelBlocks.length := (Nat.div_lt_iff_lt_mul (by decide)).2 hx
  rw [List.getElem?_eq_getElem hk, Option.getD_some]
  have hmem : w.kernelBlocks[x / 0x20000] ∈ w.kernelBlocks := List.getElem_mem hk
  have hidx : w.kernelBlocks.idxOf w.kernelBlocks[x / 0x20000] = x / 0x20000 :=
    (nodup_kernelBlocks w).idxOf_getElem _ _
  obtain ⟨halign, hlo, hhi, hgood⟩ := kernelBlocks_spec hmem
  generalize w.kernelBlocks[x / 0x20000] = b at hidx halign hlo hhi hgood
  have hr : x % 0x20000 < 0x20000 := Nat.mod_lt _ (by decide)
  have hblock : World.blockOf (b + x % 0x20000) = b := by
    unfold World.blockOf
    omega
  refine ⟨?_, ?_, ?_⟩
  · simp only [World.inFactoryKernel, Bool.and_eq_true, decide_eq_true_eq]
    omega
  · rw [hblock]
    exact hgood
  · rw [World.kernelOffset, hblock, hidx]
    omega

theorem factoryKernelUsable_value (offs : List ℕ) {usable : ℕ} (h : offs.length * 0x20000 ≤ usable) :
    Spec exec Fine (fun _ => True) (fun r w' => w' = w ∧ r = .ok (usable -
        (offs.filter fun off => w.badBlock (factoryKernelOff + off)).length * 0x20000))
      (factoryKernelUsable offs usable) w := by
  induction offs generalizing usable with
  | nil => exact ⟨rfl, by simp⟩
  | cons off offs ih =>
    rw [List.length_cons, Nat.add_mul, Nat.one_mul] at h
    cases hbad : w.badBlock (factoryKernelOff + off) with
    | false =>
      have hexec : exec (.blockIsBad (factoryKernelOff + off)) .ok w = ((0 : ℤ), w) := by
        simp [exec, Outcome.ok, hbad]
      refine spec_fine hexec (spec_ite (fun hlt => absurd hlt (by decide)) fun _ => ?_)
      have hsame : (if (0 : ℤ) < 0 ∧ 0x20000 ≤ usable then usable - 0x20000 else usable) = usable :=
        if_neg fun h => absurd h.1 (lt_irrefl _)
      simp only [hsame, List.filter_cons, hbad, Bool.false_eq_true, if_false]
      exact ih (Nat.le_trans (Nat.le_add_right _ _) h)
    | true =>
      have hexec : exec (.blockIsBad (factoryKernelOff + off)) .ok w = ((1 : ℤ), w) := by
        simp [exec, Outcome.ok, hbad]
      refine spec_fine hexec (spec_ite (fun hlt => absurd hlt (by decide)) fun _ => ?_)
      have hless : (if (0 : ℤ) < 1 ∧ 0x20000 ≤ usable then usable - 0x20000 else usable) =
          usable - 0x20000 := if_pos ⟨by decide, Nat.le_trans (Nat.le_add_left _ _) h⟩
      simp only [hless, List.filter_cons, hbad, if_true]
      refine (ih (Nat.le_sub_of_add_le h)).mono fun r w' hr => ⟨hr.1, ?_⟩
      rw [hr.2, List.length_cons, Nat.add_mul, Nat.one_mul, Nat.sub_sub, Nat.add_comm 0x20000]

theorem length_kernelBlocks (w : World) : w.kernelBlocks.length * 0x20000 = factoryKernelSize -
    (factoryKernelBlocks.filter fun off => w.badBlock (factoryKernelOff + off)).length * 0x20000 := by
  have hcount (p : ℕ → Bool) (l : List ℕ) :
      (l.filter fun x => !p x).length = l.length - (l.filter p).length := by
    have := List.length_eq_length_filter_add p (l := l)
    omega
  have hgood : w.kernelBlocks.length =
      64 - (factoryKernelBlocks.filter fun off => w.badBlock (factoryKernelOff + off)).length := by
    have hblocks : w.kernelBlocks = (factoryKernelBlocks.map (factoryKernelOff + ·)).filter
        fun b => !w.badBlock b := by
      rw [World.kernelBlocks, factoryKernelBlocks, List.map_map]
      rfl
    rw [hblocks, List.filter_map, List.length_map]
    exact hcount (fun off => w.badBlock (factoryKernelOff + off)) factoryKernelBlocks
  rw [hgood, Nat.sub_mul]

theorem factoryKernelCapacityOk_fine {n : ℕ} (h : n ≤ w.kernelBlocks.length * 0x20000) :
    Spec exec Fine (fun _ => True) (fun ret w' => ret = 0 ∧ w' = w) (factoryKernelCapacityOk n) w := by
  refine (factoryKernelUsable_value factoryKernelBlocks (by decide)).bind fun r w' hr => ?_
  obtain ⟨rfl, rfl⟩ := hr
  rw [length_kernelBlocks] at h
  exact ⟨if_neg (Nat.not_lt.2 h), rfl⟩

theorem round_le {n k : ℕ} (h : n ≤ k * 0x20000) : (n + 0x7ff) / 0x800 * 0x800 ≤ k * 0x20000 := by
  omega

theorem le_round (n : ℕ) : n ≤ (n + 0x7ff) / 0x800 * 0x800 := by
  omega

theorem spared_mtdStore (o : Outcome) (ho : o.cells = none) (region : ℕ → Bool) (f : ℕ → UInt8) :
    Spared w (w.mtdStore o region f) := by
  refine ⟨fun x _ hb => ?_, fun _ _ => rfl, rfl, rfl⟩
  simp [World.mtdStore, ho, hb]

theorem factoryKernelErase_fine (w : World) :
    ∃ w', exec .factoryKernelErase .ok w = (0, w') ∧ Spared w w' ∧ w'.ram = w.ram :=
  ⟨_, rfl, spared_mtdStore .ok rfl _ _, rfl⟩

theorem factoryKernelWrite_fine (addr : ℕ) {len n : ℕ} (hn : (len + 0x7ff) / 0x800 * 0x800 = n)
    (hroom : n ≤ w.kernelBlocks.length * 0x20000) :
    ∃ w', exec (.factoryKernelWrite addr len) .ok w = (0, w') ∧ Spared w w' ∧ w'.ram = w.ram ∧
      kernelContents w' n = w.ram.slice addr n := by
  have hfits : Outcome.ok.err.isNone = true ∧ n ≤ w.kernelBlocks.length * 0x20000 := ⟨rfl, hroom⟩
  have hspared := spared_mtdStore (w := w) .ok rfl
    (fun x => World.inFactoryKernel x && decide (w.kernelOffset x < n))
    fun x => w.ram (addr + w.kernelOffset x)
  refine ⟨_, ?_, hspared, rfl, ?_⟩
  · simp only [exec, World.factoryKernelWrite, hn, if_pos hfits]
  refine List.map_congr_left fun x hx => ?_
  have hx := List.mem_range.1 hx
  obtain ⟨hin, hgood, hoff⟩ := kernelOffset_eq (Nat.lt_of_lt_of_le hx hroom)
  rw [hspared.kernelBlocks]
  generalize (w.kernelBlocks[x / 0x20000]?).getD 0 + x % 0x20000 = y at hin hgood hoff
  simp [World.mtdStore, Outcome.ok, hin, hgood, hoff, hx]

theorem factoryKernelRead_fine (addr : ℕ) {len n : ℕ} (hn : (len + 0x7ff) / 0x800 * 0x800 = n)
    (hroom : n ≤ w.kernelBlocks.length * 0x20000) :
    exec (.factoryKernelRead addr len) .ok w =
      (0, { w with ram := w.ram.blit addr (kernelContents w n) }) := by
  have hfits : Outcome.ok.err.isNone = true ∧ n ≤ w.kernelBlocks.length * 0x20000 := ⟨rfl, hroom⟩
  simp only [exec, World.factoryKernelRead, hn, if_pos hfits]
  rfl

/-- **The kernel's half** succeeds. -/
theorem factoryInstallKernel_completes (hroom : img.kernelSize ≤ w.kernelBlocks.length * 0x20000)
    (hstage : stageAddr + img.kernelOff + img.kernelSize ≤ readbackAddr) :
    Spec exec Fine (fun _ => True) (fun ret w' => ret = 0 ∧ Spared w w')
      (factoryInstallKernel img) w := by
  obtain ⟨n, hn⟩ : ∃ n, (img.kernelSize + 0x7ff) / 0x800 * 0x800 = n := ⟨_, rfl⟩
  have hround : n ≤ w.kernelBlocks.length * 0x20000 := hn.symm.trans_le (round_le hroom)
  have hsize : img.kernelSize ≤ n := (le_round img.kernelSize).trans_eq hn
  obtain ⟨w₁, herase, hspared₁, hram₁⟩ := factoryKernelErase_fine w
  refine spec_fine herase (spec_ite (fun h => absurd rfl h) fun _ => ?_)
  have hround₁ := hround
  rw [← hspared₁.kernelBlocks] at hround₁
  obtain ⟨w₂, hwrite, hspared₂, hram₂, hcontents⟩ :=
    factoryKernelWrite_fine (stageAddr + img.kernelOff) hn hround₁
  refine spec_fine hwrite (spec_ite (fun h => absurd rfl h) fun _ => ?_)
  have hspared := hspared₁.trans hspared₂
  rw [← hspared.kernelBlocks] at hround
  have hread := factoryKernelRead_fine readbackAddr hn hround
  rw [hcontents, hram₂, hram₁] at hread
  refine spec_fine hread (spec_ite (fun h => absurd rfl h) fun _ => ?_)
  refine (memEqual_same ?_).mono fun ret w' h => ⟨h.1, ?_⟩
  · have hlen : (w.ram.slice (stageAddr + img.kernelOff) n).length = n := Mem.length_slice _ _ _
    show (w.ram.blit readbackAddr _).slice (stageAddr + img.kernelOff) img.kernelSize =
      (w.ram.blit readbackAddr _).slice readbackAddr img.kernelSize
    rw [Mem.slice_blit_disjoint _ (.inl hstage), ← Mem.take_slice _ readbackAddr hsize,
      Mem.slice_blit_of_length _ _ hlen, Mem.take_slice _ _ hsize]
  · rw [h.2]
    exact ⟨hspared.nand, fun x hx => Mem.blit_apply_of_lt _ _ hx, hspared.badBlock,
      hspared.geometry⟩

end Kernel

/-! ## The installation -/

/-- There is room for the image, and a NAND to put it on. -/
structure HasRoom (img : ImageState) (w : World) : Prop where
  nand : w.geometry.isSome = true
  leb : 0 < w.lebSize
  root : (img.rootSize + w.lebSize - 1) / w.lebSize < (w.ubi .factory).emptyPebs
  kernel : img.kernelSize ≤ w.kernelBlocks.length * 0x20000

/-- **An installation completes** when nothing goes wrong and there is room. -/
theorem factoryInstall_completes {img : ImageState} (layout : Layout) {w : World}
    (hinst : img.Installable) (hlayout : layout.Migratable) (hsizes : img.SizesFit)
    (hlen : img.len ≤ stageMax) (hroom : HasRoom img w) :
    Spec exec Fine (fun _ => True) (fun ret w' => ret = 0 ∧ Spared w w')
      (factoryInstall img layout) w := by
  have hmax : stageMax = 0x04000000 := rfl
  have haddr : stageAddr = 0x90000000 := rfl
  have hback : readbackAddr = 0x94000000 := rfl
  refine spec_ite (fun h => absurd hinst h) fun _ => ?_
  refine spec_ite (fun h => absurd hlayout h) fun _ => ?_
  refine spec_ite (fun h => absurd hsizes h) fun _ => ?_
  obtain ⟨-, -, hroot, hkend, hrend⟩ := hsizes
  have hregister : ∃ w₁, exec .factoryRegisterMtd .ok w = ((0 : ℤ), w₁) ∧ Spared w w₁ ∧
      w₁.lebSize = w.lebSize ∧ w₁.ubi = w.ubi := by
    obtain ⟨g, hg⟩ := Option.isSome_iff_exists.1 hroom.nand
    by_cases hready : w.factoryMtdReady = true
    · exact ⟨w, if_pos hready, .refl w, rfl, rfl⟩
    · refine ⟨{ w with factoryMtdReady := true }, ?_, ⟨fun _ _ _ => rfl, fun _ _ => rfl, rfl, rfl⟩,
        rfl, rfl⟩
      simp [exec, World.factoryRegisterMtd, Outcome.ok, hg, hready]
  obtain ⟨w₁, hexec, hspared₁, hleb, hubi⟩ := hregister
  refine spec_fine hexec (spec_ite (fun h => absurd rfl h) fun _ => ?_)
  have hcap : img.kernelSize ≤ w₁.kernelBlocks.length * 0x20000 := by
    rw [hspared₁.kernelBlocks]
    exact hroom.kernel
  refine (factoryKernelCapacityOk_fine hcap).bind fun ret w' h => ?_
  obtain ⟨rfl, rfl⟩ := h
  refine spec_ite (fun h => absurd rfl h) fun _ => ?_
  have hstage : stageAddr + img.rootOff + img.rootSize ≤ readbackAddr := by omega
  have hpebs : (img.rootSize + w'.lebSize - 1) / w'.lebSize < (w'.ubi .factory).emptyPebs := by
    rw [hleb, hubi]
    exact hroom.root
  refine (factoryInstallRoot_completes (by rw [hleb]; exact hroom.leb) hroot hpebs hstage).bind
    fun ret w₂ h => ?_
  obtain ⟨rfl, hspared₂⟩ := h
  refine spec_ite (fun h => absurd rfl h) fun _ => ?_
  have hall := hspared₁.trans hspared₂
  have hkernel : img.kernelSize ≤ w₂.kernelBlocks.length * 0x20000 := by
    rw [hall.kernelBlocks]
    exact hroom.kernel
  exact (factoryInstallKernel_completes hkernel (by omega)).mono fun ret w₃ h =>
    ⟨h.1, hall.trans h.2⟩

end UrsusBoot
