import UrsusBoot.Engine.StockBoot
import UrsusBoot.Format.Writer
import UrsusBoot.Safety.Boot

/-!
# A stock slot stays inside its slot

`inspect_slot` checks the BL33 range of a slot by comparing two sums of `u64`. When the sum of base,
offset and size does not wrap, an accepted slot is contained and the load stays inside it. When it
wraps, the check passes for a range outside the slot.
-/

namespace UrsusBoot

open Prog

namespace StockBoot

/-- The BL33 range and the FIT range lie in the slot, and so does every read of the load. -/
def Contained (mtd : NandGeometry) (s : Slot) : Prop :=
  s.ntOff + s.ntSize ≤ slotSize ∧ s.base ≤ s.fitPhys ∧
    s.fitPhys + s.fitSize ≤ s.base + slotSize ∧
    Emits exec (ReadsInside s.base (s.base + slotSize)) (load mtd s)

/-- The first BL33 entry of the table at `base` describes a range whose end, from the start of the
flash, is a `u64`. -/
def NtEndFits (m : Mem UInt8) (base : ℕ) : Prop :=
  ∀ off size, slotWalk (m.slice base fipTocRead) = some (off, size) → base + off + size < 2 ^ 64

theorem load_inside {mtd : NandGeometry} {s : Slot} {lo hi : ℕ} (hlo : page mtd ∣ lo)
    (hhi : page mtd ∣ hi) (hoff : lo ≤ s.fitPhys) (hend : s.fitPhys + s.fitSize ≤ hi) :
    Emits exec (ReadsInside lo hi) (load mtd s) := by
  refine emits_bind (readRange_inside hlo hhi hoff hend) fun r => ?_
  refine emits_next (fun o w a n h => nomatch h) fun _ => ?_
  exact emits_ite (fun _ => emits_ret _) fun _ =>
    emits_ite (fun _ => emits_ret _) fun _ => emits_ret _

theorem Found.contained {mtd : NandGeometry} {m : Mem UInt8} {base : ℕ} {r : Slot}
    (h : Found m base r) (hbase : base = masterBase ∨ base = slaveBase)
    (hpage : page mtd ∣ 0x40000) (hfits : base + r.ntOff + r.ntSize < 2 ^ 64) :
    Contained mtd r := by
  obtain ⟨hsame, -, hbig, hrange, hphys, hsize⟩ := h
  have hsmall : base + slotSize < 2 ^ 64 := by
    rcases hbase with rfl | rfl <;> decide
  rw [Nat.mod_eq_of_lt hfits, Nat.mod_eq_of_lt hsmall] at hrange
  have hphys' : r.fitPhys = base + r.ntOff + hdr2Size := by
    rw [hphys, Nat.mod_eq_of_lt (by omega)]
  have hlo : page mtd ∣ base := Nat.dvd_trans hpage (by rcases hbase with rfl | rfl <;> decide)
  have hhi : page mtd ∣ base + slotSize := Nat.dvd_add hlo (Nat.dvd_trans hpage (by decide))
  refine ⟨by omega, by omega, by omega, ?_⟩
  rw [hsame]
  exact load_inside hlo hhi (by omega) (by omega)

/-! ## Inspections that succeed -/

section Accepts

variable {mtd : NandGeometry}

/-- A geometry whose pages `read_range` can read. -/
structure Readable (mtd : NandGeometry) : Prop where
  pos : 0 < page mtd
  chunk : page mtd ≤ readChunk
  whole : page mtd ∣ mtd.size
  blocks : 0 < mtd.erasesize

theorem readExact_succeeds {off len : ℕ} (h : off + len ≤ mtd.size) :
    Yields exec Succeeds (fun r => r.1 = 0) (readExact mtd off len) := by
  refine yields_ite (fun hout => absurd hout (by omega)) fun _ w => ?_
  refine spec_next (Cmd.nandRead off len) fun o ho => ⟨trivial, ?_⟩
  have ho' : o.err = none := ho
  have hread : exec (.nandRead off len) o w = ((0, w.nand.slice off len), w) := by
    simp only [exec, World.nandRead, ho']
  rw [hread]
  show (if (if (0 : ℤ) = -euclean then 0 else (0 : ℤ)) = 0 ∧ (w.nand.slice off len).length = len
    then (0 : ℤ) else -eio) = 0
  simp

theorem rangeLoop_succeeds {rd : ℕ → ℕ → FlashProg (ℤ × List UInt8)} {page size : ℕ}
    (hpos : 0 < page) (hchunk : page ≤ readChunk) (hwhole : page ∣ size)
    (hrd : ∀ off len, off + len ≤ size → Yields exec Succeeds (fun r => r.1 = 0) (rd off len))
    (off len : ℕ) (acc : List UInt8) (h : off + len ≤ size) :
    Yields exec Succeeds (fun r => r.1 = 0) (rangeLoop rd page off len acc) := by
  fun_induction rangeLoop rd page off len acc with
  | case1 => exact yields_ret rfl
  | case2 off len acc hlen hpage => omega
  | case3 off len acc hlen hpage hin direct direct' ih =>
    have hle : direct' ≤ len := by
      simp only [direct', direct]
      split_ifs <;> omega
    refine yields_bind (hrd _ _ (by omega)) fun r hr => ?_
    exact yields_ite (fun hne => absurd hr hne) fun _ => ih r.2 (by omega)
  | case4 off len acc hlen hpage hin inPage ih =>
    -- the flash ends at a page boundary, so the page of `off` is in it
    obtain ⟨b, hb⟩ := hwhole
    have hdiv : off - inPage = page * (off / page) := by
      have h := Nat.div_add_mod off page
      omega
    have hlt : off / page < b := Nat.div_lt_of_lt_mul (by omega)
    have hto : off - inPage + page ≤ size := by
      rw [hdiv, ← Nat.mul_succ, hb]
      exact Nat.mul_le_mul_left _ hlt
    refine yields_bind (hrd _ _ hto) fun r hr => ?_
    exact yields_ite (fun hne => absurd hr hne) fun _ => ih r.2 (by omega)

theorem readRange_succeeds (hmtd : Readable mtd) {off len : ℕ} (h : off + len ≤ mtd.size) :
    Yields exec Succeeds (fun r => r.1 = 0) (readRange mtd off len) := by
  refine yields_bind (P := fun b => b = true) (yields_perform fun o w ho => ?_) fun b hb => ?_
  · have ho' : o.err = none := ho
    simp [exec, ho']
  · exact yields_ite (fun hne => by simp [hb] at hne) fun _ =>
      rangeLoop_succeeds hmtd.pos hmtd.chunk hmtd.whole (fun _ _ => readExact_succeeds) off len [] h

theorem readRange_reads (hmtd : Readable mtd) {off len : ℕ} (h : off + len ≤ mtd.size) (w : World) :
    Spec exec Succeeds (fun _ => True) (fun r w' => w' = w ∧ r = (0, w.nand.slice off len))
      (readRange mtd off len) w := by
  have hok : Spec exec Succeeds (fun _ => True)
      (fun r w' => w' = w ∧ (r.1 = 0 → r.2 = w.nand.slice off len)) (readRange mtd off len) w :=
    (readRange_ok off len w).weaken (fun _ _ => trivial) fun _ _ h => h
  have hboth := (hok.and (readRange_succeeds hmtd h w)).weaken (fun _ h => h) fun _ _ _ => trivial
  exact hboth.mono fun r w' hr => ⟨hr.1.1, Prod.ext hr.2 (hr.1.2 hr.2)⟩

theorem countBad_nonneg (ebs : List ℕ) {bad : ℤ} (hbad : 0 ≤ bad) (h : ∀ eb ∈ ebs, eb ≤ mtd.size) :
    Yields exec Succeeds (fun r => 0 ≤ r) (countBad mtd ebs bad) := by
  induction ebs generalizing bad with
  | nil => exact yields_ret hbad
  | cons eb ebs ih =>
    have heb := h eb List.mem_cons_self
    refine yields_ite (fun hlt => absurd hlt (by omega)) fun _ => ?_
    refine yields_bind (P := fun r => 0 ≤ r) (yields_perform fun o w ho => ?_) fun ret hret => ?_
    · have ho' : o.err = none := ho
      simp only [exec, ho']
      split_ifs <;> simp
    · refine yields_ite (fun hlt => absurd hlt (by omega)) fun _ => ?_
      exact ih (by split_ifs <;> omega) fun eb' h' => h eb' (List.mem_cons_of_mem _ h')

theorem countBadBlocks_nonneg (hmtd : Readable mtd) {start len : ℕ}
    (h : (start + len) % 2 ^ 64 ≤ mtd.size) :
    Yields exec Succeeds (fun r => 0 ≤ r) (countBadBlocks mtd start len) := by
  have hpos := hmtd.blocks
  refine yields_ite (fun hz => absurd hz (by omega)) fun _ => ?_
  refine countBad_nonneg _ le_rfl fun eb heb => ?_
  obtain ⟨k, hk, rfl⟩ := List.mem_map.1 heb
  have hk' := List.mem_range.1 hk
  have hmul : (k + 1) * mtd.erasesize ≤ _ := (Nat.le_div_iff_mul_le hpos).1 hk'
  rw [Nat.succ_mul] at hmul
  omega

/-- The flash holds a slot at `base` that passes the inspection, with this BL33 entry. -/
structure Accepts (mtd : NandGeometry) (m : Mem UInt8) (base off size : ℕ) : Prop where
  slotIn : base + slotSize ≤ mtd.size
  header : fipHeaderOk (m.slice base fipTocRead) = true
  nt : slotWalk (m.slice base fipTocRead) = some (off, size)
  nonzero : off ≠ 0
  big : hdr2Size < size
  range : (base + off + size) % 2 ^ 64 ≤ (base + slotSize) % 2 ^ 64
  pageIn : (base + off) % 2 ^ 64 + 2048 ≤ mtd.size
  magic : bytesAt (m.slice ((base + off) % 2 ^ 64) 2048) 0 4 = asciiBytes "HDR2"
  fdt : fdtCheckHeader (bytesAt (m.slice ((base + off) % 2 ^ 64) 2048) hdr2Size 64) = 0
  sized : ∃ n,
    (fdtHeader (bytesAt (m.slice ((base + off) % 2 ^ 64) 2048) hdr2Size 64)).totalsize = n ∧
    0 < n ∧ n ≤ fitMaxSize ∧ n ≤ size - hdr2Size ∧
    ((base + off + hdr2Size) % 2 ^ 64 + n) % 2 ^ 64 ≤ mtd.size

theorem inspectFit_accepts (hmtd : Readable mtd) {slot : Slot} {hdrpage : List UInt8} {n : ℕ}
    (hmagic : bytesAt hdrpage 0 4 = asciiBytes "HDR2")
    (hfdt : fdtCheckHeader (bytesAt hdrpage hdr2Size 64) = 0)
    (hn : (fdtHeader (bytesAt hdrpage hdr2Size 64)).totalsize = n) (hpos : 0 < n)
    (hmax : n ≤ fitMaxSize) (hle : n ≤ slot.ntSize - hdr2Size)
    (hend : ((slot.base + slot.ntOff + hdr2Size) % 2 ^ 64 + n) % 2 ^ 64 ≤ mtd.size) :
    Yields exec Succeeds (fun r => r.1 = 0) (inspectFit mtd slot hdrpage) := by
  unfold inspectFit
  refine yields_ite (fun hne => absurd hmagic hne) fun _ => ?_
  refine yields_ite (fun hne => absurd hfdt hne) fun _ => ?_
  rw [hn]
  refine yields_ite (fun hne => absurd hne (by dsimp only; omega)) fun _ => ?_
  refine yields_bind (countBadBlocks_nonneg hmtd hend) fun bad hbad => yields_ret ?_
  exact if_neg (by omega)

theorem inspectNt_accepts (hmtd : Readable mtd) {base off size : ℕ} {w : World}
    (h : Accepts mtd w.nand base off size) :
    Spec exec Succeeds (fun _ => True) (fun r _ => r.1 = 0)
      (inspectNt mtd { base := base, ntOff := off, ntSize := size }) w := by
  obtain ⟨-, -, -, hoff, hbig, hrange, hin, hmagic, hfdt, n, hn, hpos, hmax, hle, hend⟩ := h
  have hread := readRange_reads hmtd hin w
  generalize w.nand.slice ((base + off) % 2 ^ 64) 2048 = hdrpage at hread hmagic hfdt hn
  have hfit : Yields exec Succeeds (fun r => r.1 = 0)
      (inspectFit mtd { base := base, ntOff := off, ntSize := size } hdrpage) :=
    inspectFit_accepts hmtd hmagic hfdt hn hpos hmax hle hend
  refine spec_ite (fun hne => absurd hne (by dsimp only; omega)) fun _ => ?_
  refine spec_ite (fun hne => absurd hne (by dsimp only; omega)) fun _ => ?_
  refine hread.bind fun p w' hp => ?_
  obtain ⟨rfl, rfl⟩ := hp
  exact spec_ite (fun hne => absurd rfl hne) fun _ => hfit w'

/-- **When an inspection succeeds.** -/
theorem inspectSlot_accepts (hmtd : Readable mtd) (base : ℕ) {off size : ℕ} {w : World}
    (h : Accepts mtd w.nand base off size) :
    Spec exec Succeeds (fun _ => True) (fun r _ => r.1 = 0)
      (inspectSlot mtd { base := base }) w := by
  have hslot := h.slotIn
  have htoc : fipTocRead ≤ slotSize := by decide
  have hin : base + fipTocRead ≤ mtd.size := by omega
  have hread := readRange_reads hmtd hin w
  have hheader := h.header
  have hnt := h.nt
  generalize w.nand.slice base fipTocRead = tocbuf at hread hheader hnt
  refine spec_ite (fun hlt => absurd hlt (by dsimp only; omega)) fun _ => ?_
  refine spec_next (Cmd.malloc _) fun o ho => ⟨trivial, ?_⟩
  have ho' : o.err = none := ho
  refine spec_ite (fun hne => by simp [exec, ho'] at hne) fun _ => ?_
  refine hread.bind fun p w' hp => ?_
  obtain ⟨rfl, rfl⟩ := hp
  refine spec_ite (fun hne => absurd rfl hne) fun _ => ?_
  refine spec_ite (fun hne => by simp [hheader] at hne) fun _ => ?_
  rw [hnt]
  exact inspectNt_accepts hmtd h

end Accepts

/-- A FIP of one entry, BL33, with the given offset and size. -/
def slotToc (off size : List UInt8) : List UInt8 :=
  [0x01, 0x00, 0x64, 0xaa, 0x78, 0x56, 0x34, 0x12] ++ List.replicate 8 0 ++
    (ntFwUuid ++ off ++ size) ++ List.replicate 4048 0

/-- The first page of BL33: its header, and behind it a FIT. -/
def slotPage : List UInt8 :=
  [0x48, 0x44, 0x52, 0x32] ++ List.replicate 252 0 ++ smallFit ++ List.replicate 1449 0

/-- A flash with that table in the first slot and BL33 at `nt`. -/
def slotFlash (off size : List UInt8) (nt : ℕ) : Mem UInt8 :=
  (Mem.blit (fun _ => 0xff) masterBase (slotToc off size)).blit nt slotPage

theorem length_slotPage : slotPage.length = 2048 := by
  simp only [slotPage, List.length_append, List.length_replicate, length_smallFit, List.length_cons,
    List.length_nil]

theorem slice_slotPage (off size : List UInt8) (nt : ℕ) :
    (slotFlash off size nt).slice nt 2048 = slotPage :=
  Mem.slice_blit_of_length _ _ length_slotPage

theorem slice_slotToc {off size : List UInt8} {nt : ℕ}
    (hlen : (slotToc off size).length = fipTocRead)
    (hnt : nt + 2048 ≤ masterBase ∨ masterBase + fipTocRead ≤ nt) :
    (slotFlash off size nt).slice masterBase fipTocRead = slotToc off size := by
  have hpage := length_slotPage
  rw [slotFlash, Mem.slice_blit_disjoint _ (by omega)]
  exact Mem.slice_blit_of_length _ _ hlen

theorem fdt_slotPage : fdtCheckHeader (bytesAt slotPage hdr2Size 64) = 0 ∧
    (fdtHeader (bytesAt slotPage hdr2Size 64)).totalsize = 343 := by
  decide +kernel

theorem readable_supported : Readable .supported :=
  ⟨by decide, by decide, by decide, by decide⟩

/-- The table is whole and describes that BL33. -/
abbrev Reads (off size : List UInt8) (ntOff ntSize : ℕ) : Prop :=
  (slotToc off size).length = fipTocRead ∧ fipHeaderOk (slotToc off size) = true ∧
    slotWalk (slotToc off size) = some (ntOff, ntSize)

theorem reads_samples :
    Reads [0, 0x10, 0, 0, 0, 0, 0, 0] [0, 0x10, 0, 0, 0, 0, 0, 0] 0x1000 0x1000 ∧
      Reads [0, 0, 0xfc, 0xff, 0xff, 0xff, 0xff, 0xff] [0, 0, 5, 0, 0, 0, 0, 0] (2 ^ 64 - 0x40000)
        0x50000 := by
  decide +kernel

theorem slotFlash_accepts {off size : List UInt8} {nt ntOff ntSize : ℕ}
    (h : Reads off size ntOff ntSize) (hoff : ntOff ≠ 0)
    (hsize : 599 ≤ ntSize) (hnt : (masterBase + ntOff) % 2 ^ 64 = nt)
    (hrange : (masterBase + ntOff + ntSize) % 2 ^ 64 ≤ masterBase + slotSize)
    (hin : nt + 2048 ≤ 0x10000000) (hdisj : nt + 2048 ≤ masterBase ∨ masterBase + fipTocRead ≤ nt) :
    Accepts .supported (slotFlash off size nt) masterBase ntOff ntSize := by
  obtain ⟨hlen, hheader, hwalk⟩ := h
  have htoc := slice_slotToc hlen hdisj
  have hpage := slice_slotPage off size nt
  have hbase : masterBase = 0xc0000 := rfl
  have hslot : slotSize = 0x2880000 := rfl
  have hhdr : hdr2Size = 0x100 := rfl
  have hmax : fitMaxSize = 0x2800000 := rfl
  refine ⟨by decide, htoc ▸ hheader, htoc ▸ hwalk, hoff, by omega, by omega, ?_, ?_, ?_, 343, ?_⟩
  · rw [hnt]
    exact hin
  · rw [hnt, hpage]
    decide
  · rw [hnt, hpage]
    exact fdt_slotPage.1
  · rw [hnt, hpage]
    refine ⟨fdt_slotPage.2, by omega, by omega, by omega, ?_⟩
    show _ ≤ 0x10000000
    omega

def slotBoard (m : Mem UInt8) : World := { FipUpdate.sampleWorld default with nand := m }

theorem slotBoard_nand (m : Mem UInt8) : (slotBoard m).nand = m := rfl

/-- BL33 at `0x1000` of the slot, of `0x1000` bytes. -/
def insideFlash : Mem UInt8 :=
  slotFlash [0, 0x10, 0, 0, 0, 0, 0, 0] [0, 0x10, 0, 0, 0, 0, 0, 0] 0xc1000

/-- BL33 `0x40000` before the slot, of `0x50000` bytes: the offset is `2 ^ 64 - 0x40000`. -/
def beforeFlash : Mem UInt8 :=
  slotFlash [0, 0, 0xfc, 0xff, 0xff, 0xff, 0xff, 0xff] [0, 0, 5, 0, 0, 0, 0, 0] 0x80000

theorem insideBoard_accepts :
    Accepts .supported (slotBoard insideFlash).nand masterBase 0x1000 0x1000 := by
  rw [slotBoard_nand]
  exact slotFlash_accepts reads_samples.1 (by decide) (by decide) (by decide) (by decide)
    (by decide) (by decide)

theorem beforeBoard_accepts :
    Accepts .supported (slotBoard beforeFlash).nand masterBase (2 ^ 64 - 0x40000) 0x50000 := by
  rw [slotBoard_nand]
  exact slotFlash_accepts reads_samples.2 (by decide) (by decide) (by decide) (by decide)
    (by decide) (by decide)

/-- **An accepted slot is contained exactly when the end of its BL33 entry does not wrap.** The
pages of a NAND divide `0x40000`. -/
theorem slot_contained_iff (mtd : NandGeometry) (hpage : page mtd ∣ 0x40000) (base : ℕ)
    (hbase : base = masterBase ∨ base = slaveBase) (outs : ℕ → Outcome) (w : World)
    (hok : (run exec (inspectSlot mtd { base := base }) outs w).val.1 = 0) :
    Contained mtd (run exec (inspectSlot mtd { base := base }) outs w).val.2 ↔
      NtEndFits w.nand base := by
  have hfound : Found w.nand base (run exec (inspectSlot mtd { base := base }) outs w).val.2 :=
    ((inspectSlot_found base w).run_of outs fun _ _ => trivial).2 hok
  generalize (run exec (inspectSlot mtd { base := base }) outs w).val.2 = r at hfound
  constructor
  · rintro ⟨hin, -⟩ off size hwalk
    cases hfound.nt.symm.trans hwalk
    have hsmall : base + slotSize < 2 ^ 64 := by
      rcases hbase with rfl | rfl <;> decide
    omega
  · intro hfits
    exact hfound.contained hbase hpage (hfits _ _ hfound.nt)

/-- A slot that is accepted and contained. -/
theorem slot_contained_sample :
    ∃ os, (run exec (inspectSlot .supported ⟨masterBase, 0, 0, 0, 0, 0⟩) os
        (slotBoard insideFlash)).val.1 = 0 ∧
      Contained .supported (run exec (inspectSlot .supported ⟨masterBase, 0, 0, 0, 0, 0⟩) os
        (slotBoard insideFlash)).val.2 := by
  have hspec : Spec exec Succeeds (fun _ => True) (fun r _ => r.1 = 0)
      (inspectSlot .supported { base := masterBase }) (slotBoard insideFlash) :=
    inspectSlot_accepts readable_supported masterBase insideBoard_accepts
  obtain ⟨os, hos⟩ := (may_of_spec hspec .ok (fun _ _ => rfl) []).run_of
  refine ⟨os, hos, ?_⟩
  refine (slot_contained_iff .supported (by decide) masterBase (.inl rfl) os _ hos).2 ?_
  intro off size h
  cases insideBoard_accepts.nt.symm.trans h
  decide

/-- A slot whose BL33 begins `0x40000` before it is accepted. -/
theorem slot_not_contained :
    ∃ os, (run exec (inspectSlot .supported ⟨masterBase, 0, 0, 0, 0, 0⟩) os
        (slotBoard beforeFlash)).val.1 = 0 ∧
      ¬ Contained .supported (run exec (inspectSlot .supported ⟨masterBase, 0, 0, 0, 0, 0⟩) os
        (slotBoard beforeFlash)).val.2 := by
  have hspec : Spec exec Succeeds (fun _ => True) (fun r _ => r.1 = 0)
      (inspectSlot .supported { base := masterBase }) (slotBoard beforeFlash) :=
    inspectSlot_accepts readable_supported masterBase beforeBoard_accepts
  obtain ⟨os, hos⟩ := (may_of_spec hspec .ok (fun _ _ => rfl) []).run_of
  refine ⟨os, hos, fun hin => ?_⟩
  have hfound := ((inspectSlot_found masterBase _).run_of os fun _ _ => trivial).2 hos
  have hnt := Prod.mk.inj (Option.some.inj (beforeBoard_accepts.nt.symm.trans hfound.nt))
  have hend := hin.1
  rw [← hnt.1, ← hnt.2] at hend
  exact absurd hend (by decide)

end StockBoot

end UrsusBoot
