import UrsusBoot.Engine.Basic
import UrsusBoot.Format.FipTable

/-!
# Booting a stock slot

`ursusstock.c` up to the load of the FIT: a slot is inspected through the table of the FIP at its
start, and the FIT behind the BL33 header of the chosen slot is read into RAM. Offsets are `u64`:
every sum of them is taken modulo `2 ^ 64`.
-/

namespace UrsusBoot

/-! ## Reading a range by pages -/

/-- The loop of `read_range`; `acc` is what the destination has received. -/
def rangeLoop (rd : ℕ → ℕ → FlashProg (ℤ × List UInt8)) (page off len : ℕ) (acc : List UInt8) :
    FlashProg (ℤ × List UInt8) :=
  if _hlen : len = 0 then return (0, acc)
  else if _hpage : page = 0 ∨ readChunk < page then return (-eio, acc)
  else if _hin : off % page = 0 ∧ page ≤ len then do
    let direct := len - len % page
    let direct := if readChunk < direct then readChunk - readChunk % page else direct
    let (ret, bs) ← rd off direct
    if ret ≠ 0 then return (-eio, acc ++ bs)
    rangeLoop rd page (off + direct) (len - direct) (acc ++ bs)
  else do
    let inPage := off % page
    let (ret, bs) ← rd (off - inPage) page
    if ret ≠ 0 then return (-eio, acc)
    let take := min len (page - inPage)
    rangeLoop rd page (off + take) (len - take) (acc ++ bytesAt bs inPage take)
termination_by len
decreasing_by
  · have h1 : len % page < page := Nat.mod_lt _ (by omega)
    have h2 : readChunk % page < page := Nat.mod_lt _ (by omega)
    split_ifs <;> omega
  · have h1 : off % page < page := Nat.mod_lt _ (by omega)
    omega

namespace StockBoot

abbrev masterBase : ℕ := 0x000c0000
abbrev slaveBase : ℕ := 0x02940000
abbrev slotSize : ℕ := 0x02880000
abbrev hdr2Size : ℕ := 0x100
abbrev fitLoadAddr : ℕ := 0x88000000
abbrev fitMaxSize : ℕ := 0x02800000

/-- `struct stock_slot`, without its name. -/
structure Slot where
  base : ℕ
  ntOff : ℕ := 0
  ntSize : ℕ := 0
  fitPhys : ℕ := 0
  fitSize : ℕ := 0
  badBlocks : ℤ := 0
deriving DecidableEq

/-- `read_exact`: `mtd_read` refuses a range that is not in the device. -/
def readExact (mtd : NandGeometry) (off len : ℕ) : FlashProg (ℤ × List UInt8) :=
  if mtd.size < off ∨ mtd.size - off < len then return (-eio, [])
  else UrsusBoot.readExact off len

/-- The page size `read_range` goes by. -/
def page (mtd : NandGeometry) : ℕ := if mtd.writesize ≠ 0 then mtd.writesize else 2048

def readRange (mtd : NandGeometry) (off len : ℕ) : FlashProg (ℤ × List UInt8) := do
  if !(← malloc (page mtd)) then return (-enomem, [])
  rangeLoop (readExact mtd) (page mtd) off len []

/-- The loop of `count_bad_blocks` over the blocks still to look at. -/
def countBad (mtd : NandGeometry) : List ℕ → ℤ → FlashProg ℤ
  | [], bad => return bad
  | eb :: ebs, bad => do
    if mtd.size < eb then return -einval
    let ret ← blockIsBad eb
    if ret < 0 then return ret
    countBad mtd ebs (if 0 < ret then bad + 1 else bad)

def countBadBlocks (mtd : NandGeometry) (start len : ℕ) : FlashProg ℤ :=
  if mtd.erasesize = 0 then return -einval
  else
    let eb := start - start % mtd.erasesize
    let stop := (start + len) % 2 ^ 64
    countBad mtd ((List.range ((stop - eb + mtd.erasesize - 1) / mtd.erasesize)).map fun k =>
      eb + k * mtd.erasesize) 0

/-- The part of `inspect_slot` behind the header page of BL33. -/
def inspectFit (mtd : NandGeometry) (slot : Slot) (hdrpage : List UInt8) :
    FlashProg (ℤ × Slot) := do
  if bytesAt hdrpage 0 4 ≠ asciiBytes "HDR2" then return (-einval, slot)
  let slot := { slot with fitPhys := (slot.base + slot.ntOff + hdr2Size) % 2 ^ 64 }
  let fithead := bytesAt hdrpage hdr2Size 64
  if fdtCheckHeader fithead ≠ 0 then return (-einval, slot)
  let slot := { slot with fitSize := (fdtHeader fithead).totalsize }
  if slot.fitSize = 0 ∨ fitMaxSize < slot.fitSize ∨ slot.ntSize - hdr2Size < slot.fitSize then
    return (-einval, slot)
  let bad ← countBadBlocks mtd slot.fitPhys slot.fitSize
  let slot := { slot with badBlocks := bad }
  return (if bad < 0 then -einval else 0, slot)

/-- The part of `inspect_slot` behind the table. -/
def inspectNt (mtd : NandGeometry) (slot : Slot) : FlashProg (ℤ × Slot) := do
  if slot.ntOff = 0 ∨ slot.ntSize ≤ hdr2Size then return (-einval, slot)
  if (slot.base + slotSize) % 2 ^ 64 < (slot.base + slot.ntOff + slot.ntSize) % 2 ^ 64 then
    return (-einval, slot)
  let (ret, hdrpage) ← readRange mtd ((slot.base + slot.ntOff) % 2 ^ 64) 2048
  if ret ≠ 0 then return (-einval, slot)
  inspectFit mtd slot hdrpage

/-- The slot with the BL33 entry of its table, when there is one. -/
def Slot.withNt (slot : Slot) (nt : Option (ℕ × ℕ)) : Slot :=
  match nt with
  | none => slot
  | some (off, size) => { slot with ntOff := off, ntSize := size }

def inspectSlot (mtd : NandGeometry) (slot : Slot) : FlashProg (ℤ × Slot) := do
  if mtd.size < slot.base + slotSize then return (-erange, slot)
  if !(← malloc fipTocRead) then return (-enomem, slot)
  let (ret, tocbuf) ← readRange mtd slot.base fipTocRead
  if ret ≠ 0 then return (-einval, slot)
  if !fipHeaderOk tocbuf then return (-einval, slot)
  inspectNt mtd (slot.withNt (slotWalk tocbuf))

/-- The load of `do_ursusstockboot`. -/
def load (mtd : NandGeometry) (chosen : Slot) : FlashProg (Except String (List UInt8)) := do
  let (ret, fit) ← readRange mtd chosen.fitPhys chosen.fitSize
  writeMem fitLoadAddr fit
  if ret ≠ 0 then return .error "FIT_READ"
  if fdtCheckHeader fit ≠ 0 ∨ (fdtHeader fit).totalsize ≠ chosen.fitSize then
    return .error "FIT_RECHECK"
  return .ok fit

/-- `do_ursusstockboot` up to the recheck of the FIT: the reason of its failure, or the slot and the
FIT it goes on with. -/
def stockbootLoad (wantSlave : Bool) : FlashProg (Except String (Slot × List UInt8)) := do
  match ← findMasterNand with
  | none => return .error "MTD_NOT_FOUND"
  | some mtd =>
    let (mr, master) ← inspectSlot mtd { base := masterBase }
    let (sr, slave) ← inspectSlot mtd { base := slaveBase }
    let chosen := if wantSlave then slave else master
    if (if wantSlave then sr else mr) ≠ 0 then return .error "REQUESTED_SLOT_INVALID"
    if chosen.badBlocks ≠ 0 then return .error "REQUESTED_SLOT_HAS_BADBLOCKS"
    return (← load mtd chosen).map fun fit => (chosen, fit)

end StockBoot

section Range

open Prog

/-- A reader that changes nothing and reads what the flash holds. -/
def ReadsFlash (rd : ℕ → ℕ → FlashProg (ℤ × List UInt8)) : Prop :=
  ∀ off len w, Spec exec (fun _ => True) (fun _ => True)
    (fun r w' => w' = w ∧ (r.1 = 0 → r.2 = w.nand.slice off len)) (rd off len) w

theorem bytesAt_slice (m : Mem UInt8) {off a n k : ℕ} (h : a + n ≤ k) :
    bytesAt (m.slice off k) a n = m.slice (off + a) n := by
  obtain ⟨r, rfl⟩ : ∃ r, k = a + (n + r) := ⟨k - a - n, by omega⟩
  unfold bytesAt
  rw [Mem.slice_add, List.drop_left' (Mem.length_slice _ _ _), Mem.slice_add,
    List.take_left' (Mem.length_slice _ _ _)]

theorem readExact_flash : ReadsFlash readExact := by
  intro off len w
  refine spec_next (Cmd.nandRead off len) fun o _ => ⟨trivial, rfl, ?_⟩
  change _ → (w.nandRead o off len).2 = _
  unfold World.nandRead
  cases ho : o.err with
  | none => exact fun _ => rfl
  | some e =>
    dsimp only
    by_cases heuclean : e.code = -euclean
    · simp [heuclean]
    · have hne : e.code ≠ 0 := ne_of_lt e.neg
      simp [heuclean, hne]

/-- **What a range read has read.** -/
theorem rangeLoop_ok {rd : ℕ → ℕ → FlashProg (ℤ × List UInt8)} (hrd : ReadsFlash rd)
    (page off len : ℕ) (acc : List UInt8) (w : World) :
    Ensures
      (fun r w' => w' = w ∧ (r.1 = 0 → r.2 = acc ++ w.nand.slice off len))
      (rangeLoop rd page off len acc) w := by
  fun_induction rangeLoop rd page off len acc with
  | case1 off acc => exact ⟨rfl, fun _ => by rw [Mem.slice_zero, List.append_nil]⟩
  | case2 off len acc hlen hpage => exact ⟨rfl, fun h => absurd h (by simp)⟩
  | case3 off len acc hlen hpage hin direct direct' ih =>
    have hle : direct' ≤ len := by
      simp only [direct', direct]
      split_ifs <;> omega
    refine (hrd off direct' w).bind fun r w' hr => ?_
    obtain ⟨rfl, hbytes⟩ := hr
    refine spec_ite (fun _ => ⟨rfl, fun h => absurd h (by simp)⟩) fun hret => ?_
    refine (ih r.2).mono fun r' w' hr' => ⟨hr'.1, fun h => ?_⟩
    rw [hr'.2 h, hbytes (not_not.1 hret), List.append_assoc, ← Mem.slice_add,
      Nat.add_sub_cancel' hle]
  | case4 off len acc hlen hpage hin inPage ih =>
    have hlt : inPage < page := Nat.mod_lt _ (by omega)
    have hback : off - inPage + inPage = off := Nat.sub_add_cancel (Nat.mod_le off page)
    refine (hrd (off - inPage) page w).bind fun r w' hr => ?_
    obtain ⟨rfl, hbytes⟩ := hr
    refine spec_ite (fun _ => ⟨rfl, fun h => absurd h (by simp)⟩) fun hret => ?_
    refine (ih r.2).mono fun r' w' hr' => ⟨hr'.1, fun h => ?_⟩
    rw [hr'.2 h, hbytes (not_not.1 hret), bytesAt_slice _ (by omega), hback, List.append_assoc,
      ← Mem.slice_add, Nat.add_sub_cancel' (by omega)]

/-- **Where a range read reads**: in any range of whole pages that holds the range. -/
theorem rangeLoop_inside {rd : ℕ → ℕ → FlashProg (ℤ × List UInt8)} {G : FlashEvent → Prop}
    {page lo hi : ℕ} (hlo : page ∣ lo) (hhi : page ∣ hi)
    (hrd : ∀ off len, lo ≤ off → off + len ≤ hi → Emits exec G (rd off len)) (off len : ℕ)
    (acc : List UInt8) (hoff : lo ≤ off) (hend : off + len ≤ hi) :
    Emits exec G (rangeLoop rd page off len acc) := by
  fun_induction rangeLoop rd page off len acc with
  | case1 => exact emits_ret _
  | case2 => exact emits_ret _
  | case3 off len acc hlen hpage hin direct direct' ih =>
    have hle : direct' ≤ len := by
      simp only [direct', direct]
      split_ifs <;> omega
    refine emits_bind (hrd _ _ hoff (by omega)) fun r => emits_ite (fun _ => emits_ret _) fun _ => ?_
    exact ih r.2 (by omega) (by omega)
  | case4 off len acc hlen hpage hin inPage ih =>
    have hpos : 0 < page := by omega
    obtain ⟨a, rfl⟩ := hlo
    obtain ⟨b, rfl⟩ := hhi
    -- the page of `off` lies between the two page boundaries
    have hdiv : off - inPage = page * (off / page) := by
      have h := Nat.div_add_mod off page
      omega
    have ha : a ≤ off / page := (Nat.le_div_iff_mul_le hpos).2 (by rw [Nat.mul_comm]; omega)
    have hb : off / page < b := Nat.div_lt_of_lt_mul (by omega)
    have hfrom : page * a ≤ off - inPage := hdiv ▸ Nat.mul_le_mul_left page ha
    have hto : off - inPage + page ≤ page * b := by
      rw [hdiv, ← Nat.mul_succ]
      exact Nat.mul_le_mul_left page hb
    refine emits_bind (hrd _ _ hfrom hto) fun r => emits_ite (fun _ => emits_ret _) fun _ => ?_
    exact ih r.2 (by omega) (by omega)

/-- What is done with the answers `ursus_read_exact` can give: all bytes, or an error. -/
theorem readExact_bind_congr {α : Type} {f g : ℤ × List UInt8 → FlashProg α} {off len : ℕ}
    (h : ∀ ret bs, ret = 0 ∧ bs.length = len ∨ ret = -eio → f (ret, bs) = g (ret, bs)) :
    (readExact off len).bind f = (readExact off len).bind g := by
  refine congrArg (Prog.cmd (Cmd.nandRead off len)) (funext fun r => ?_)
  refine h _ _ ?_
  by_cases hread : (if r.1 = -euclean then 0 else r.1) = 0 ∧ r.2.length = len
  · exact .inl ⟨if_pos hread, hread.2⟩
  · exact .inr (if_neg hread)

end Range

namespace StockBoot

open Prog

variable {mtd : NandGeometry}

theorem readExact_flash (mtd : NandGeometry) : ReadsFlash (readExact mtd) := by
  intro off len w
  exact spec_ite (fun _ => ⟨rfl, fun h => absurd h (by simp)⟩) fun _ =>
    UrsusBoot.readExact_flash off len w

theorem readRange_ok (off len : ℕ) (w : World) :
    Ensures
      (fun r w' => w' = w ∧ (r.1 = 0 → r.2 = w.nand.slice off len)) (readRange mtd off len) w := by
  refine spec_next (Cmd.malloc _) fun o _ => ⟨trivial, ?_⟩
  refine spec_ite (fun _ => ⟨rfl, fun h => absurd h (by simp)⟩) fun _ => ?_
  exact rangeLoop_ok (readExact_flash mtd) (page mtd) off len [] w

/-- Every raw read lies in `[lo, hi)`. -/
def ReadsInside (lo hi : ℕ) (e : FlashEvent) : Prop :=
  ∀ off len, e.cmd = .nandRead off len → lo ≤ off ∧ off + len ≤ hi

theorem readExact_inside {lo hi off len : ℕ} (hoff : lo ≤ off) (hend : off + len ≤ hi) :
    Emits exec (ReadsInside lo hi) (readExact mtd off len) := by
  refine emits_ite (fun _ => emits_ret _) fun _ => emits_next (fun o w a n h => ?_) fun _ =>
    emits_ret _
  cases h
  exact ⟨hoff, hend⟩

theorem readRange_inside {lo hi off len : ℕ} (hlo : page mtd ∣ lo) (hhi : page mtd ∣ hi)
    (hoff : lo ≤ off) (hend : off + len ≤ hi) :
    Emits exec (ReadsInside lo hi) (readRange mtd off len) := by
  refine emits_next (fun o w a n h => nomatch h) fun _ => emits_ite (fun _ => emits_ret _)
    fun _ => rangeLoop_inside hlo hhi (fun _ _ => readExact_inside) off len [] hoff hend

/-! ## What an inspection finds -/

/-- What the flash holds when the inspection of a slot at `base` succeeds with `r`. -/
structure Found (m : Mem UInt8) (base : ℕ) (r : Slot) : Prop where
  same : r.base = base
  nt : slotWalk (m.slice base fipTocRead) = some (r.ntOff, r.ntSize)
  big : hdr2Size < r.ntSize
  range : (base + r.ntOff + r.ntSize) % 2 ^ 64 ≤ (base + slotSize) % 2 ^ 64
  phys : r.fitPhys = (base + r.ntOff + hdr2Size) % 2 ^ 64
  size : r.fitSize ≤ r.ntSize - hdr2Size

theorem inspectFit_found (slot : Slot) (hdrpage : List UInt8) (w : World) :
    Ensures
      (fun r _ => r.1 = 0 → r.2.base = slot.base ∧ r.2.ntOff = slot.ntOff ∧
        r.2.ntSize = slot.ntSize ∧ r.2.fitPhys = (slot.base + slot.ntOff + hdr2Size) % 2 ^ 64 ∧
        r.2.fitSize ≤ slot.ntSize - hdr2Size) (inspectFit mtd slot hdrpage) w := by
  unfold inspectFit
  refine spec_ite (fun _ h => absurd h (by simp)) fun _ => ?_
  refine spec_ite (fun _ h => absurd h (by simp)) fun _ => ?_
  refine spec_ite (fun _ h => absurd h (by simp)) fun hsize => ?_
  refine (yields_true (countBadBlocks mtd _ _) w).bind fun bad w' _ _ => ?_
  dsimp only at hsize ⊢
  exact ⟨rfl, rfl, rfl, rfl, by omega⟩

theorem inspectNt_found (slot : Slot) (w : World) :
    Ensures
      (fun r _ => r.1 = 0 → slot.ntOff ≠ 0 ∧ hdr2Size < slot.ntSize ∧
        (slot.base + slot.ntOff + slot.ntSize) % 2 ^ 64 ≤ (slot.base + slotSize) % 2 ^ 64 ∧
        r.2.base = slot.base ∧ r.2.ntOff = slot.ntOff ∧ r.2.ntSize = slot.ntSize ∧
        r.2.fitPhys = (slot.base + slot.ntOff + hdr2Size) % 2 ^ 64 ∧
        r.2.fitSize ≤ slot.ntSize - hdr2Size) (inspectNt mtd slot) w := by
  unfold inspectNt
  refine spec_ite (fun _ h => absurd h (by simp)) fun hnt => ?_
  refine spec_ite (fun _ h => absurd h (by simp)) fun hrange => ?_
  refine (yields_true (readRange mtd _ _) w).bind fun p w' _ => ?_
  refine spec_ite (fun _ h => absurd h (by simp)) fun _ => ?_
  refine (inspectFit_found slot p.2 w').mono fun r _ hr h => ?_
  exact ⟨by omega, by omega, by omega, hr h⟩

/-- **What a successful inspection has found.** -/
theorem inspectSlot_found (base : ℕ) (w : World) :
    Ensures (fun r _ => r.1 = 0 → Found w.nand base r.2)
      (inspectSlot mtd { base := base }) w := by
  unfold inspectSlot
  refine spec_ite (fun _ h => absurd h (by simp)) fun _ => ?_
  refine spec_next (Cmd.malloc _) fun o _ => ⟨trivial, ?_⟩
  refine spec_ite (fun _ h => absurd h (by simp)) fun _ => ?_
  refine (readRange_ok base fipTocRead w).bind fun p w' hp => ?_
  refine spec_ite (fun _ h => absurd h (by simp)) fun hret => ?_
  refine spec_ite (fun _ h => absurd h (by simp)) fun _ => ?_
  have htoc : p.2 = w.nand.slice base fipTocRead := hp.2 (not_not.1 hret)
  rw [htoc]
  generalize hwalk : slotWalk (w.nand.slice base fipTocRead) = nt
  refine (inspectNt_found (Slot.withNt { base := base } nt) w').mono fun r _ hr h => ?_
  obtain ⟨hoff, hbig, hrange, hbase, hro, hrs, hphys, hsize⟩ := hr h
  cases nt with
  | none => exact absurd rfl hoff
  | some nt =>
    refine ⟨hbase, ?_, hrs ▸ hbig, ?_, ?_, hrs ▸ hsize⟩
    · rw [hro, hrs]
      exact hwalk
    · rw [hro, hrs]
      exact hrange
    · rw [hro]
      exact hphys

end StockBoot

end UrsusBoot
