import UrsusBoot.Engine.StockBoot
import UrsusBoot.Safety.FipProgress

/-!
# Range reads and their destination

`ursus_read_range` and `read_range` store what they read behind a pointer that moves along with the
offset. `rangeInto` is their loop with that pointer and the memory it points into; it takes no
precautions against a page size for which it would not end.
-/

namespace UrsusBoot

/-- The loop of the range readers, at most `fuel` rounds of it; `none` when it has not ended. -/
def rangeInto (rd : ℕ → ℕ → FlashProg (ℤ × List UInt8)) (page : ℕ) :
    ℕ → ℕ → ℕ → ℕ → Mem UInt8 → FlashProg (Option ℤ × Mem UInt8)
  | 0, _, _, _, m => return (none, m)
  | fuel + 1, off, len, dst, m =>
    if len = 0 then return (some 0, m)
    else if off % page = 0 ∧ page ≤ len then do
      let direct := len - len % page
      let direct := if readChunk < direct then readChunk - readChunk % page else direct
      let (ret, bs) ← rd off direct
      if ret ≠ 0 then return (some (-eio), m.blit dst bs)
      rangeInto rd page fuel (off + direct) (len - direct) (dst + direct) (m.blit dst bs)
    else do
      let inPage := off % page
      let (ret, scratch) ← rd (off - inPage) page
      if ret ≠ 0 then return (some (-eio), m)
      let take := min len (page - inPage)
      rangeInto rd page fuel (off + take) (len - take) (dst + take)
        (m.blit dst (bytesAt scratch inPage take))

/-- `ursus_read_range` into the memory at `dst`. -/
def readRangeInto (mtd : NandGeometry) (fuel off len dst : ℕ) (m : Mem UInt8) :
    FlashProg (Option ℤ × Mem UInt8) := do
  if !(← malloc (StockBoot.page mtd)) then return (some (-enomem), m)
  rangeInto readExact (StockBoot.page mtd) fuel off len dst m

/-- `read_range` into the memory at `dst`. -/
def StockBoot.readRangeInto (mtd : NandGeometry) (fuel off len dst : ℕ) (m : Mem UInt8) :
    FlashProg (Option ℤ × Mem UInt8) := do
  if !(← malloc (page mtd)) then return (some (-enomem), m)
  rangeInto (readExact mtd) (page mtd) fuel off len dst m

/-! ## The loop -/

open Prog

/-- A reader that gives all bytes or fails, and never more than it is asked for. -/
structure WholeReads (rd : ℕ → ℕ → FlashProg (ℤ × List UInt8)) : Prop where
  flash : ReadsFlash rd
  congr : ∀ {α : Type} {f g : ℤ × List UInt8 → FlashProg α} {off len : ℕ},
    (∀ ret bs, ret = 0 ∧ bs.length = len ∨ ret = -eio → f (ret, bs) = g (ret, bs)) →
      (rd off len).bind f = (rd off len).bind g
  short : ∀ off len, Yields exec (fun _ => True) (fun r => r.2.length ≤ len) (rd off len)

theorem wholeReads_readExact : WholeReads readExact := by
  refine ⟨readExact_flash, readExact_bind_congr, fun off len => ?_⟩
  refine yields_bind (yields_perform (c := Cmd.nandRead off len)
    (Q := fun r => r.2.length ≤ len) fun o w _ => ?_) fun r hr => yields_ret hr
  simp only [exec, World.nandRead]
  split
  · exact (Mem.length_slice _ _ _).le
  · split_ifs
    · exact (Mem.length_slice _ _ _).le
    · exact List.length_take_le _ _

theorem StockBoot.wholeReads_readExact (mtd : NandGeometry) : WholeReads (readExact mtd) := by
  refine ⟨StockBoot.readExact_flash mtd, fun {α f g off len} h => ?_, fun off len => ?_⟩
  · unfold StockBoot.readExact
    split_ifs
    · exact h _ _ (.inr rfl)
    · exact readExact_bind_congr h
  · exact yields_exit (Nat.zero_le _) fun _ =>
      UrsusBoot.wholeReads_readExact.short off len

section Loop

variable {rd : ℕ → ℕ → FlashProg (ℤ × List UInt8)} {page : ℕ}

/-- **The loop ends, and stores what `rangeLoop` collects.** -/
theorem rangeInto_eq (hrd : WholeReads rd) (hpos : 0 < page) (hmax : page ≤ readChunk)
    (off len : ℕ) (acc : List UInt8) {fuel : ℕ} (hfuel : len < fuel) (a : ℕ) (m : Mem UInt8) :
    rangeInto rd page fuel off len (a + acc.length) (m.blit a acc) =
      (rangeLoop rd page off len acc).bind fun r => .ret (some r.1, m.blit a r.2) := by
  obtain ⟨fuel, rfl⟩ := Nat.exists_eq_succ_of_ne_zero (Nat.ne_zero_of_lt hfuel)
  fun_induction rangeLoop rd page off len acc generalizing fuel with
  | case1 off acc => rfl
  | case2 off len acc hlen hpage => omega
  | case3 off len acc hlen hpage hin direct direct' ih =>
    -- each round reads at least a byte, so the fuel lasts
    have hdirect : 0 < direct' := by
      have h1 := Nat.mod_lt len hpos
      have h2 := Nat.mod_lt readChunk hpos
      simp only [direct', direct]
      split_ifs <;> omega
    rw [rangeInto, if_neg hlen, if_pos hin]
    refine (hrd.congr fun ret bs h => ?_).trans (Prog.bind_bind _ _ _).symm
    obtain ⟨rfl, hbs⟩ | rfl := h
    · obtain ⟨fuel, rfl⟩ := Nat.exists_eq_succ_of_ne_zero (by omega : fuel ≠ 0)
      have hnext := ih bs fuel (by omega)
      rw [List.length_append, hbs, ← Nat.add_assoc, Mem.blit_append] at hnext
      exact hnext
    · exact congrArg (fun m => Prog.ret (some (-eio), m)) (Mem.blit_append m a acc bs).symm
  | case4 off len acc hlen hpage hin inPage ih =>
    have hlt : inPage < page := Nat.mod_lt _ hpos
    rw [rangeInto, if_neg hlen, if_neg hin]
    refine (hrd.congr fun ret bs h => ?_).trans (Prog.bind_bind _ _ _).symm
    obtain ⟨rfl, hbs⟩ | rfl := h
    · obtain ⟨fuel, rfl⟩ := Nat.exists_eq_succ_of_ne_zero (by omega : fuel ≠ 0)
      have htake : (bytesAt bs inPage (min len (page - inPage))).length =
          min len (page - inPage) := by
        rw [bytesAt, List.length_take, List.length_drop]
        omega
      have hnext := ih bs fuel (by omega)
      rw [List.length_append, htake, ← Nat.add_assoc, Mem.blit_append] at hnext
      exact hnext
    · rfl

theorem rangeLoop_length (hrd : WholeReads rd) (off len : ℕ) (acc : List UInt8) :
    Gives (fun r => r.2.length ≤ acc.length + len)
      (rangeLoop rd page off len acc) := by
  fun_induction rangeLoop rd page off len acc with
  | case1 off acc => exact yields_ret (by simp)
  | case2 off len acc => exact yields_ret (by simp)
  | case3 off len acc hlen hpage hin direct direct' ih =>
    have hle : direct' ≤ len := by
      simp only [direct', direct]
      split_ifs <;> omega
    refine yields_bind (hrd.short _ _) fun r hr => ?_
    have hlen : (acc ++ r.2).length = acc.length + r.2.length := List.length_append
    exact yields_exit (by dsimp only; omega) fun _ =>
      (ih r.2).mono fun r' hr' => by omega
  | case4 off len acc hlen hpage hin inPage ih =>
    refine yields_bind (hrd.short _ _) fun r hr => ?_
    refine yields_exit (by simp) fun _ => (ih r.2).mono fun r' hr' => ?_
    have hpart : (bytesAt r.2 inPage (min len (page - inPage))).length ≤ min len (page - inPage) :=
      List.length_take_le _ _
    rw [List.length_append] at hr'
    omega

theorem rangeLoop_aligned {G : FlashEvent → Prop}
    (hrd : ∀ off len, page ∣ off → page ∣ len → Emits exec G (rd off len)) (off len : ℕ)
    (acc : List UInt8) : Emits exec G (rangeLoop rd page off len acc) := by
  fun_induction rangeLoop rd page off len acc with
  | case1 => exact emits_ret _
  | case2 => exact emits_ret _
  | case3 off len acc hlen hpage hin direct direct' ih =>
    have hdirect : page ∣ direct' := by
      simp only [direct', direct]
      split_ifs
      · exact Nat.dvd_sub_mod _
      · exact Nat.dvd_sub_mod _
    exact emits_bind (hrd _ _ (Nat.dvd_of_mod_eq_zero hin.1) hdirect) fun r =>
      emits_ite (fun _ => emits_ret _) fun _ => ih r.2
  | case4 off len acc hlen hpage hin inPage ih =>
    exact emits_bind (hrd _ _ (Nat.dvd_sub_mod _) (Nat.dvd_refl _)) fun r =>
      emits_ite (fun _ => emits_ret _) fun _ => ih r.2

end Loop

/-! ## The readers -/

/-- Every raw read begins at a page and covers whole pages. -/
def ReadsPages (page : ℕ) (e : FlashEvent) : Prop :=
  ∀ off len, e.cmd = .nandRead off len → page ∣ off ∧ page ∣ len

/-- A range read into the memory `m` at `dst`. -/
structure RangeRead (page off len dst : ℕ) (m : Mem UInt8) (w : World)
    (r : Result Cmd Outcome World (Option ℤ × Mem UInt8)) : Prop where
  ends : r.val.1.isSome
  aligned : ∀ e ∈ r.trace, ReadsPages page e
  inside : ∀ x, x < dst ∨ dst + len ≤ x → r.val.2 x = m x
  exact : r.val.1 = some 0 → r.val.2.slice dst len = w.nand.slice off len

theorem readsPages_readExact {page off len : ℕ} (hoff : page ∣ off) (hlen : page ∣ len) :
    Emits exec (ReadsPages page) (readExact off len) := by
  refine emits_next (fun o w a n h => ?_) fun _ => emits_ret _
  cases h
  exact ⟨hoff, hlen⟩

theorem rangeRead_of_rangeInto {rd : ℕ → ℕ → FlashProg (ℤ × List UInt8)} (hrd : WholeReads rd)
    {page : ℕ} (hpos : 0 < page) (hmax : page ≤ readChunk)
    (hpages : ∀ off len, page ∣ off → page ∣ len → Emits exec (ReadsPages page) (rd off len))
    (off len dst : ℕ) {fuel : ℕ} (hfuel : len < fuel) (m : Mem UInt8) (os : ℕ → Outcome) (w : World) :
    RangeRead page off len dst m w (run exec (do
      if !(← malloc page) then return (some (-enomem), m)
      rangeInto rd page fuel off len dst m) os w) := by
  have hstore := rangeInto_eq hrd hpos hmax off len [] hfuel dst m
  rw [Mem.blit_nil, List.length_nil, Nat.add_zero] at hstore
  have hloop := ((rangeLoop_ok hrd.flash page off len [] w).and
    (rangeLoop_length hrd off len [] w)).and (rangeLoop_aligned hpages off len [] w)
  have hspec : Spec exec (fun _ => True) (ReadsPages page)
      (fun (r : Option ℤ × Mem UInt8) _ => r.1.isSome ∧ (∀ x, x < dst ∨ dst + len ≤ x → r.2 x = m x) ∧
        (r.1 = some 0 → r.2.slice dst len = w.nand.slice off len))
      (do if !(← malloc page) then return (some (-enomem), m)
          rangeInto rd page fuel off len dst m) w := by
    refine spec_next (Cmd.malloc page) fun o _ => ⟨(fun _ _ h => nomatch h), ?_⟩
    refine spec_ite (fun _ => ⟨rfl, fun _ _ => rfl, fun h => nomatch h⟩) fun _ => ?_
    rw [hstore]
    refine (hloop.weaken (fun _ h => h) fun _ _ h => h.2).bind fun r w' hr => ?_
    obtain ⟨⟨⟨-, hread⟩, hlen⟩, -⟩ := hr
    refine ⟨rfl, fun x hx => ?_, fun h => ?_⟩
    · rw [List.length_nil] at hlen
      rcases hx with hx | hx
      · exact Mem.blit_apply_of_lt _ _ hx
      · exact Mem.blit_apply_of_ge _ (by omega)
    · have hbytes : r.2 = w.nand.slice off len := hread (Option.some.inj h)
      have hslice : (m.blit dst r.2).slice dst len = r.2 :=
        Mem.slice_blit_of_length _ _ (by rw [hbytes, Mem.length_slice])
      exact hslice.trans hbytes
  obtain ⟨htrace, hends, hinside, hexact⟩ := hspec.run_of os fun _ _ => trivial
  exact ⟨hends, htrace, hinside, hexact⟩

/-- **Both range readers end, read whole pages, store only into the destination, and on success have
stored exactly the range of the device.** -/
theorem range_reads_exact (mtd : NandGeometry)
    (hpage : 1 ≤ mtd.writesize ∧ mtd.writesize ≤ readChunk) (off len dst fuel : ℕ)
    (hfuel : len < fuel) (m : Mem UInt8) (os : ℕ → Outcome) (w : World) :
    RangeRead mtd.writesize off len dst m w (run exec (readRangeInto mtd fuel off len dst m) os w) ∧
      RangeRead mtd.writesize off len dst m w
        (run exec (StockBoot.readRangeInto mtd fuel off len dst m) os w) := by
  have hsize : StockBoot.page mtd = mtd.writesize := if_pos (by omega)
  rw [readRangeInto, StockBoot.readRangeInto, hsize]
  refine ⟨rangeRead_of_rangeInto wholeReads_readExact hpage.1 hpage.2
      (fun _ _ => readsPages_readExact) off len dst hfuel m os w,
    rangeRead_of_rangeInto (StockBoot.wholeReads_readExact mtd) hpage.1 hpage.2
      (fun _ _ hoff hlen => ?_) off len dst hfuel m os w⟩
  exact emits_ite (fun _ => emits_ret _) fun _ => readsPages_readExact hoff hlen

/-- Forty bytes across a page boundary. -/
theorem range_reads_exact_boundary :
    RangeRead 2048 2030 40 0 (fun _ => 0) (FipUpdate.sampleWorld fun _ => none)
      (run exec (readRangeInto .supported 41 2030 40 0 fun _ => 0) (fun _ => .ok)
        (FipUpdate.sampleWorld fun _ => none)) :=
  (range_reads_exact .supported (by decide) 2030 40 0 41 (by decide) _ _ _).1

end UrsusBoot
