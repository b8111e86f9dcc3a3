import UrsusBoot.Safety.FipContainer
import UrsusBoot.Tools.Python

/-!
# The install image

`make-install-mtd0.py` puts a FIP into a template of the first 512 KiB of NAND, up to the stock
environment. On a board with that image the STOCK_BACKUP stage of the updater checks the FIP again,
over all of the space it may take.
-/

namespace UrsusBoot

/-- `make-install-mtd0.py`. -/
def makeInstallMtd0 (template fip : List UInt8) (fipOffset : ℕ := 0x800) (envOffset : ℕ := 0x7c000) :
    Except Raise (List UInt8) := do
  raiseIf (template.length ≠ 0x80000) (.systemExit "template must be exactly 512 KiB")
  raiseIf (envOffset < fipOffset + fip.length) (.systemExit "FIP overlaps preserved stock env area")
  raiseIf (fip.take 4 ≠ [0x01, 0x00, 0x64, 0xaa]) (.systemExit "FIP magic mismatch")
  return Overlay.setSlice template fipOffset (fipOffset + fip.length) fip

theorem makeInstallMtd0_ok {t f image : List UInt8} : makeInstallMtd0 t f = .ok image ↔
    t.length = 0x80000 ∧ f.length ≤ fipMax ∧ f.take 4 = [0x01, 0x00, 0x64, 0xaa] ∧
      image = t.take 0x800 ++ f ++ t.drop (0x800 + f.length) := by
  have hroom : ¬ 0x7c000 < 0x800 + f.length ↔ f.length ≤ fipMax := by
    change _ ↔ f.length ≤ 0x7b800
    omega
  simp only [makeInstallMtd0, bind_ok, raiseIf_ok, not_not, hroom,
    Overlay.setSlice_of_length rfl, Overlay.write_eq]
  constructor
  · rintro ⟨-, hlen, -, hfits, -, hmagic, himage⟩
    exact ⟨hlen, hfits, hmagic, (Except.ok.inj himage).symm⟩
  · rintro ⟨hlen, hfits, hmagic, rfl⟩
    exact ⟨(), hlen, (), hfits, (), hmagic, rfl⟩

/-- The image is the template with the FIP at `0x800`. -/
structure Carries (t f image : List UInt8) : Prop where
  length : image.length = t.length
  front : image.take 0x800 = t.take 0x800
  fip : bytesAt image 0x800 f.length = f
  back : image.drop (0x800 + f.length) = t.drop (0x800 + f.length)

open Prog FipUpdate

section Board

variable {P : Platform} {t f image : List UInt8}

theorem carries_of_makeInstallMtd0 (h : makeInstallMtd0 t f = .ok image) : Carries t f image := by
  obtain ⟨hlen, hfits, -, rfl⟩ := makeInstallMtd0_ok.1 h
  have hfits : f.length ≤ 0x7b800 := hfits
  have hfront : (t.take 0x800).length = 0x800 := by rw [List.length_take]; omega
  have hboth : (t.take 0x800 ++ f).length = 0x800 + f.length := by rw [List.length_append, hfront]
  refine ⟨?_, ?_, ?_, List.drop_left' hboth⟩
  · rw [List.length_append, hboth, List.length_drop]
    omega
  · rw [List.append_assoc, List.take_left' hfront]
  · rw [bytesAt, List.append_assoc, List.drop_left' hfront, List.take_left]

theorem Carries.window (h : Carries t f image) (hfits : f.length ≤ fipMax) :
    ∃ rest, bytesAt image stockFipOff fipMax = f ++ rest := by
  refine ⟨bytesAt image (0x800 + f.length) (fipMax - f.length), ?_⟩
  have hsplit : bytesAt image 0x800 (f.length + (fipMax - f.length)) =
      bytesAt image 0x800 f.length ++ bytesAt image (0x800 + f.length) (fipMax - f.length) := by
    rw [bytesAt, bytesAt, bytesAt, List.take_add, List.drop_drop]
  rw [h.fip, Nat.add_sub_cancel' hfits] at hsplit
  exact hsplit

theorem Unpacks.append {raw : List UInt8} {toc : FipToc} (h : Unpacks P f toc raw)
    (rest : List UInt8) : Unpacks P (f ++ rest) toc raw := by
  refine ⟨fipParse_append h.parse rest, h.size, h.inside, ?_, ?_⟩
  · rw [List.length_append]
    exact h.high.trans (Nat.le_add_right _ _)
  have hend := (fipParse_inside h.parse).1
  rw [bytesAt_congr (n := f.length) (List.take_append_of_le_length le_rfl) hend]
  exact h.raw

theorem Carries.unpacks (h : Carries t f image) (hfits : f.length ≤ fipMax)
    (hf : fipAccepts P .ursus f = true) : ∃ toc raw,
      Unpacks P (bytesAt image stockFipOff fipMax) toc raw ∧ toc.declaredEnd = f.length ∧
        ursusIdentity raw = true := by
  obtain ⟨rest, hrest⟩ := h.window hfits
  obtain ⟨raw, hraw, hid⟩ := fipAccepts_ursus hf
  obtain ⟨toc, hu, hend, -⟩ := exists_unpacks hraw
  exact ⟨toc, raw, hrest ▸ hu.append rest, hend, hid⟩

structure HoldsImage (image : List UInt8) (w : World) : Prop where
  nand : w.nand.slice 0 stockBootSize = image
  good : ∀ b < stockBootSize, w.badBlock b = false

variable {w : World}

theorem badScan_fine {offs : List ℕ} (h : ∀ b ∈ offs, w.badBlock b = false) :
    Spec exec Fine (fun _ => True) (fun ret w' => ret = 0 ∧ w' = w) (badScan offs) w := by
  induction offs with
  | nil => exact ⟨rfl, rfl⟩
  | cons off offs ih =>
    have hgood : exec (.blockIsBad off) .ok w = (0, w) := by
      simp [exec, Outcome.ok, h off List.mem_cons_self]
    exact spec_fine hgood (ih fun b hb => h b (List.mem_cons_of_mem _ hb))

/-- The stage has accepted a current FIP that ends at `oldEnd`, or refused it for its end. -/
def JudgedBy (oldEnd : ℕ) (c : Ctx) : Prop :=
  (oldEnd < fipMax → c.stage = .stockErase) ∧ (fipMax ≤ oldEnd → c.stage = .failed)

theorem readExact_fine (off len : ℕ) (w : World) :
    Spec exec Fine (fun _ => True) (fun r w' => r = (0, w.nand.slice off len) ∧ w' = w)
      (readExact off len) w := by
  have hread : exec (.nandRead off len) .ok w = ((0, w.nand.slice off len), w) := rfl
  refine spec_fine hread ⟨?_, rfl⟩
  simp

/-- **STOCK_BACKUP on a board that holds the image**, as far as the FIP in it decides. -/
theorem stockBackup_fine {raw : List UInt8} {toc : FipToc} (c : Ctx) (hw : HoldsImage image w)
    (hu : Unpacks P (bytesAt image stockFipOff fipMax) toc raw) (hid : ursusIdentity raw = true) :
    Spec exec Fine (fun _ => True) (fun r _ => JudgedBy toc.declaredEnd r.2) (stockBackup P c) w := by
  have hblocks : ∀ b ∈ (List.range 4).map (fun k => 0 + k * 0x20000), w.badBlock b = false := by
    intro b hb
    obtain ⟨k, hk, rfl⟩ := List.mem_map.1 hb
    refine hw.good _ ?_
    have hk := List.mem_range.1 hk
    change 0 + k * 0x20000 < 0x80000
    omega
  apply (badScan_fine hblocks).bind
  rintro ret w₁ ⟨rfl, rfl⟩
  rw [if_neg (by decide)]
  apply spec_fine (c := .malloc stockBootSize) rfl
  apply spec_fine (c := .malloc stockBootSize) rfl
  rw [if_neg (by decide)]
  apply (readExact_fine 0 stockBootSize w₁).bind
  rintro old w₂ ⟨rfl, rfl⟩
  dsimp only
  rw [if_neg (by decide), hw.nand]
  apply (fipValidateCurrent_fine hu w₂).bind
  rintro cur w₃ ⟨rfl, rfl⟩
  rw [hid]
  refine spec_ite (fun hfull => ?_) fun hfree => ?_
  · exact ⟨fun h => absurd h (Nat.not_lt.2 hfull), fun _ => rfl⟩
  · apply spec_fine (c := .readMem c.addr c.len) rfl
    exact ⟨fun _ => rfl, fun h => absurd h hfree⟩

/-- **An install image differs from its template only in the FIP, and the check of the installed FIP
succeeds and finds the FIP's own end; so the board can be updated iff the FIP leaves a byte of the
space up to the environment free.** -/
theorem install_updates_iff (h : makeInstallMtd0 t f = .ok image)
    (hf : fipAccepts P .ursus f = true) :
    Carries t f image ∧
    (∀ w, (run exec (fipValidateCurrent P (bytesAt image stockFipOff fipMax)) (fun _ => .ok) w).val =
      .ok f.length) ∧
    ∀ c w, HoldsImage image w →
      ((run exec (stockBackup P c) (fun _ => .ok) w).val.2.stage = .stockErase ↔
        f.length ≠ 0x7b800) := by
  obtain ⟨-, hfits, -, -⟩ := makeInstallMtd0_ok.1 h
  have hcarries := carries_of_makeInstallMtd0 h
  obtain ⟨toc, raw, hu, hend, hid⟩ := hcarries.unpacks hfits hf
  refine ⟨hcarries, fun w => ?_, fun c w hw => ?_⟩
  · have hval := ((fipValidateCurrent_fine hu w).run_of (fun _ => .ok) fine_of_ok).2.1
    rw [hval, hid, hend]
    rfl
  · obtain ⟨hfree, hfull⟩ := ((stockBackup_fine c hw hu hid).run_of (fun _ => .ok) fine_of_ok).2
    have hmax : fipMax = 0x7b800 := rfl
    rw [hend] at hfree hfull
    refine ⟨fun hstage heq => ?_, fun hne => hfree (by omega)⟩
    rw [hfull (by omega)] at hstage
    cases hstage

end Board

/-! ## Two FIPs -/

def erasedTemplate : List UInt8 := List.replicate 0x80000 0xff

def erasedImage (f : List UInt8) : List UInt8 :=
  erasedTemplate.take 0x800 ++ f ++ erasedTemplate.drop (0x800 + f.length)

def installedWorld (f : List UInt8) : World :=
  { sampleWorld fun _ => none with nand := Mem.blit (fun _ => 0xff) 0 (erasedImage f) }

theorem makeInstallMtd0_erased {f : List UInt8} (hfits : f.length ≤ fipMax)
    (hmagic : f.take 4 = [0x01, 0x00, 0x64, 0xaa]) :
    makeInstallMtd0 erasedTemplate f = .ok (erasedImage f) ∧
      HoldsImage (erasedImage f) (installedWorld f) := by
  have hok : makeInstallMtd0 erasedTemplate f = .ok (erasedImage f) :=
    makeInstallMtd0_ok.2 ⟨List.length_replicate, hfits, hmagic, rfl⟩
  have hlen : (erasedImage f).length = stockBootSize :=
    (carries_of_makeInstallMtd0 hok).length.trans List.length_replicate
  have hslice : (Mem.blit (fun _ => 0xff) 0 (erasedImage f)).slice 0 stockBootSize = erasedImage f :=
    Mem.slice_blit_of_length _ _ hlen
  exact ⟨hok, hslice, fun _ _ => rfl⟩

theorem install_updates_small :
    makeInstallMtd0 erasedTemplate (sampleFip false) = .ok (erasedImage (sampleFip false)) ∧
    (run exec (stockBackup samplePlatform {}) (fun _ => .ok)
      (installedWorld (sampleFip false))).val.2.stage = .stockErase := by
  have hlen := length_sampleFip false
  obtain ⟨hok, hholds⟩ := makeInstallMtd0_erased (f := sampleFip false) (by rw [hlen]; decide)
    (by decide)
  refine ⟨hok, ((install_updates_iff hok (sampleFip_accepted false)).2.2 _ _ hholds).2 ?_⟩
  omega

/-- The entry of the sample BL33, and the terminator of a FIP that takes all of its space. -/
def fullEntry : FipRecord := ⟨⟨ntFwUuid, 0x400, 150⟩, 0⟩
def fullEnd : FipRecord := ⟨⟨List.replicate 16 0, 0x7b800, 0⟩, 0⟩

def fullHeader : List UInt8 := leBytes 4 fipMagic ++ leBytes 4 fipSerial ++ leBytes 8 0

/-- A FIP that takes all of the space up to the environment. -/
def fullFip : List UInt8 :=
  fipHead fullHeader [fullEntry] fullEnd ++
    (List.replicate 928 0 ++ (sampleBl33Lzma ++ List.replicate 0x7b36a 0))

theorem fullEntry_writable : ∀ e ∈ [fullEntry], e.Writable := by
  intro e he
  rw [List.mem_singleton.1 he]
  exact ⟨by decide, by decide, by decide, by decide⟩

theorem fullEnd_writable : fullEnd.Writable := ⟨by decide, by decide, by decide, by decide⟩

theorem length_fullHead : (fipHead fullHeader [fullEntry] fullEnd).length = 96 := by
  rw [length_fipHead (by decide) fullEntry_writable fullEnd_writable]
  rfl

theorem length_fullFip : fullFip.length = 0x7b800 := by
  simp only [fullFip, List.length_append, List.length_replicate, length_fullHead,
    length_sampleBl33Lzma]

theorem fipParse_fullFip : fipParse fullFip = .ok ⟨0x400, 150, 0x7b800⟩ := by
  have hlen := length_fullFip
  have htable : IsTable fullFip [fullEntry] fullEnd :=
    isTable_fipHead (by decide) fullEntry_writable fullEnd_writable (by decide) (by decide) _
  refine fipParse_ok_iff.2 ⟨by omega, by decide, _, htable.fipTable (by decide),
    ⟨rfl, by decide, hlen.ge, ?_⟩, rfl, rfl⟩
  intro e he
  rw [List.mem_singleton.1 he, hlen]
  exact ⟨by decide, by decide, by decide⟩

theorem fullFip_accepted : fipAccepts samplePlatform .ursus fullFip = true := by
  have hlen := length_fullFip
  have hnt : bytesAt fullFip 0x400 150 = sampleBl33Lzma := by
    have hfront : (fipHead fullHeader [fullEntry] fullEnd ++ List.replicate 928 0).length = 0x400 := by
      rw [List.length_append, length_fullHead, List.length_replicate]
    rw [fullFip, ← List.append_assoc, bytesAt, List.drop_left' hfront]
    exact List.take_left' length_sampleBl33Lzma
  have hraw : ntRaw samplePlatform (bytesAt fullFip 0x400 150) = .ok sampleBl33 := by
    rw [hnt]
    exact ntRaw_ok (by decide) (by decide) (by decide) lzma_sampleBl33Lzma length_sampleBl33
  have hmax : fullFip.length ≤ ubiFipVolSize := by
    rw [hlen]
    decide
  exact fipAccepts_of_ursusIdentity (bl33_ok (by omega) hmax fipParse_fullFip hlen.symm (by decide)
    (by rw [hlen]; decide) hraw) (by decide)

/-- The script installs the FIP, and the updater then refuses it for its length. -/
theorem install_full_refused : fipAccepts samplePlatform .ursus fullFip = true ∧
    makeInstallMtd0 erasedTemplate fullFip = .ok (erasedImage fullFip) ∧
    HoldsImage (erasedImage fullFip) (installedWorld fullFip) ∧
    (run exec (stockBackup samplePlatform {}) (fun _ => .ok) (installedWorld fullFip)).val.2.stage =
      .failed := by
  have hlen : fullFip.length = fipMax := length_fullFip
  obtain ⟨hok, hholds⟩ := makeInstallMtd0_erased hlen.le (by decide)
  refine ⟨fullFip_accepted, hok, hholds, ?_⟩
  obtain ⟨toc, raw, hu, hend, hid⟩ := (carries_of_makeInstallMtd0 hok).unpacks hlen.le fullFip_accepted
  refine ((stockBackup_fine _ hholds hu hid).run_of (fun _ => .ok) fine_of_ok).2.2 ?_
  rw [hend, hlen]

end UrsusBoot
