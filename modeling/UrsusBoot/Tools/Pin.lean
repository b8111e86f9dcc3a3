import UrsusBoot.Tools.Python
import UrsusBoot.Web.Upload
import UrsusBoot.Safety.FipProgress

/-!
# Pinning a preloader

`pin_ubi_preloader.py` writes two digests into the sources: of a preloader, and of the BL2 image
built around it. The firmware accepts an uploaded preloader by these digests.
-/

namespace UrsusBoot

/-! ## The script -/

/-- `bl2_candidate`. -/
def bl2Candidate (preloader : List UInt8) : Except Raise (List UInt8) := do
  raiseIf (preloader.length = 0 ∨ ubiBl2Size - bl2PreloaderOff < preloader.length)
    (.systemExit s!"preloader size {preloader.length} does not fit the 128 KiB BL2 candidate")
  let img := List.replicate bl2PreloaderOff 0xff ++ preloader
  return img ++ List.replicate (ubiBl2Size - img.length) 0xff

def tbFwUuid : List UInt8 :=
  [0x5f, 0xf9, 0xec, 0x0b, 0x4d, 0x22, 0x3e, 0x4d, 0xa5, 0x44, 0xc3, 0x9d, 0x81, 0xc7, 0x3f, 0x0a]

def checkFip (preloader : List UInt8) : Except Raise Unit := do
  raiseIf (preloader.length < 16 ∨ leNat (bytesAt preloader 0 4) ≠ fipMagic)
    (.systemExit "preloader is not a FIP (UrsusBoot requires the FIP magic)")
  raiseIf (bytesAt preloader 16 16 ≠ tbFwUuid)
    (.systemExit "preloader FIP does not start with a TB_FW (BL2) entry")

structure Pinned where
  preloaderSha : String
  bl2Sha : String
  size : String

def pinnedValues (sha256 : List UInt8 → List UInt8) (preloader : List UInt8) :
    Except Raise Pinned := do
  let candidate ← bl2Candidate preloader
  return ⟨hexdigest (sha256 preloader), hexdigest (sha256 candidate), toString preloader.length⟩

/-- The digest arrays of the firmware hold the values. -/
structure Pinned.HeldBy (v : Pinned) (P : Platform) : Prop where
  preloader : hexdigest P.preloaderSha256 = v.preloaderSha
  bl2 : hexdigest P.bl2ImageSha256 = v.bl2Sha

theorem toList_hexdigest (bs : List UInt8) : (hexdigest bs).toList =
    bs.flatMap fun b => [Nat.digitChar (b.toNat / 16), Nat.digitChar (b.toNat % 16)] := by
  have hdigits : ∀ b : UInt8, (hexText (b.toNat / 16) ++ hexText (b.toNat % 16)).toList =
      [Nat.digitChar (b.toNat / 16), Nat.digitChar (b.toNat % 16)] := by
    intro b
    have hb := b.toNat_lt
    simp [hexText, Nat.toDigits_of_lt_base (by omega : b.toNat / 16 < 16),
      Nat.toDigits_of_lt_base (by omega : b.toNat % 16 < 16)]
  simp only [hexdigest, String.toList_join, List.flatMap_map, hdigits]

theorem hexdigest_injective : Function.Injective hexdigest := by
  have hdigit : ∀ m < 16, ∀ n < 16, Nat.digitChar m = Nat.digitChar n → m = n := by decide
  intro a b h
  have htext := congrArg String.toList h
  rw [toList_hexdigest, toList_hexdigest] at htext
  clear h
  induction a generalizing b with
  | nil =>
    cases b with
    | nil => rfl
    | cons y b => cases htext
  | cons x a ih =>
    cases b with
    | nil => cases htext
    | cons y b =>
      simp only [List.flatMap_cons, List.cons_append, List.nil_append, List.cons.injEq] at htext
      have hx := x.toNat_lt
      have hy := y.toNat_lt
      have hhigh := hdigit _ (by omega) _ (by omega) htext.1
      have hlow := hdigit _ (by omega) _ (by omega) htext.2.1
      rw [UInt8.toNat_inj.1 (by omega : x.toNat = y.toNat), ih htext.2.2]

/-! ## The firmware -/

/-- The buffer of `ursus_ubi_prepare_bl2_candidate`, and the reason of its structural check. -/
def bl2InPlace (src : List UInt8) : Except String (List UInt8) :=
  let dst := Overlay.write (List.replicate ubiBl2Size 0xff) bl2PreloaderOff src
  if (dst.take bl2PreloaderOff).any (· != 0xff) then .error "prefix"
  else if bytesAt dst bl2PreloaderOff src.length ≠ src then .error "preloader-copy"
  else if (dst.drop (bl2PreloaderOff + src.length)).any (· != 0xff) then .error "padding"
  else .ok dst

open Prog

section Firmware

variable {P : Platform} {p q : List UInt8} {w : World} {addr : ℕ} {c : Bl2Candidate}

theorem bl2Candidate_ok {img : List UInt8} : bl2Candidate p = .ok img ↔
    (p.length ≠ 0 ∧ p.length ≤ ubiBl2Size - bl2PreloaderOff) ∧ img = bl2Image p := by
  have hpad : ubiBl2Size - (List.replicate bl2PreloaderOff (0xff : UInt8) ++ p).length =
      ubiBl2Size - bl2PreloaderOff - p.length := by
    rw [List.length_append, List.length_replicate]
    omega
  simp only [bl2Candidate, bind_ok, raiseIf_ok, hpad, not_or, Nat.not_lt]
  constructor
  · rintro ⟨-, hsize, himg⟩
    exact ⟨hsize, (Except.ok.inj himg).symm⟩
  · rintro ⟨hsize, rfl⟩
    exact ⟨(), hsize, rfl⟩

theorem bl2InPlace_eq (p : List UInt8) : bl2InPlace p = .ok (bl2Image p) := by
  have hbuf : Overlay.write (List.replicate ubiBl2Size 0xff) bl2PreloaderOff p = bl2Image p := by
    rw [Overlay.write_eq, List.take_replicate, List.drop_replicate, bl2Image, Nat.sub_sub]
    rfl
  have hfront : (bl2Image p).take bl2PreloaderOff = List.replicate bl2PreloaderOff 0xff := by
    rw [bl2Image, List.append_assoc, List.take_left' List.length_replicate]
  have hcopy : bytesAt (bl2Image p) bl2PreloaderOff p.length = p := by
    rw [bytesAt, bl2Image, List.append_assoc, List.drop_left' List.length_replicate, List.take_left]
  have hback : (bl2Image p).drop (bl2PreloaderOff + p.length) =
      List.replicate (ubiBl2Size - bl2PreloaderOff - p.length) 0xff := by
    rw [bl2Image, List.drop_left' (by rw [List.length_append, List.length_replicate])]
  have herased : ∀ n, (List.replicate n (0xff : UInt8)).any (· != 0xff) = false := fun n => by simp
  simp only [bl2InPlace, hbuf, hfront, hcopy, hback, herased, Bool.false_eq_true, if_false, ne_eq,
    not_true_eq_false]

theorem preloaderStatus_accepts (hq : w.ram.slice addr q.length = q) :
    Ensures (fun r _ => r.1 = 0 → P.sha256 q = P.preloaderSha256)
      (preloaderStatus P c addr q.length) w := by
  have hval : Ensures
      (fun ret _ => ret = 0 → P.sha256 q = P.preloaderSha256) (validatePreloader P addr q.length) w := by
    refine spec_ite (fun _ h => absurd h (by decide)) fun _ => ?_
    refine spec_next (Cmd.readMem addr q.length) fun o _ => ⟨trivial, ?_⟩
    simp only [exec, hq]
    refine spec_ite (fun _ h => absurd h (by decide)) fun _ => ?_
    exact spec_ite (fun _ h => absurd h (by decide)) fun hsha _ => not_not.1 hsha
  refine hval.bind fun ret w' h => ?_
  refine spec_ite (fun hne hret => absurd hret hne) fun hret => ?_
  exact (yields_true _ w').mono fun _ _ _ _ => h (not_not.1 hret)

theorem preloaderStatus_fine (hq : w.ram.slice addr q.length = q)
    (hsize : q.length ≠ 0 ∧ q.length ≤ ubiBl2Size - bl2PreloaderOff) (hlong : 16 ≤ q.length)
    (hmagic : leNat (bytesAt q 0 4) = fipMagic) (hsha : P.sha256 q = P.preloaderSha256)
    (hbl2 : P.sha256 (bl2Image q) = P.bl2ImageSha256) :
    Spec exec Fine (fun _ => True) (fun r _ => r = (0, ⟨some (bl2Image q), true⟩))
      (preloaderStatus P c addr q.length) w := by
  have hread : exec (.readMem addr q.length) .ok w = (q, w) := by simp only [exec, hq]
  have hmax : ¬ (q.length = 0 ∨ ubiPreloaderMax < q.length) := by
    have hlimit : ubiBl2Size - bl2PreloaderOff ≤ ubiPreloaderMax := by decide
    omega
  have hval : Spec exec Fine (fun _ => True) (fun ret w' => ret = 0 ∧ w' = w)
      (validatePreloader P addr q.length) w := by
    unfold validatePreloader
    rw [if_neg hmax]
    apply spec_fine hread
    rw [if_neg (by omega), if_neg (not_not.2 hsha)]
    exact ⟨rfl, rfl⟩
  apply hval.bind
  rintro ret w' ⟨rfl, rfl⟩
  rw [if_neg (by decide)]
  unfold prepareBl2Candidate
  dsimp only
  rw [if_neg (by omega)]
  have hrest : Spec exec Fine (fun _ => True)
      (fun (r : ℤ × Bl2Candidate) _ => r = (0, ⟨some (bl2Image q), true⟩)) (do
        let src ← readMem addr q.length
        if P.sha256 (bl2Image src) ≠ P.bl2ImageSha256 then
          return (-ebadmsg, { c with ok := false, buf := some (bl2Image src) })
        return (0, { c with ok := true, buf := some (bl2Image src) })) w' := by
    apply spec_fine hread
    rw [if_neg (not_not.2 hbl2)]
    rfl
  cases hbuf : c.buf with
  | some buf => exact hrest
  | none => exact spec_fine (c := .malloc ubiBl2Size) rfl hrest

/-- **The pinned candidate is the buffer the firmware builds, and a firmware that holds the pinned
values accepts a preloader iff it is the pinned one.** -/
theorem pin_accepts_iff {v : Pinned} (hfip : checkFip p = .ok ())
    (hv : pinnedValues P.sha256 p = .ok v) (hheld : v.HeldBy P) :
    (∃ img, bl2Candidate p = .ok img ∧ bl2InPlace p = .ok img ∧
      ∀ w addr c, w.ram.slice addr p.length = p →
        (run exec (preloaderStatus P c addr p.length) (fun _ => .ok) w).val.2.buf = some img) ∧
    ∀ q w addr c, (P.sha256 q = P.sha256 p → q = p) → w.ram.slice addr q.length = q →
      ((run exec (preloaderStatus P c addr q.length) (fun _ => .ok) w).val.1 = 0 ↔ q = p) ∧
      ∀ os, (run exec (preloaderStatus P c addr q.length) os w).val.1 = 0 → q = p := by
  obtain ⟨u, hhead, -⟩ := bind_ok.1 hfip
  obtain ⟨img, himg, hval⟩ := bind_ok.1 hv
  obtain ⟨hsize, rfl⟩ := bl2Candidate_ok.1 himg
  obtain rfl := Except.ok.inj hval
  have hsha : P.sha256 p = P.preloaderSha256 := (hexdigest_injective hheld.preloader).symm
  have hbl2 : P.sha256 (bl2Image p) = P.bl2ImageSha256 := (hexdigest_injective hheld.bl2).symm
  have hmagic := not_or.1 (raiseIf_ok.1 hhead)
  have hpinned : ∀ w addr c, w.ram.slice addr p.length = p →
      (run exec (preloaderStatus P c addr p.length) (fun _ => .ok) w).val =
        (0, ⟨some (bl2Image p), true⟩) := fun w addr c hp =>
    ((preloaderStatus_fine hp hsize (Nat.not_lt.1 hmagic.1) (not_not.1 hmagic.2) hsha hbl2).run_of
      (fun _ => .ok) fine_of_ok).2
  refine ⟨⟨_, himg, bl2InPlace_eq p, fun w addr c hp => by rw [hpinned w addr c hp]⟩,
    fun q w addr c hinj hq => ?_⟩
  have haccepted : ∀ os, (run exec (preloaderStatus P c addr q.length) os w).val.1 = 0 → q = p :=
    fun os h => hinj ((((preloaderStatus_accepts hq).run_of os fun _ _ => trivial).2 h).trans hsha.symm)
  refine ⟨⟨haccepted _, ?_⟩, haccepted⟩
  rintro rfl
  rw [hpinned w addr c hq]

end Firmware

/-! ## A preloader -/

def samplePreloader : List UInt8 := [0x01, 0x00, 0x64, 0xaa] ++ List.replicate 12 0 ++ tbFwUuid

def samplePreloaderSha : List UInt8 :=
  [8, 24, 5, 106, 52, 165, 16, 7, 31, 111, 125, 87, 91, 143, 55, 149, 52, 111, 41, 39, 100,
   38, 188, 103, 72, 46, 184, 131, 165, 218, 183, 220]
def sampleBl2Sha : List UInt8 :=
  [249, 213, 19, 208, 217, 67, 12, 180, 67, 162, 94, 13, 42, 14, 75, 48, 20, 11, 118, 191,
   107, 1, 186, 95, 14, 94, 113, 238, 166, 54, 42, 134]

def pinnedSha (bs : List UInt8) : List UInt8 :=
  if bs = samplePreloader then samplePreloaderSha
  else if bs = bl2Image samplePreloader then sampleBl2Sha
  else []

def pinnedPlatform : Platform :=
  { FipUpdate.samplePlatform with
    sha256 := pinnedSha
    preloaderSha256 := samplePreloaderSha
    bl2ImageSha256 := sampleBl2Sha }

def pinWorld : World :=
  { FipUpdate.sampleWorld fun _ => none with ram := Mem.blit (fun _ => 0) 0 samplePreloader }

theorem pin_accepts_sample :
    (run exec (preloaderStatus pinnedPlatform {} 0 samplePreloader.length) (fun _ => .ok) pinWorld).val.1 =
      0 := by
  have hshort : samplePreloader.length = 32 := by decide
  have hne : bl2Image samplePreloader ≠ samplePreloader := by
    intro h
    have hlen := congrArg List.length h
    rw [bl2Image, List.length_append, List.length_append, List.length_replicate, List.length_replicate,
      hshort] at hlen
    exact absurd hlen (by decide)
  have hsha : pinnedSha samplePreloader = samplePreloaderSha := by rw [pinnedSha, if_pos rfl]
  have hbl2 : pinnedSha (bl2Image samplePreloader) = sampleBl2Sha := by
    rw [pinnedSha, if_neg hne, if_pos rfl]
  have hcandidate : bl2Candidate samplePreloader = .ok (bl2Image samplePreloader) :=
    bl2Candidate_ok.2 ⟨by rw [hshort]; decide, rfl⟩
  have hv : pinnedValues pinnedSha samplePreloader =
      .ok ⟨hexdigest samplePreloaderSha, hexdigest sampleBl2Sha, toString samplePreloader.length⟩ :=
    bind_ok.2 ⟨_, hcandidate, by rw [hsha, hbl2]; rfl⟩
  have hram : pinWorld.ram.slice 0 samplePreloader.length = samplePreloader :=
    Mem.slice_blit (fun _ => 0) 0 samplePreloader
  exact ((pin_accepts_iff (by decide) hv ⟨rfl, rfl⟩).2 _ _ _ _ (fun _ => rfl) hram).1.2 rfl

end UrsusBoot
