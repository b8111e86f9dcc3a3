import UrsusBoot.Engine.Fine
import UrsusBoot.Engine.Footprint
import UrsusBoot.Engine.Status

/-!
# Which FIPs are accepted

The validators as functions of the bytes alone. A validator run on RAM answers 0 only for accepted
bytes (`fipValidateKind_accepts`); it may refuse accepted ones when memory runs out.
-/

namespace UrsusBoot

open Prog

/-- What `unpackNt` unpacks when memory suffices. -/
def ntRaw (P : Platform) (nt : List UInt8) : Except ℤ (List UInt8) :=
  let raw64 := leNat (bytesAt nt 5 8)
  if raw64 < 0x10000 ∨ fipRawMax < raw64 then .error (-efbig)
  else
    match P.lzmaBuffToBuffDecompress nt raw64 with
    | none => .error (-ebadmsg)
    | some raw => if raw.length = raw64 then .ok raw else .error (-ebadmsg)

/-- What `fipBl33Unpack` unpacks when memory suffices. -/
def bl33 (P : Platform) (buf : List UInt8) : Except ℤ (List UInt8) :=
  if buf.length = 0 ∨ ubiFipVolSize < buf.length then .error (-efbig)
  else
    match fipParse buf with
    | .error e => .error e
    | .ok toc =>
      if toc.declaredEnd ≠ buf.length then .error (-einval)
      else if toc.ntSize < 13 ∨ buf.length < toc.ntOff + toc.ntSize then .error (-einval)
      else ntRaw P (bytesAt buf toc.ntOff toc.ntSize)

/-- The strings that identify Vanilla U-Boot for this board. -/
def vanillaIdentity (P : Platform) (raw : List UInt8) : Bool :=
  memHas raw P.boardCompatible && !memHas raw P.boardOtherCompatible &&
    memHas raw "U-Boot 2026.07" && !memHas raw "U-Boot 2026.07-UrsusBoot-"

def fipAccepts (P : Platform) (kind : FipKind) (buf : List UInt8) : Bool :=
  match bl33 P buf, kind with
  | .error _, _ => false
  | .ok raw, .ursus => ursusIdentity raw
  | .ok raw, .vanilla =>
    vanillaIdentity P raw && vanillaFipPinned P && (P.sha256 buf == P.vanillaFipSha256)

variable {P : Platform}

theorem ntRaw_ok {nt raw : List UInt8} {n : ℕ} (hn : leNat (bytesAt nt 5 8) = n)
    (hmin : 0x10000 ≤ n) (hmax : n ≤ fipRawMax) (hlzma : P.lzmaBuffToBuffDecompress nt n = some raw)
    (hlen : raw.length = n) :
    ntRaw P nt = .ok raw := by
  unfold ntRaw
  dsimp only
  rw [hn, if_neg (by omega), hlzma]
  dsimp only
  rw [if_pos hlen]

variable {buf raw : List UInt8}

theorem bl33_ok {toc : FipToc} (hpos : 0 < buf.length) (hmax : buf.length ≤ ubiFipVolSize)
    (hparse : fipParse buf = .ok toc) (hend : toc.declaredEnd = buf.length)
    (hsize : 13 ≤ toc.ntSize) (hin : toc.ntOff + toc.ntSize ≤ buf.length)
    (hraw : ntRaw P (bytesAt buf toc.ntOff toc.ntSize) = .ok raw) : bl33 P buf = .ok raw := by
  unfold bl33
  rw [if_neg (by omega), hparse]
  dsimp only
  rw [if_neg (by omega), if_neg (by omega), hraw]

/-- The parser finds a BL33 in the FIP, and it unpacks. -/
structure Unpacks (P : Platform) (buf : List UInt8) (toc : FipToc) (raw : List UInt8) : Prop where
  parse : fipParse buf = .ok toc
  size : 13 ≤ toc.ntSize
  inside : toc.ntOff + toc.ntSize ≤ toc.declaredEnd
  high : toc.declaredEnd ≤ buf.length
  raw : ntRaw P (bytesAt buf toc.ntOff toc.ntSize) = .ok raw

theorem exists_unpacks (h : bl33 P buf = .ok raw) :
    ∃ toc, Unpacks P buf toc raw ∧ toc.declaredEnd = buf.length ∧ buf.length ≤ ubiFipVolSize := by
  unfold bl33 at h
  split_ifs at h with hlen
  cases hparse : fipParse buf with
  | error e => simp [hparse] at h
  | ok toc =>
    simp only [hparse] at h
    split_ifs at h with hend hnt
    exact ⟨toc, ⟨hparse, by omega, by omega, by omega, h⟩, by omega, by omega⟩

theorem fipAccepts_of_ursusIdentity (hraw : bl33 P buf = .ok raw) (hid : ursusIdentity raw = true) :
    fipAccepts P .ursus buf = true := by
  simpa only [fipAccepts, hraw] using hid

theorem fipAccepts_of_vanillaIdentity (hraw : bl33 P buf = .ok raw)
    (hid : vanillaIdentity P raw = true) (hpinned : vanillaFipPinned P = true)
    (hsha : P.sha256 buf = P.vanillaFipSha256) :
    fipAccepts P .vanilla buf = true := by
  simp only [fipAccepts, hraw, hid, hpinned, hsha, beq_self_eq_true, Bool.and_self]

section Unpack

variable {A : FlashEvent → Prop}

theorem unpackNt_ok (P : Platform) (nt : List UInt8) :
    Yields exec A (fun r => ∀ raw, r = .ok raw → ntRaw P nt = .ok raw) (unpackNt P nt) := by
  unfold unpackNt ntRaw
  dsimp only
  split_ifs with hsize
  · exact yields_ret (by rintro raw ⟨⟩)
  · refine yields_then fun m => yields_exit (by rintro raw ⟨⟩) fun _ => ?_
    cases P.lzmaBuffToBuffDecompress nt (leNat (bytesAt nt 5 8)) with
    | none => exact yields_ret (by rintro raw ⟨⟩)
    | some out => exact yields_ret fun raw h => h

theorem fipBl33Unpack_ok (P : Platform) (buf : List UInt8) :
    Yields exec A (fun r => ∀ raw, r = .ok raw → bl33 P buf = .ok raw) (fipBl33Unpack P buf) := by
  unfold fipBl33Unpack bl33
  split_ifs with hlen
  · exact yields_ret (by rintro raw ⟨⟩)
  · cases fipParse buf with
    | error e => exact yields_ret (by rintro raw ⟨⟩)
    | ok toc =>
      dsimp only
      split_ifs with hend hnt
      · exact yields_ret (by rintro raw ⟨⟩)
      · exact yields_ret (by rintro raw ⟨⟩)
      · exact unpackNt_ok P _

theorem fipBl33Unpack_spec (P : Platform) (buf : List UInt8) (w : World) :
    Spec exec A (fun _ => True)
      (fun r _ => ErrNeg r ∧ ∀ raw, r = .ok raw → bl33 P buf = .ok raw) (fipBl33Unpack P buf) w :=
  ((yields_fipBl33Unpack P buf w).and (fipBl33Unpack_ok P buf w)).weaken (fun _ h => h)
    fun _ _ _ => trivial

theorem fipValidate_accepts (P : Platform) (addr len : ℕ) (stock : Bool) (w : World) :
    Spec exec A (fun _ => True)
      (fun ret _ => ret = 0 → fipAccepts P .ursus (w.ram.slice addr len) = true)
      (fipValidate P addr len stock) w := by
  refine spec_next (Cmd.readMem ..) fun o _ => ⟨trivial, ?_⟩
  simp only [exec]
  split_ifs with hlimit
  · exact fun h => absurd h (by simp)
  · refine (fipBl33Unpack_spec P _ w).bind fun r w' hr => ?_
    cases r with
    | error e =>
      intro h
      have hneg : e < 0 := hr.1 e rfl
      exact absurd h (ne_of_lt hneg)
    | ok raw =>
      intro h
      have hid : ursusIdentity raw = true := by
        by_contra hid
        simp [hid] at h
      simpa only [fipAccepts, hr.2 raw rfl] using hid

theorem vanillaFipValidate_accepts (P : Platform) (addr len : ℕ) (stock : Bool) (w : World) :
    Spec exec A (fun _ => True)
      (fun ret _ => ret = 0 → fipAccepts P .vanilla (w.ram.slice addr len) = true)
      (vanillaFipValidate P addr len stock) w := by
  unfold vanillaFipValidate
  by_cases hstock : stock = true
  · rw [if_pos hstock]
    exact fun h => absurd h (by simp)
  rw [if_neg hstock]
  refine spec_next (Cmd.readMem ..) fun o _ => ⟨trivial, ?_⟩
  simp only [exec]
  refine (fipBl33Unpack_spec P _ w).bind fun r w' hr => ?_
  cases r with
  | error e =>
    intro h
    have hneg : e < 0 := hr.1 e rfl
    exact absurd h (ne_of_lt hneg)
  | ok raw =>
    dsimp only
    split_ifs with hid hpin hsha
    · exact fun h => absurd h (by simp)
    · exact fun h => absurd h (by simp)
    · intro _
      simp only [Bool.or_eq_true, Bool.not_eq_true', not_or, Bool.not_eq_true] at hid hpin
      simp [fipAccepts, hr.2 raw rfl, vanillaIdentity, hid, hpin, hsha]
    · intro h
      simp [hsha] at h

theorem fipValidateKind_accepts (P : Platform) (addr len : ℕ) (stock : Bool) (kind : FipKind)
    (w : World) :
    Spec exec A (fun _ => True)
      (fun ret _ => ret = 0 → fipAccepts P kind (w.ram.slice addr len) = true)
      (fipValidateKind P addr len stock kind) w := by
  cases kind with
  | ursus => exact fipValidate_accepts P addr len stock w
  | vanilla => exact vanillaFipValidate_accepts P addr len stock w

/-! ### When memory suffices -/

theorem unpackNt_fine {nt raw : List UInt8} (h : ntRaw P nt = .ok raw) (w : World) :
    Spec exec Fine (fun _ => True) (fun r w' => r = .ok raw ∧ w' = w) (unpackNt P nt) w := by
  unfold ntRaw at h
  unfold unpackNt
  dsimp only at h ⊢
  split_ifs at h ⊢ with hsize
  apply spec_fine (c := .malloc _) rfl
  cases hl : P.lzmaBuffToBuffDecompress nt (leNat (bytesAt nt 5 8)) with
  | none => simp [hl] at h
  | some out =>
    simp only [hl] at h
    split_ifs at h with hlen
    cases h
    exact ⟨if_pos hlen, rfl⟩

theorem fipBl33Unpack_fine (h : bl33 P buf = .ok raw) (w : World) :
    Spec exec Fine (fun _ => True) (fun r w' => r = .ok raw ∧ w' = w) (fipBl33Unpack P buf) w := by
  obtain ⟨toc, hu, hend, hmax⟩ := exists_unpacks h
  have hsize := hu.size
  have hinside := hu.inside
  unfold fipBl33Unpack
  rw [if_neg (by omega), hu.parse]
  dsimp only
  rw [if_neg (not_not.2 hend), if_neg (by omega)]
  exact unpackNt_fine hu.raw w

theorem fipValidateCurrent_fine {toc : FipToc} (h : Unpacks P buf toc raw) (w : World) :
    Spec exec Fine (fun _ => True)
      (fun r w' => r = (if !ursusIdentity raw && !stockIdentity raw then .error (-enodev)
        else .ok toc.declaredEnd) ∧ w' = w) (fipValidateCurrent P buf) w := by
  have hsize := h.size
  have hinside := h.inside
  have hhigh := h.high
  have hrange : ¬ (toc.declaredEnd = 0 ∨ buf.length < toc.declaredEnd ∨ toc.ntSize < 13 ∨
      toc.declaredEnd < toc.ntOff + toc.ntSize) := by omega
  unfold fipValidateCurrent
  rw [h.parse]
  dsimp only
  rw [if_neg hrange]
  apply (unpackNt_fine h.raw w).bind
  rintro r w' ⟨rfl, rfl⟩
  exact ⟨rfl, rfl⟩

end Unpack

end UrsusBoot
