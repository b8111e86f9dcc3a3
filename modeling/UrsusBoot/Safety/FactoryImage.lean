import UrsusBoot.Format.FwtoolRead
import UrsusBoot.Safety.Rejected

/-!
# What an accepted archive is

`ursus_validate_factory` read by read, with sums as a `size_t` has them, and what its acceptance
says of the ranges it has recorded.
-/

namespace UrsusBoot

open Buffer

/-! ## The walk, read by read -/

/-- What the loop does with one member. The FIT functions read the range they are given. -/
def tarMemberAt (L : FitLib) (buf name : List UInt8) (data sz : ℕ) (s : ImageState) :
    Option (ℤ × ImageState) :=
  if nameEnds name "/kernel" then
    (readAt buf data sz).map fun fit =>
      (0, { s with kernelFound := true, kernelSize := sz, kernelOff := data
                   fitValid := (verifyFit L fit).1 == 0, fitHashesValid := (verifyFit L fit).2 })
  else if nameEnds name "/root" then
    let s := { s with rootFound := true, rootSize := sz, rootOff := data }
    if sz < 4 then some (-einval, s)
    else (readAt buf data 4).map fun bs => if bs ≠ asciiBytes "hsqs" then (-einval, s) else (0, s)
  else some (0, s)

/-- The loop of `ursus_validate_factory`. -/
def tarWalkAt (L : FitLib) (buf : List UInt8) : ℕ → ℕ → ImageState → Option (ℤ × ImageState)
  | 0, _, _ => none
  | fuel + 1, pos, s =>
    if pos + 512 ≤ buf.length then do
      let magic ← readAt buf (pos + 257) 5
      if magic ≠ asciiBytes "ustar" then return (0, s)
      let size ← readAt buf (pos + 124) 12
      let sz := tarOctal size 0 % 2 ^ 64
      let data := pos + 512
      let name ← readAt buf pos 100
      if buf.length < (data + sz) % 2 ^ 64 then return (-efbig, s)
      let r ← tarMemberAt L buf (cstr name) data sz s
      if r.1 ≠ 0 then return r
      let next := (data + (sz + 511) / 512 * 512) % 2 ^ 64
      if next ≤ pos ∨ buf.length < next then return (0, r.2)
      tarWalkAt L buf fuel next r.2
    else return (0, s)

/-- `ursus_validate_factory`, read by read. -/
def validateFactoryAt (L : FitLib) (buf : List UInt8) (s : ImageState) :
    Option (ℤ × ImageState) := do
  let r ← tarWalkAt L buf (buf.length / 512 + 1) 0 s
  if r.1 ≠ 0 then return r
  if !r.2.kernelFound || !r.2.rootFound || !r.2.fitValid || !r.2.fitHashesValid then
    return (-einval, r.2)
  return (0, r.2)

theorem tarOctal_lt (bs : List UInt8) (v : ℕ) : tarOctal bs v < (v + 1) * 8 ^ bs.length := by
  induction bs generalizing v with
  | nil =>
    rw [tarOctal, List.length_nil]
    omega
  | cons b bs ih =>
    have hpow : (v + 1) * 8 ^ (b :: bs).length = (v * 8 + 8) * 8 ^ bs.length := by
      rw [List.length_cons, Nat.pow_succ', ← Nat.mul_assoc, Nat.add_mul, Nat.one_mul]
    rw [tarOctal, hpow]
    split_ifs with hskip hend
    · exact (ih v).trans_le (Nat.mul_le_mul_right _ (by omega))
    · exact (by omega : v < v * 8 + 8).trans_le (Nat.le_mul_of_pos_right _ (Nat.pow_pos (by omega)))
    · have hdigit : b.toNat - 0x30 ≤ 7 := by
        have hle : ¬ (0x37 : UInt8) < b := fun h => hend (Or.inr h)
        have hnat : b.toNat ≤ 0x37 := UInt8.le_iff_toNat_le.1 (UInt8.not_lt.1 hle)
        omega
      exact (ih _).trans_le (Nat.mul_le_mul_right _ (by omega))

variable {buf : List UInt8}

theorem tarMagic_drop {pos : ℕ} (h : pos + 512 ≤ buf.length) :
    tarMagic (buf.drop pos) = (bytesAt buf (pos + 257) 5 == asciiBytes "ustar") := by
  have hlen : 512 ≤ (buf.drop pos).length := by
    rw [List.length_drop]
    omega
  unfold tarMagic bytesAt
  rw [decide_eq_true hlen, Bool.true_and, List.drop_drop]

theorem tarMagic_short {pos : ℕ} (h : ¬ pos + 512 ≤ buf.length) :
    tarMagic (buf.drop pos) = false := by
  have hlen : ¬ 512 ≤ (buf.drop pos).length := by
    rw [List.length_drop]
    omega
  unfold tarMagic
  rw [decide_eq_false hlen, Bool.false_and]

theorem tarMemberAt_eq (L : FitLib) (name : List UInt8) {data sz : ℕ} (h : data + sz ≤ buf.length)
    (s : ImageState) :
    tarMemberAt L buf name data sz s = some (tarMember L buf name data sz s) := by
  unfold tarMemberAt tarMember
  by_cases hk : nameEnds name "/kernel" = true
  · rw [if_pos hk, if_pos hk, readAt_of_le h]
    rfl
  rw [if_neg hk, if_neg hk]
  by_cases hr : nameEnds name "/root" = true
  · rw [if_pos hr, if_pos hr]
    by_cases hshort : sz < 4
    · simp [hshort]
    · rw [readAt_of_le (by omega)]
      change (if sz < 4 then _ else some (if bytesAt buf data 4 ≠ _ then _ else _)) = _
      by_cases hbs : bytesAt buf data 4 = asciiBytes "hsqs" <;> simp [hshort, hbs]
  · rw [if_neg hr, if_neg hr]

/-- **The loop ends and stays inside**, with as many rounds as there are blocks. -/
theorem tarWalkAt_eq (L : FitLib) (hlen : buf.length ≤ stageMax) {fuel pos : ℕ}
    (hpos : pos ≤ buf.length) (hfuel : buf.length < pos + 512 * fuel) (s : ImageState) :
    tarWalkAt L buf fuel pos s = some (tarWalk L buf fuel pos s) := by
  have hmax : buf.length ≤ 0x4000000 := hlen
  -- every member moves the position by a block at least
  induction fuel generalizing pos s with
  | zero => omega
  | succ fuel ih =>
    rw [tarWalkAt, tarWalk]
    by_cases hin : pos + 512 ≤ buf.length
    · have hsize : bytesAt (buf.drop pos) 124 12 = bytesAt buf (pos + 124) 12 := by
        unfold bytesAt
        rw [List.drop_drop]
      have hbound : tarOctal (bytesAt buf (pos + 124) 12) 0 < 2 ^ 36 := by
        have h := tarOctal_lt (bytesAt buf (pos + 124) 12) 0
        have h12 : (bytesAt buf (pos + 124) 12).length = 12 := by
          simp only [bytesAt, List.length_take, List.length_drop]
          omega
        rw [h12] at h
        omega
      have hname : bytesAt buf pos 100 = (buf.drop pos).take 100 := rfl
      rw [if_pos hin, tarMagic_drop hin, hsize, readAt_bytes (by omega), readAt_bytes (by omega),
        readAt_bytes (by omega)]
      simp only [Option.bind_eq_bind, Option.bind_some, hname]
      by_cases hmagic : bytesAt buf (pos + 257) 5 = asciiBytes "ustar"
      · rw [if_neg (not_not.2 hmagic), beq_iff_eq.2 hmagic]
        generalize tarOctal (bytesAt buf (pos + 124) 12) 0 = sz at hbound ⊢
        have hround : (sz + 511) / 512 * 512 ≤ sz + 511 := Nat.div_mul_le_self _ _
        rw [Nat.mod_eq_of_lt (by omega : sz < 2 ^ 64),
          Nat.mod_eq_of_lt (by omega : pos + 512 + sz < 2 ^ 64)]
        simp only [Bool.not_true, Bool.false_eq_true, if_false]
        by_cases hcut : buf.length < pos + 512 + sz
        · rw [if_pos hcut, if_pos hcut]
          rfl
        rw [if_neg hcut, if_neg hcut]
        rw [tarMemberAt_eq L _ (by omega), Option.bind_some]
        generalize tarMember L buf (cstr ((buf.drop pos).take 100)) (pos + 512) sz s = r
        obtain ⟨ret, s'⟩ := r
        dsimp only
        by_cases hret : ret ≠ 0
        · rw [if_pos hret, if_pos hret]
          rfl
        rw [if_neg hret, if_neg hret,
          Nat.mod_eq_of_lt (by omega : pos + 512 + (sz + 511) / 512 * 512 < 2 ^ 64)]
        by_cases hnext : buf.length < pos + 512 + (sz + 511) / 512 * 512
        · rw [if_pos (Or.inr hnext), if_pos hnext]
          rfl
        · rw [if_neg (by omega), if_neg hnext]
          exact ih (by omega) (by omega) s'
      · rw [if_pos hmagic, beq_false_of_ne hmagic]
        rfl
    · rw [if_neg hin, tarMagic_short hin]
      rfl

/-- **The validation ends and stays inside.** -/
theorem validateFactoryAt_eq (L : FitLib) (hlen : buf.length ≤ stageMax) (s : ImageState) :
    validateFactoryAt L buf s = some (validateFactory L buf s) := by
  unfold validateFactoryAt validateFactory
  rw [tarWalkAt_eq L hlen (by omega) (by omega)]
  generalize tarWalk L buf (buf.length / 512 + 1) 0 s = r
  obtain ⟨ret, s'⟩ := r
  simp only [Option.bind_eq_bind, Option.bind_some]
  split_ifs <;> rfl

/-! ## What the members record -/

theorem nameEnds_root_not_kernel {name : List UInt8} (h : nameEnds name "/root" = true) :
    nameEnds name "/kernel" = false := by
  have hroot : asciiBytes "/root" <:+ name := List.isSuffixOf_iff_suffix.1 h
  by_contra hk
  have hkernel : asciiBytes "/kernel" <:+ name :=
    List.isSuffixOf_iff_suffix.1 (Bool.not_eq_false _ ▸ hk)
  have hsuffix := List.suffix_of_suffix_length_le hroot hkernel (by decide)
  exact absurd hsuffix (by decide)

theorem TarEntry.isRoot_eq (e : TarEntry) : e.isRoot = nameEnds e.name "/root" := by
  unfold TarEntry.isRoot TarEntry.isKernel
  cases h : nameEnds e.name "/root" with
  | false => rw [Bool.and_false]
  | true => rw [nameEnds_root_not_kernel h]; rfl

structure KernelRecord (L : FitLib) (buf : List UInt8) (e : TarEntry) (s : ImageState) : Prop where
  off : s.kernelOff = e.data
  size : s.kernelSize = e.sz
  fit : s.fitValid = ((verifyFit L (bytesAt buf e.data e.sz)).1 == 0)
  hashes : s.fitHashesValid = (verifyFit L (bytesAt buf e.data e.sz)).2

structure RootRecord (e : TarEntry) (s : ImageState) : Prop where
  off : s.rootOff = e.data
  size : s.rootSize = e.sz

section Record

variable {L : FitLib} {buf : List UInt8} {e k : TarEntry} {s : ImageState} {es : List TarEntry}

theorem record_kernel (h : e.isKernel = true) : KernelRecord L buf e (e.record L buf s) := by
  have hkernel : nameEnds e.name "/kernel" = true := h
  unfold TarEntry.record tarMember
  rw [if_pos hkernel]
  exact ⟨rfl, rfl, rfl, rfl⟩

theorem record_kernel_other (h : e.isKernel = false) (hs : KernelRecord L buf k s) :
    KernelRecord L buf k (e.record L buf s) := by
  have hkernel : nameEnds e.name "/kernel" = false := h
  unfold TarEntry.record tarMember
  rw [hkernel, if_neg Bool.false_ne_true]
  split_ifs <;> exact ⟨hs.off, hs.size, hs.fit, hs.hashes⟩

theorem record_root (h : e.isRoot = true) : RootRecord e (e.record L buf s) := by
  have hroot : nameEnds e.name "/root" = true := e.isRoot_eq ▸ h
  unfold TarEntry.record tarMember
  rw [nameEnds_root_not_kernel hroot, if_neg Bool.false_ne_true, if_pos hroot]
  dsimp only
  split_ifs <;> exact ⟨rfl, rfl⟩

theorem record_root_other (h : e.isRoot = false) (hs : RootRecord k s) :
    RootRecord k (e.record L buf s) := by
  have hroot : nameEnds e.name "/root" = false := e.isRoot_eq ▸ h
  unfold TarEntry.record tarMember
  split_ifs with hk hr
  · exact ⟨hs.off, hs.size⟩
  · rw [hroot] at hr
    cases hr
  · rw [hroot] at hr
    cases hr
  · exact ⟨hs.off, hs.size⟩

theorem getLast?_filter_concat {p : TarEntry → Bool}
    (h : ((es ++ [e]).filter p).getLast? = some k) :
    (p e = true ∧ k = e) ∨ (p e = false ∧ (es.filter p).getLast? = some k) := by
  rw [List.filter_append] at h
  cases hp : p e with
  | true =>
    rw [List.filter_cons_of_pos hp, List.filter_nil, List.getLast?_concat] at h
    exact Or.inl ⟨rfl, (Option.some.inj h).symm⟩
  | false =>
    rw [List.filter_cons_of_neg (by simp [hp]), List.filter_nil, List.append_nil] at h
    exact Or.inr ⟨rfl, h⟩

/-- **The last kernel counts.** -/
theorem foldl_record_kernel (h : (es.filter TarEntry.isKernel).getLast? = some k) :
    KernelRecord L buf k (es.foldl (TarEntry.record L buf) s) := by
  induction es using List.reverseRecOn with
  | nil => cases h
  | append_singleton es e ih =>
    rw [List.foldl_append, List.foldl_cons, List.foldl_nil]
    obtain ⟨he, rfl⟩ | ⟨he, hes⟩ := getLast?_filter_concat h
    · exact record_kernel he
    · exact record_kernel_other he (ih hes)

/-- **The last root filesystem counts.** -/
theorem foldl_record_root (h : (es.filter TarEntry.isRoot).getLast? = some k) :
    RootRecord k (es.foldl (TarEntry.record L buf) s) := by
  induction es using List.reverseRecOn with
  | nil => cases h
  | append_singleton es e ih =>
    rw [List.foldl_append, List.foldl_cons, List.foldl_nil]
    obtain ⟨he, rfl⟩ | ⟨he, hes⟩ := getLast?_filter_concat h
    · exact record_root he
    · exact record_root_other he (ih hes)

theorem record_len : (e.record L buf s).len = s.len := by
  unfold TarEntry.record tarMember
  split_ifs <;> rfl

theorem foldl_record_len : (es.foldl (TarEntry.record L buf) s).len = s.len := by
  induction es generalizing s with
  | nil => rfl
  | cons e es ih => rw [List.foldl_cons, ih, record_len]

end Record

theorem tarEntries_inside {fuel pos : ℕ} {e : TarEntry} (h : e ∈ (tarEntries buf fuel pos).1) :
    e.data + e.sz ≤ buf.length := by
  induction fuel generalizing pos with
  | zero => cases h
  | succ fuel ih =>
    unfold tarEntries at h
    dsimp only at h
    split_ifs at h with hmagic hcut hend
    · cases h
    · cases h
    · rw [List.mem_singleton] at h
      subst h
      dsimp only
      omega
    · obtain rfl | h := List.mem_cons.1 h
      · dsimp only
        omega
      · exact ih h

theorem visited_eq_self {es : List TarEntry} (h : es.any (TarEntry.badRoot · buf) = false) :
    visited buf es = es := by
  induction es with
  | nil => rfl
  | cons e es ih =>
    rw [List.any_cons, Bool.or_eq_false_iff] at h
    rw [visited, h.1, if_neg Bool.false_ne_true, ih h.2]

/-! ## Acceptance -/

theorem validateFactory_accepted {L : FitLib} {s : ImageState} (h : (validateFactory L buf s).1 = 0)
    :
    (members buf).any (TarEntry.badRoot · buf) = false ∧
      (validateFactory L buf s).2 = (members buf).foldl (TarEntry.record L buf) s ∧
      (validateFactory L buf s).2.kernelFound = true ∧
      (validateFactory L buf s).2.rootFound = true ∧
      (validateFactory L buf s).2.fitValid = true ∧
      (validateFactory L buf s).2.fitHashesValid = true := by
  have hstatus := walkEntries_status L buf (cutShort buf) (members buf) s
  have hstate := walkEntries_state L buf (cutShort buf) (members buf) s
  have hwalk : tarWalk L buf (buf.length / 512 + 1) 0 s =
      walkEntries L buf (cutShort buf) (members buf) s := tarWalk_eq L buf _ 0 s
  unfold validateFactory at h ⊢
  rw [hwalk] at h ⊢
  generalize walkEntries L buf (cutShort buf) (members buf) s = r at hstatus hstate h ⊢
  obtain ⟨ret, s'⟩ := r
  dsimp only at h hstatus hstate ⊢
  by_cases hret : ret ≠ 0
  · rw [if_pos hret] at h
    exact absurd h hret
  by_cases hfields : (!s'.kernelFound || !s'.rootFound || !s'.fitValid || !s'.fitHashesValid) = true
  · rw [if_neg hret, if_pos hfields] at h
    have heinval : (-einval : ℤ) = 0 := h
    exact absurd heinval (by decide)
  have hgood : (members buf).any (TarEntry.badRoot · buf) = false := by
    by_contra hbad
    rw [if_pos (by simpa using hbad)] at hstatus
    exact hret (by rw [hstatus]; decide)
  rw [visited_eq_self hgood] at hstate
  rw [if_neg hret, if_neg hfields]
  simp only [Bool.or_eq_true, Bool.not_eq_true', not_or, Bool.not_eq_false] at hfields
  exact ⟨hgood, hstate, hfields.1.1.1, hfields.1.1.2, hfields.1.2, hfields.2⟩

/-- The last kernel reached is recorded, lies in the buffer and verifies. -/
def KernelSound (L : FitLib) (buf : List UInt8) (s : ImageState) : Prop :=
  ∃ k, ((visited buf (members buf)).filter fun e => nameEnds e.name "/kernel").getLast? = some k ∧
    s.kernelOff = k.data ∧ s.kernelSize = k.sz ∧ s.kernelOff + s.kernelSize < 2 ^ 64 ∧
    s.kernelOff + s.kernelSize ≤ buf.length ∧
    verifyFit L (bytesAt buf s.kernelOff s.kernelSize) = (0, true)

/-- The last root filesystem reached is recorded, lies in the buffer and begins as a squashfs. -/
def RootSound (buf : List UInt8) (s : ImageState) : Prop :=
  ∃ r, ((visited buf (members buf)).filter fun e => nameEnds e.name "/root").getLast? = some r ∧
    s.rootOff = r.data ∧ s.rootSize = r.sz ∧ s.rootOff + s.rootSize < 2 ^ 64 ∧
    s.rootOff + s.rootSize ≤ buf.length ∧ 4 ≤ s.rootSize ∧
    bytesAt buf s.rootOff 4 = asciiBytes "hsqs"

/-- The checks `ursus_factory_install` makes of the recorded ranges, on `size_t`. -/
def OffsetsPass (s : ImageState) : Prop :=
  s.kernelSize ≠ 0 ∧ s.rootSize ≠ 0 ∧ (s.kernelOff + s.kernelSize) % 2 ^ 64 ≤ s.len ∧
    (s.rootOff + s.rootSize) % 2 ^ 64 ≤ s.len

theorem exists_getLast?_filter {es : List TarEntry} {p : TarEntry → Bool} (h : es.any p = true) :
    ∃ k, (es.filter p).getLast? = some k ∧ k ∈ es ∧ p k = true := by
  have hne : es.filter p ≠ [] := by
    obtain ⟨e, he, hp⟩ := List.any_eq_true.1 h
    exact List.ne_nil_of_mem (List.mem_filter.2 ⟨he, hp⟩)
  have hmem := List.mem_filter.1 (List.getLast_mem hne)
  exact ⟨(es.filter p).getLast hne, List.getLast?_eq_some_getLast hne, hmem.1, hmem.2⟩

theorem verifyFit_long {L : FitLib} {fit : List UInt8} (h : (verifyFit L fit).1 = 0) :
    40 ≤ fit.length := by
  by_contra hshort
  unfold verifyFit at h
  rw [if_pos (Or.inl (by omega))] at h
  exact absurd h (by decide)

section Sound

variable {L : FitLib} {buf : List UInt8} {s : ImageState}

theorem kernelSound_of_accepted (hlen : buf.length ≤ stageMax) (hk : s.kernelFound = false)
    (h : (validateFactory L buf s).1 = 0) : KernelSound L buf (validateFactory L buf s).2 := by
  obtain ⟨hgood, hstate, hkernel, -, hfit, hhashes⟩ := validateFactory_accepted h
  have hmax : buf.length ≤ 0x4000000 := hlen
  rw [hstate] at hkernel hfit hhashes ⊢
  have hany : (members buf).any TarEntry.isKernel = true := by
    rw [(foldl_record_fields L buf (members buf) s).2.1, hk, Bool.false_or] at hkernel
    exact hkernel
  obtain ⟨k, hlast, hmem, -⟩ := exists_getLast?_filter hany
  have hrec : KernelRecord L buf k ((members buf).foldl (TarEntry.record L buf) s) :=
    foldl_record_kernel hlast
  have hin : k.data + k.sz ≤ buf.length := tarEntries_inside hmem
  refine ⟨k, ?_, hrec.off, hrec.size, ?_, ?_, ?_⟩
  · rw [visited_eq_self hgood]
    exact hlast
  · rw [hrec.off, hrec.size]
    omega
  · rw [hrec.off, hrec.size]
    exact hin
  · rw [hrec.fit, beq_iff_eq] at hfit
    rw [hrec.hashes] at hhashes
    rw [hrec.off, hrec.size]
    exact Prod.ext hfit hhashes

theorem rootSound_of_accepted (hlen : buf.length ≤ stageMax) (hr : s.rootFound = false)
    (h : (validateFactory L buf s).1 = 0) : RootSound buf (validateFactory L buf s).2 := by
  obtain ⟨hgood, hstate, -, hroot, -, -⟩ := validateFactory_accepted h
  have hmax : buf.length ≤ 0x4000000 := hlen
  rw [hstate] at hroot ⊢
  have hany : (members buf).any TarEntry.isRoot = true := by
    rw [(foldl_record_fields L buf (members buf) s).2.2.1, hr, Bool.false_or] at hroot
    exact hroot
  obtain ⟨r, hlast, hmem, hisRoot⟩ := exists_getLast?_filter hany
  have hrec : RootRecord r ((members buf).foldl (TarEntry.record L buf) s) :=
    foldl_record_root hlast
  have hin : r.data + r.sz ≤ buf.length := tarEntries_inside hmem
  have hsquash : 4 ≤ r.sz ∧ bytesAt buf r.data 4 = asciiBytes "hsqs" := by
    have hnot : r.badRoot buf = false := by simpa using List.any_eq_false.1 hgood r hmem
    rw [TarEntry.badRoot, hisRoot, Bool.true_and, Bool.or_eq_false_iff] at hnot
    exact ⟨by simpa using hnot.1, by simpa using hnot.2⟩
  refine ⟨r, ?_, hrec.off, hrec.size, ?_, ?_, ?_, ?_⟩
  · rw [visited_eq_self hgood, ← hlast]
    congr 2
    funext e
    exact e.isRoot_eq.symm
  · rw [hrec.off, hrec.size]
    omega
  · rw [hrec.off, hrec.size]
    exact hin
  · rw [hrec.size]
    exact hsquash.1
  · rw [hrec.off]
    exact hsquash.2

end Sound

/-- **Validation of an archive is sound.** It ends and reads inside the buffer. If it accepts, from
a state in which nothing has been found yet, then the recorded ranges are those of the last kernel
and the last root filesystem reached, inside the buffer; the kernel verifies, the root filesystem
begins as a squashfs, and the range checks of the installation pass. -/
theorem factory_image_sound (L : FitLib) (buf : List UInt8) (hlen : buf.length ≤ stageMax)
    (s : ImageState) (hk : s.kernelFound = false) (hr : s.rootFound = false)
    (hs : s.len = buf.length) :
    validateFactoryAt L buf s = some (validateFactory L buf s) ∧
      ((validateFactory L buf s).1 = 0 → KernelSound L buf (validateFactory L buf s).2 ∧
        RootSound buf (validateFactory L buf s).2 ∧ OffsetsPass (validateFactory L buf s).2) := by
  refine ⟨validateFactoryAt_eq L hlen s, fun h => ?_⟩
  have hkernel := kernelSound_of_accepted hlen hk h
  have hroot := rootSound_of_accepted hlen hr h
  refine ⟨hkernel, hroot, ?_⟩
  have hstate := (validateFactory_accepted h).2.1
  have hsame : (validateFactory L buf s).2.len = buf.length := by
    rw [hstate, foldl_record_len, hs]
  obtain ⟨k, -, -, -, hkwrap, hkin, hverify⟩ := hkernel
  obtain ⟨r, -, -, -, hrwrap, hrin, hsize, -⟩ := hroot
  have hlong := verifyFit_long (congrArg Prod.fst hverify)
  simp only [bytesAt, List.length_take, List.length_drop] at hlong
  rw [OffsetsPass, Nat.mod_eq_of_lt hkwrap, Nat.mod_eq_of_lt hrwrap, hsame]
  exact ⟨by omega, by omega, hkin, hrin⟩

/-- An archive with a kernel that verifies and a root filesystem. -/
def soundArchive : List UInt8 :=
  tarHeader kernelName [0x35, 0x32, 0x37] ++ smallFit ++ List.replicate 169 0 ++
    tarHeader rootName [0x34] ++ [0x68, 0x73, 0x71, 0x73]

theorem length_soundArchive : soundArchive.length = 1540 := length_archive _ _ _ _

theorem members_soundArchive :
    members soundArchive = [⟨kernelName, 512, 343⟩, ⟨rootName, 1536, 4⟩] := by
  decide +kernel

theorem validateFactory_good
    (hmembers : members buf = [⟨kernelName, 512, 343⟩, ⟨rootName, 1536, 4⟩])
    (hbytes : bytesAt buf 512 343 = smallFit) (hsquash : bytesAt buf 1536 4 = asciiBytes "hsqs")
    (hcut : cutShort buf = false) (s : ImageState) (hk : s.kernelFound = false)
    (hr : s.rootFound = false) (hf : s.fitValid = false) :
    (validateFactory boardFitLib buf s).1 = 0 := by
  have hkernel : TarEntry.isKernel ⟨kernelName, 512, 343⟩ = true := by decide
  have hroot : TarEntry.isKernel ⟨rootName, 1536, 4⟩ = false := by decide
  have hisRoot : TarEntry.isRoot ⟨rootName, 1536, 4⟩ = true := by decide
  have hgood : (members buf).any (TarEntry.badRoot · buf) = false := by
    rw [hmembers]
    simp only [List.any_cons, List.any_nil, TarEntry.badRoot, TarEntry.isRoot, hkernel, hsquash]
    simp
  have hverifies : TarEntry.verifies ⟨kernelName, 512, 343⟩ buf boardFitLib = true := by
    have hfit := verifyFit_smallFit []
    rw [List.append_nil] at hfit
    simp only [TarEntry.verifies, hbytes, hfit]
    rfl
  have hkernels : kernelVerifies boardFitLib buf (visited buf (members buf)) = true := by
    rw [visited_eq_self hgood, hmembers]
    simp only [kernelVerifies, List.foldl_cons, List.foldl_nil, hkernel, hroot, if_true,
      Bool.false_eq_true, if_false, hverifies]
  have hstatus := (validateFactory_fields boardFitLib buf s hk hr hf).2.2 hkernels
  have hany : (members buf).any TarEntry.isRoot = true := by
    rw [hmembers]
    simp [hisRoot]
  by_contra hne
  rw [visited_eq_self hgood, hgood, hcut, hany] at hstatus
  simpa using hstatus.1 hne

theorem validateFactory_soundArchive (s : ImageState) (hk : s.kernelFound = false)
    (hr : s.rootFound = false) (hf : s.fitValid = false) :
    (validateFactory boardFitLib soundArchive s).1 = 0 :=
  validateFactory_good members_soundArchive (by decide +kernel) (by decide +kernel)
    (by decide +kernel) s hk hr hf

/-- The sample archive is accepted. -/
theorem factory_image_sound_sample :
    let r := validateFactory boardFitLib soundArchive { resetImageState with len := 1540 }
    r.1 = 0 ∧ KernelSound boardFitLib soundArchive r.2 ∧ RootSound soundArchive r.2 ∧
      OffsetsPass r.2 := by
  have hlength := length_soundArchive
  have hsound := factory_image_sound boardFitLib soundArchive (by rw [hlength]; decide)
    { resetImageState with len := 1540 } rfl rfl hlength.symm
  have haccepted := validateFactory_soundArchive { resetImageState with len := 1540 } rfl rfl rfl
  exact ⟨haccepted, hsound.2 haccepted⟩

end UrsusBoot
