import UrsusBoot.Flash.World

/-!
# FIP tables of contents

A FIP starts with a 16-byte header and a table of 40-byte entries (UUID, offset, size, flags); the
entry with a zero UUID ends the table and its offset declares the end of the image. Three functions
walk this table, each with its own checks.
-/

namespace UrsusBoot

/-! ## Bytes -/

def leNat (bs : List UInt8) : ℕ := bs.foldr (fun b n => b.toNat + 256 * n) 0

def beNat (bs : List UInt8) : ℕ := bs.foldl (fun n b => 256 * n + b.toNat) 0

/-- The `n` bytes at offset `off` of a buffer. -/
def bytesAt (buf : List UInt8) (off n : ℕ) : List UInt8 := (buf.drop off).take n

variable {buf : List UInt8}

theorem bytesAt_bytesAt {p a m n : ℕ} (h : a + n ≤ m) :
    bytesAt (bytesAt buf p m) a n = bytesAt buf (p + a) n := by
  unfold bytesAt
  rw [List.drop_take, List.drop_drop, List.take_take, Nat.min_eq_left (by omega)]

theorem bytesAt_take {n a m : ℕ} (h : a + m ≤ n) :
    bytesAt (buf.take n) a m = bytesAt buf a m := by
  unfold bytesAt
  rw [List.drop_take, List.take_take, Nat.min_eq_left (by omega)]

def asciiBytes (s : String) : List UInt8 := s.toList.map fun c => UInt8.ofNat c.toNat

/-- `needle` occurs in `buf`. -/
def memHasBytes (needle : List UInt8) : List UInt8 → Bool
  | [] => needle.isPrefixOf []
  | b :: bs => needle.isPrefixOf (b :: bs) || memHasBytes needle bs

def memHas (buf : List UInt8) (needle : String) : Bool :=
  !(asciiBytes needle).isEmpty && memHasBytes (asciiBytes needle) buf

theorem memHasBytes_replicate {b c : UInt8} (hbc : b ≠ c) (bs : List UInt8) (n : ℕ) :
    memHasBytes (b :: bs) (List.replicate n c) = false := by
  induction n with
  | zero => rfl
  | succ n ih =>
    have hhead : (b == c) = false := by simpa using hbc
    rw [List.replicate_succ, memHasBytes, ih, List.isPrefixOf_cons_cons, hhead]
    rfl

theorem memHas_replicate {needle : String} {c : UInt8} (h : (asciiBytes needle).head? ≠ some c)
    (n : ℕ) : memHas (List.replicate n c) needle = false := by
  unfold memHas
  cases hn : asciiBytes needle with
  | nil => rfl
  | cons b bs =>
    have hbc : b ≠ c := fun hbc => h (by rw [hn, hbc]; rfl)
    rw [memHasBytes_replicate hbc, Bool.and_false]

theorem isPrefixOf_append_replicate {c : UInt8} {needle : List UInt8} (hc : c ∉ needle)
    (xs : List UInt8) (n : ℕ) :
    needle.isPrefixOf (xs ++ List.replicate n c) = needle.isPrefixOf xs := by
  induction needle generalizing xs with
  | nil => rfl
  | cons b bs ih =>
    have hbc : (b == c) = false := by
      have hne : b ≠ c := fun h => hc (h ▸ List.mem_cons_self)
      simpa using hne
    cases xs with
    | nil =>
      cases n with
      | zero => rfl
      | succ n =>
        rw [List.nil_append, List.replicate_succ, List.isPrefixOf_cons_cons, hbc]
        rfl
    | cons x xs =>
      have hbs : c ∉ bs := fun h => hc (List.mem_cons_of_mem b h)
      rw [List.cons_append, List.isPrefixOf_cons_cons, List.isPrefixOf_cons_cons, ih hbs]

theorem memHasBytes_append_replicate {c : UInt8} {needle : List UInt8} (hc : c ∉ needle)
    (hne : needle ≠ []) (xs : List UInt8) (n : ℕ) :
    memHasBytes needle (xs ++ List.replicate n c) = memHasBytes needle xs := by
  induction xs with
  | nil =>
    obtain ⟨b, bs, rfl⟩ := List.exists_cons_of_ne_nil hne
    have hbc : b ≠ c := fun h => hc (h ▸ List.mem_cons_self)
    rw [List.nil_append, memHasBytes_replicate hbc]
    rfl
  | cons x xs ih =>
    have hhead := isPrefixOf_append_replicate hc (x :: xs) n
    rw [List.cons_append] at hhead
    rw [List.cons_append, memHasBytes, memHasBytes, ih, hhead]

theorem memHas_append_replicate {c : UInt8} {needle : String} (hc : c ∉ asciiBytes needle)
    (xs : List UInt8) (n : ℕ) : memHas (xs ++ List.replicate n c) needle = memHas xs needle := by
  unfold memHas
  by_cases hne : asciiBytes needle = []
  · rw [hne]
    rfl
  · rw [memHasBytes_append_replicate hc hne]

/-! ## Entries -/

abbrev fipMagic : ℕ := 0xaa640001
abbrev fipSerial : ℕ := 0x12345678
abbrev fipMaxEntries : ℕ := 32
abbrev fipTocMin : ℕ := 0x400
abbrev fipRawMax : ℕ := 0x200000

def ntFwUuid : List UInt8 :=
  [0xd6, 0xd0, 0xee, 0xa7, 0xfc, 0xea, 0xd5, 0x4b, 0x97, 0x82, 0x99, 0x34, 0xf2, 0x34, 0xb6, 0xe4]

structure FipEntry where
  uuid : List UInt8
  offset : ℕ
  size : ℕ

/-- Entry `i`, when the buffer holds all of it. -/
def fipEntry (buf : List UInt8) (i : ℕ) : Option FipEntry :=
  let at_ := 16 + 40 * i
  if at_ + 40 ≤ buf.length then
    some ⟨bytesAt buf at_ 16, leNat (bytesAt buf (at_ + 16) 8), leNat (bytesAt buf (at_ + 24) 8)⟩
  else none

def uuidZero (uuid : List UInt8) : Bool := uuid.all (· == 0)

/-- The header carries the FIP magic and serial number. -/
def fipHeaderOk (buf : List UInt8) : Bool :=
  leNat (bytesAt buf 0 4) == fipMagic && leNat (bytesAt buf 4 4) == fipSerial

/-! ## The updater's parser -/

/-- What `ursus_fip_parse` returns: where BL33 is and where the image ends. -/
structure FipToc where
  ntOff : ℕ
  ntSize : ℕ
  declaredEnd : ℕ
deriving DecidableEq

/-- The loop of `ursus_fip_parse` over `k` entries from `i`, with the BL33 entry seen so far. -/
def fipScan (buf : List UInt8) : ℕ → ℕ → Option (ℕ × ℕ) → Except ℤ FipToc
  | 0, _, _ => .error (-einval)
  | k + 1, i, nt =>
    match fipEntry buf i with
    | none => .error (-einval)
    | some e =>
      if uuidZero e.uuid then
        if e.size ≠ 0 ∨ e.offset < fipTocMin ∨ buf.length < e.offset then .error (-einval)
        else match nt with
          | none => .error (-einval)
          | some (off, size) => .ok ⟨off, size, e.offset⟩
      else if e.offset < fipTocMin ∨ e.size = 0 ∨ buf.length < e.offset ∨
          buf.length - e.offset < e.size then .error (-erange)
      else fipScan buf k (i + 1) (if e.uuid = ntFwUuid then some (e.offset, e.size) else nt)

def fipParse (buf : List UInt8) : Except ℤ FipToc :=
  if buf.length < 16 + 2 * 40 then .error (-einval)
  else if !fipHeaderOk buf then .error (-einval)
  else fipScan buf fipMaxEntries 0 none

theorem fipScan_inside {k i : ℕ} {nt : Option (ℕ × ℕ)} {toc : FipToc}
    (hnt : ∀ off size, nt = some (off, size) → off + size ≤ buf.length)
    (h : fipScan buf k i nt = .ok toc) : toc.ntOff + toc.ntSize ≤ buf.length := by
  induction k generalizing i nt with
  | zero => cases h
  | succ k ih =>
    unfold fipScan at h
    cases hentry : fipEntry buf i with
    | none =>
      rw [hentry] at h
      cases h
    | some e =>
      simp only [hentry] at h
      split_ifs at h with hzero hend hrange huuid
      · cases nt with
        | none => cases h
        | some x =>
          cases h
          exact hnt x.1 x.2 rfl
      · refine ih (fun off size hx => ?_) h
        cases hx
        omega
      · exact ih hnt h

theorem fipParse_inside {toc : FipToc} (h : fipParse buf = .ok toc) :
    toc.ntOff + toc.ntSize ≤ buf.length ∧ 96 ≤ buf.length := by
  unfold fipParse at h
  split_ifs at h with hlen hheader
  exact ⟨fipScan_inside (by rintro off size ⟨⟩) h, by omega⟩

/-! ## The migration's readings -/

/-- The loop of `ursus_current_fip_length`: the first zero UUID decides. -/
def fipLengthScan (toc : List UInt8) : ℕ → ℕ → Except ℤ ℕ
  | 0, _ => .error (-einval)
  | k + 1, i =>
    match fipEntry toc i with
    | none => .error (-einval)
    | some e =>
      if uuidZero e.uuid then
        if e.offset < 0x10000 ∨ fipMax < e.offset then .error (-einval) else .ok e.offset
      else fipLengthScan toc k (i + 1)

/-- `ursus_current_fip_length`, once the table has been read into `toc`. -/
def fipLength (toc : List UInt8) : Except ℤ ℕ :=
  if fipHeaderOk toc then fipLengthScan toc fipMaxEntries 0 else .error (-einval)

/-- The loop of `ursus_fip_buffer_valid`. -/
def fipValidScan (buf : List UInt8) : ℕ → ℕ → Bool → Bool
  | 0, _, _ => false
  | k + 1, i, nt =>
    match fipEntry buf i with
    | none => false
    | some e => if uuidZero e.uuid then nt else fipValidScan buf k (i + 1) (nt || e.uuid == ntFwUuid)

def fipBufferValid (buf : List UInt8) : Bool :=
  decide (16 + 40 ≤ buf.length) && fipHeaderOk buf && fipValidScan buf fipMaxEntries 0 false

/-! ## Errors are negative -/

theorem fipScan_error {k i : ℕ} {nt : Option (ℕ × ℕ)} {e : ℤ} (h : fipScan buf k i nt = .error e) :
    e < 0 := by
  induction k generalizing i nt with
  | zero => cases h; decide
  | succ k ih =>
    unfold fipScan at h
    repeat' split at h
    all_goals first | exact ih h | (cases h; decide) | cases h

theorem fipParse_error {e : ℤ} (h : fipParse buf = .error e) : e < 0 := by
  unfold fipParse at h
  split_ifs at h
  · cases h; decide
  · cases h; decide
  · exact fipScan_error h

end UrsusBoot
