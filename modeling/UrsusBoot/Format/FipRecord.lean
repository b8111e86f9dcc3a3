import UrsusBoot.Format.FipTable

/-!
# Records of a FIP table

The tools of the repository read and write whole records, with the flags that the readers on the
device pass over.
-/

namespace UrsusBoot

/-! ## Numbers -/

/-- The `k` bytes of a number, the least significant first. -/
def leBytes : ℕ → ℕ → List UInt8
  | 0, _ => []
  | k + 1, n => UInt8.ofNat n :: leBytes k (n / 256)

@[simp] theorem length_leBytes (k n : ℕ) : (leBytes k n).length = k := by
  induction k generalizing n with
  | zero => rfl
  | succ k ih => rw [leBytes, List.length_cons, ih]

theorem leNat_cons (b : UInt8) (bs : List UInt8) : leNat (b :: bs) = b.toNat + 256 * leNat bs := rfl

theorem leNat_leBytes {k n : ℕ} (h : n < 256 ^ k) : leNat (leBytes k n) = n := by
  induction k generalizing n with
  | zero =>
    have hzero : n = 0 := by simpa using h
    rw [hzero]
    rfl
  | succ k ih =>
    have hrest : n / 256 < 256 ^ k := by
      rw [Nat.pow_succ] at h
      exact Nat.div_lt_of_lt_mul (by omega)
    rw [leBytes, leNat_cons, ih hrest, UInt8.toNat_ofNat']
    omega

theorem leNat_lt (bs : List UInt8) : leNat bs < 256 ^ bs.length := by
  induction bs with
  | nil => exact Nat.one_pos
  | cons b bs ih =>
    have hb := b.toNat_lt
    rw [leNat_cons, List.length_cons, Nat.pow_succ]
    omega

theorem leBytes_leNat (bs : List UInt8) : leBytes bs.length (leNat bs) = bs := by
  induction bs with
  | nil => rfl
  | cons b bs ih =>
    have hb := b.toNat_lt
    have hdiv : (b.toNat + 256 * leNat bs) / 256 = leNat bs := by omega
    have hlow : UInt8.ofNat (b.toNat + 256 * leNat bs) = b := by
      apply UInt8.toNat_inj.1
      rw [UInt8.toNat_ofNat']
      omega
    rw [List.length_cons, leNat_cons, leBytes, hdiv, ih, hlow]

theorem length_bytesAt {buf : List UInt8} {a n : ℕ} (h : a + n ≤ buf.length) :
    (bytesAt buf a n).length = n := by
  rw [bytesAt, List.length_take, List.length_drop]
  omega

theorem leNat_bytesAt_lt (buf : List UInt8) (a n : ℕ) : leNat (bytesAt buf a n) < 256 ^ n := by
  have hlen : (bytesAt buf a n).length ≤ n := by
    rw [bytesAt, List.length_take]
    omega
  exact (leNat_lt _).trans_le (Nat.pow_le_pow_right (by decide) hlen)

/-! ## Records -/

structure FipRecord extends FipEntry where
  flags : ℕ

/-- The record `i`, when the buffer holds all of it. -/
def fipRecordAt (buf : List UInt8) (i : ℕ) : Option FipRecord :=
  let pos := 16 + 40 * i
  if pos + 40 ≤ buf.length then
    some ⟨⟨bytesAt buf pos 16, leNat (bytesAt buf (pos + 16) 8), leNat (bytesAt buf (pos + 24) 8)⟩,
      leNat (bytesAt buf (pos + 32) 8)⟩
  else none

theorem fipEntry_eq (buf : List UInt8) (i : ℕ) :
    fipEntry buf i = (fipRecordAt buf i).map FipRecord.toFipEntry := by
  unfold fipEntry fipRecordAt
  by_cases h : 16 + 40 * i + 40 ≤ buf.length
  · simp only [if_pos h, Option.map_some]
  · simp only [if_neg h, Option.map_none]

/-- Offset, size and flags as a record holds them. -/
def FipRecord.fields (off size flags : ℕ) : List UInt8 :=
  leBytes 8 off ++ leBytes 8 size ++ leBytes 8 flags

theorem FipRecord.length_fields (off size flags : ℕ) :
    (FipRecord.fields off size flags).length = 24 := by
  simp [FipRecord.fields]

variable {e : FipRecord}

namespace FipRecord

def bytes (e : FipRecord) : List UInt8 := e.uuid ++ fields e.offset e.size e.flags

/-- The record can be written: sixteen bytes of UUID, and numbers of eight bytes. -/
structure Writable (e : FipRecord) : Prop where
  uuid : e.uuid.length = 16
  offset : e.offset < 256 ^ 8
  size : e.size < 256 ^ 8
  flags : e.flags < 256 ^ 8

theorem length_bytes (h : e.Writable) : e.bytes.length = 40 := by
  rw [bytes, List.length_append, h.uuid, length_fields]

end FipRecord

theorem writable_of_fipRecordAt {buf : List UInt8} {i : ℕ} (h : fipRecordAt buf i = some e) :
    e.Writable := by
  unfold fipRecordAt at h
  dsimp only at h
  split_ifs at h with hlen
  cases h
  exact ⟨length_bytesAt (by omega), leNat_bytesAt_lt _ _ _, leNat_bytesAt_lt _ _ _,
    leNat_bytesAt_lt _ _ _⟩

section Read

variable {buf : List UInt8} {i : ℕ}

theorem bytesAt_bytes {p : ℕ} (he : e.Writable) (h : bytesAt buf p 40 = e.bytes) :
    bytesAt buf p 16 = e.uuid ∧ bytesAt buf (p + 16) 24 = FipRecord.fields e.offset e.size e.flags := by
  have huuid : bytesAt (bytesAt buf p 40) 0 16 = bytesAt buf p 16 := bytesAt_bytesAt (by omega)
  have hfields : bytesAt (bytesAt buf p 40) 16 24 = bytesAt buf (p + 16) 24 :=
    bytesAt_bytesAt (by omega)
  rw [← huuid, ← hfields, h, FipRecord.bytes]
  refine ⟨?_, ?_⟩
  · rw [bytesAt, List.drop_zero, List.take_left' he.uuid]
  · rw [bytesAt, List.drop_left' he.uuid]
    exact List.take_of_length_le (FipRecord.length_fields _ _ _).le

theorem leNat_fields {off size flags p : ℕ} (hoff : off < 256 ^ 8) (hsize : size < 256 ^ 8)
    (hflags : flags < 256 ^ 8) (h : bytesAt buf p 24 = FipRecord.fields off size flags) :
    leNat (bytesAt buf p 8) = off ∧ leNat (bytesAt buf (p + 8) 8) = size ∧
      leNat (bytesAt buf (p + 16) 8) = flags := by
  have hat : ∀ a, a + 8 ≤ 24 →
      bytesAt buf (p + a) 8 = bytesAt (FipRecord.fields off size flags) a 8 := by
    intro a ha
    rw [← h, bytesAt_bytesAt ha]
  have hfirst : bytesAt (FipRecord.fields off size flags) 0 8 = leBytes 8 off := by
    rw [FipRecord.fields, List.append_assoc]
    exact List.take_left' (length_leBytes 8 off)
  have hsecond : bytesAt (FipRecord.fields off size flags) 8 8 = leBytes 8 size := by
    rw [FipRecord.fields, List.append_assoc, bytesAt, List.drop_left' (length_leBytes 8 off)]
    exact List.take_left' (length_leBytes 8 size)
  have hthird : bytesAt (FipRecord.fields off size flags) 16 8 = leBytes 8 flags := by
    rw [FipRecord.fields, bytesAt, List.drop_left' (by simp)]
    exact List.take_of_length_le (length_leBytes 8 flags).le
  have hzero := hat 0 (by omega)
  rw [Nat.add_zero] at hzero
  rw [hzero, hat 8 (by omega), hat 16 (by omega), hfirst, hsecond, hthird]
  exact ⟨leNat_leBytes hoff, leNat_leBytes hsize, leNat_leBytes hflags⟩

/-- **A record is read from its UUID and its numbers.** -/
theorem fipRecordAt_of_parts (he : e.Writable) (hlen : 16 + 40 * i + 40 ≤ buf.length)
    (huuid : bytesAt buf (16 + 40 * i) 16 = e.uuid)
    (hfields : bytesAt buf (16 + 40 * i + 16) 24 = FipRecord.fields e.offset e.size e.flags) :
    fipRecordAt buf i = some e := by
  obtain ⟨hoff, hsize, hflags⟩ := leNat_fields he.offset he.size he.flags hfields
  rw [fipRecordAt, if_pos hlen, huuid, hoff, hsize, hflags]

theorem parts_of_fipRecordAt (h : fipRecordAt buf i = some e) :
    16 + 40 * i + 40 ≤ buf.length ∧ bytesAt buf (16 + 40 * i) 16 = e.uuid ∧
      bytesAt buf (16 + 40 * i + 16) 24 = FipRecord.fields e.offset e.size e.flags := by
  unfold fipRecordAt at h
  dsimp only at h
  split_ifs at h with hlen
  cases h
  refine ⟨hlen, rfl, ?_⟩
  have hback : ∀ a, a + 8 ≤ buf.length →
      leBytes 8 (leNat (bytesAt buf a 8)) = bytesAt buf a 8 := by
    intro a ha
    have hround := leBytes_leNat (bytesAt buf a 8)
    rwa [length_bytesAt ha] at hround
  have hsplit : ∀ a m n, bytesAt buf a (m + n) = bytesAt buf a m ++ bytesAt buf (a + m) n := by
    intro a m n
    rw [bytesAt, bytesAt, bytesAt, List.take_add, List.drop_drop]
  rw [FipRecord.fields, hback _ (by omega), hback _ (by omega), hback _ (by omega),
    hsplit _ 16 8, hsplit _ 8 8]

end Read

/-! ## Tables -/

/-- The records of a buffer up to its first zero UUID: `es`, and then the terminator `t`. -/
structure IsTable (buf : List UInt8) (es : List FipRecord) (t : FipRecord) : Prop where
  entries : ∀ i e, es[i]? = some e → fipRecordAt buf i = some e
  terminator : fipRecordAt buf es.length = some t
  nonzero : ∀ e ∈ es, uuidZero e.uuid = false
  zero : uuidZero t.uuid = true

def lastWith (uuid : List UInt8) (es : List FipRecord) : Option FipRecord :=
  es.reverse.find? fun e => e.uuid == uuid

variable {es : List FipRecord}

theorem lastWith_isSome {uuid : List UInt8} :
    (lastWith uuid es).isSome ↔ ∃ e ∈ es, e.uuid = uuid := by
  simp [lastWith]

theorem mem_of_lastWith {uuid : List UInt8} (h : lastWith uuid es = some e) :
    e ∈ es ∧ e.uuid = uuid := by
  have hmem := List.mem_of_find?_eq_some h
  have huuid := List.find?_some h
  exact ⟨List.mem_reverse.1 hmem, beq_iff_eq.1 huuid⟩

theorem lastWith_map {uuid : List UInt8} {f : FipRecord → FipRecord} (hf : ∀ e, (f e).uuid = e.uuid)
    (es : List FipRecord) : lastWith uuid (es.map f) = (lastWith uuid es).map f := by
  have hsame : ((fun e : FipRecord => e.uuid == uuid) ∘ f) = fun e => e.uuid == uuid := by
    funext e
    rw [Function.comp_apply, hf]
  rw [lastWith, ← List.map_reverse, List.find?_map, hsame, lastWith]

def tocEnd (es : List FipRecord) : ℕ := 16 + 40 * (es.length + 1)

namespace IsTable

variable {buf : List UInt8} {es es' : List FipRecord} {t t' : FipRecord}

theorem tocEnd_le (h : IsTable buf es t) : tocEnd es ≤ buf.length := by
  have hin := (parts_of_fipRecordAt h.terminator).1
  unfold tocEnd
  omega

theorem writable (h : IsTable buf es t) (he : e ∈ es) : e.Writable := by
  obtain ⟨i, hi⟩ := List.mem_iff_getElem?.1 he
  exact writable_of_fipRecordAt (h.entries i e hi)

theorem record (h : IsTable buf es t) {i : ℕ} (hi : (es ++ [t])[i]? = some e) :
    fipRecordAt buf i = some e := by
  by_cases hlt : i < es.length
  · rw [List.getElem?_append_left hlt] at hi
    exact h.entries i e hi
  · rw [List.getElem?_append_right (Nat.le_of_not_lt hlt)] at hi
    obtain ⟨hzero, -⟩ := List.getElem?_eq_some_iff.1 hi
    rw [List.length_singleton] at hzero
    have hend : i = es.length := by omega
    rw [hend, Nat.sub_self] at hi
    cases hi
    rw [hend]
    exact h.terminator

theorem eq (h : IsTable buf es t) (h' : IsTable buf es' t') : es = es' ∧ t = t' := by
  -- the shorter list ends at a zero UUID, where the longer one would go on
  have hle : ∀ {xs ys : List FipRecord} {x y : FipRecord}, IsTable buf xs x → IsTable buf ys y →
      xs.length ≤ ys.length := by
    intro xs ys x y hx hy
    by_contra hlt
    obtain ⟨e, he⟩ : ∃ e, xs[ys.length]? = some e :=
      ⟨_, List.getElem?_eq_getElem (by omega)⟩
    have hread := hx.entries _ e he
    rw [hy.terminator] at hread
    cases hread
    have hnon := hx.nonzero _ (List.mem_of_getElem? he)
    rw [hy.zero] at hnon
    cases hnon
  have hlen : es.length = es'.length := Nat.le_antisymm (hle h h') (hle h' h)
  refine ⟨List.ext_getElem? fun i => ?_, ?_⟩
  · by_cases hi : i < es.length
    · have hone := h.entries i _ (List.getElem?_eq_getElem hi)
      have htwo := h'.entries i _ (List.getElem?_eq_getElem (hlen ▸ hi))
      rw [List.getElem?_eq_getElem hi, List.getElem?_eq_getElem (hlen ▸ hi), ← hone, htwo]
    · rw [List.getElem?_eq_none (by omega), List.getElem?_eq_none (by omega)]
  · have hone := h.terminator
    rw [hlen, h'.terminator] at hone
    exact (Option.some.inj hone).symm

end IsTable

/-- The table from record `i` on, record by record. -/
def RecordsFrom (buf : List UInt8) : ℕ → List FipRecord → FipRecord → Prop
  | i, [], t => fipRecordAt buf i = some t ∧ uuidZero t.uuid = true
  | i, e :: es, t => fipRecordAt buf i = some e ∧ uuidZero e.uuid = false ∧ RecordsFrom buf (i + 1) es t

section Records

variable {buf : List UInt8} {es : List FipRecord} {t : FipRecord}

theorem recordsFrom_iff {i : ℕ} : RecordsFrom buf i es t ↔
    (∀ j e, es[j]? = some e → fipRecordAt buf (i + j) = some e) ∧
      fipRecordAt buf (i + es.length) = some t ∧ (∀ e ∈ es, uuidZero e.uuid = false) ∧
      uuidZero t.uuid = true := by
  induction es generalizing i with
  | nil => simp [RecordsFrom]
  | cons x es ih =>
    have hshift : ∀ j, i + 1 + j = i + (j + 1) := by omega
    rw [RecordsFrom, ih]
    simp only [hshift, List.length_cons, List.forall_mem_cons]
    constructor
    · rintro ⟨hx, hzero, hes, ht, hnon, hz⟩
      refine ⟨fun j e hj => ?_, ht, ⟨hzero, hnon⟩, hz⟩
      cases j with
      | zero =>
        cases hj
        exact hx
      | succ j => exact hes j e hj
    · rintro ⟨hall, ht, ⟨hzero, hnon⟩, hz⟩
      exact ⟨hall 0 x rfl, hzero, fun j e hj => hall (j + 1) e hj, ht, hnon, hz⟩

theorem isTable_iff : IsTable buf es t ↔ RecordsFrom buf 0 es t := by
  rw [recordsFrom_iff]
  simp only [Nat.zero_add]
  exact ⟨fun h => ⟨h.entries, h.terminator, h.nonzero, h.zero⟩, fun h => ⟨h.1, h.2.1, h.2.2.1, h.2.2.2⟩⟩

/-- **The records depend on no byte behind them.** -/
theorem IsTable.congr {buf' : List UInt8} {n : ℕ} (h : IsTable buf es t)
    (hbuf : buf.take n = buf'.take n) (hend : tocEnd es ≤ n) (hlen : tocEnd es ≤ buf'.length) :
    IsTable buf' es t := by
  have hread : ∀ i e, i ≤ es.length → fipRecordAt buf i = some e → fipRecordAt buf' i = some e := by
    intro i e hi he
    obtain ⟨-, huuid, hfields⟩ := parts_of_fipRecordAt he
    unfold tocEnd at hend hlen
    refine fipRecordAt_of_parts (writable_of_fipRecordAt he) (by omega) ?_ ?_
    · rw [← huuid, bytesAt_congr hbuf (by omega)]
    · rw [← hfields, bytesAt_congr hbuf (by omega)]
  refine ⟨fun i e hi => ?_, hread _ t (Nat.le_refl _) h.terminator, h.nonzero, h.zero⟩
  obtain ⟨hlt, -⟩ := List.getElem?_eq_some_iff.1 hi
  exact hread i e (Nat.le_of_lt hlt) (h.entries i e hi)

theorem fipTableFrom_iff {k i : ℕ} {T : FipTable} : fipTableFrom buf k i = some T ↔
    ∃ (es : List FipRecord) (t : FipRecord), es.length < k ∧ RecordsFrom buf i es t ∧
      T = ⟨es.map FipRecord.toFipEntry, t.toFipEntry⟩ := by
  induction k generalizing i T with
  | zero => simp [fipTableFrom]
  | succ k ih =>
    constructor
    · intro h
      obtain ⟨he, hz, hnil⟩ | ⟨e, T', he, hz, hT', rfl⟩ := fipTableFrom_cases h
      · rw [fipEntry_eq] at he
        obtain ⟨t, ht, hterm⟩ := Option.map_eq_some_iff.1 he
        rw [← hterm] at hz
        refine ⟨[], t, Nat.succ_pos k, ⟨ht, hz⟩, ?_⟩
        rw [List.map_nil, hterm, ← hnil]
      · rw [fipEntry_eq] at he
        obtain ⟨r, hr, rfl⟩ := Option.map_eq_some_iff.1 he
        obtain ⟨es, t, hlen, hes, rfl⟩ := ih.1 hT'
        exact ⟨r :: es, t, Nat.succ_lt_succ hlen, ⟨hr, hz, hes⟩, rfl⟩
    · rintro ⟨es, t, hlen, hes, rfl⟩
      cases es with
      | nil =>
        obtain ⟨ht, hz⟩ := hes
        have hend : fipEntry buf i = some t.toFipEntry := by
          rw [fipEntry_eq, ht]
          rfl
        exact fipTableFrom_nil hend hz
      | cons e es =>
        obtain ⟨he, hz, hrest⟩ := hes
        have hhead : fipEntry buf i = some e.toFipEntry := by
          rw [fipEntry_eq, he]
          rfl
        rw [fipTableFrom_cons hhead hz, ih.2 ⟨es, t, Nat.lt_of_succ_lt_succ hlen, hrest, rfl⟩]
        rfl

/-- **The table the readers on the device see**, when it has at most 31 entries. -/
theorem IsTable.fipTable (h : IsTable buf es t) (hlen : es.length < fipMaxEntries) :
    UrsusBoot.fipTable buf = some ⟨es.map FipRecord.toFipEntry, t.toFipEntry⟩ :=
  fipTableFrom_iff.2 ⟨es, t, hlen, isTable_iff.1 h, rfl⟩

theorem isTable_of_fipTable {T : FipTable} (h : fipTable buf = some T) :
    ∃ es t, IsTable buf es t ∧ T = ⟨es.map FipRecord.toFipEntry, t.toFipEntry⟩ ∧
      es.length < fipMaxEntries := by
  obtain ⟨es, t, hlen, hes, rfl⟩ := fipTableFrom_iff.1 h
  exact ⟨es, t, isTable_iff.2 hes, rfl, hlen⟩

theorem lastNt_eq (es : List FipRecord) (t : FipEntry) :
    FipTable.lastNt ⟨es.map FipRecord.toFipEntry, t⟩ =
      (lastWith ntFwUuid es).map fun e => (e.offset, e.size) := by
  unfold FipTable.lastNt lastWith
  rw [← List.map_reverse, List.find?_map, Option.map_map]
  rfl

end Records

/-! ## Writing a table -/

/-- A header of sixteen bytes, records and their terminator. -/
def fipHead (header : List UInt8) (es : List FipRecord) (t : FipRecord) : List UInt8 :=
  header ++ ((es ++ [t]).map FipRecord.bytes).flatten

theorem length_flatten_bytes (h : ∀ e ∈ es, e.Writable) :
    ((es.map FipRecord.bytes).flatten).length = 40 * es.length := by
  induction es with
  | nil => rfl
  | cons e es ih =>
    rw [List.map_cons, List.flatten_cons, List.length_append,
      FipRecord.length_bytes (h e List.mem_cons_self),
      ih fun e' he' => h e' (List.mem_cons_of_mem e he'), List.length_cons]
    omega

theorem bytesAt_flatten (h : ∀ e ∈ es, e.Writable) (rest : List UInt8) {i : ℕ}
    (hi : es[i]? = some e) :
    bytesAt ((es.map FipRecord.bytes).flatten ++ rest) (40 * i) 40 = e.bytes := by
  induction es generalizing i with
  | nil => cases hi
  | cons x es ih =>
    have hx := FipRecord.length_bytes (h x List.mem_cons_self)
    rw [List.map_cons, List.flatten_cons, List.append_assoc]
    cases i with
    | zero =>
      cases hi
      exact List.take_left' hx
    | succ i =>
      rw [bytesAt, Nat.mul_succ, Nat.add_comm, ← List.drop_drop, List.drop_left' hx]
      exact ih (fun e' he' => h e' (List.mem_cons_of_mem x he')) hi

section Head

variable {header : List UInt8} {es : List FipRecord} {t : FipRecord}

theorem length_fipHead (hheader : header.length = 16) (hes : ∀ e ∈ es, e.Writable)
    (ht : t.Writable) : (fipHead header es t).length = tocEnd es := by
  have hall : ∀ e ∈ es ++ [t], e.Writable := by
    intro e he
    rcases List.mem_append.1 he with he | he
    · exact hes e he
    · rw [List.mem_singleton.1 he]
      exact ht
  rw [fipHead, List.length_append, hheader, length_flatten_bytes hall, List.length_append, tocEnd,
    List.length_singleton]

/-- **A table that was written is read back**, whatever follows it. -/
theorem isTable_fipHead (hheader : header.length = 16) (hes : ∀ e ∈ es, e.Writable)
    (ht : t.Writable) (hnon : ∀ e ∈ es, uuidZero e.uuid = false) (hz : uuidZero t.uuid = true)
    (rest : List UInt8) : IsTable (fipHead header es t ++ rest) es t := by
  have hall : ∀ e ∈ es ++ [t], e.Writable := by
    intro e he
    rcases List.mem_append.1 he with he | he
    · exact hes e he
    · rw [List.mem_singleton.1 he]
      exact ht
  have hread : ∀ i e, (es ++ [t])[i]? = some e → fipRecordAt (fipHead header es t ++ rest) i = some e := by
    intro i e hi
    have hbound : i < es.length + 1 := by
      obtain ⟨hlt, -⟩ := List.getElem?_eq_some_iff.1 hi
      rwa [List.length_append, List.length_singleton] at hlt
    have hwr := hall e (List.mem_of_getElem? hi)
    have hbytes : bytesAt (fipHead header es t ++ rest) (16 + 40 * i) 40 = e.bytes := by
      rw [fipHead, List.append_assoc, bytesAt, ← List.drop_drop, List.drop_left' hheader]
      exact bytesAt_flatten hall rest hi
    obtain ⟨huuid, hfields⟩ := bytesAt_bytes hwr hbytes
    refine fipRecordAt_of_parts hwr ?_ huuid hfields
    rw [List.length_append, length_fipHead hheader hes ht, tocEnd]
    omega
  refine ⟨fun i e hi => hread i e ?_, hread es.length t ?_, hnon, hz⟩
  · obtain ⟨hlt, -⟩ := List.getElem?_eq_some_iff.1 hi
    rw [List.getElem?_append_left hlt, hi]
  · rw [List.getElem?_append_right (Nat.le_refl _), Nat.sub_self]
    rfl

end Head

end UrsusBoot
