import UrsusBoot.Lib.Buffer
import UrsusBoot.Format.Fip

/-!
# The table of a FIP

The table as the list of its entries and its terminator, and what each reader of the format makes
of it. The readers are written apart in the source and stop by different rules; over `FipTable` they
differ only in which entry they take and in which ranges they ask for.
-/

namespace UrsusBoot

open Buffer

/-! ## The parser, read by read -/

/-- The record `i` of `ursus_fip_parse`: `some none` when it does not fit in the buffer. -/
def fipEntryAt (buf : List UInt8) (i : ℕ) : Option (Option FipEntry) :=
  let ent := 16 + 40 * i
  if buf.length < ent + 40 then some none
  else do
    let off ← readAt buf (ent + 16) 8
    let size ← readAt buf (ent + 24) 8
    let uuid ← readAt buf ent 16
    return some ⟨uuid, leNat off, leNat size⟩

/-- The loop of `ursus_fip_parse`; sums are those of a `u64`. -/
def fipScanAt (buf : List UInt8) : ℕ → ℕ → Option (ℕ × ℕ) → Option (Except ℤ FipToc)
  | 0, _, _ => some (.error (-einval))
  | k + 1, i, nt => do
    match ← fipEntryAt buf i with
    | none => return .error (-einval)
    | some e =>
      if uuidZero e.uuid then
        if e.size ≠ 0 ∨ e.offset < fipTocMin ∨ buf.length < e.offset then return .error (-einval)
        else match nt with
          | none => return .error (-einval)
          | some (off, size) => return .ok ⟨off, size, e.offset⟩
      else if e.offset < fipTocMin ∨ e.size = 0 ∨ buf.length < e.offset ∨
          buf.length - e.offset < e.size then return .error (-erange)
      else if buf.length < (e.offset + e.size) % 2 ^ 64 then return .error (-erange)
      else fipScanAt buf k (i + 1) (if e.uuid = ntFwUuid then some (e.offset, e.size) else nt)

/-- `ursus_fip_parse`, read by read. -/
def fipParseAt (buf : List UInt8) : Option (Except ℤ FipToc) :=
  if buf.length < 16 + 2 * 40 then some (.error (-einval))
  else do
    let name ← readAt buf 0 4
    let serial ← readAt buf 4 4
    if leNat name ≠ fipMagic ∨ leNat serial ≠ fipSerial then return .error (-einval)
    else fipScanAt buf fipMaxEntries 0 none

theorem fipEntryAt_eq (buf : List UInt8) (i : ℕ) : fipEntryAt buf i = some (fipEntry buf i) := by
  unfold fipEntryAt fipEntry
  by_cases h : 16 + 40 * i + 40 ≤ buf.length
  · rw [if_neg (by omega), if_pos h, readAt_of_le (by omega), readAt_of_le (by omega),
      readAt_of_le (by omega)]
    rfl
  · rw [if_pos (by omega), if_neg h]

theorem fipScanAt_eq (buf : List UInt8) (k i : ℕ) (nt : Option (ℕ × ℕ)) :
    fipScanAt buf k i nt = some (fipScan buf k i nt) := by
  induction k generalizing i nt with
  | zero => rfl
  | succ k ih =>
    rw [fipScanAt, fipScan, fipEntryAt_eq]
    cases fipEntry buf i with
    | none => rfl
    | some e =>
      simp only [Option.bind_eq_bind, Option.bind_some]
      by_cases hzero : uuidZero e.uuid = true
      · rw [if_pos hzero, if_pos hzero]
        split_ifs
        · rfl
        · cases nt <;> rfl
      rw [if_neg hzero, if_neg hzero]
      by_cases hrange : e.offset < fipTocMin ∨ e.size = 0 ∨ buf.length < e.offset ∨
          buf.length - e.offset < e.size
      · rw [if_pos hrange, if_pos hrange]
        rfl
      · -- the sum of an accepted range is its end, which the buffer holds
        have hmod := Nat.mod_le (e.offset + e.size) (2 ^ 64)
        rw [if_neg hrange, if_neg hrange, if_neg (by omega)]
        exact ih _ _

/-- **The parser reads inside the buffer**, whatever it holds. -/
theorem fipParseAt_eq (buf : List UInt8) : fipParseAt buf = some (fipParse buf) := by
  unfold fipParseAt fipParse fipHeaderOk
  by_cases hlen : buf.length < 16 + 2 * 40
  · rw [if_pos hlen, if_pos hlen]
  rw [if_neg hlen, if_neg hlen, readAt_of_le (by omega), readAt_of_le (by omega)]
  change (if leNat (bytesAt buf 0 4) ≠ fipMagic ∨ leNat (bytesAt buf 4 4) ≠ fipSerial then _
    else fipScanAt buf fipMaxEntries 0 none) = _
  by_cases hheader : leNat (bytesAt buf 0 4) = fipMagic ∧ leNat (bytesAt buf 4 4) = fipSerial
  · rw [if_neg (by tauto), fipScanAt_eq, if_neg (by simp [hheader.1, hheader.2])]
  · rw [if_pos (by tauto), if_pos]
    · rfl
    · simpa [or_iff_not_imp_left] using hheader

/-! ## Entries and terminator -/

namespace FipEntry

def isNt (e : FipEntry) : Bool := e.uuid == ntFwUuid

def range (e : FipEntry) : ℕ × ℕ := (e.offset, e.size)

/-- The ranges `ursus_fip_parse` accepts in a buffer of `len` bytes. -/
def Inside (len : ℕ) (e : FipEntry) : Prop :=
  fipTocMin ≤ e.offset ∧ 0 < e.size ∧ e.offset + e.size ≤ len

end FipEntry

/-- The entries before the terminator, and the terminator. -/
structure FipTable where
  entries : List FipEntry
  terminator : FipEntry

/-- The table in the next `k` records from record `i`. -/
def fipTableFrom (buf : List UInt8) : ℕ → ℕ → Option FipTable
  | 0, _ => none
  | k + 1, i =>
    match fipEntry buf i with
    | none => none
    | some e =>
      if uuidZero e.uuid then some ⟨[], e⟩
      else (fipTableFrom buf k (i + 1)).map fun T => ⟨e :: T.entries, T.terminator⟩

def fipTable (buf : List UInt8) : Option FipTable := fipTableFrom buf fipMaxEntries 0

namespace FipTable

def tableEnd (T : FipTable) : ℕ := 16 + 40 * (T.entries.length + 1)

/-- The first BL33 entry: the one a loader that stops at the first match loads. -/
def firstNt (T : FipTable) : Option (ℕ × ℕ) := (T.entries.find? FipEntry.isNt).map FipEntry.range

def lastNt (T : FipTable) : Option (ℕ × ℕ) :=
  (T.entries.reverse.find? FipEntry.isNt).map FipEntry.range

end FipTable

variable {k i : ℕ} {e : FipEntry}

variable {buf : List UInt8}

theorem fipTableFrom_cons (he : fipEntry buf i = some e) (hz : uuidZero e.uuid = false) :
    fipTableFrom buf (k + 1) i =
      (fipTableFrom buf k (i + 1)).map fun T => ⟨e :: T.entries, T.terminator⟩ := by
  rw [fipTableFrom, he]
  simp only [hz, Bool.false_eq_true, if_false]

theorem fipTableFrom_nil (he : fipEntry buf i = some e) (hz : uuidZero e.uuid = true) :
    fipTableFrom buf (k + 1) i = some ⟨[], e⟩ := by
  rw [fipTableFrom, he]
  simp only [hz, if_true]

variable {T : FipTable}

theorem fipTableFrom_cases (h : fipTableFrom buf (k + 1) i = some T) :
    (fipEntry buf i = some T.terminator ∧ uuidZero T.terminator.uuid = true ∧ T.entries = []) ∨
    ∃ e T', fipEntry buf i = some e ∧ uuidZero e.uuid = false ∧
      fipTableFrom buf k (i + 1) = some T' ∧ T = ⟨e :: T'.entries, T'.terminator⟩ := by
  cases he : fipEntry buf i with
  | none =>
    rw [fipTableFrom, he] at h
    cases h
  | some e =>
    cases hz : uuidZero e.uuid with
    | true =>
      rw [fipTableFrom_nil he hz] at h
      cases h
      exact Or.inl ⟨rfl, hz, rfl⟩
    | false =>
      rw [fipTableFrom_cons he hz] at h
      obtain ⟨T', hT', rfl⟩ := Option.map_eq_some_iff.1 h
      exact Or.inr ⟨e, T', rfl, hz, hT', rfl⟩

theorem fipEntry_inside {i : ℕ} (h : fipEntry buf i = some e) :
    16 + 40 * (i + 1) ≤ buf.length := by
  unfold fipEntry at h
  dsimp only at h
  split_ifs at h
  omega

theorem fipTableFrom_inside (h : fipTableFrom buf k i = some T) :
    16 + 40 * (i + T.entries.length + 1) ≤ buf.length ∧ T.entries.length < k := by
  induction k generalizing i T with
  | zero => cases h
  | succ k ih =>
    obtain ⟨he, -, hnil⟩ | ⟨e, T', -, -, hT', rfl⟩ := fipTableFrom_cases h
    · rw [hnil, List.length_nil]
      exact ⟨fipEntry_inside he, by omega⟩
    · obtain ⟨hlen, hk⟩ := ih hT'
      simp only [List.length_cons]
      omega

theorem fipTable_inside (h : fipTable buf = some T) :
    T.tableEnd ≤ buf.length ∧ T.tableEnd ≤ 1296 := by
  obtain ⟨hlen, hk⟩ := fipTableFrom_inside h
  have hmax : T.entries.length < 32 := hk
  unfold FipTable.tableEnd
  omega

/-! ## The table depends on no byte behind it -/

section Congr

variable {buf buf' : List UInt8} {n : ℕ}

theorem bytesAt_congr (hbuf : buf.take n = buf'.take n) {a m : ℕ} (h : a + m ≤ n) :
    bytesAt buf a m = bytesAt buf' a m := by
  rw [← bytesAt_take h, hbuf, bytesAt_take h]

theorem fipEntry_congr (hbuf : buf.take n = buf'.take n) (hn : n ≤ buf'.length) {i : ℕ}
    (he : fipEntry buf i = some e) (hi : 16 + 40 * (i + 1) ≤ n) :
    fipEntry buf' i = some e := by
  have hin := fipEntry_inside he
  rw [← he, fipEntry, fipEntry, if_pos (by omega), if_pos (by omega)]
  rw [bytesAt_congr hbuf (by omega), bytesAt_congr hbuf (by omega), bytesAt_congr hbuf (by omega)]

theorem fipTableFrom_congr (hbuf : buf.take n = buf'.take n) (hn : n ≤ buf'.length)
    (hT : fipTableFrom buf k i = some T) (hend : 16 + 40 * (i + T.entries.length + 1) ≤ n) :
    fipTableFrom buf' k i = some T := by
  induction k generalizing i T with
  | zero => cases hT
  | succ k ih =>
    obtain ⟨he, hz, hnil⟩ | ⟨e, T', he, hz, hT', rfl⟩ := fipTableFrom_cases hT
    · rw [hnil, List.length_nil] at hend
      rw [fipTableFrom_nil (fipEntry_congr hbuf hn he (by omega)) hz, ← hnil]
    · simp only [List.length_cons] at hend
      rw [fipTableFrom_cons (fipEntry_congr hbuf hn he (by omega)) hz, ih hT' (by omega)]
      rfl

/-- **Buffers that agree up to the end of the table have the same table.** -/
theorem fipTable_congr (hbuf : buf.take n = buf'.take n) (hn : n ≤ buf'.length)
    (hT : fipTable buf = some T) (hend : T.tableEnd ≤ n) : fipTable buf' = some T :=
  fipTableFrom_congr hbuf hn hT (by unfold FipTable.tableEnd at hend; omega)

end Congr

/-! ## What the readers accept -/

/-- The BL33 entry the parser remembers after the entries. -/
def ntAfter (nt : Option (ℕ × ℕ)) (es : List FipEntry) : Option (ℕ × ℕ) :=
  es.foldl (fun nt e => if e.uuid = ntFwUuid then some (e.offset, e.size) else nt) nt

theorem ntAfter_none (T : FipTable) : ntAfter none T.entries = T.lastNt := by
  unfold ntAfter FipTable.lastNt
  induction T.entries using List.reverseRecOn with
  | nil => rfl
  | append_singleton es e ih =>
    rw [List.foldl_append, ih, List.reverse_append]
    by_cases he : e.uuid = ntFwUuid
    · simp [FipEntry.isNt, FipEntry.range, he]
    · simp [FipEntry.isNt, he]

/-- What the parser asks of a table in a buffer of `len` bytes. -/
structure FipTable.Accepted (T : FipTable) (len : ℕ) : Prop where
  size : T.terminator.size = 0
  low : fipTocMin ≤ T.terminator.offset
  high : T.terminator.offset ≤ len
  entries : ∀ e ∈ T.entries, e.Inside len

variable {toc : FipToc}

theorem fipScan_terminator {nt : Option (ℕ × ℕ)} (he : fipEntry buf i = some e)
    (hz : uuidZero e.uuid = true) :
    fipScan buf (k + 1) i nt = .ok toc ↔ e.size = 0 ∧ fipTocMin ≤ e.offset ∧ e.offset ≤ buf.length ∧
      toc.declaredEnd = e.offset ∧ nt = some (toc.ntOff, toc.ntSize) := by
  obtain ⟨ntOff, ntSize, declaredEnd⟩ := toc
  rw [fipScan, he]
  simp only [hz, if_true]
  by_cases hbad : e.size ≠ 0 ∨ e.offset < fipTocMin ∨ buf.length < e.offset
  · rw [if_pos hbad]
    refine iff_of_false (by rintro ⟨⟩) fun h => ?_
    omega
  · rw [if_neg hbad]
    cases nt with
    | none => simp
    | some x =>
      simp only [Except.ok.injEq, FipToc.mk.injEq, Option.some.injEq, Prod.ext_iff]
      constructor
      · rintro ⟨rfl, rfl, rfl⟩
        exact ⟨by omega, by omega, by omega, rfl, rfl, rfl⟩
      · rintro ⟨-, -, -, rfl, rfl, rfl⟩
        exact ⟨rfl, rfl, rfl⟩

theorem fipScan_entry {nt : Option (ℕ × ℕ)} (he : fipEntry buf i = some e)
    (hz : uuidZero e.uuid = false) :
    fipScan buf (k + 1) i nt = .ok toc ↔ e.Inside buf.length ∧
      fipScan buf k (i + 1) (if e.uuid = ntFwUuid then some (e.offset, e.size) else nt) =
        .ok toc := by
  rw [fipScan, he]
  simp only [hz, Bool.false_eq_true, if_false]
  by_cases hbad : e.offset < fipTocMin ∨ e.size = 0 ∨ buf.length < e.offset ∨
      buf.length - e.offset < e.size
  · rw [if_pos hbad]
    refine iff_of_false (by rintro ⟨⟩) fun h => ?_
    obtain ⟨hlow, hpos, hend⟩ := h.1
    omega
  · rw [if_neg hbad]
    have hin : e.Inside buf.length := ⟨by omega, by omega, by omega⟩
    exact ⟨fun h => ⟨hin, h⟩, fun h => h.2⟩

theorem fipScan_ok_iff {nt : Option (ℕ × ℕ)} :
    fipScan buf k i nt = .ok toc ↔ ∃ T, fipTableFrom buf k i = some T ∧ T.Accepted buf.length ∧
      toc.declaredEnd = T.terminator.offset ∧
      ntAfter nt T.entries = some (toc.ntOff, toc.ntSize) := by
  induction k generalizing i nt with
  | zero => simp [fipScan, fipTableFrom]
  | succ k ih =>
    cases he : fipEntry buf i with
    | none => simp [fipScan, fipTableFrom, he]
    | some e =>
      cases hz : uuidZero e.uuid with
      | true =>
        rw [fipScan_terminator he hz, fipTableFrom_nil he hz]
        constructor
        · rintro ⟨hsize, hlow, hhigh, hend, hnt⟩
          exact ⟨⟨[], e⟩, rfl, ⟨hsize, hlow, hhigh, nofun⟩, hend, hnt⟩
        · rintro ⟨T, hT, hacc, hend, hnt⟩
          cases hT
          exact ⟨hacc.size, hacc.low, hacc.high, hend, hnt⟩
      | false =>
        rw [fipScan_entry he hz, fipTableFrom_cons he hz, ih]
        constructor
        · rintro ⟨hin, T, hT, hacc, hend, hnt⟩
          refine ⟨⟨e :: T.entries, T.terminator⟩, by rw [hT]; rfl, ?_, hend, hnt⟩
          refine ⟨hacc.size, hacc.low, hacc.high, fun x hx => ?_⟩
          obtain rfl | hx := List.mem_cons.1 hx
          · exact hin
          · exact hacc.entries x hx
        · rintro ⟨T, hT, hacc, hend, hnt⟩
          obtain ⟨T', hT', rfl⟩ := Option.map_eq_some_iff.1 hT
          refine ⟨hacc.entries e List.mem_cons_self, T', hT', ?_, hend, hnt⟩
          exact ⟨hacc.size, hacc.low, hacc.high, fun x hx =>
            hacc.entries x (List.mem_cons_of_mem _ hx)⟩

/-- **What the updater's parser accepts**, and which BL33 entry it returns: the last one. -/
theorem fipParse_ok_iff :
    fipParse buf = .ok toc ↔ 96 ≤ buf.length ∧ fipHeaderOk buf = true ∧
      ∃ T, fipTable buf = some T ∧ T.Accepted buf.length ∧
        toc.declaredEnd = T.terminator.offset ∧ T.lastNt = some (toc.ntOff, toc.ntSize) := by
  unfold fipParse
  by_cases hlen : buf.length < 16 + 2 * 40
  · rw [if_pos hlen]
    refine iff_of_false nofun fun h => ?_
    omega
  cases hheader : fipHeaderOk buf with
  | false => simp [hlen]
  | true =>
    rw [if_neg hlen, Bool.not_true, if_neg Bool.false_ne_true, fipScan_ok_iff]
    simp only [ntAfter_none, fipTable]
    exact ⟨fun h => ⟨by omega, trivial, h⟩, fun h => h.2.2⟩

theorem fipTable_append {buf rest : List UInt8} (h : fipTable buf = some T) :
    fipTable (buf ++ rest) = some T := by
  obtain ⟨hend, -⟩ := fipTable_inside h
  refine fipTable_congr (n := T.tableEnd) ?_ ?_ h le_rfl
  · rw [List.take_append_of_le_length hend]
  · rw [List.length_append]
    omega

/-- **A FIP is parsed alike whatever follows it.** -/
theorem fipParse_append (h : fipParse buf = .ok toc) (rest : List UInt8) :
    fipParse (buf ++ rest) = .ok toc := by
  obtain ⟨hlen, hheader, T, hT, hacc, hend, hnt⟩ := fipParse_ok_iff.1 h
  have hle : buf.length ≤ (buf ++ rest).length := by simp
  have hsame : ∀ a m, a + m ≤ 96 → bytesAt (buf ++ rest) a m = bytesAt buf a m := fun a m h =>
    bytesAt_congr (n := 96) (List.take_append_of_le_length hlen) h
  refine fipParse_ok_iff.2 ⟨hlen.trans hle, ?_, T, fipTable_append hT, ?_, hend, hnt⟩
  · rw [← hheader]
    unfold fipHeaderOk
    rw [hsame 0 4 (by omega), hsame 4 4 (by omega)]
  · refine ⟨hacc.size, hacc.low, hacc.high.trans hle, fun e he => ?_⟩
    obtain ⟨hlow, hpos, hin⟩ := hacc.entries e he
    exact ⟨hlow, hpos, hin.trans hle⟩

/-! ## Readers that stop at the first match -/

/-- A walk over at most `k` records from record `i` that takes the first BL33 entry, and gives up at
a zero UUID or where the buffer ends. -/
def firstMatch (buf : List UInt8) : ℕ → ℕ → Option (ℕ × ℕ)
  | 0, _ => none
  | k + 1, i =>
    match fipEntry buf i with
    | none => none
    | some e =>
      if uuidZero e.uuid then none
      else if e.uuid = ntFwUuid then some (e.offset, e.size)
      else firstMatch buf k (i + 1)

/-- The walk of `inspect_slot` in `ursusstock.c` over the first `FIP_TOC_READ` bytes of a slot. -/
def slotWalk (tocbuf : List UInt8) : Option (ℕ × ℕ) := firstMatch tocbuf 32 0

/-- The walk of the check that `build.sh` makes of the FIP it has produced: over the whole file, as
long as a record fits. -/
def buildWalk (fip : List UInt8) : Option (ℕ × ℕ) := firstMatch fip fip.length 0

theorem firstMatch_eq {k k' i : ℕ} (h : fipTableFrom buf k i = some T) (hk : T.entries.length < k')
    :
    firstMatch buf k' i = T.firstNt := by
  induction k generalizing k' i T with
  | zero => cases h
  | succ k ih =>
    obtain ⟨k', rfl⟩ : ∃ m, k' = m + 1 := ⟨k' - 1, by omega⟩
    obtain ⟨he, hz, hnil⟩ | ⟨e, T', he, hz, hT', rfl⟩ := fipTableFrom_cases h
    · rw [firstMatch, he, FipTable.firstNt, hnil]
      simp only [hz, if_true]
      rfl
    · rw [firstMatch, he, FipTable.firstNt]
      simp only [hz, Bool.false_eq_true, if_false]
      by_cases hnt : e.uuid = ntFwUuid
      · have hfound : e.isNt = true := by simpa [FipEntry.isNt] using hnt
        rw [if_pos hnt, List.find?_cons_of_pos hfound]
        rfl
      · have hother : ¬ e.isNt = true := by simpa [FipEntry.isNt] using hnt
        rw [if_neg hnt, List.find?_cons_of_neg hother]
        exact ih hT' (by simpa using hk)

theorem slotWalk_eq (h : fipTable buf = some T) :
    slotWalk buf = T.firstNt :=
  firstMatch_eq h (fipTableFrom_inside h).2

theorem buildWalk_eq (h : fipTable buf = some T) :
    buildWalk buf = T.firstNt := by
  have hend := (fipTable_inside h).1
  unfold FipTable.tableEnd at hend
  exact firstMatch_eq h (by omega)

end UrsusBoot
