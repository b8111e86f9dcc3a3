import UrsusBoot.Format.FipRecord

/-!
# The parser of the MF board

`mf3_persist2_validator.py` replaces `ursus_fip_parse` in the firmware of the MF board: compact FIPs
put their first payload right behind the table, so the lower bound of a payload is the end of the
table and not a constant. The new parser makes two passes, since the end of the table is known after
the first.
-/

namespace UrsusBoot

open Buffer

namespace Mf

/-- What the first pass knows when it has met the terminator. -/
structure Pass where
  /-- The number of records before the terminator. -/
  count : ℕ
  nt : Option (ℕ × ℕ)
  declaredEnd : ℕ
  tocEnd : ℕ

/-- The first pass over `k` records from record `i`. -/
def firstPass (buf : List UInt8) : ℕ → ℕ → Option (ℕ × ℕ) → Option (Except ℤ Pass)
  -- the loop ends without a terminator
  | 0, _, _ => some (.error (-einval))
  | k + 1, i, nt => do
    match ← fipEntryAt buf i with
    | none => return .error (-einval)
    | some e =>
      if uuidZero e.uuid then
        if e.size ≠ 0 ∨ buf.length < e.offset then return .error (-einval)
        else if e.offset < 16 + 40 * (i + 1) then return .error (-einval)
        else return .ok ⟨i, nt, e.offset, 16 + 40 * (i + 1)⟩
      else if e.size = 0 ∨ buf.length < e.offset ∨ buf.length - e.offset < e.size then
        return .error (-erange)
      else firstPass buf k (i + 1) (if e.uuid = ntFwUuid then some (e.offset, e.size) else nt)

/-- The second pass over `k` records from record `j`. -/
def secondPass (buf : List UInt8) (tocEnd dend : ℕ) : ℕ → ℕ → Option (Except ℤ Unit)
  | 0, _ => some (.ok ())
  | k + 1, j => do
    let off ← readAt buf (16 + 40 * j + 16) 8
    let size ← readAt buf (16 + 40 * j + 24) 8
    if leNat off < tocEnd ∨ dend < leNat off ∨ dend - leNat off < leNat size then
      return .error (-erange)
    else secondPass buf tocEnd dend k (j + 1)

/-- A number as `%x` prints it after a cast to `unsigned int`. -/
def hex32 (n : ℕ) : String := String.ofList (Nat.toDigits 16 (n % 2 ^ 32))

def parseOkText (tocEnd dend noff nsize : ℕ) : String :=
  "URSUS_MF3_FIP_PARSE_OK toc_end=0x" ++ hex32 tocEnd ++ " declared_end=0x" ++ hex32 dend ++
    " nt_off=0x" ++ hex32 noff ++ " nt_size=0x" ++ hex32 nsize ++ "\n"

/-- `ursus_fip_parse` of the MF board: what it returns, and what it prints. -/
def fipParse (buf : List UInt8) : Option (Except ℤ (FipToc × String)) :=
  if buf.length < 16 + 2 * 40 then some (.error (-einval))
  else do
    let name ← readAt buf 0 4
    let serial ← readAt buf 4 4
    if leNat name ≠ fipMagic ∨ leNat serial ≠ fipSerial then return .error (-einval)
    else match ← firstPass buf fipMaxEntries 0 none with
      | .error err => return .error err
      | .ok p =>
        match p.nt with
        | none => return .error (-einval)
        | some (noff, nsize) =>
          match ← secondPass buf p.tocEnd p.declaredEnd p.count 0 with
          | .error err => return .error err
          | .ok () =>
            return .ok (⟨noff, nsize, p.declaredEnd⟩,
              parseOkText p.tocEnd p.declaredEnd noff nsize)

/-! ## The two passes -/

/-- The range lies in a buffer of `len` bytes and is not empty. -/
def Within (len : ℕ) (e : FipEntry) : Prop := 0 < e.size ∧ e.offset + e.size ≤ len

section Passes

variable {buf : List UInt8}

theorem firstPass_entry {k i : ℕ} {nt : Option (ℕ × ℕ)} {e : FipEntry}
    (he : fipEntry buf i = some e) (hz : uuidZero e.uuid = false) (hin : Within buf.length e) :
    firstPass buf (k + 1) i nt =
      firstPass buf k (i + 1) (if e.uuid = ntFwUuid then some (e.offset, e.size) else nt) := by
  obtain ⟨hpos, hend⟩ := hin
  rw [firstPass, fipEntryAt_eq, he]
  simp only [Option.bind_eq_bind, Option.bind_some, hz, Bool.false_eq_true, if_false]
  rw [if_neg (by omega)]

/-- **The first pass** ends, and it succeeds on the tables whose terminator is empty and lies behind
the table, and whose ranges lie in the buffer. -/
theorem firstPass_spec (buf : List UInt8) (k i : ℕ) (nt : Option (ℕ × ℕ)) :
    ∃ r, firstPass buf k i nt = some r ∧ ∀ p, r = .ok p ↔
      ∃ T, fipTableFrom buf k i = some T ∧ T.terminator.size = 0 ∧
        T.terminator.offset ≤ buf.length ∧
        16 + 40 * (i + T.entries.length + 1) ≤ T.terminator.offset ∧
        (∀ e ∈ T.entries, Within buf.length e) ∧
        p = ⟨i + T.entries.length, ntAfter nt T.entries, T.terminator.offset,
          16 + 40 * (i + T.entries.length + 1)⟩ := by
  induction k generalizing i nt with
  | zero => exact ⟨_, rfl, fun p => by simp [fipTableFrom]⟩
  | succ k ih =>
    cases he : fipEntry buf i with
    | none =>
      refine ⟨.error (-einval), by rw [firstPass, fipEntryAt_eq, he]; rfl, fun p => ?_⟩
      simp [fipTableFrom, he]
    | some e =>
      cases hz : uuidZero e.uuid with
      | true =>
        rw [fipTableFrom_nil he hz, firstPass, fipEntryAt_eq, he]
        simp only [Option.bind_eq_bind, Option.bind_some, hz, if_true]
        by_cases hbad : e.size ≠ 0 ∨ buf.length < e.offset
        · refine ⟨_, if_pos hbad, fun p => iff_of_false (by rintro ⟨⟩) ?_⟩
          rintro ⟨T, hT, hsize, hhigh, -⟩
          cases hT
          dsimp only at hsize hhigh
          omega
        rw [if_neg hbad]
        by_cases hlow : e.offset < 16 + 40 * (i + 1)
        · refine ⟨_, if_pos hlow, fun p => iff_of_false (by rintro ⟨⟩) ?_⟩
          rintro ⟨T, hT, -, -, hend, -⟩
          cases hT
          simp only [List.length_nil] at hend
          omega
        have hempty : e.size = 0 := by omega
        have hhigh : e.offset ≤ buf.length := by omega
        refine ⟨_, if_neg hlow, fun p => ?_⟩
        constructor
        · rintro ⟨⟩
          exact ⟨⟨[], e⟩, rfl, hempty, hhigh, Nat.le_of_not_lt hlow, by simp, rfl⟩
        · rintro ⟨T, hT, -, -, -, -, rfl⟩
          cases hT
          rfl
      | false =>
        rw [fipTableFrom_cons he hz]
        by_cases hin : Within buf.length e
        · obtain ⟨r, hr, hiff⟩ := ih (i + 1) (if e.uuid = ntFwUuid then some (e.offset, e.size) else nt)
          refine ⟨r, by rw [firstPass_entry he hz hin, hr], fun p => (hiff p).trans ?_⟩
          constructor
          · rintro ⟨T, hT, hsize, hhigh, hlow, hall, rfl⟩
            refine ⟨⟨e :: T.entries, T.terminator⟩, by rw [hT]; rfl, hsize, hhigh, ?_, ?_, ?_⟩
            · simp only [List.length_cons]
              omega
            · rintro x hx
              obtain rfl | hx := List.mem_cons.1 hx
              · exact hin
              · exact hall x hx
            · have hcount : i + 1 + T.entries.length = i + (T.entries.length + 1) := by omega
              simp only [List.length_cons, hcount]
              rfl
          · rintro ⟨T, hT, hsize, hhigh, hlow, hall, rfl⟩
            obtain ⟨T', hT', rfl⟩ := Option.map_eq_some_iff.1 hT
            simp only [List.length_cons] at hlow ⊢
            have hcount : i + 1 + T'.entries.length = i + (T'.entries.length + 1) := by omega
            refine ⟨T', hT', hsize, hhigh, by omega, fun x hx => hall x (List.mem_cons_of_mem e hx),
              ?_⟩
            rw [hcount]
            rfl
        · refine ⟨.error (-erange), ?_, fun p => iff_of_false (by rintro ⟨⟩) ?_⟩
          · rw [firstPass, fipEntryAt_eq, he]
            simp only [Option.bind_eq_bind, Option.bind_some, hz, Bool.false_eq_true, if_false]
            rw [if_pos (by unfold Within at hin; omega)]
            rfl
          · rintro ⟨T, hT, -, -, -, hall, -⟩
            obtain ⟨T', hT', rfl⟩ := Option.map_eq_some_iff.1 hT
            exact hin (hall e List.mem_cons_self)

/-- **The second pass** over the entries of a table. -/
theorem secondPass_spec {k j : ℕ} {T : FipTable} (hT : fipTableFrom buf k j = some T)
    (tocEnd dend : ℕ) :
    ∃ r, secondPass buf tocEnd dend T.entries.length j = some r ∧
      (r = .ok () ↔ ∀ e ∈ T.entries, tocEnd ≤ e.offset ∧ e.offset + e.size ≤ dend) := by
  induction k generalizing j T with
  | zero => cases hT
  | succ k ih =>
    obtain ⟨-, -, hnil⟩ | ⟨e, T', he, hz, hT', rfl⟩ := fipTableFrom_cases hT
    · rw [hnil]
      exact ⟨.ok (), rfl, by simp⟩
    · have hin := fipEntry_inside he
      have hread : e = ⟨bytesAt buf (16 + 40 * j) 16, leNat (bytesAt buf (16 + 40 * j + 16) 8),
          leNat (bytesAt buf (16 + 40 * j + 24) 8)⟩ := by
        rw [fipEntry, if_pos (by omega)] at he
        exact (Option.some.inj he).symm
      have hoff : readAt buf (16 + 40 * j + 16) 8 = some (bytesAt buf (16 + 40 * j + 16) 8) :=
        readAt_of_le (by omega)
      have hsize : readAt buf (16 + 40 * j + 24) 8 = some (bytesAt buf (16 + 40 * j + 24) 8) :=
        readAt_of_le (by omega)
      have hstep : secondPass buf tocEnd dend (T'.entries.length + 1) j =
          if e.offset < tocEnd ∨ dend < e.offset ∨ dend - e.offset < e.size then
            some (.error (-erange))
          else secondPass buf tocEnd dend T'.entries.length (j + 1) := by
        rw [secondPass, hoff, hsize, hread]
        rfl
      simp only [List.length_cons, List.forall_mem_cons]
      rw [hstep]
      by_cases hbad : e.offset < tocEnd ∨ dend < e.offset ∨ dend - e.offset < e.size
      · refine ⟨_, if_pos hbad, iff_of_false (by rintro ⟨⟩) fun h => ?_⟩
        omega
      · obtain ⟨r, hr, hiff⟩ := ih hT'
        rw [if_neg hbad]
        refine ⟨r, hr, hiff.trans ?_⟩
        exact ⟨fun h => ⟨by omega, h⟩, fun h => h.2⟩

end Passes

/-! ## What the parser accepts -/

/-- A container of `len` bytes with the records `es` and the terminator `t`. -/
structure WellFormed (es : List FipRecord) (t : FipRecord) (len : ℕ) : Prop where
  count : es.length < fipMaxEntries
  size : t.size = 0
  low : tocEnd es ≤ t.offset
  high : t.offset ≤ len
  entries : ∀ e ∈ es, 0 < e.size ∧ tocEnd es ≤ e.offset ∧ e.offset + e.size ≤ t.offset
  nt : ∃ e ∈ es, e.uuid = ntFwUuid

variable {buf : List UInt8}

theorem fipParse_eq (hlen : 96 ≤ buf.length) (hheader : fipHeaderOk buf = true) :
    ∃ r, fipParse buf = some r ∧ ∀ out, r = .ok out ↔
      ∃ es t e, IsTable buf es t ∧ WellFormed es t buf.length ∧ lastWith ntFwUuid es = some e ∧
        out = (⟨e.offset, e.size, t.offset⟩, parseOkText (tocEnd es) t.offset e.offset e.size) := by
  have hmagic : leNat (bytesAt buf 0 4) = fipMagic ∧ leNat (bytesAt buf 4 4) = fipSerial := by
    simpa [fipHeaderOk] using hheader
  have hname : readAt buf 0 4 = some (bytesAt buf 0 4) := readAt_of_le (by omega)
  have hserial : readAt buf 4 4 = some (bytesAt buf 4 4) := readAt_of_le (by omega)
  obtain ⟨r₁, hr₁, hfirst⟩ := firstPass_spec buf fipMaxEntries 0 none
  have hparse : fipParse buf = (firstPass buf fipMaxEntries 0 none).bind fun r => match r with
      | .error err => some (.error err)
      | .ok p => match p.nt with
        | none => some (.error (-einval))
        | some (noff, nsize) =>
          (secondPass buf p.tocEnd p.declaredEnd p.count 0).bind fun r => match r with
            | .error err => some (.error err)
            | .ok () => some (.ok (⟨noff, nsize, p.declaredEnd⟩,
                parseOkText p.tocEnd p.declaredEnd noff nsize)) := by
    rw [fipParse, if_neg (by omega), hname, hserial]
    simp only [Option.bind_eq_bind, Option.bind_some]
    rw [if_neg (by rw [hmagic.1, hmagic.2]; simp)]
    rfl
  rw [hparse, hr₁, Option.bind_some]
  cases r₁ with
  | error err =>
    refine ⟨_, rfl, fun out => iff_of_false nofun ?_⟩
    rintro ⟨es, t, e, htable, hwf, -, -⟩
    -- a well-formed table would have passed the first pass
    have hT := htable.fipTable hwf.count
    have hlow := hwf.low
    unfold tocEnd at hlow
    have hok := (hfirst ⟨_, _, _, _⟩).2 ⟨_, hT, hwf.size, hwf.high, ?_, ?_, rfl⟩
    · cases hok
    · simp only [List.length_map]
      omega
    · intro x hx
      obtain ⟨y, hy, rfl⟩ := List.mem_map.1 hx
      obtain ⟨hpos, -, hend⟩ := hwf.entries y hy
      exact ⟨hpos, hend.trans hwf.high⟩
  | ok p =>
    obtain ⟨T, hT, hsize, hhigh, hlow, hall, rfl⟩ := (hfirst p).1 rfl
    obtain ⟨es, t, htable, rfl, hcount⟩ := isTable_of_fipTable hT
    simp only [List.length_map, Nat.zero_add] at hlow ⊢
    have hnt : ntAfter none (es.map FipRecord.toFipEntry) =
        (lastWith ntFwUuid es).map fun e => (e.offset, e.size) := by
      rw [← lastNt_eq es t.toFipEntry]
      exact ntAfter_none ⟨es.map FipRecord.toFipEntry, t.toFipEntry⟩
    rw [hnt]
    obtain ⟨r₂, hr₂, hsecond⟩ := secondPass_spec hT (tocEnd es) t.offset
    simp only [List.length_map] at hr₂
    -- whatever is accepted is this table
    have hother : ∀ {es' t'}, IsTable buf es' t' → es' = es ∧ t' = t := fun h => h.eq htable
    cases hlast : lastWith ntFwUuid es with
    | none =>
      refine ⟨_, rfl, fun out => iff_of_false nofun ?_⟩
      rintro ⟨es', t', e, htable', -, hlast', -⟩
      obtain ⟨rfl, rfl⟩ := hother htable'
      rw [hlast] at hlast'
      cases hlast'
    | some e =>
      have hrange : secondPass buf (16 + 40 * (es.length + 1)) t.offset es.length 0 = some r₂ := hr₂
      simp only [Option.map_some, hrange, Option.bind_some]
      have hiff : r₂ = .ok () ↔ WellFormed es t buf.length := by
        rw [hsecond]
        constructor
        · intro h
          refine ⟨hcount, hsize, hlow, hhigh, fun x hx => ?_, lastWith_isSome.1 (by rw [hlast]; rfl)⟩
          obtain ⟨hbegin, hend⟩ := h _ (List.mem_map_of_mem hx)
          exact ⟨(hall _ (List.mem_map_of_mem hx)).1, hbegin, hend⟩
        · intro h x hx
          obtain ⟨y, hy, rfl⟩ := List.mem_map.1 hx
          exact (h.entries y hy).2
      cases r₂ with
      | error err =>
        refine ⟨_, rfl, fun out => iff_of_false nofun ?_⟩
        rintro ⟨es', t', e', htable', hwf, -, -⟩
        obtain ⟨rfl, rfl⟩ := hother htable'
        cases hiff.2 hwf
      | ok u =>
        refine ⟨_, rfl, fun out => ?_⟩
        constructor
        · rintro ⟨⟩
          exact ⟨es, t, e, htable, hiff.1 rfl, hlast, rfl⟩
        · rintro ⟨es', t', e', htable', -, hlast', rfl⟩
          obtain ⟨rfl, rfl⟩ := hother htable'
          rw [hlast] at hlast'
          cases hlast'
          rfl

/-- **The parser reads inside the buffer and accepts the well-formed containers**, of which it returns
the declared end and the range of the last BL33 record. -/
theorem fipParse_spec (buf : List UInt8) :
    ∃ r, fipParse buf = some r ∧ ∀ out, r = .ok out ↔ fipHeaderOk buf = true ∧
      ∃ es t e, IsTable buf es t ∧ WellFormed es t buf.length ∧ lastWith ntFwUuid es = some e ∧
        out = (⟨e.offset, e.size, t.offset⟩, parseOkText (tocEnd es) t.offset e.offset e.size) := by
  by_cases hlen : buf.length < 16 + 2 * 40
  · refine ⟨_, if_pos hlen, fun out => iff_of_false nofun ?_⟩
    -- a table with a BL33 record takes ninety-six bytes
    rintro ⟨-, es, t, e, htable, hwf, -, -⟩
    obtain ⟨x, hx, -⟩ := hwf.nt
    have hone := List.length_pos_of_mem hx
    have hend := htable.tocEnd_le
    unfold tocEnd at hend
    omega
  cases hheader : fipHeaderOk buf with
  | true =>
    obtain ⟨r, hr, hiff⟩ := fipParse_eq (by omega) hheader
    exact ⟨r, hr, fun out => by rw [hiff]; simp⟩
  | false =>
    have hname : readAt buf 0 4 = some (bytesAt buf 0 4) := readAt_of_le (by omega)
    have hserial : readAt buf 4 4 = some (bytesAt buf 4 4) := readAt_of_le (by omega)
    refine ⟨.error (-einval), ?_, fun out => by simp⟩
    rw [fipParse, if_neg hlen, hname, hserial]
    simp only [Option.bind_eq_bind, Option.bind_some]
    rw [if_pos]
    · rfl
    · simpa [fipHeaderOk, or_iff_not_imp_left] using hheader

/-- **The parser of the MF board accepts exactly the well-formed containers**, whatever the buffer and
its length, and reads nothing outside. -/
theorem accepts_well_formed (buf : List UInt8) :
    ∃ r, fipParse buf = some r ∧
      ((∃ out, r = .ok out) ↔ leNat (bytesAt buf 0 4) = fipMagic ∧ leNat (bytesAt buf 4 4) = fipSerial ∧
        ∃ es t, IsTable buf es t ∧ WellFormed es t buf.length) ∧
      ∀ toc text, r = .ok (toc, text) → ∃ es t e, IsTable buf es t ∧ lastWith ntFwUuid es = some e ∧
        toc = ⟨e.offset, e.size, t.offset⟩ := by
  obtain ⟨r, hr, hspec⟩ := fipParse_spec buf
  have hheader : fipHeaderOk buf = true ↔
      leNat (bytesAt buf 0 4) = fipMagic ∧ leNat (bytesAt buf 4 4) = fipSerial := by
    simp [fipHeaderOk]
  refine ⟨r, hr, ?_, ?_⟩
  · constructor
    · rintro ⟨out, hout⟩
      obtain ⟨hok, es, t, e, htable, hwf, -, -⟩ := (hspec out).1 hout
      obtain ⟨hmagic, hserial⟩ := hheader.1 hok
      exact ⟨hmagic, hserial, es, t, htable, hwf⟩
    · rintro ⟨hmagic, hserial, es, t, htable, hwf⟩
      obtain ⟨e, he⟩ := Option.isSome_iff_exists.1 (lastWith_isSome.2 hwf.nt)
      exact ⟨_, (hspec _).2 ⟨hheader.2 ⟨hmagic, hserial⟩, es, t, e, htable, hwf, he, rfl⟩⟩
  · intro toc text hok
    obtain ⟨-, es, t, e, htable, -, he, hout⟩ := (hspec _).1 hok
    exact ⟨es, t, e, htable, he, (Prod.mk.inj hout).1⟩

end Mf

end UrsusBoot
