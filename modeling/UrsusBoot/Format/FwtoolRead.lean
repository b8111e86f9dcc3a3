import UrsusBoot.Lib.Buffer
import UrsusBoot.Format.Fwtool

/-!
# Reading the fwtool trailer

`ursus_parse_fwtool_meta` and the JSON helper below it as the source has them: pointers into the
buffer, every read checked against its end. `none` stands for a read outside the buffer or a loop
that does not end.
-/

namespace UrsusBoot

open Buffer

/-! ## The JSON helper -/

/-- What `ursus_json_ws` skips. -/
def jsonBlank (b : UInt8) : Bool := b == 0x20 || b == 0x09 || b == 0x0d || b == 0x0a

/-- `ursus_json_ws`. -/
def jsonWsAt (buf : List UInt8) (e p : ℕ) : Option ℕ := skipWhile buf e jsonBlank p

/-- The loop over a string literal: where it stops, or `some none` at an escape or a control
character. -/
def jsonStringAt (buf : List UInt8) (e : ℕ) : ℕ → ℕ → Option (Option ℕ)
  | 0, p => if p < e then none else some (some p)
  | k + 1, p =>
    if p < e then do
      let b ← buf[p]?
      if b = 0x22 then return some p
      else if b = 0x5c ∨ b < 0x20 then return none
      else jsonStringAt buf e k (p + 1)
    else return some p

/-- The length test and the `memcmp` of a value with a device name. -/
def jsonValueIs (buf : List UInt8) (v vlen : ℕ) (name : String) : Option Bool :=
  if vlen = (asciiBytes name).length then (readAt buf v vlen).map (· == asciiBytes name)
  else some false

def jsonDevicesAt (buf : List UInt8) (e : ℕ) : ℕ → ℕ → SupportedDevices → Option SupportedDevices
  | 0, _, _ => none
  | k + 1, p, d => do
    let p ← jsonWsAt buf e p
    if e ≤ p then return d
    let b ← buf[p]?
    if b = 0x5d then return { d with ok := true }
    if b ≠ 0x22 then return d
    match ← jsonStringAt buf e (e - (p + 1)) (p + 1) with
    | none => return d
    | some q =>
      if e ≤ q then return d
      let factory ← jsonValueIs buf (p + 1) (q - (p + 1)) "nokia,xg-040g-md"
      let ubi ← jsonValueIs buf (p + 1) (q - (p + 1)) "nokia,xg-040g-md-ubi"
      let d := { d with factory := d.factory || factory, ubi := d.ubi || ubi }
      let r ← jsonWsAt buf e (q + 1)
      if e ≤ r then return d
      let b ← buf[r]?
      if b = 0x2c then jsonDevicesAt buf e k (r + 1) d
      else if b = 0x5d then return { d with ok := true }
      else return d

def jsonDeviceArrayAt (buf : List UInt8) (e p : ℕ) : Option SupportedDevices := do
  let p ← jsonWsAt buf e p
  if e ≤ p then return {}
  let b ← buf[p]?
  if b ≠ 0x3a then return {}
  let p ← jsonWsAt buf e (p + 1)
  if e ≤ p then return {}
  let b ← buf[p]?
  if b ≠ 0x5b then return {}
  jsonDevicesAt buf e (e - (p + 1) + 1) (p + 1) {}

/-- `key` of `ursus_json_exact_supported_devices`. -/
abbrev supportedDevicesKey : List UInt8 := asciiBytes "\"supported_devices\""

/-- `ursus_json_exact_supported_devices`, from `p`. -/
def jsonKeyAt (buf : List UInt8) (e : ℕ) : ℕ → ℕ → Option SupportedDevices
  | 0, _ => none
  | k + 1, p =>
    if p + supportedDevicesKey.length ≤ e then do
      let bs ← readAt buf p supportedDevicesKey.length
      if bs = supportedDevicesKey then jsonDeviceArrayAt buf e (p + supportedDevicesKey.length)
      else jsonKeyAt buf e k (p + 1)
    else return {}

section Json

variable {buf : List UInt8} {e : ℕ}

theorem jsonWsAt_spec (he : e ≤ buf.length) {p : ℕ} (hp : p ≤ e) :
    ∃ q, jsonWsAt buf e p = some q ∧ p ≤ q ∧ q ≤ e ∧
      jsonWs (window buf p e) = window buf q e := by
  obtain ⟨q, hq, hle, hqe, -, hdrop⟩ := skipWhile_spec jsonBlank he hp
  exact ⟨q, hq, hle, hqe, hdrop⟩

theorem jsonStringAt_spec (he : e ≤ buf.length) {k p : ℕ} (hp : p ≤ e) (hk : e ≤ p + k) :
    (jsonString (window buf p e) = none ∧
      (jsonStringAt buf e k p = some none ∨ jsonStringAt buf e k p = some (some e))) ∨
    ∃ q, p ≤ q ∧ q < e ∧ jsonStringAt buf e k p = some (some q) ∧
      jsonString (window buf p e) = some (window buf p q, window buf (q + 1) e) := by
  induction k generalizing p with
  | zero =>
    have hend : p = e := by omega
    subst hend
    refine Or.inl ⟨?_, Or.inr (by simp [jsonStringAt])⟩
    rw [window_of_le (Nat.le_refl p), jsonString]
  | succ k ih =>
    by_cases hlt : p < e
    · have hin : p < buf.length := by omega
      rw [window_cons hlt hin, jsonString, jsonStringAt, if_pos hlt, List.getElem?_eq_getElem hin]
      by_cases hquote : buf[p] = 0x22
      · refine Or.inr ⟨p, Nat.le_refl p, hlt, by simp [hquote], ?_⟩
        rw [if_pos hquote, window_of_le (Nat.le_refl p)]
      · by_cases hbad : buf[p] = 0x5c ∨ buf[p] < 0x20
        · refine Or.inl ⟨?_, Or.inl ?_⟩
          · rw [if_neg hquote, if_pos hbad]
          · simp only [Option.bind_eq_bind, Option.bind_some, if_neg hquote, if_pos hbad]
            rfl
        · simp only [Option.bind_eq_bind, Option.bind_some, if_neg hquote, if_neg hbad]
          obtain ⟨hnone, hread⟩ | ⟨q, hle, hqe, hread, hsome⟩ :=
            ih (by omega : p + 1 ≤ e) (by omega)
          · exact Or.inl ⟨by rw [hnone]; rfl, hread⟩
          · refine Or.inr ⟨q, by omega, hqe, hread, ?_⟩
            rw [hsome, window_cons (by omega : p < q) hin]
            rfl
    · have hend : p = e := by omega
      subst hend
      refine Or.inl ⟨?_, Or.inr (by simp [jsonStringAt])⟩
      rw [window_of_le (Nat.le_refl p), jsonString]

theorem jsonValueIs_eq {v q : ℕ} (hv : v ≤ q) (hq : q ≤ buf.length) (name : String) :
    jsonValueIs buf v (q - v) name = some (window buf v q == asciiBytes name) := by
  unfold jsonValueIs
  by_cases hlen : q - v = (asciiBytes name).length
  · rw [if_pos hlen, readAt_of_le (by omega)]
    rfl
  · have hne : window buf v q ≠ asciiBytes name := by
      intro heq
      exact hlen (by rw [← heq, length_window hq])
    rw [if_neg hlen, beq_false_of_ne hne]

/-- **The element loop ends, stays inside and computes `jsonDevices`.** -/
theorem jsonDevicesAt_eq (he : e ≤ buf.length) {k p : ℕ} (hp : p ≤ e) (hk : e < p + k)
    (d : SupportedDevices) :
    jsonDevicesAt buf e k p d = some (jsonDevices k (window buf p e) d) := by
  -- every element moves the pointer, so the bound is never used up
  induction k generalizing p d with
  | zero => omega
  | succ k ih =>
    obtain ⟨s, hs, hps, hse, hws⟩ := jsonWsAt_spec he hp
    rw [jsonDevicesAt, jsonDevices, hs, hws]
    simp only [Option.bind_eq_bind, Option.bind_some]
    by_cases hend : e ≤ s
    · rw [if_pos hend, window_of_le hend]
      rfl
    have hin : s < buf.length := by omega
    rw [if_neg hend, window_cons (by omega) hin, List.getElem?_eq_getElem hin]
    simp only [Option.bind_some]
    by_cases hclose : buf[s] = 0x5d
    · rw [if_pos hclose, if_pos hclose]
      rfl
    by_cases hquote : buf[s] = 0x22
    · rw [if_neg hclose, if_neg hclose, if_neg (not_not.2 hquote), if_neg (not_not.2 hquote)]
      obtain ⟨hnone, hread | hread⟩ | ⟨q, hle, hqe, hread, hsome⟩ :=
        jsonStringAt_spec he (k := e - (s + 1)) (by omega : s + 1 ≤ e) (by omega)
      · rw [hread, hnone]
        rfl
      · rw [hread, hnone]
        simp
      · rw [hread, hsome]
        obtain ⟨r, hr, hqr, hre, hwr⟩ := jsonWsAt_spec he (by omega : q + 1 ≤ e)
        simp only [Option.bind_some, if_neg (by omega : ¬ e ≤ q),
          jsonValueIs_eq hle (by omega : q ≤ buf.length), hr, hwr]
        by_cases hrend : e ≤ r
        · rw [if_pos hrend, window_of_le hrend]
          rfl
        have hrin : r < buf.length := by omega
        rw [if_neg hrend, window_cons (by omega) hrin, List.getElem?_eq_getElem hrin]
        simp only [Option.bind_some]
        split_ifs
        · exact ih (by omega) (by omega) _
        · rfl
        · rfl
    · rw [if_neg hclose, if_neg hclose, if_pos hquote, if_pos hquote]
      rfl

theorem jsonDeviceArray_of_not_colon {b : UInt8} {p bs : List UInt8} (h : jsonWs p = b :: bs)
    (hb : b ≠ 0x3a) : jsonDeviceArray p = {} := by
  unfold jsonDeviceArray
  rw [h]
  split
  · next heq => exact absurd (List.cons.inj heq).1 hb
  · rfl

theorem jsonDeviceArrayAt_eq (he : e ≤ buf.length) {p : ℕ} (hp : p ≤ e) :
    jsonDeviceArrayAt buf e p = some (jsonDeviceArray (window buf p e)) := by
  obtain ⟨s, hs, -, hse, hws⟩ := jsonWsAt_spec he hp
  rw [jsonDeviceArrayAt, hs]
  simp only [Option.bind_eq_bind, Option.bind_some]
  by_cases hend : e ≤ s
  · rw [if_pos hend, jsonDeviceArray, hws, window_of_le hend]
    rfl
  have hin : s < buf.length := by omega
  rw [window_cons (by omega) hin] at hws
  rw [if_neg hend, List.getElem?_eq_getElem hin]
  simp only [Option.bind_some]
  by_cases hcolon : buf[s] = 0x3a
  · obtain ⟨r, hr, -, hre, hwr⟩ := jsonWsAt_spec he (by omega : s + 1 ≤ e)
    rw [if_neg (not_not.2 hcolon), hr, jsonDeviceArray, hws, hcolon]
    simp only [Option.bind_some]
    by_cases hrend : e ≤ r
    · rw [if_pos hrend, hwr, window_of_le hrend]
      rfl
    have hrin : r < buf.length := by omega
    rw [if_neg hrend, hwr, window_cons (by omega) hrin, List.getElem?_eq_getElem hrin]
    simp only [Option.bind_some]
    by_cases hopen : buf[r] = 0x5b
    · rw [if_neg (not_not.2 hopen), hopen, jsonDevicesAt_eq he (by omega) (by omega)]
      change _ = some (jsonDevices ((window buf (r + 1) e).length + 1) _ _)
      rw [length_window he]
    · rw [if_pos hopen]
      split
      · next heq => exact absurd (List.cons.inj heq).1 hopen
      · rfl
  · rw [if_pos hcolon, jsonDeviceArray_of_not_colon hws hcolon]
    rfl

theorem jsonExactSupportedDevices_of_short {p : List UInt8}
    (h : p.length < supportedDevicesKey.length) : jsonExactSupportedDevices p = {} := by
  induction p with
  | nil => rfl
  | cons b bs ih =>
    have hprefix : supportedDevicesKey.isPrefixOf (b :: bs) = false := by
      rw [Bool.eq_false_iff]
      intro hpre
      have hle := (List.isPrefixOf_iff_prefix.1 hpre).length_le
      omega
    rw [jsonExactSupportedDevices, hprefix]
    exact ih (by rw [List.length_cons] at h; omega)

/-- **The search for the key ends, stays inside and computes `jsonExactSupportedDevices`.** -/
theorem jsonKeyAt_eq (he : e ≤ buf.length) {k p : ℕ} (hp : p ≤ e) (hk : e < p + k) :
    jsonKeyAt buf e k p = some (jsonExactSupportedDevices (window buf p e)) := by
  induction k generalizing p with
  | zero => omega
  | succ k ih =>
    rw [jsonKeyAt]
    by_cases hroom : p + supportedDevicesKey.length ≤ e
    · have hpos : 0 < supportedDevicesKey.length := by decide
      have htake : (buf.drop p).take supportedDevicesKey.length =
          (window buf p e).take supportedDevicesKey.length := (take_window hroom).symm
      rw [if_pos hroom, readAt_of_le (by omega), htake]
      simp only [Option.bind_eq_bind, Option.bind_some]
      have hcons := window_cons (by omega : p < e) (by omega : p < buf.length)
      have hpre : supportedDevicesKey.isPrefixOf (window buf p e) = true ↔
          (window buf p e).take supportedDevicesKey.length = supportedDevicesKey := by
        rw [List.isPrefixOf_iff_prefix, List.prefix_iff_eq_take]
        exact eq_comm
      by_cases hkey : (window buf p e).take supportedDevicesKey.length = supportedDevicesKey
      · rw [if_pos hkey, jsonDeviceArrayAt_eq he hroom, ← drop_window]
        rw [hcons] at hpre hkey ⊢
        rw [jsonExactSupportedDevices, if_pos (hpre.2 hkey)]
      · rw [if_neg hkey, ih (by omega) (by omega)]
        rw [hcons] at hpre hkey ⊢
        rw [jsonExactSupportedDevices, if_neg (fun h => hkey (hpre.1 h))]
    · rw [if_neg hroom, jsonExactSupportedDevices_of_short (by rw [length_window he]; omega)]
      rfl

end Json

/-! ## The trailer -/

/-- The size field of a trailer at `p`. -/
def trailerSize (buf : List UInt8) (p : ℕ) : ℕ := beNat (bytesAt buf (p + 12) 4)

/-- The stored checksum of a trailer at `p`. -/
def trailerCrc (buf : List UInt8) (p : ℕ) : ℕ := beNat (bytesAt buf (p + 4) 4)

/-- Magic, type INFO and a size that reaches back into the buffer. -/
def CarriesTrailer (buf : List UInt8) (p : ℕ) : Prop :=
  beNat (bytesAt buf p 4) = fwtoolMagic ∧ leNat (bytesAt buf (p + 8) 1) = fwtoolInfo ∧
    24 ≤ trailerSize buf p ∧ trailerSize buf p ≤ p + 16

instance (buf : List UInt8) (p : ℕ) : Decidable (CarriesTrailer buf p) :=
  inferInstanceAs (Decidable (_ ∧ _ ∧ _ ∧ _))

/-- What the loop returns at a trailer of `size` at `pos`. -/
def fwtoolInfoAt (buf : List UInt8) (pos size storedCrc : ℕ) : Option (Except ℤ FwtoolMeta) := do
  let dataStart := pos + 16 - size
  let dataLen := size - 16
  if dataLen < 8 then return .error (-einval)
  let data ← readAt buf 0 pos
  let jsonOff := dataStart + 8
  let jsonLen := dataLen - 8
  let devices ← jsonKeyAt buf (jsonOff + jsonLen) (jsonLen + 1) jsonOff
  return .ok {
    found := true
    crcOk := (crc32Fwtool 0xffffffff data).toNat == storedCrc
    supportedDevicesPresent := devices.ok
    deviceFactory := devices.factory
    deviceUbi := devices.ubi
    jsonOff := jsonOff
    jsonLen := jsonLen }

/-- What one round of the loop does at `pos`: the result it returns, or `some none` to go on. -/
def fwtoolRoundAt (buf : List UInt8) (pos : ℕ) : Option (Option (Except ℤ FwtoolMeta)) := do
  let magic ← readAt buf pos 4
  let storedCrc ← readAt buf (pos + 4) 4
  let type ← readAt buf (pos + 8) 1
  let size ← readAt buf (pos + 12) 4
  if beNat magic = fwtoolMagic ∧ leNat type = fwtoolInfo ∧ 24 ≤ beNat size ∧
      beNat size ≤ pos + 16 then
    (fwtoolInfoAt buf pos (beNat size) (beNat storedCrc)).map some
  else return none

/-- The loop, downwards from `pos`. Its only exit without a trailer is `pos == start`; below `0` the
unsigned position wraps, and the next read is outside the buffer. -/
def fwtoolScanAt (buf : List UInt8) (start : ℕ) : ℕ → Option (Except ℤ FwtoolMeta)
  | 0 => do
    match ← fwtoolRoundAt buf 0 with
    | some r => return r
    | none => if start = 0 then return .error (-enoent) else none
  | pos + 1 => do
    match ← fwtoolRoundAt buf (pos + 1) with
    | some r => return r
    | none => if pos + 1 = start then return .error (-enoent) else fwtoolScanAt buf start pos

/-- `ursus_parse_fwtool_meta`, read by read. -/
def readFwtoolMeta (buf : List UInt8) : Option (Except ℤ FwtoolMeta) :=
  if buf.length < 24 then some (.error (-enoent))
  else
    fwtoolScanAt buf (if 0x100000 < buf.length then buf.length - 0x100000 else 16)
      (buf.length - 16)

/-! ## The reads against the list functions -/

variable {buf : List UInt8}

theorem readAt_bytes {p n : ℕ} (h : p + n ≤ buf.length) :
    readAt buf p n = some (bytesAt buf p n) := readAt_of_le h

/-- What is recorded of a trailer at `p`. -/
def trailerMeta (buf : List UInt8) (p : ℕ) : FwtoolMeta :=
  let jsonOff := p + 16 - trailerSize buf p + 8
  let jsonLen := trailerSize buf p - 16 - 8
  let devices := jsonExactSupportedDevices (bytesAt buf jsonOff jsonLen)
  { found := true
    crcOk := (crc32Fwtool 0xffffffff (buf.take p)).toNat == trailerCrc buf p
    supportedDevicesPresent := devices.ok
    deviceFactory := devices.factory
    deviceUbi := devices.ubi
    jsonOff := jsonOff
    jsonLen := jsonLen }

theorem fwtoolTrailerAt_eq (buf : List UInt8) (p : ℕ) :
    fwtoolTrailerAt buf p = if CarriesTrailer buf p then some (trailerMeta buf p) else none := by
  unfold fwtoolTrailerAt CarriesTrailer trailerMeta trailerSize trailerCrc
  simp only [bytesAt_bytesAt (by decide : 0 + 4 ≤ 16), bytesAt_bytesAt (by decide : 4 + 4 ≤ 16),
    bytesAt_bytesAt (by decide : 8 + 1 ≤ 16), bytesAt_bytesAt (by decide : 12 + 4 ≤ 16),
    Nat.add_zero]
  rfl

theorem fwtoolInfoAt_eq {pos : ℕ} (h : pos ≤ buf.length) (hc : CarriesTrailer buf pos) :
    fwtoolInfoAt buf pos (trailerSize buf pos) (trailerCrc buf pos) =
      some (.ok (trailerMeta buf pos)) := by
  obtain ⟨-, -, hsize, hle⟩ := hc
  -- the JSON range ends at the trailer, so it lies in the buffer
  have hend : pos + 16 - trailerSize buf pos + 8 + (trailerSize buf pos - 16 - 8) = pos := by omega
  have hwin : window buf (pos + 16 - trailerSize buf pos + 8) pos =
      bytesAt buf (pos + 16 - trailerSize buf pos + 8) (trailerSize buf pos - 16 - 8) := by
    unfold window bytesAt
    congr 1
    omega
  unfold fwtoolInfoAt
  simp only [if_neg (by omega : ¬ trailerSize buf pos - 16 < 8),
    readAt_bytes (by omega : 0 + pos ≤ buf.length), hend]
  rw [jsonKeyAt_eq h (by omega) (by omega), hwin]
  rfl

/-- **A round inside the buffer reads inside the buffer** and finds what `fwtoolTrailerAt` finds. -/
theorem fwtoolRoundAt_eq {pos : ℕ} (h : pos + 16 ≤ buf.length) :
    fwtoolRoundAt buf pos = some ((fwtoolTrailerAt buf pos).map .ok) := by
  unfold fwtoolRoundAt
  rw [readAt_bytes (by omega), readAt_bytes (by omega), readAt_bytes (by omega),
    readAt_bytes (by omega), fwtoolTrailerAt_eq]
  change (if CarriesTrailer buf pos then
    (fwtoolInfoAt buf pos (trailerSize buf pos) (trailerCrc buf pos)).map some else _) = _
  by_cases hc : CarriesTrailer buf pos
  · rw [if_pos hc, if_pos hc, fwtoolInfoAt_eq (by omega) hc]
    rfl
  · rw [if_neg hc, if_neg hc]
    rfl

theorem fwtoolScanAt_eq (start : ℕ) {pos : ℕ} (h : pos + 16 ≤ buf.length) :
    fwtoolScanAt buf start pos = fwtoolScan buf start pos := by
  induction pos with
  | zero =>
    rw [fwtoolScanAt, fwtoolScan, fwtoolRoundAt_eq h]
    cases fwtoolTrailerAt buf 0 <;> rfl
  | succ pos ih =>
    rw [fwtoolScanAt, fwtoolScan, fwtoolRoundAt_eq h]
    cases fwtoolTrailerAt buf (pos + 1) with
    | none =>
      simp only [Option.bind_eq_bind, Option.bind_some, Option.map_none]
      rw [ih (by omega)]
      rfl
    | some m => rfl

/-- **The reads compute `parseFwtoolMeta`.** -/
theorem readFwtoolMeta_eq (buf : List UInt8) : readFwtoolMeta buf = parseFwtoolMeta buf := by
  unfold readFwtoolMeta parseFwtoolMeta
  split_ifs with hshort
  · rfl
  · exact fwtoolScanAt_eq _ (by omega)
  · exact fwtoolScanAt_eq _ (by omega)

/-! ## What the search finds -/

theorem fwtoolScan_of_carries (start : ℕ) {pos : ℕ} (h : CarriesTrailer buf pos) :
    fwtoolScan buf start pos = some (.ok (trailerMeta buf pos)) := by
  cases pos with
  | zero => rw [fwtoolScan, fwtoolTrailerAt_eq, if_pos h]
  | succ pos => rw [fwtoolScan, fwtoolTrailerAt_eq, if_pos h]

theorem fwtoolScan_zero_of_not (start : ℕ) (h : ¬ CarriesTrailer buf 0) :
    fwtoolScan buf start 0 = if start = 0 then some (.error (-enoent)) else none := by
  rw [fwtoolScan, fwtoolTrailerAt_eq, if_neg h]

theorem fwtoolScan_succ_of_not (start : ℕ) {pos : ℕ} (h : ¬ CarriesTrailer buf (pos + 1)) :
    fwtoolScan buf start (pos + 1) =
      if pos + 1 = start then some (.error (-enoent)) else fwtoolScan buf start pos := by
  rw [fwtoolScan, fwtoolTrailerAt_eq, if_neg h]

/-- `p` is the greatest position up to `pos` that carries a trailer. -/
def LastTrailer (buf : List UInt8) (pos p : ℕ) : Prop :=
  p ≤ pos ∧ CarriesTrailer buf p ∧ ∀ q, p < q → q ≤ pos → ¬ CarriesTrailer buf q

theorem LastTrailer.succ {pos p : ℕ} (h : LastTrailer buf pos p)
    (hpos : ¬ CarriesTrailer buf (pos + 1)) : LastTrailer buf (pos + 1) p := by
  refine ⟨by have := h.1; omega, h.2.1, fun q hpq hq => ?_⟩
  by_cases heq : q = pos + 1
  · exact heq ▸ hpos
  · exact h.2.2 q hpq (by omega)

/-- **A search that begins at or above its stopping position** finds the last trailer of the range,
or finds that there is none. -/
theorem fwtoolScan_spec (buf : List UInt8) {start pos : ℕ} (h : start ≤ pos) :
    (∃ p, start ≤ p ∧ LastTrailer buf pos p ∧
      fwtoolScan buf start pos = some (.ok (trailerMeta buf p))) ∨
    ((∀ p, start ≤ p → p ≤ pos → ¬ CarriesTrailer buf p) ∧
      fwtoolScan buf start pos = some (.error (-enoent))) := by
  induction pos with
  | zero =>
    have hstart : start = 0 := by omega
    subst hstart
    by_cases hc : CarriesTrailer buf 0
    · exact Or.inl ⟨0, Nat.le_refl 0, ⟨Nat.le_refl 0, hc, fun q hq hq0 => by omega⟩,
        fwtoolScan_of_carries 0 hc⟩
    · refine Or.inr ⟨fun p _ hp => ?_, ?_⟩
      · have hp0 : p = 0 := by omega
        exact hp0 ▸ hc
      · rw [fwtoolScan_zero_of_not 0 hc, if_pos rfl]
  | succ pos ih =>
    by_cases hc : CarriesTrailer buf (pos + 1)
    · exact Or.inl ⟨pos + 1, h, ⟨Nat.le_refl _, hc, fun q hq hqp => by omega⟩,
        fwtoolScan_of_carries start hc⟩
    rw [fwtoolScan_succ_of_not start hc]
    by_cases hstop : pos + 1 = start
    · rw [if_pos hstop]
      refine Or.inr ⟨fun p hp hpp => ?_, rfl⟩
      have hpe : p = pos + 1 := by omega
      exact hpe ▸ hc
    · rw [if_neg hstop]
      obtain ⟨p, hsp, hlast, hscan⟩ | ⟨hnone, hscan⟩ := ih (by omega)
      · exact Or.inl ⟨p, hsp, hlast.succ hc, hscan⟩
      · refine Or.inr ⟨fun p hp hpp => ?_, hscan⟩
        by_cases hpe : p = pos + 1
        · exact hpe ▸ hc
        · exact hnone p hp (by omega)

/-- **A search that begins below its stopping position never reports that there is no trailer**: it
accepts one below the range, or runs out of the buffer. -/
theorem fwtoolScan_below (buf : List UInt8) {start pos : ℕ} (h : pos < start) (x : ℤ) :
    fwtoolScan buf start pos ≠ some (.error x) := by
  induction pos with
  | zero =>
    by_cases hc : CarriesTrailer buf 0
    · rw [fwtoolScan_of_carries start hc]
      nofun
    · rw [fwtoolScan_zero_of_not start hc, if_neg (by omega)]
      nofun
  | succ pos ih =>
    by_cases hc : CarriesTrailer buf (pos + 1)
    · rw [fwtoolScan_of_carries start hc]
      nofun
    · rw [fwtoolScan_succ_of_not start hc, if_neg (by omega)]
      exact ih (by omega)

/-- `p` lies in the buffer, at or above `max(16, len - 0x100000)`, and carries a trailer. -/
def SearchedTrailer (buf : List UInt8) (p : ℕ) : Prop :=
  p + 16 ≤ buf.length ∧ max 16 (buf.length - 0x100000) ≤ p ∧ CarriesTrailer buf p

/-- **What the search is for**: it ends and reads inside the buffer, succeeds exactly when there is
a trailer in the range, and then describes the last one. -/
def FwtoolContract (buf : List UInt8) : Prop :=
  ∃ r, readFwtoolMeta buf = some r ∧ ((∃ m, r = .ok m) ↔ ∃ p, SearchedTrailer buf p) ∧
    ∀ m, r = .ok m → ∃ p, SearchedTrailer buf p ∧ (∀ q, SearchedTrailer buf q → q ≤ p) ∧
      m.jsonOff = p + 16 - trailerSize buf p + 8 ∧ m.jsonOff + m.jsonLen = p ∧
      (m.crcOk = true ↔ trailerCrc buf p = (crc32Fwtool 0xffffffff (buf.take p)).toNat)

theorem FwtoolContract.of_ok {p : ℕ} (h : readFwtoolMeta buf = some (.ok (trailerMeta buf p)))
    (hp : SearchedTrailer buf p) (hlast : ∀ q, SearchedTrailer buf q → q ≤ p) :
    FwtoolContract buf := by
  refine ⟨_, h, ⟨fun _ => ⟨p, hp⟩, fun _ => ⟨_, rfl⟩⟩, fun m hm => ?_⟩
  cases hm
  obtain ⟨-, -, hsize, hle⟩ := hp.2.2
  refine ⟨p, hp, hlast, rfl, ?_, ?_⟩
  · change p + 16 - trailerSize buf p + 8 + (trailerSize buf p - 16 - 8) = p
    omega
  · change ((_ == _) = true) ↔ _
    rw [beq_iff_eq]
    exact eq_comm

theorem LastTrailer.contract {p : ℕ} (hlast : LastTrailer buf (buf.length - 16) p)
    (hlen : 16 ≤ buf.length) (hlow : max 16 (buf.length - 0x100000) ≤ p)
    (h : readFwtoolMeta buf = some (.ok (trailerMeta buf p))) : FwtoolContract buf := by
  obtain ⟨hle, hc, habove⟩ := hlast
  refine FwtoolContract.of_ok h ⟨by omega, hlow, hc⟩ fun q hq => ?_
  by_contra hlt
  exact habove q (by omega) (by have := hq.1; omega) hq.2.2

theorem FwtoolContract.of_error {x : ℤ} (h : readFwtoolMeta buf = some (.error x))
    (hnone : ∀ p, ¬ SearchedTrailer buf p) :
    FwtoolContract buf := by
  refine ⟨_, h, ⟨?_, ?_⟩, nofun⟩
  · rintro ⟨m, hm⟩
    cases hm
  · rintro ⟨p, hp⟩
    exact absurd hp (hnone p)

/-- The lengths and buffers for which the search begins below its stopping position, or stops below
`16` at a trailer that is not in the range. -/
def FwtoolStray (buf : List UInt8) : Prop :=
  (24 ≤ buf.length ∧ buf.length < 32) ∨
    (0x100000 < buf.length ∧ buf.length < 0x100010 ∧
      (∃ p, buf.length - 0x100000 ≤ p ∧ p < 16 ∧ CarriesTrailer buf p) ∧
      ∀ p, 16 ≤ p → p + 16 ≤ buf.length → ¬ CarriesTrailer buf p)

theorem readFwtoolMeta_of_le (h : 24 ≤ buf.length) :
    readFwtoolMeta buf = fwtoolScan buf
      (if 0x100000 < buf.length then buf.length - 0x100000 else 16) (buf.length - 16) := by
  rw [readFwtoolMeta_eq, parseFwtoolMeta, if_neg (by omega)]

/-- **The search meets its contract exactly on the buffers that are not stray.** -/
theorem readFwtoolMeta_contract_iff (buf : List UInt8) :
    FwtoolContract buf ↔ ¬ FwtoolStray buf := by
  by_cases hshort : buf.length < 24
  · have herror : readFwtoolMeta buf = some (.error (-enoent)) := by
      rw [readFwtoolMeta_eq, parseFwtoolMeta, if_pos hshort]
    have hnone : ∀ p, ¬ SearchedTrailer buf p := fun p hp => by
      have h16 := hp.1
      have hlow := hp.2.1
      omega
    refine iff_of_true (.of_error herror hnone) ?_
    rintro (h | h) <;> omega
  have hread := readFwtoolMeta_of_le (by omega : 24 ≤ buf.length)
  by_cases htiny : buf.length < 32
  · -- the stopping position is above the first one
    refine iff_of_false ?_ (fun h => h (Or.inl ⟨by omega, htiny⟩))
    rintro ⟨r, hr, hiff, -⟩
    rw [hread, if_neg (by omega)] at hr
    cases r with
    | error x => exact fwtoolScan_below buf (by omega) x hr
    | ok m =>
      obtain ⟨p, hp⟩ := hiff.1 ⟨m, rfl⟩
      have h16 := hp.1
      have hlow := hp.2.1
      omega
  · obtain ⟨start, hstart⟩ :
        ∃ start, start = if 0x100000 < buf.length then buf.length - 0x100000 else 16 := ⟨_, rfl⟩
    have hbegin : start ≤ buf.length - 16 := by
      split_ifs at hstart <;> omega
    rw [← hstart] at hread
    obtain ⟨p, hsp, hlast, hscan⟩ | ⟨hnone, hscan⟩ := fwtoolScan_spec buf hbegin
    · by_cases hp : 16 ≤ p
      · have hlow : max 16 (buf.length - 0x100000) ≤ p := by
          split_ifs at hstart <;> omega
        refine iff_of_true (hlast.contract (by omega) hlow (hread.trans hscan)) ?_
        rintro (h | ⟨-, -, -, h⟩)
        · omega
        · exact h p hp (by have := hlast.1; omega) hlast.2.1
      · -- the last trailer lies below the range, so there is none in it
        have habove : ∀ q, 16 ≤ q → q + 16 ≤ buf.length → ¬ CarriesTrailer buf q :=
          fun q hq hlen => hlast.2.2 q (by omega) (by omega)
        refine iff_of_false ?_ (fun h => h (Or.inr ⟨?_, ?_, ⟨p, ?_, by omega, hlast.2.1⟩, habove⟩))
        · rintro ⟨r, hr, hiff, -⟩
          cases (hread.trans hscan).symm.trans hr
          obtain ⟨q, hq⟩ := hiff.1 ⟨_, rfl⟩
          exact habove q (by have := hq.2.1; omega) hq.1 hq.2.2
        · split_ifs at hstart <;> omega
        · split_ifs at hstart <;> omega
        · split_ifs at hstart <;> omega
    · have hempty : ∀ p, ¬ SearchedTrailer buf p := by
        intro p hp
        have hlow := hp.2.1
        have h16 := hp.1
        exact hnone p (by split_ifs at hstart <;> omega) (by omega) hp.2.2
      refine iff_of_true (.of_error (hread.trans hscan) hempty) ?_
      rintro (h | ⟨hlong, -, ⟨p, hp, hp16, hc⟩, -⟩)
      · omega
      · rw [if_pos hlong] at hstart
        exact hnone p (by omega) (by omega) hc

/-- Twenty-four zero bytes: the search begins at `8`, never meets `16` and leaves the buffer. -/
theorem readFwtoolMeta_leaves_buffer : ¬ FwtoolContract (List.replicate 24 0) := by
  rintro ⟨r, hr, -⟩
  have hnone : readFwtoolMeta (List.replicate 24 0) = none := by decide
  rw [hnone] at hr
  cases hr

end UrsusBoot
