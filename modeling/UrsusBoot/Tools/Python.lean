import UrsusBoot.Lib.Overlay
import UrsusBoot.Format.FipRecord

/-!
# What the Python tools share

The FIP builders of the repository are Python scripts. They raise exceptions, pack numbers into byte
arrays, and walk the table of a FIP with the same loop under different checks.
-/

namespace UrsusBoot

open Overlay

/-- What a tool raises. The texts are those of the source; `struct` and dictionaries raise with texts
of their own. -/
inductive Raise where
  | valueError (text : String)
  | assertionError (text : String)
  | systemExit (text : String)
  | structError
  | keyError
  | indexError
deriving DecidableEq

/-- `if c: raise r`. -/
def raiseIf (c : Prop) [Decidable c] (r : Raise) : Except Raise Unit :=
  if c then .error r else .ok ()

theorem raiseIf_ok {c : Prop} [Decidable c] {r : Raise} {u : Unit} :
    raiseIf c r = .ok u ↔ ¬ c := by
  unfold raiseIf
  by_cases h : c
  · simp [h]
  · simp [h]

theorem bind_ok {α β : Type} {x : Except Raise α} {f : α → Except Raise β} {b : β} :
    (x >>= f) = .ok b ↔ ∃ a, x = .ok a ∧ f a = .ok b := by
  cases x with
  | error r => simp [bind, Except.bind]
  | ok a => simp [bind, Except.bind]

theorem exists_of_isOk {ε α : Type} {x : Except ε α} (h : x.isOk = true) : ∃ a, x = .ok a := by
  cases x with
  | error e => cases h
  | ok a => exact ⟨a, rfl⟩

/-- The format `x`. -/
def hexText (n : ℕ) : String := String.ofList (Nat.toDigits 16 n)

def hexdigest (bs : List UInt8) : String :=
  String.join (bs.map fun b => hexText (b.toNat / 16) ++ hexText (b.toNat % 16))

/-! ## `struct` -/

/-- `struct.pack` of unsigned little-endian numbers, each with its width in bytes. -/
def pack : List (ℕ × ℕ) → Except Raise (List UInt8)
  | [] => .ok []
  | (k, n) :: fs =>
    if n < 256 ^ k then (pack fs).map fun bs => leBytes k n ++ bs else .error .structError

/-- `struct.pack_into`. -/
def packInto (out : List UInt8) (pos : ℕ) (fs : List (ℕ × ℕ)) : Except Raise (List UInt8) := do
  let bs ← pack fs
  raiseIf (out.length < pos + bs.length) .structError
  return write out pos bs

/-- The fields of `<QQQ`. -/
def qqq (a b c : ℕ) : List (ℕ × ℕ) := [(8, a), (8, b), (8, c)]

/-- The header of a FIP as `struct.unpack_from('<IIQ', data, 0)` gives it. -/
structure FipHeader where
  magic : ℕ
  serial : ℕ
  flags : ℕ

def unpackHeader (data : List UInt8) : Except Raise FipHeader :=
  if data.length < 16 then .error .structError
  else .ok ⟨leNat (bytesAt data 0 4), leNat (bytesAt data 4 4), leNat (bytesAt data 8 8)⟩

def FipHeader.bytes (h : FipHeader) : List UInt8 :=
  leBytes 4 h.magic ++ leBytes 4 h.serial ++ leBytes 8 h.flags

theorem pack_ok {fs : List (ℕ × ℕ)} {bs : List UInt8} : pack fs = .ok bs ↔
    (∀ f ∈ fs, f.2 < 256 ^ f.1) ∧ bs = (fs.map fun f => leBytes f.1 f.2).flatten := by
  induction fs generalizing bs with
  | nil => simp [pack, eq_comm]
  | cons f fs ih =>
    obtain ⟨k, n⟩ := f
    rw [pack]
    by_cases hn : n < 256 ^ k
    · rw [if_pos hn]
      cases hrest : pack fs with
      | error r =>
        refine iff_of_false nofun ?_
        rintro ⟨hall, -⟩
        have hok := ih.2 ⟨fun f hf => hall f (List.mem_cons_of_mem _ hf), rfl⟩
        rw [hrest] at hok
        cases hok
      | ok cs =>
        obtain ⟨hall, rfl⟩ := ih.1 hrest
        simp only [Except.map, Except.ok.injEq, List.forall_mem_cons, List.map_cons,
          List.flatten_cons]
        exact ⟨fun h => ⟨⟨hn, hall⟩, h.symm⟩, fun h => h.2.symm⟩
    · rw [if_neg hn]
      exact iff_of_false nofun fun h => hn (h.1 (k, n) List.mem_cons_self)

theorem pack_qqq {a b c : ℕ} {bs : List UInt8} : pack (qqq a b c) = .ok bs ↔
    a < 256 ^ 8 ∧ b < 256 ^ 8 ∧ c < 256 ^ 8 ∧ bs = FipRecord.fields a b c := by
  rw [pack_ok]
  simp [qqq, FipRecord.fields, and_assoc]

theorem packInto_ok {out out' : List UInt8} {pos : ℕ} {fs : List (ℕ × ℕ)} :
    packInto out pos fs = .ok out' ↔
      ∃ bs, pack fs = .ok bs ∧ pos + bs.length ≤ out.length ∧ out' = write out pos bs := by
  simp only [packInto, bind_ok, raiseIf_ok, Nat.not_lt]
  constructor
  · rintro ⟨bs, hbs, u, hroom, hout⟩
    exact ⟨bs, hbs, hroom, (Except.ok.inj hout).symm⟩
  · rintro ⟨bs, hbs, hroom, rfl⟩
    exact ⟨bs, hbs, (), hroom, rfl⟩

theorem packInto_qqq {out out' : List UInt8} {pos a b c : ℕ} :
    packInto out pos (qqq a b c) = .ok out' ↔
      a < 256 ^ 8 ∧ b < 256 ^ 8 ∧ c < 256 ^ 8 ∧ pos + 24 ≤ out.length ∧
        out' = write out pos (FipRecord.fields a b c) := by
  rw [packInto_ok]
  constructor
  · rintro ⟨bs, hbs, hroom, rfl⟩
    obtain ⟨ha, hb, hc, rfl⟩ := pack_qqq.1 hbs
    rw [FipRecord.length_fields] at hroom
    exact ⟨ha, hb, hc, hroom, rfl⟩
  · rintro ⟨ha, hb, hc, hroom, rfl⟩
    exact ⟨_, pack_qqq.2 ⟨ha, hb, hc, rfl⟩, by rwa [FipRecord.length_fields], rfl⟩

theorem unpackHeader_ok {data : List UInt8} (h : 16 ≤ data.length) :
    unpackHeader data =
      .ok ⟨leNat (bytesAt data 0 4), leNat (bytesAt data 4 4), leNat (bytesAt data 8 8)⟩ :=
  if_neg (by omega)

theorem bytes_of_unpackHeader {data : List UInt8} {h : FipHeader} (hread : unpackHeader data = .ok h) :
    h.bytes = data.take 16 := by
  unfold unpackHeader at hread
  split_ifs at hread with hlen
  cases hread
  have hback : ∀ a k, a + k ≤ data.length →
      leBytes k (leNat (bytesAt data a k)) = bytesAt data a k := by
    intro a k hk
    have hround := leBytes_leNat (bytesAt data a k)
    rwa [length_bytesAt hk] at hround
  have hsplit : data.take (4 + 4 + 8) = bytesAt data 0 4 ++ bytesAt data 4 4 ++ bytesAt data 8 8 := by
    rw [List.take_add, List.take_add]
    rfl
  rw [FipHeader.bytes, hback 0 4 (by omega), hback 4 4 (by omega), hback 8 8 (by omega), ← hsplit]

/-! ## The loop over the table -/

/-- What the loop returns: the records before the terminator, the terminator, and its position. -/
structure Walk where
  entries : List FipRecord
  terminator : FipRecord
  pos : ℕ

/-- `while pos + 40 <= len(data)` over the records from record `i`: the loop ends at a zero UUID, raises
what `bad` says of a record, or is left without a terminator (`none`). Each round reads a record of
the data, so `k` rounds are enough when `k` is its length. -/
def tocWalk (data : List UInt8) (bad : FipRecord → Option Raise) :
    ℕ → ℕ → Except Raise (Option Walk)
  | 0, _ => .ok none
  | k + 1, i =>
    match fipRecordAt data i with
    | none => .ok none
    | some e =>
      if uuidZero e.uuid then .ok (some ⟨[], e, 16 + 40 * i⟩)
      else match bad e with
        | some r => .error r
        | none => (tocWalk data bad k (i + 1)).map fun w? => w?.map fun w =>
            { w with entries := e :: w.entries }

section Walk

variable {data : List UInt8} {bad : FipRecord → Option Raise}

theorem tocWalk_iff {k i : ℕ} {w : Walk} : tocWalk data bad k i = .ok (some w) ↔
    w.entries.length < k ∧ RecordsFrom data i w.entries w.terminator ∧
      w.pos = 16 + 40 * (i + w.entries.length) ∧ ∀ e ∈ w.entries, bad e = none := by
  obtain ⟨es, t, pos⟩ := w
  dsimp only
  induction k generalizing i es with
  | zero => simp [tocWalk]
  | succ k ih =>
    rw [tocWalk]
    cases he : fipRecordAt data i with
    | none => cases es <;> simp [RecordsFrom, he]
    | some e =>
      cases hz : uuidZero e.uuid with
      | true =>
        simp only [if_true, hz, Except.ok.injEq, Option.some.injEq, Walk.mk.injEq]
        cases es with
        | nil =>
          constructor
          · rintro ⟨-, rfl, rfl⟩
            exact ⟨Nat.succ_pos k, ⟨he, hz⟩, rfl, by simp⟩
          · rintro ⟨-, ⟨ht, -⟩, rfl, -⟩
            exact ⟨rfl, Option.some.inj (he.symm.trans ht), rfl⟩
        | cons x es =>
          refine iff_of_false (fun h => by cases h.1) ?_
          rintro ⟨-, ⟨hx, hnon, -⟩, -⟩
          cases he.symm.trans hx
          rw [hz] at hnon
          cases hnon
      | false =>
        simp only [hz, Bool.false_eq_true, if_false]
        cases hb : bad e with
        | some r =>
          refine iff_of_false (by rintro ⟨⟩) ?_
          rintro ⟨-, hrec, -, hbad⟩
          cases es with
          | nil =>
            obtain ⟨ht, hzero⟩ := hrec
            cases he.symm.trans ht
            rw [hz] at hzero
            cases hzero
          | cons x es =>
            cases he.symm.trans hrec.1
            rw [hbad e List.mem_cons_self] at hb
            cases hb
        | none =>
          cases es with
          | nil =>
            refine iff_of_false (fun h => ?_) ?_
            · cases hrest : tocWalk data bad k (i + 1) with
              | error r =>
                rw [hrest] at h
                cases h
              | ok w? =>
                rw [hrest] at h
                cases w? <;> cases h
            · rintro ⟨-, ⟨ht, hzero⟩, -, -⟩
              cases he.symm.trans ht
              rw [hz] at hzero
              cases hzero
          | cons x es =>
            have hstep : ((tocWalk data bad k (i + 1)).map fun w? => w?.map fun w =>
                { w with entries := e :: w.entries }) = .ok (some ⟨x :: es, t, pos⟩) ↔
                e = x ∧ tocWalk data bad k (i + 1) = .ok (some ⟨es, t, pos⟩) := by
              cases tocWalk data bad k (i + 1) with
              | error r => simp [Except.map]
              | ok w? =>
                cases w? with
                | none => simp [Except.map]
                | some w =>
                  obtain ⟨es', t', pos'⟩ := w
                  simp [Except.map, and_assoc]
            have hpos : i + 1 + es.length = i + (es.length + 1) := by omega
            rw [hstep, ih, hpos]
            simp only [RecordsFrom, he, List.length_cons, Nat.succ_lt_succ_iff, Option.some.injEq,
              List.forall_mem_cons]
            constructor
            · rintro ⟨rfl, hlen, hrec, hp, hbad⟩
              exact ⟨hlen, ⟨rfl, hz, hrec⟩, hp, hb, hbad⟩
            · rintro ⟨hlen, ⟨rfl, -, hrec⟩, hp, -, hbad⟩
              exact ⟨rfl, hlen, hrec, hp, hbad⟩

/-- **The walk over a whole table.** -/
theorem tocWalk_table {w : Walk} : tocWalk data bad data.length 0 = .ok (some w) ↔
    IsTable data w.entries w.terminator ∧ w.pos = 16 + 40 * w.entries.length ∧
      ∀ e ∈ w.entries, bad e = none := by
  rw [tocWalk_iff, ← isTable_iff, Nat.zero_add]
  constructor
  · exact fun h => h.2
  · intro h
    have hend := h.1.tocEnd_le
    unfold tocEnd at hend
    exact ⟨by omega, h⟩

end Walk

/-! ## Parsing -/

structure ParsedFip where
  serial : ℕ
  flags : ℕ
  entries : List FipRecord
  termPos : ℕ
  fipEnd : ℕ

/-- A parser that checks the magic and that no entry ends behind the data, with its texts. -/
def parseWith (magicText : ℕ → String) (oobText missingText : String) (data : List UInt8) :
    Except Raise ParsedFip := do
  let h ← unpackHeader data
  raiseIf (h.magic ≠ fipMagic) (.valueError (magicText h.magic))
  let bad := fun e : FipRecord =>
    if data.length < e.offset + e.size then some (Raise.valueError oobText) else none
  match ← tocWalk data bad data.length 0 with
  | none => throw (.valueError missingText)
  | some w => return ⟨h.serial, h.flags, w.entries, w.pos, w.terminator.offset⟩

/-- **What such a parser accepts and returns.** -/
theorem parseWith_ok {magicText : ℕ → String} {oobText missingText : String} {data : List UInt8}
    {p : ParsedFip} : parseWith magicText oobText missingText data = .ok p ↔
      leNat (bytesAt data 0 4) = fipMagic ∧ p.serial = leNat (bytesAt data 4 4) ∧
        p.flags = leNat (bytesAt data 8 8) ∧ p.termPos = 16 + 40 * p.entries.length ∧
        (∀ e ∈ p.entries, e.offset + e.size ≤ data.length) ∧
        ∃ t, IsTable data p.entries t ∧ p.fipEnd = t.offset := by
  have hbad : ∀ e : FipRecord, (if data.length < e.offset + e.size then
      some (Raise.valueError oobText) else none) = none ↔ e.offset + e.size ≤ data.length := by
    intro e
    by_cases h : data.length < e.offset + e.size
    · simp [h, Nat.not_le.2 h]
    · simp [h, Nat.le_of_not_lt h]
  simp only [parseWith, bind_ok, raiseIf_ok, not_not]
  constructor
  · rintro ⟨h, hh, u, hmagic, w?, hw, hp⟩
    have hlen : ¬ data.length < 16 := fun hlt => by
      rw [unpackHeader, if_pos hlt] at hh
      cases hh
    rw [unpackHeader, if_neg hlen] at hh
    cases hh
    cases w? with
    | none => cases hp
    | some w =>
      cases hp
      obtain ⟨htable, hpos, hall⟩ := tocWalk_table.1 hw
      exact ⟨hmagic, rfl, rfl, hpos, fun e he => (hbad e).1 (hall e he), w.terminator, htable, rfl⟩
  · rintro ⟨hmagic, hserial, hflags, hpos, hall, t, htable, hend⟩
    have hlen : 16 ≤ data.length := by
      have hle := htable.tocEnd_le
      unfold tocEnd at hle
      omega
    refine ⟨_, unpackHeader_ok hlen, (), hmagic, some ⟨p.entries, t, p.termPos⟩,
      tocWalk_table.2 ⟨htable, hpos, fun e he => (hbad e).2 (hall e he)⟩, ?_⟩
    obtain ⟨serial, flags, entries, termPos, fipEnd⟩ := p
    dsimp only at hserial hflags hend
    rw [hserial, hflags, hend]
    rfl

end UrsusBoot
