import Mathlib.Data.List.Forall2
import UrsusBoot.Tools.Repack

/-!
# What the builder of the MD board returns

On a template whose table ends at or below 0x400 and whose payloads start behind it, `rebuild` succeeds
exactly when every entry has room in the new container, and what it returns can be given as a list of
writes.
-/

namespace UrsusBoot

open Overlay

namespace Repack

/-- The table ends at or below 0x400, and no payload starts inside it. -/
structure Clear (template : List UInt8) (es : List FipRecord) (t : FipRecord) : Prop where
  table : IsTable template es t
  low : tocEnd es ≤ 0x400
  behind : ∀ e ∈ es, tocEnd es ≤ e.offset

/-! ## Where entries go -/

section Place

variable {L : Layout} {n : ℕ} {e : FipRecord}

abbrev IsCert (uuid : List UInt8) (r : ℕ) : Prop := (uuid, r) ∈ certUuids.zip certRel

theorem lookup_cert : ∀ c ∈ certUuids.zip certRel, (certUuids.zip certRel).lookup c.1 = some c.2 := by
  decide

theorem cert_other : ∀ c ∈ certUuids.zip certRel, c.1 ≠ ntFwUuid ∧ c.1 ≠ checksumUuid ∧ c.1 ∈ certUuids ∧
    c.2 ≤ 0x2c00 := by
  decide

theorem exists_isCert {uuid : List UInt8} (h : uuid ∈ certUuids) : ∃ r, IsCert uuid r := by
  have hall : ∀ u ∈ certUuids, ∃ r ∈ certRel, (u, r) ∈ certUuids.zip certRel := by decide
  obtain ⟨r, -, hr⟩ := hall uuid h
  exact ⟨r, hr⟩

theorem certOffset_cert {uuid : List UInt8} {r : ℕ} (h : IsCert uuid r) :
    L.certOffset uuid = some (L.first + r) := by
  rw [Layout.certOffset, lookup_cert _ h]
  rfl

theorem certOffset_none {uuid : List UInt8} (h : uuid ∉ certUuids) : L.certOffset uuid = none := by
  have hnone : (certUuids.zip certRel).lookup uuid = none := by
    rw [List.lookup_eq_none_iff]
    rintro ⟨u, r⟩ hc
    rw [bne_iff_ne]
    rintro rfl
    exact h (cert_other _ hc).2.2.1
  rw [Layout.certOffset, hnone]
  rfl

theorem place_nt (h : e.uuid = ntFwUuid) : L.place n e = (e.offset, n) := if_pos h

theorem place_cert {r : ℕ} (h : IsCert e.uuid r) : L.place n e = (L.first + r, e.size) := by
  rw [Layout.place, if_neg (cert_other _ h).1, certOffset_cert h]

theorem place_checksum (h : e.uuid = checksumUuid) : L.place n e = (L.checksumOff, 40) := by
  have hnt : e.uuid ≠ ntFwUuid := by
    rw [h]
    decide
  have hcert : e.uuid ∉ certUuids := by
    rw [h]
    decide
  rw [Layout.place, if_neg hnt, certOffset_none hcert]
  exact if_pos h

theorem isFixed_iff : isFixed e = true ↔
    e.uuid ≠ ntFwUuid ∧ e.uuid ≠ checksumUuid ∧ e.uuid ∉ certUuids := by
  simp [isFixed, and_assoc]

theorem place_fixed (h : isFixed e = true) : L.place n e = (e.offset, e.size) := by
  obtain ⟨hnt, hsum, hcert⟩ := isFixed_iff.1 h
  rw [Layout.place, if_neg hnt, certOffset_none hcert]
  exact if_neg hsum

theorem kinds (e : FipRecord) : e.uuid = ntFwUuid ∨ e.uuid = checksumUuid ∨ (∃ r, IsCert e.uuid r) ∨
    isFixed e = true := by
  by_cases hnt : e.uuid = ntFwUuid
  · exact .inl hnt
  by_cases hsum : e.uuid = checksumUuid
  · exact .inr (.inl hsum)
  by_cases hcert : e.uuid ∈ certUuids
  · exact .inr (.inr (.inl (exists_isCert hcert)))
  · exact .inr (.inr (.inr (isFixed_iff.2 ⟨hnt, hsum, hcert⟩)))

end Place

/-! ## What a layout is -/

theorem mapM_some {α β : Type} {f : α → Option β} {xs : List α} {ys : List β} :
    xs.mapM f = some ys ↔ List.Forall₂ (fun x y => f x = some y) xs ys := by
  induction xs generalizing ys with
  | nil =>
    rw [List.mapM_nil, List.forall₂_nil_left_iff]
    exact ⟨fun h => (Option.some.inj h).symm, fun h => by rw [h]; rfl⟩
  | cons x xs ih =>
    rw [List.mapM_cons, List.forall₂_cons_left_iff]
    simp only [Option.bind_eq_bind, Option.bind_eq_some_iff, pure, ih]
    constructor
    · rintro ⟨y, hy, zs, hzs, h⟩
      exact ⟨y, zs, hy, hzs, (Option.some.inj h).symm⟩
    · rintro ⟨y, zs, hy, hzs, rfl⟩
      exact ⟨y, hy, zs, hzs, rfl⟩

namespace Lays

variable {template ntPayload : List UInt8} {force : Bool} {L : Layout}

theorem inside (h : Lays template ntPayload force L) :
    leNat (bytesAt template 0 4) = fipMagic ∧ L.termPos = 16 + 40 * L.entries.length ∧
      (∀ e ∈ L.entries, e.offset + e.size ≤ template.length) ∧ ∃ t, IsTable template L.entries t := by
  obtain ⟨p, hp, hentries, hpos⟩ := h.parsed
  obtain ⟨hmagic, -, -, htermPos, hall, t, htable, -⟩ := parseWith_ok.1 hp
  rw [← hentries, ← hpos]
  exact ⟨hmagic, htermPos, hall, t, htable⟩

theorem cert (h : Lays template ntPayload force L) {r : ℕ} {c : FipRecord}
    (hc : (r, c) ∈ certRel.zip L.certs) :
    IsCert c.uuid r ∧ lastWith c.uuid L.entries = some c ∧ c ∈ L.entries := by
  have hall := mapM_some.1 h.certs
  obtain ⟨i, hi⟩ := List.mem_iff_getElem?.1 hc
  obtain ⟨hr, hci⟩ := List.getElem?_zip_eq_some.1 hi
  obtain ⟨hlt, hget⟩ := List.getElem?_eq_some_iff.1 hci
  have hlen := hall.length_eq
  obtain ⟨u, hu⟩ : ∃ u, certUuids[i]? = some u := ⟨_, List.getElem?_eq_getElem (by omega)⟩
  have hlast : lastWith u L.entries = some c := by
    obtain ⟨hltu, hgetu⟩ := List.getElem?_eq_some_iff.1 hu
    have hrel := List.Forall₂.get hall hltu hlt
    rw [List.get_eq_getElem, List.get_eq_getElem, hgetu, hget] at hrel
    exact hrel
  obtain ⟨hmem, rfl⟩ := mem_of_lastWith hlast
  refine ⟨?_, hlast, hmem⟩
  exact List.mem_iff_getElem?.2 ⟨i, List.getElem?_zip_eq_some.2 ⟨hu, hr⟩⟩

theorem rel_of_mem (h : Lays template ntPayload force L) {c : FipRecord} (hc : c ∈ L.certs) :
    ∃ r, (r, c) ∈ certRel.zip L.certs := by
  obtain ⟨i, hi⟩ := List.mem_iff_getElem?.1 hc
  obtain ⟨hlt, -⟩ := List.getElem?_eq_some_iff.1 hi
  have hlen := (mapM_some.1 h.certs).length_eq
  have hsix : certUuids.length = certRel.length := rfl
  obtain ⟨r, hr⟩ : ∃ r, certRel[i]? = some r := ⟨_, List.getElem?_eq_getElem (by omega)⟩
  exact ⟨r, List.mem_iff_getElem?.2 ⟨i, List.getElem?_zip_eq_some.2 ⟨hr, hi⟩⟩⟩

theorem mem_certs (h : Lays template ntPayload force L) {c : FipRecord} (hc : c ∈ L.certs) :
    c ∈ L.entries := by
  obtain ⟨r, hr⟩ := h.rel_of_mem hc
  exact (h.cert hr).2.2

theorem nt_mem (h : Lays template ntPayload force L) : L.nt ∈ L.entries ∧ L.nt.uuid = ntFwUuid :=
  mem_of_lastWith h.nt

theorem small (h : Lays template ntPayload force L) :
    L.finalEnd = L.first + 0x3800 ∧ L.checksumOff = L.first + 0x3400 ∧ L.finalEnd ≤ 0x7b7fc ∧
      L.nt.offset + ntPayload.length ≤ L.first := by
  have hroom : 0x800 + (L.first + 0x3800) ≤ 0x7bffc := h.room
  have hend : L.finalEnd = L.first + 0x3800 := rfl
  refine ⟨hend, rfl, ?_, h.behind⟩
  omega

end Lays

/-! ## The table -/

theorem tocWrites_bounds {i : ℕ} {rs : List FipRecord} {w : ℕ × List UInt8}
    (hw : w ∈ tocWrites i rs) :
    16 + 40 * i + 16 ≤ w.1 ∧ w.1 + 24 ≤ 16 + 40 * (i + rs.length) ∧ w.2.length = 24 := by
  induction rs generalizing i with
  | nil => cases hw
  | cons r rs ih =>
    rw [tocWrites_cons] at hw
    simp only [List.length_cons]
    obtain rfl | hw := List.mem_cons.1 hw
    · exact ⟨Nat.le_refl _, by omega, FipRecord.length_fields _ _ _⟩
    · obtain ⟨hlow, hhigh, hlen⟩ := ih hw
      exact ⟨by omega, by omega, hlen⟩

theorem tocWrites_apart (i : ℕ) (rs : List FipRecord) : (tocWrites i rs).Pairwise Apart := by
  induction rs generalizing i with
  | nil => exact List.Pairwise.nil
  | cons r rs ih =>
    rw [tocWrites_cons, List.pairwise_cons]
    refine ⟨fun w hw => .inl ?_, ih (i + 1)⟩
    obtain ⟨hlow, -, -⟩ := tocWrites_bounds hw
    rw [FipRecord.length_fields]
    omega

theorem mem_tocWrites {rs : List FipRecord} {j : ℕ} {r : FipRecord} (h : rs[j]? = some r) :
    (16 + 40 * j + 16, FipRecord.fields r.offset r.size r.flags) ∈ tocWrites 0 rs :=
  List.mem_map.2 ⟨(r, j), List.mem_zipIdx_iff_getElem?.2 h, rfl⟩

theorem fits_tocWrites {rs : List FipRecord} {n : ℕ} (h : 16 + 40 * rs.length ≤ n) :
    ∀ w ∈ tocWrites 0 rs, Fits n w.1 w.2 := by
  intro w hw
  obtain ⟨-, hhigh, hlen⟩ := tocWrites_bounds hw
  exact .inr (by omega)

theorem fipRecordAt_tocWrites {mid : List UInt8} {old new : List FipRecord}
    (hold : ∀ j e, old[j]? = some e → fipRecordAt mid j = some e)
    (hlen : 16 + 40 * new.length ≤ mid.length)
    (huuid : (new.map fun r => r.uuid) = old.map fun r => r.uuid) (hnum : ∀ r ∈ new, Numbers r)
    {j : ℕ} {r : FipRecord} (hr : new[j]? = some r) :
    fipRecordAt (writeAll (tocWrites 0 new) mid) j = some r := by
  have hfits : ∀ w ∈ tocWrites 0 new, Fits mid.length w.1 w.2 := fits_tocWrites hlen
  obtain ⟨hj, -⟩ := List.getElem?_eq_some_iff.1 hr
  -- the record that was there has the same UUID
  obtain ⟨e, he, heq⟩ : ∃ e, old[j]? = some e ∧ e.uuid = r.uuid := by
    have hsame := congrArg (fun l => l[j]?) huuid
    simp only [List.getElem?_map, hr, Option.map_some] at hsame
    exact Option.map_eq_some_iff.1 hsame.symm
  obtain ⟨-, hread, -⟩ := parts_of_fipRecordAt (hold j e he)
  have hwr := writable_of_fipRecordAt (hold j e he)
  obtain ⟨hoff, hsize, hflags⟩ := hnum r (List.mem_of_getElem? hr)
  have hkeep : bytesAt (writeAll (tocWrites 0 new) mid) (16 + 40 * j) 16 =
      bytesAt mid (16 + 40 * j) 16 := by
    apply slice_writeAll_of_apart hfits
    intro w hw
    obtain ⟨⟨x, i⟩, hx, rfl⟩ := List.mem_map.1 hw
    rw [FipRecord.length_fields]
    dsimp only
    omega
  have hnew := slice_writeAll hfits (tocWrites_apart 0 new) (mem_tocWrites hr)
  rw [FipRecord.length_fields] at hnew
  refine fipRecordAt_of_parts ⟨heq ▸ hwr.uuid, hoff, hsize, hflags⟩ ?_ ?_ hnew
  · rw [length_writeAll hfits]
    omega
  · rw [hkeep, hread, heq]

/-- The records of the new table, the terminator included. -/
def Layout.records (L : Layout) (n : ℕ) (t : FipRecord) : List FipRecord :=
  L.entries.map (L.relocated n) ++ [L.endRecord t]

theorem Layout.length_records (L : Layout) (n : ℕ) (t : FipRecord) :
    16 + 40 * (L.records n t).length = tocEnd L.entries := by
  rw [Layout.records, List.length_append, List.length_map, List.length_singleton, tocEnd]

/-- **The new table**, on a buffer that has the old one. -/
theorem isTable_tocWrites {L : Layout} {n : ℕ} {mid : List UInt8} {t : FipRecord}
    (h : IsTable mid L.entries t) (hnum : ∀ r ∈ L.records n t, Numbers r) :
    IsTable (writeAll (tocWrites 0 (L.records n t)) mid) (L.entries.map (L.relocated n))
      (L.endRecord t) := by
  have hlen : 16 + 40 * (L.records n t).length ≤ mid.length := by
    rw [L.length_records]
    exact h.tocEnd_le
  have hold : ∀ j e, (L.entries ++ [t])[j]? = some e → fipRecordAt mid j = some e :=
    fun _ _ hj => h.record hj
  have huuid : ((L.records n t).map fun r => r.uuid) = (L.entries ++ [t]).map fun r => r.uuid := by
    rw [Layout.records, List.map_append, List.map_append, List.map_map]
    rfl
  have hread := fun j r => fipRecordAt_tocWrites (j := j) (r := r) hold hlen huuid hnum
  refine ⟨fun i e hi => hread i e ?_, hread _ _ ?_, ?_, h.zero⟩
  · obtain ⟨hlt, -⟩ := List.getElem?_eq_some_iff.1 hi
    rw [Layout.records, List.getElem?_append_left hlt, hi]
  · rw [Layout.records, List.getElem?_append_right (Nat.le_refl _), Nat.sub_self]
    rfl
  · intro e he
    obtain ⟨x, hx, rfl⟩ := List.mem_map.1 he
    exact h.nonzero x hx

/-! ## Filling the container -/

section Fill

variable {template ntPayload : List UInt8} {force : Bool} {L : Layout} {t : FipRecord}

theorem Lays.nt_behind (hl : Lays template ntPayload force L) (hc : Clear template L.entries t) :
    tocEnd L.entries ≤ L.nt.offset ∧ tocEnd L.entries ≤ L.first := by
  have hnt := hc.behind L.nt hl.nt_mem.1
  have hbehind := hl.behind
  exact ⟨hnt, by omega⟩

theorem Lays.le_place (hl : Lays template ntPayload force L) {b : ℕ} (hb : ∀ e ∈ L.entries, b ≤ e.offset)
    {e : FipRecord} (he : e ∈ L.entries) : b ≤ (L.place ntPayload.length e).1 := by
  have hown := hb e he
  have hnt := hb L.nt hl.nt_mem.1
  have hbehind := hl.behind
  have hfirst : b ≤ L.first := by omega
  rcases kinds e with h | h | ⟨r, h⟩ | h
  · rw [place_nt h]
    exact hown
  · rw [place_checksum h, hl.small.2.1]
    exact Nat.le_add_right_of_le hfirst
  · rw [place_cert h]
    exact Nat.le_add_right_of_le hfirst
  · rw [place_fixed h]
    exact hown

theorem Lays.numbers (hl : Lays template ntPayload force L) (hc : Clear template L.entries t) :
    ∀ r ∈ L.records ntPayload.length t, Numbers r := by
  have hmax : 0x7b7fc < 256 ^ 8 := by decide
  obtain ⟨-, hsum, hend, hnt⟩ := hl.small
  have hfinal : L.finalEnd = L.first + 0x3800 := rfl
  intro r hr
  rcases List.mem_append.1 hr with hr | hr
  · obtain ⟨e, he, rfl⟩ := List.mem_map.1 hr
    have hwr := hc.table.writable he
    have hplace : (L.place ntPayload.length e).1 < 256 ^ 8 ∧
        (L.place ntPayload.length e).2 < 256 ^ 8 := by
      rcases kinds e with h | h | ⟨c, h⟩ | h
      · rw [place_nt h]
        exact ⟨hwr.offset, by dsimp only; omega⟩
      · rw [place_checksum h]
        exact ⟨by dsimp only; omega, (by decide : 40 < 256 ^ 8)⟩
      · have hrel := (cert_other _ h).2.2.2
        rw [place_cert h]
        exact ⟨by dsimp only at hrel ⊢; omega, hwr.size⟩
      · rw [place_fixed h]
        exact ⟨hwr.offset, hwr.size⟩
    exact ⟨hplace.1, hplace.2, hwr.flags⟩
  · rw [List.mem_singleton.1 hr]
    exact ⟨lt_of_le_of_lt hend hmax, (by decide : 0 < 256 ^ 8), (by decide : 0 < 256 ^ 8)⟩

theorem Layout.start_eq (L : Layout) (template : List UInt8) :
    L.start template = template.take 0x400 ++ List.replicate (L.finalEnd - 0x400) 0 := by
  simp [Layout.start, setSlice]

theorem Lays.payload_behind (hl : Lays template ntPayload force L) (hc : Clear template L.entries t) :
    ∀ w ∈ L.payloadWrites template ntPayload, tocEnd L.entries ≤ w.1 := by
  obtain ⟨hnt, hfirst⟩ := hl.nt_behind hc
  intro w hw
  rcases List.mem_append.1 hw with hw | hw
  · obtain ⟨e, he, rfl⟩ := List.mem_map.1 hw
    exact hc.behind e (List.mem_filter.1 he).1
  obtain rfl | hw := List.mem_cons.1 hw
  · exact hnt
  · obtain ⟨c, -, rfl⟩ := List.mem_map.1 hw
    exact Nat.le_add_right_of_le hfirst

theorem Lays.isTable_payloads (hl : Lays template ntPayload force L)
    (hc : Clear template L.entries t) :
    (writeAll (L.payloadWrites template ntPayload) (L.start template)).take (tocEnd L.entries) =
      template.take (tocEnd L.entries) ∧
    IsTable (writeAll (L.payloadWrites template ntPayload) (L.start template)) L.entries t := by
  have hlow := hc.low
  have hin := hc.table.tocEnd_le
  have hhead : tocEnd L.entries ≤ (template.take 0x400).length := by
    rw [List.length_take]
    omega
  have hstart : tocEnd L.entries ≤ (L.start template).length := by
    rw [L.start_eq, List.length_append]
    omega
  have htake : (writeAll (L.payloadWrites template ntPayload) (L.start template)).take
      (tocEnd L.entries) = template.take (tocEnd L.entries) := by
    rw [take_writeAll (hl.payload_behind hc) hstart, L.start_eq, List.take_append_of_le_length hhead,
      List.take_take, Nat.min_eq_left hlow]
  refine ⟨htake, hc.table.congr htake.symm (Nat.le_refl _) ?_⟩
  exact hstart.trans (length_le_writeAll _ _)

/-- **The container before the checksum**, which is always built. -/
theorem Lays.fill_eq (hl : Lays template ntPayload force L) (hc : Clear template L.entries t)
    {out : List UInt8} : fill L template ntPayload = .ok out ↔
      out = writeAll (tocWrites 0 (L.records ntPayload.length t))
        (writeAll (L.payloadWrites template ntPayload) (L.start template)) := by
  obtain ⟨-, hpos, hall, -⟩ := hl.inside
  have hmid := (hl.isTable_payloads hc).2.tocEnd_le
  rw [fill_ok (t := t) hall (fun e he => hall e (hl.mem_certs he)) hpos]
  constructor
  · exact fun h => h.2.2
  · intro h
    refine ⟨hl.numbers hc, fun w hw => ?_, h⟩
    obtain ⟨-, hhigh, -⟩ := tocWrites_bounds hw
    have hlen := L.length_records ntPayload.length t
    unfold Layout.records at hlen
    omega

theorem Lays.isTable_final (hl : Lays template ntPayload force L) (hc : Clear template L.entries t)
    {out : List UInt8} (hout : fill L template ntPayload = .ok out) (bs : List UInt8) :
    (write out L.checksumOff bs).take 16 = template.take 16 ∧
    IsTable (write out L.checksumOff bs) (L.entries.map (L.relocated ntPayload.length))
      (L.endRecord t) := by
  obtain ⟨htake, hmid⟩ := hl.isTable_payloads hc
  have hlen := hmid.tocEnd_le
  have hfirst := (hl.nt_behind hc).2
  have hsum : tocEnd L.entries ≤ L.checksumOff := Nat.le_add_right_of_le hfirst
  have hrecords : 16 + 40 * (L.records ntPayload.length t).length ≤
      (writeAll (L.payloadWrites template ntPayload) (L.start template)).length := by
    rw [L.length_records]
    exact hlen
  have hsame : tocEnd (L.entries.map (L.relocated ntPayload.length)) = tocEnd L.entries := by
    rw [tocEnd, List.length_map, tocEnd]
  have hnew := isTable_tocWrites hmid (hl.numbers hc)
  have hout' := (hl.fill_eq hc).1 hout
  have houtlen : out.length =
      (writeAll (L.payloadWrites template ntPayload) (L.start template)).length := by
    rw [hout', length_writeAll (fits_tocWrites hrecords)]
  have hsixteen : 16 ≤ tocEnd L.entries := by
    unfold tocEnd
    omega
  have hkeep : (write out L.checksumOff bs).take (tocEnd L.entries) = out.take (tocEnd L.entries) :=
    take_write bs hsum (by omega)
  refine ⟨?_, ?_⟩
  · -- the numbers of the table begin behind the header
    have hshort : ∀ xs : List UInt8, xs.take 16 = (xs.take (tocEnd L.entries)).take 16 := by
      intro xs
      rw [List.take_take, Nat.min_eq_left hsixteen]
    have hhead : out.take 16 = template.take 16 := by
      rw [hout', take_writeAll _ (by omega), hshort, htake, ← hshort]
      intro w hw
      obtain ⟨hlow, -, -⟩ := tocWrites_bounds hw
      omega
    rw [take_write bs (by omega) (by omega), hhead]
  · rw [← hout'] at hnew
    refine hnew.congr hkeep.symm (by omega) ?_
    have hle := length_le_write out L.checksumOff bs
    omega

end Fill

/-! ## The finished container -/

namespace Layout

/-- Everything that is written before the checksum. -/
def writes (L : Layout) (template ntPayload : List UInt8) (t : FipRecord) : List (ℕ × List UInt8) :=
  (0, template.take 0x400) ::
    (L.payloadWrites template ntPayload ++ tocWrites 0 (L.records ntPayload.length t))

def body (L : Layout) (template ntPayload : List UInt8) (t : FipRecord) : List UInt8 :=
  writeAll (L.writes template ntPayload t) (List.replicate L.finalEnd 0)

def image (L : Layout) (H : Hashes) (template ntPayload : List UInt8) (t : FipRecord) : List UInt8 :=
  write (L.body template ntPayload t) L.checksumOff
    (L.sum H ((L.body template ntPayload t).take L.checksumOff))

end Layout

/-- A template that `rebuild` makes a container of. -/
structure Builds (H : Hashes) (template ntPayload : List UInt8) (force : Bool) (L : Layout)
    (t : FipRecord) : Prop where
  lays : Lays template ntPayload force L
  clear : Clear template L.entries t
  long : 0x400 ≤ template.length
  places : ∀ e ∈ L.entries, (L.place ntPayload.length e).1 + (L.place ntPayload.length e).2 ≤ L.finalEnd
  digest : (H.sha256 ((L.body template ntPayload t).take L.checksumOff)).length = 32

section Built

variable {H : Hashes} {template ntPayload : List UInt8} {force : Bool} {L : Layout} {t : FipRecord}

theorem Layout.body_eq (hlong : 0x400 ≤ template.length) :
    L.body template ntPayload t = writeAll (tocWrites 0 (L.records ntPayload.length t))
      (writeAll (L.payloadWrites template ntPayload) (L.start template)) := by
  have hhead : (template.take 0x400).length = 0x400 := by
    rw [List.length_take, Nat.min_eq_left hlong]
  rw [Layout.body, Layout.writes, writeAll_cons, writeAll_append, Layout.start,
    ← setSlice_of_length hhead, Nat.zero_add]

namespace Builds

theorem fits (h : Builds H template ntPayload force L t) :
    ∀ w ∈ L.writes template ntPayload t, Fits L.finalEnd w.1 w.2 := by
  obtain ⟨hend, -, -, hnt⟩ := h.lays.small
  obtain ⟨-, -, hall, -⟩ := h.lays.inside
  intro w hw
  obtain rfl | hw := List.mem_cons.1 hw
  · right
    rw [List.length_take]
    dsimp only
    omega
  rcases List.mem_append.1 hw with hw | hw
  · rcases List.mem_append.1 hw with hw | hw
    · obtain ⟨e, he, rfl⟩ := List.mem_map.1 hw
      obtain ⟨hmem, hfixed⟩ := List.mem_filter.1 he
      have hplace := h.places e hmem
      rw [place_fixed hfixed] at hplace
      right
      rw [length_bytesAt (hall e hmem)]
      exact hplace
    obtain rfl | hw := List.mem_cons.1 hw
    · right
      dsimp only
      omega
    · obtain ⟨⟨r, c⟩, hc, rfl⟩ := List.mem_map.1 hw
      obtain ⟨hcert, -, hmem⟩ := h.lays.cert hc
      have hplace := h.places c hmem
      rw [place_cert hcert] at hplace
      right
      rw [length_bytesAt (hall c hmem)]
      exact hplace
  · refine fits_tocWrites ?_ w hw
    have hlow := h.clear.low
    rw [L.length_records]
    omega

theorem length_body (h : Builds H template ntPayload force L t) :
    (L.body template ntPayload t).length = L.finalEnd := by
  rw [Layout.body, length_writeAll, List.length_replicate]
  rw [List.length_replicate]
  exact h.fits

theorem fits_sum (h : Builds H template ntPayload force L t) :
    Fits (L.body template ntPayload t).length L.checksumOff
      (L.sum H ((L.body template ntPayload t).take L.checksumOff)) := by
  obtain ⟨hend, hsum, -, -⟩ := h.lays.small
  right
  rw [Layout.length_sum h.digest, h.length_body]
  omega

theorem length_image (h : Builds H template ntPayload force L t) :
    (L.image H template ntPayload t).length = L.finalEnd := by
  rw [Layout.image, length_write h.fits_sum, h.length_body]

theorem fill (h : Builds H template ntPayload force L t) :
    Repack.fill L template ntPayload = .ok (L.body template ntPayload t) :=
  (h.lays.fill_eq h.clear).2 (Layout.body_eq h.long)

theorem isTable (h : Builds H template ntPayload force L t) :
    (L.image H template ntPayload t).take 16 = template.take 16 ∧
    IsTable (L.image H template ntPayload t) (L.entries.map (L.relocated ntPayload.length))
      (L.endRecord t) :=
  h.lays.isTable_final h.clear h.fill _

/-- **The new BL33 is in the container**: the certificates, the checksum and the table lie apart. -/
theorem nt_image (h : Builds H template ntPayload force L t) :
    bytesAt (L.image H template ntPayload t) L.nt.offset ntPayload.length = ntPayload := by
  obtain ⟨-, hsum, -, hnt⟩ := h.lays.small
  have hbehind := (h.lays.nt_behind h.clear).1
  have hzeros : (List.replicate L.finalEnd (0 : UInt8)).length = L.finalEnd := List.length_replicate
  have hbody : bytesAt (L.body template ntPayload t) L.nt.offset ntPayload.length = ntPayload := by
    have hsplit : L.writes template ntPayload t =
        ((0, template.take 0x400) :: (L.entries.filter isFixed).map
          fun e => (e.offset, bytesAt template e.offset e.size)) ++
        (L.nt.offset, ntPayload) ::
          ((certRel.zip L.certs).map
            (fun c => (L.first + c.1, bytesAt template c.2.offset c.2.size)) ++
          tocWrites 0 (L.records ntPayload.length t)) := by
      simp [Layout.writes, Layout.payloadWrites]
    have hfits := h.fits
    rw [← hzeros, hsplit] at hfits
    rw [Layout.body, hsplit]
    refine slice_writeAll_last (w := (L.nt.offset, ntPayload)) hfits ?_
    intro w hw
    rcases List.mem_append.1 hw with hw | hw
    · obtain ⟨c, -, rfl⟩ := List.mem_map.1 hw
      left
      dsimp only
      omega
    · obtain ⟨-, hhigh, hlen⟩ := tocWrites_bounds hw
      have hrecords := L.length_records ntPayload.length t
      right
      dsimp only
      omega
  have hkeep := slice_write_of_apart h.fits_sum
    (.inl (by omega : L.nt.offset + ntPayload.length ≤ L.checksumOff))
  exact hkeep.trans hbody

theorem getElem?_image (h : Builds H template ntPayload force L t) (p : ℕ) :
    (L.image H template ntPayload t)[p]? =
      if L.checksumOff ≤ p ∧ p < L.checksumOff + 40 then
        (L.sum H ((L.body template ntPayload t).take L.checksumOff))[p - L.checksumOff]?
      else (L.body template ntPayload t)[p]? := by
  rw [Layout.image, getElem?_write h.fits_sum, Layout.length_sum h.digest]

theorem sum_image (h : Builds H template ntPayload force L t) :
    (L.image H template ntPayload t).take L.checksumOff =
      (L.body template ntPayload t).take L.checksumOff ∧
    bytesAt (L.image H template ntPayload t) L.checksumOff 40 =
      L.sum H ((L.body template ntPayload t).take L.checksumOff) := by
  obtain ⟨hend, hsum, -, -⟩ := h.lays.small
  have hread := slice_write h.fits_sum
  rw [Layout.length_sum h.digest] at hread
  refine ⟨take_write _ (Nat.le_refl _) ?_, hread⟩
  rw [h.length_body]
  omega

end Builds

theorem parse_final {final : List UInt8} (hl : Lays template ntPayload force L)
    (htake : final.take 16 = template.take 16)
    (htable : IsTable final (L.entries.map (L.relocated ntPayload.length)) (L.endRecord t))
    {q : ParsedFip} : parse final = .ok q ↔
      q.serial = leNat (bytesAt final 4 4) ∧ q.flags = leNat (bytesAt final 8 8) ∧
        q.entries = L.entries.map (L.relocated ntPayload.length) ∧ q.fipEnd = L.finalEnd ∧
        q.termPos = 16 + 40 * L.entries.length ∧
        ∀ e ∈ L.entries, (L.place ntPayload.length e).1 + (L.place ntPayload.length e).2 ≤
          final.length := by
  have hmagic : leNat (bytesAt final 0 4) = fipMagic := by
    rw [bytesAt_congr htake (by omega)]
    exact hl.inside.1
  rw [parse, parseWith_ok]
  constructor
  · rintro ⟨-, hserial, hflags, hpos, hall, t', htable', hend⟩
    obtain ⟨heq, rfl⟩ := htable'.eq htable
    rw [heq] at hall hpos
    rw [List.length_map] at hpos
    refine ⟨hserial, hflags, heq, hend, hpos, fun e he => ?_⟩
    exact hall _ (List.mem_map_of_mem he)
  · rintro ⟨hserial, hflags, heq, hend, hpos, hall⟩
    rw [heq]
    refine ⟨hmagic, hserial, hflags, by rw [hpos, List.length_map], fun e he => ?_, _, htable, hend⟩
    obtain ⟨x, hx, rfl⟩ := List.mem_map.1 he
    exact hall x hx

theorem Builds.verify (h : Builds H template ntPayload force L t) :
    Repack.verify H L ntPayload (L.image H template ntPayload t) = .ok () := by
  obtain ⟨htake, htable⟩ := h.isTable
  obtain ⟨hfront, hsum⟩ := h.sum_image
  obtain ⟨-, -, hsmall, -⟩ := h.lays.small
  have hlen := h.length_image
  have hoff : L.checksumOff < 256 ^ 4 := by
    have hmax : 0x7b7fc < 256 ^ 4 := by decide
    have hle : L.checksumOff ≤ L.finalEnd := Nat.add_le_add_left (by decide) L.first
    omega
  have hcrc : H.crc32 ((L.body template ntPayload t).take L.checksumOff) % 2 ^ 32 < 256 ^ 4 :=
    Nat.mod_lt _ (by decide)
  obtain ⟨check, hcheck⟩ := Option.isSome_iff_exists.1 h.lays.checksum
  have hplace := place_checksum (L := L) (n := ntPayload.length) (mem_of_lastWith hcheck).2
  have huuid : ∀ e, (L.relocated ntPayload.length e).uuid = e.uuid := fun _ => rfl
  have hbytes : bytesAt (L.image H template ntPayload t) (L.relocated ntPayload.length check).offset
      (L.relocated ntPayload.length check).size =
      L.sum H ((L.body template ntPayload t).take L.checksumOff) := by
    show bytesAt _ (L.place ntPayload.length check).1 (L.place ntPayload.length check).2 = _
    rw [hplace]
    exact hsum
  rw [verify_ok]
  refine ⟨⟨_, _, _, 16 + 40 * L.entries.length, L.finalEnd⟩, L.relocated ntPayload.length L.nt,
    L.relocated ntPayload.length check,
    (parse_final h.lays htake htable).2 ⟨rfl, rfl, rfl, rfl, rfl, ?_⟩, hlen.symm, ?_, ?_, ?_, ?_, ?_, ?_,
    ?_⟩
  · rw [hlen]
    exact h.places
  · rw [lastWith_map huuid, h.lays.nt]
    rfl
  · show bytesAt _ (L.place ntPayload.length L.nt).1 (L.place ntPayload.length L.nt).2 = _
    rw [place_nt h.lays.nt_mem.2]
    exact h.nt_image
  · rw [lastWith_map huuid, hcheck]
    rfl
  · rw [hbytes, Layout.length_sum h.digest]
    decide
  · rw [hbytes, Layout.sum, List.append_assoc, bytesAt, List.drop_zero,
      List.take_left' (length_leBytes 4 _), leNat_leBytes hoff]
  · rw [hbytes, hfront, Layout.sum, List.append_assoc, bytesAt, List.drop_left' (length_leBytes 4 _),
      List.take_left' (length_leBytes 4 _), leNat_leBytes hcrc]
  · rw [hbytes, hfront, Layout.sum, List.drop_left' (by simp)]

/-- A container as long as its table says was made from a template of at least 0x400 bytes: from a
shorter one the copy of its head shortens the container, and no payload is long enough to make up
for that. -/
theorem Lays.long_of_length (hl : Lays template ntPayload force L) (hc : Clear template L.entries t)
    {bs : List UInt8} (hbs : bs.length = 40)
    (hlen : (write (writeAll (tocWrites 0 (L.records ntPayload.length t))
      (writeAll (L.payloadWrites template ntPayload) (L.start template))) L.checksumOff bs).length =
      L.finalEnd) : 0x400 ≤ template.length := by
  by_contra hshort
  obtain ⟨hend, hsum, -, hnt⟩ := hl.small
  obtain ⟨-, -, hall, -⟩ := hl.inside
  have htoc := hc.table.tocEnd_le
  have hstart : (L.start template).length = template.length + (L.finalEnd - 0x400) := by
    rw [L.start_eq, List.length_append, List.length_take, List.length_replicate,
      Nat.min_eq_right (by omega)]
  have hpayloads : ∀ w ∈ L.payloadWrites template ntPayload,
      Fits (L.start template).length w.1 w.2 := by
    rw [hstart]
    intro w hw
    right
    rcases List.mem_append.1 hw with hw | hw
    · obtain ⟨e, he, rfl⟩ := List.mem_map.1 hw
      have hin := hall e (List.mem_filter.1 he).1
      rw [length_bytesAt hin]
      dsimp only
      omega
    obtain rfl | hw := List.mem_cons.1 hw
    · dsimp only
      omega
    · obtain ⟨⟨r, c⟩, hmem, rfl⟩ := List.mem_map.1 hw
      obtain ⟨hcert, -, hc'⟩ := hl.cert hmem
      have hin := hall c hc'
      have hrel := (cert_other _ hcert).2.2.2
      rw [length_bytesAt hin]
      dsimp only at hrel ⊢
      omega
  have hmid := length_writeAll hpayloads
  have hfits : ∀ w ∈ tocWrites 0 (L.records ntPayload.length t), Fits
      (writeAll (L.payloadWrites template ntPayload) (L.start template)).length w.1 w.2 := by
    apply fits_tocWrites
    rw [hmid, hstart, L.length_records]
    omega
  have hout := length_writeAll hfits
  have htocs : 56 ≤ tocEnd L.entries := by
    unfold tocEnd
    omega
  rw [length_write (.inr (by rw [hout, hmid, hstart, hbs]; omega)), hout, hmid, hstart] at hlen
  omega

/-- **What `rebuild` returns, and when**: on a template whose table is clear it builds the container as
soon as there are the entries it needs and every entry has room in it. -/
theorem rebuild_iff {es : List FipRecord} (hc : Clear template es t) {final : List UInt8}
    {rep : Report} : rebuild H template ntPayload force = .ok (final, rep) ↔
      ∃ L, L.entries = es ∧ Builds H template ntPayload force L t ∧
        final = L.image H template ntPayload t ∧ rep = report H L ntPayload final := by
  rw [rebuild_ok]
  constructor
  · rintro ⟨L, out, hL, hout, hfinal, hverify, hrep⟩
    have hl := layout_ok.1 hL
    obtain ⟨t', ht'⟩ := hl.inside.2.2.2
    obtain ⟨rfl, rfl⟩ := ht'.eq hc.table
    obtain ⟨hend, hsum, hsmall, -⟩ := hl.small
    have hoff : L.checksumOff < 256 ^ 4 := by
      have hmax : 0x7b7fc < 256 ^ 4 := by decide
      omega
    obtain ⟨hdigest, hwrite⟩ := (putChecksum_ok hoff).1 hfinal
    obtain ⟨htake, htable⟩ := hl.isTable_final hc hout (L.sum H (out.take L.checksumOff))
    rw [← hwrite] at htake htable
    obtain ⟨q, nt, check, hq, hqend, -⟩ := verify_ok.1 hverify
    obtain ⟨-, -, -, hfipEnd, -, hplaces⟩ := (parse_final hl htake htable).1 hq
    have hlen : final.length = L.finalEnd := hqend.symm.trans hfipEnd
    have hbody := (hl.fill_eq hc).1 hout
    have hlong : 0x400 ≤ template.length := by
      have hsum40 : (L.sum H (out.take L.checksumOff)).length = 40 := Layout.length_sum hdigest
      refine hl.long_of_length hc hsum40 ?_
      rw [← hbody, ← hwrite, hlen]
    rw [← Layout.body_eq hlong] at hbody
    rw [hlen] at hplaces
    refine ⟨L, rfl, ⟨hl, hc, hlong, hplaces, ?_⟩, ?_, hrep⟩
    · rw [← hbody]
      exact hdigest
    · rw [hwrite, hbody]
      rfl
  · rintro ⟨L, rfl, h, rfl, rfl⟩
    have hoff : L.checksumOff < 256 ^ 4 := by
      obtain ⟨hend, hsum, hsmall, -⟩ := h.lays.small
      have hmax : 0x7b7fc < 256 ^ 4 := by decide
      omega
    exact ⟨L, _, layout_ok.2 h.lays, h.fill, (putChecksum_ok hoff).2 ⟨h.digest, rfl⟩, h.verify, rfl⟩

end Built

end Repack

end UrsusBoot
