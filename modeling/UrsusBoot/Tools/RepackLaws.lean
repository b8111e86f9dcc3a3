import UrsusBoot.Tools.Compact
import UrsusBoot.Tools.RepackSpec

/-!
# Laws of the builder of the MD board

The MD board accepts what the builder writes, building twice is building once, and payloads are kept
exactly when no two of the new container contradict each other.
-/

namespace UrsusBoot

open Overlay

namespace Repack

/-! ## A template -/

/-- A stock container in small: BL33, a payload behind it, the certificates and the checksum. -/
def sampleEntries : List FipRecord :=
  [⟨⟨ntFwUuid, 0x400, 4⟩, 0⟩, ⟨⟨socFwUuid, 0x408, 4⟩, 0⟩] ++
    (certUuids.zip certRel).map (fun c => ⟨⟨c.1, 0x800 + c.2, 16⟩, 0⟩) ++
    [⟨⟨checksumUuid, 0x3c00, 40⟩, 0⟩]

def sampleEnd : FipRecord := ⟨⟨zeroUuid, 0x4000, 0⟩, 0⟩

def sampleHeader : List UInt8 := leBytes 4 fipMagic ++ leBytes 4 fipSerial ++ leBytes 8 0

def sampleTemplate : List UInt8 :=
  fipHead sampleHeader sampleEntries sampleEnd ++ List.replicate (0x4000 - 416) 0x5a

def sampleLayout : Layout :=
  ⟨sampleEntries, 16 + 40 * 9, ⟨⟨ntFwUuid, 0x400, 4⟩, 0⟩,
    (certUuids.zip certRel).map (fun c => ⟨⟨c.1, 0x800 + c.2, 16⟩, 0⟩), 0x800⟩

theorem sampleEntries_spec : ∀ e ∈ sampleEntries, e.uuid.length = 16 ∧ uuidZero e.uuid = false ∧
    0x400 ≤ e.offset ∧ e.offset + 40 ≤ 0x4000 ∧ 0 < e.size ∧ e.size ≤ 40 ∧ e.flags = 0 := by
  decide

theorem sampleEntries_writable : ∀ e ∈ sampleEntries, e.Writable := by
  have hmax : 0x4000 < 256 ^ 8 := by decide
  intro e he
  obtain ⟨huuid, -, -, hoff, -, hsize, hflags⟩ := sampleEntries_spec e he
  exact ⟨huuid, by omega, by omega, by omega⟩

theorem sampleEnd_writable : sampleEnd.Writable := ⟨rfl, by decide, by decide, by decide⟩

theorem length_sampleHead : (fipHead sampleHeader sampleEntries sampleEnd).length = 416 :=
  length_fipHead rfl sampleEntries_writable sampleEnd_writable

theorem length_sampleTemplate : sampleTemplate.length = 0x4000 := by
  rw [sampleTemplate, List.length_append, length_sampleHead, List.length_replicate]

theorem isTable_sampleTemplate : IsTable sampleTemplate sampleEntries sampleEnd :=
  isTable_fipHead rfl sampleEntries_writable sampleEnd_writable
    (fun e he => (sampleEntries_spec e he).2.1) rfl _

theorem clear_sampleTemplate : Clear sampleTemplate sampleEntries sampleEnd := by
  refine ⟨isTable_sampleTemplate, by decide, fun e he => ?_⟩
  obtain ⟨-, -, hlow, -⟩ := sampleEntries_spec e he
  exact Nat.le_trans (by decide) hlow

theorem bytesAt_sampleHeader (n : ℕ) (hn : n ≤ 16) :
    bytesAt sampleTemplate 0 n = sampleHeader.take n := by
  have hlen : sampleHeader.length = 16 := rfl
  rw [sampleTemplate, fipHead, List.append_assoc, bytesAt, List.drop_zero,
    List.take_append_of_le_length (by omega)]

theorem lays_sampleTemplate {ntPayload : List UInt8} (hn : ntPayload.length ≤ 40) (force : Bool) :
    Lays sampleTemplate ntPayload force sampleLayout := by
  have hnt : (0x400 : ℕ) + ntPayload.length ≤ 0x800 := by omega
  have hmagic : leNat (bytesAt sampleTemplate 0 4) = fipMagic := by
    rw [bytesAt_sampleHeader 4 (by decide)]
    decide
  refine ⟨⟨⟨_, _, sampleEntries, 16 + 40 * 9, 0x4000⟩, parseWith_ok.2 ⟨hmagic, rfl, rfl, rfl, ?_,
    sampleEnd, isTable_sampleTemplate, rfl⟩, rfl, rfl⟩, rfl, rfl, rfl, ?_, hnt, by decide⟩
  · intro e he
    obtain ⟨-, -, -, hoff, -, hsize, -⟩ := sampleEntries_spec e he
    rw [length_sampleTemplate]
    omega
  · exact (if_pos (.inr hnt)).symm

theorem builds_sampleTemplate {H : Hashes} (hH : ∀ bs, (H.sha256 bs).length = 32)
    {ntPayload : List UInt8} (hn : ntPayload.length ≤ 40) (force : Bool) :
    Builds H sampleTemplate ntPayload force sampleLayout sampleEnd := by
  refine ⟨lays_sampleTemplate hn force, clear_sampleTemplate, ?_, fun e he => ?_, hH _⟩
  · rw [length_sampleTemplate]
    decide
  · obtain ⟨-, -, -, hoff, -, hsize, -⟩ := sampleEntries_spec e he
    show _ ≤ 0x800 + 0x3800
    rcases kinds e with h | h | ⟨r, h⟩ | h
    · rw [place_nt h]
      dsimp only
      omega
    · rw [place_checksum h]
      decide
    · have hrel := (cert_other _ h).2.2.2
      rw [place_cert h]
      show 0x800 + r + e.size ≤ _
      dsimp only at hrel
      omega
    · rw [place_fixed h]
      dsimp only
      omega

/-- CRC and SHA-256 of a container that is built from the template: `before` is the digest of the bytes
before the checksum, `whole` that of the container. -/
def sampleHashes (crc : ℕ) (before whole : List UInt8) : Hashes :=
  ⟨fun _ => crc, fun bs => if bs.length = 0x3c00 then before else whole⟩

def sampleShort : Hashes :=
  sampleHashes 0x20a275f7
    [0x3e, 0x64, 0x5f, 0x3b, 0xdf, 0x87, 0x2e, 0x4a, 0x0d, 0x3d, 0xb1, 0x25, 0x13, 0x95, 0xc4, 0x56,
     0x91, 0x7a, 0x2d, 0xcb, 0x19, 0xe9, 0x21, 0xab, 0x27, 0xa4, 0xca, 0x77, 0x59, 0x7f, 0x0c, 0x1d]
    [0x1f, 0x34, 0xf3, 0xd1, 0x63, 0xa7, 0x84, 0x0a, 0xbb, 0xc0, 0xa0, 0xb6, 0xfe, 0x05, 0x5e, 0x4e,
     0x95, 0x7a, 0x1e, 0x5a, 0x2b, 0x57, 0xde, 0xf2, 0x7f, 0x61, 0x1a, 0xd4, 0xed, 0x9f, 0x4e, 0x4e]

theorem length_sampleHashes {crc : ℕ} {before whole : List UInt8} (hbefore : before.length = 32)
    (hwhole : whole.length = 32) (bs : List UInt8) :
    ((sampleHashes crc before whole).sha256 bs).length = 32 := by
  show (if bs.length = 0x3c00 then before else whole).length = 32
  by_cases h : bs.length = 0x3c00
  · rw [if_pos h, hbefore]
  · rw [if_neg h, hwhole]

theorem rebuild_sampleShort (force : Bool) : ∃ rep,
    rebuild sampleShort sampleTemplate [1, 2, 3, 4] force =
      .ok (sampleLayout.image sampleShort sampleTemplate [1, 2, 3, 4] sampleEnd, rep) := by
  have hb := builds_sampleTemplate (length_sampleHashes rfl rfl : ∀ bs, (sampleShort.sha256 bs).length = 32)
    (by decide : ([1, 2, 3, 4] : List UInt8).length ≤ 40) force
  exact ⟨_, (rebuild_iff clear_sampleTemplate).2 ⟨sampleLayout, rfl, hb, rfl, rfl⟩⟩

section Laws

variable {H : Hashes} {template ntPayload : List UInt8} {force : Bool} {L : Layout}
  {es : List FipRecord} {t : FipRecord}

/-! ## The device reads it -/

theorem Layout.place_size {n : ℕ} {e : FipRecord} (hn : 0 < n) (he : 0 < e.size) :
    0 < (L.place n e).2 := by
  rcases kinds e with h | h | ⟨r, h⟩ | h
  · rw [place_nt h]
    exact hn
  · rw [place_checksum h]
    exact (by decide : 0 < 40)
  · rw [place_cert h]
    exact he
  · rw [place_fixed h]
    exact he

theorem Builds.fipParse (h : Builds H template ntPayload force L t) (hok : fipHeaderOk template = true)
    (hcount : L.entries.length < fipMaxEntries) (hlow : ∀ e ∈ L.entries, fipTocMin ≤ e.offset)
    (hsize : ∀ e ∈ L.entries, 0 < e.size) (hne : ntPayload ≠ []) :
    UrsusBoot.fipParse (L.image H template ntPayload t) =
      .ok ⟨L.nt.offset, ntPayload.length, L.finalEnd⟩ := by
  obtain ⟨htake, htable⟩ := h.isTable
  have hlen := h.length_image
  have hend : L.finalEnd = L.first + 0x3800 := rfl
  have hnt := hlow L.nt h.lays.nt_mem.1
  have hbehind := h.lays.behind
  have hT := htable.fipTable (by rwa [List.length_map])
  rw [fipParse_ok_iff]
  refine ⟨by omega, ?_, _, hT, ⟨rfl, ?_, ?_, ?_⟩, rfl, ?_⟩
  · unfold fipHeaderOk at hok ⊢
    rwa [bytesAt_congr htake (by omega : 0 + 4 ≤ 16), bytesAt_congr htake (by omega : 4 + 4 ≤ 16)]
  · show fipTocMin ≤ L.finalEnd
    omega
  · exact hlen.ge
  · intro x hx
    obtain ⟨y, hy, rfl⟩ := List.mem_map.1 hx
    obtain ⟨e, he, rfl⟩ := List.mem_map.1 hy
    refine ⟨h.lays.le_place hlow he, ?_, ?_⟩
    · exact L.place_size (List.length_pos_iff.2 hne) (hsize e he)
    · rw [hlen]
      exact h.places e he
  · have huuid : ∀ e, (L.relocated ntPayload.length e).uuid = e.uuid := fun _ => rfl
    rw [lastNt_eq, lastWith_map huuid, h.lays.nt]
    show some (L.place ntPayload.length L.nt) = _
    rw [place_nt h.lays.nt_mem.2]

/-- **The MD board accepts what the builder writes**, as long as it declares and with the new BL33, and
it fits into the stock partition. -/
theorem md_builder_accepted {toc : FipToc} {final : List UInt8} {rep : Report}
    (hparse : UrsusBoot.fipParse template = .ok toc) (htable : IsTable template es t)
    (hlow : tocEnd es ≤ 0x400) (hne : ntPayload ≠ [])
    (h : rebuild H template ntPayload force = .ok (final, rep)) :
    ∃ toc', UrsusBoot.fipParse final = .ok toc' ∧ toc'.declaredEnd = final.length ∧
      bytesAt final toc'.ntOff toc'.ntSize = ntPayload ∧ final.length < fipMax := by
  obtain ⟨-, hok, T, hT, hacc, -, -⟩ := fipParse_ok_iff.1 hparse
  obtain ⟨es', t', htable', rfl, hcount⟩ := isTable_of_fipTable hT
  obtain ⟨rfl, rfl⟩ := htable'.eq htable
  have hin : ∀ e ∈ es', fipTocMin ≤ e.offset ∧ 0 < e.size := by
    intro e he
    obtain ⟨hmin, hpos, -⟩ := hacc.entries _ (List.mem_map_of_mem he)
    exact ⟨hmin, hpos⟩
  have hclear : Clear template es' t' := ⟨htable, hlow, fun e he => hlow.trans (hin e he).1⟩
  obtain ⟨L, rfl, hb, rfl, -⟩ := (rebuild_iff hclear).1 h
  have hsmall := hb.lays.small.2.2.1
  refine ⟨_, hb.fipParse hok hcount (fun e he => (hin e he).1) (fun e he => (hin e he).2) hne,
    hb.length_image.symm, hb.nt_image, ?_⟩
  rw [hb.length_image]
  exact lt_of_le_of_lt hsmall (by decide)

theorem fipParse_sampleTemplate : UrsusBoot.fipParse sampleTemplate = .ok ⟨0x400, 4, 0x4000⟩ := by
  have hlen := length_sampleTemplate
  refine fipParse_ok_iff.2 ⟨by omega, ?_, _, isTable_sampleTemplate.fipTable (by decide),
    ⟨rfl, ?_, ?_, ?_⟩, rfl, rfl⟩
  · unfold fipHeaderOk
    have hserial : bytesAt (bytesAt sampleTemplate 0 16) 4 4 = bytesAt sampleTemplate 4 4 :=
      bytesAt_bytesAt (p := 0) (by decide : 4 + 4 ≤ 16)
    rw [← hserial, bytesAt_sampleHeader 4 (by decide), bytesAt_sampleHeader 16 (by decide)]
    decide
  · show fipTocMin ≤ 0x4000
    decide
  · exact hlen.ge
  · intro x hx
    obtain ⟨e, he, rfl⟩ := List.mem_map.1 hx
    obtain ⟨-, -, hlow, hoff, hpos, hsize, -⟩ := sampleEntries_spec e he
    exact ⟨hlow, hpos, by omega⟩

/-- The board accepts the template with its new BL33. -/
theorem md_builder_accepted_short : ∃ final rep,
    rebuild sampleShort sampleTemplate [1, 2, 3, 4] false = .ok (final, rep) ∧
    ∃ toc', UrsusBoot.fipParse final = .ok toc' ∧ toc'.declaredEnd = final.length ∧
      bytesAt final toc'.ntOff toc'.ntSize = [1, 2, 3, 4] ∧ final.length < fipMax := by
  obtain ⟨rep, h⟩ := rebuild_sampleShort false
  exact ⟨_, rep, h, md_builder_accepted fipParse_sampleTemplate isTable_sampleTemplate (by decide)
    (by decide) h⟩

end Laws

/-! ## Building again -/

def Layout.again (L : Layout) (n : ℕ) : Layout :=
  ⟨L.entries.map (L.relocated n), L.termPos, L.relocated n L.nt, L.certs.map (L.relocated n), L.first⟩

section Again

variable {H : Hashes} {template ntPayload : List UInt8} {force : Bool} {L : Layout} {t : FipRecord}

theorem Layout.place_again (L : Layout) (n : ℕ) (e : FipRecord) :
    (L.again n).place n (L.relocated n e) = L.place n e := by
  have huuid : (L.relocated n e).uuid = e.uuid := rfl
  rcases kinds e with h | h | ⟨r, h⟩ | h
  · rw [place_nt (huuid.trans h), place_nt h, Layout.relocated, place_nt h]
  · rw [place_checksum (huuid.trans h), place_checksum h]
    rfl
  · have hrel : IsCert (L.relocated n e).uuid r := h
    rw [place_cert hrel, place_cert h, Layout.relocated, place_cert h]
    rfl
  · have hrel : isFixed (L.relocated n e) = true := h
    rw [place_fixed hrel, place_fixed h, Layout.relocated, place_fixed h]

theorem Layout.relocated_again (L : Layout) (n : ℕ) (e : FipRecord) :
    (L.again n).relocated n (L.relocated n e) = L.relocated n e := by
  rw [Layout.relocated, L.place_again]
  rfl

theorem Layout.records_again (L : Layout) (n : ℕ) (t : FipRecord) :
    (L.again n).records n (L.endRecord t) = L.records n t := by
  have hsame : (L.again n).relocated n ∘ L.relocated n = L.relocated n := by
    funext e
    exact L.relocated_again n e
  show ((L.entries.map (L.relocated n)).map ((L.again n).relocated n)) ++ _ = _
  rw [List.map_map, hsame]
  rfl

theorem Builds.lays_again (h : Builds H template ntPayload force L t) (force' : Bool) :
    Lays (L.image H template ntPayload t) ntPayload force' (L.again ntPayload.length) := by
  obtain ⟨htake, htable⟩ := h.isTable
  have huuid : ∀ e, (L.relocated ntPayload.length e).uuid = e.uuid := fun _ => rfl
  have hnt : (L.relocated ntPayload.length L.nt).offset = L.nt.offset := by
    rw [Layout.relocated, place_nt h.lays.nt_mem.2]
  have hplaces : ∀ e ∈ L.entries, (L.place ntPayload.length e).1 + (L.place ntPayload.length e).2 ≤
      (L.image H template ntPayload t).length := by
    rw [h.length_image]
    exact h.places
  refine ⟨⟨⟨_, _, _, 16 + 40 * L.entries.length, L.finalEnd⟩,
    (parse_final h.lays htake htable).2 ⟨rfl, rfl, rfl, rfl, rfl, hplaces⟩, rfl, ?_⟩, ?_, ?_, ?_, ?_, ?_,
    h.lays.room⟩
  · exact h.lays.inside.2.1.symm
  · show lastWith ntFwUuid (L.entries.map _) = _
    rw [lastWith_map huuid, h.lays.nt]
    rfl
  · show (lastWith checksumUuid (L.entries.map _)).isSome = true
    rw [lastWith_map huuid, Option.isSome_map]
    exact h.lays.checksum
  · refine mapM_some.2 (List.forall₂_map_right_iff.2 ((mapM_some.1 h.lays.certs).imp ?_))
    intro u c hc
    show lastWith u (L.entries.map _) = _
    rw [lastWith_map huuid, hc]
    rfl
  · -- the first certificate is at the start of the block
    have hhead : ((L.certs.map (L.relocated ntPayload.length)).map fun e => e.offset).headD 0 =
        L.first := by
      have hlen := (mapM_some.1 h.lays.certs).length_eq
      cases hcerts : L.certs with
      | nil =>
        rw [hcerts] at hlen
        cases hlen
      | cons c cs =>
        have hmem : (0x0000, c) ∈ certRel.zip L.certs := by
          rw [hcerts]
          exact List.mem_cons_self
        show (L.place ntPayload.length c).1 = L.first
        rw [place_cert (h.lays.cert hmem).1]
        rfl
    have hle : (L.relocated ntPayload.length L.nt).offset + ntPayload.length ≤
        ((L.certs.map (L.relocated ntPayload.length)).map fun e => e.offset).headD 0 := by
      rw [hhead, hnt]
      exact h.lays.behind
    exact hhead.symm.trans (if_pos (.inr hle)).symm
  · show (L.relocated ntPayload.length L.nt).offset + ntPayload.length ≤ L.first
    rw [hnt]
    exact h.lays.behind

theorem Builds.clear_again (h : Builds H template ntPayload force L t) :
    Clear (L.image H template ntPayload t) (L.again ntPayload.length).entries (L.endRecord t) := by
  have hsame : tocEnd (L.again ntPayload.length).entries = tocEnd L.entries := by
    rw [tocEnd, tocEnd, Layout.again, List.length_map]
  refine ⟨h.isTable.2, ?_, ?_⟩
  · rw [hsame]
    exact h.clear.low
  · intro e he
    obtain ⟨x, hx, rfl⟩ := List.mem_map.1 he
    rw [hsame]
    exact h.lays.le_place h.clear.behind hx

theorem Lays.payloadWrites_again (hl : Lays template ntPayload force L) (final : List UInt8) :
    (L.again ntPayload.length).payloadWrites final ntPayload =
      (L.entries.filter isFixed).map (fun e => (e.offset, bytesAt final e.offset e.size)) ++
        ((L.nt.offset, ntPayload) ::
          (certRel.zip L.certs).map fun c => (L.first + c.1, bytesAt final (L.first + c.1) c.2.size)) := by
  have hfixed : (L.again ntPayload.length).entries.filter isFixed =
      (L.entries.filter isFixed).map (L.relocated ntPayload.length) := List.filter_map ..
  have hcerts : certRel.zip (L.again ntPayload.length).certs =
      (certRel.zip L.certs).map fun c => (c.1, L.relocated ntPayload.length c.2) := by
    rw [Layout.again, List.zip_map_right]
    rfl
  rw [Layout.payloadWrites, hfixed, hcerts, List.map_map, List.map_map]
  congr 1
  · apply List.map_congr_left
    intro e he
    rw [Function.comp_apply, Layout.relocated, place_fixed (List.mem_filter.1 he).2]
  · congr 1
    · show ((L.relocated ntPayload.length L.nt).offset, ntPayload) = _
      rw [Layout.relocated, place_nt hl.nt_mem.2]
    · apply List.map_congr_left
      rintro ⟨r, c⟩ hc
      rw [Function.comp_apply, Layout.relocated, place_cert (hl.cert hc).1]
      rfl

theorem Builds.spans_again (h : Builds H template ntPayload force L t) :
    (((L.again ntPayload.length).writes (L.image H template ntPayload t) ntPayload (L.endRecord t)).map
      fun w => (w.1, w.2.length)) =
      (L.writes template ntPayload t).map fun w => (w.1, w.2.length) := by
  obtain ⟨-, -, hall, -⟩ := h.lays.inside
  obtain ⟨hend, -, -, -⟩ := h.lays.small
  have hlen := h.length_image
  have hlong := h.long
  have hhead : ((L.image H template ntPayload t).take 0x400).length = (template.take 0x400).length := by
    rw [List.length_take, List.length_take]
    omega
  rw [Layout.writes, Layout.writes, h.lays.payloadWrites_again, L.records_again, Layout.payloadWrites]
  simp only [List.map_cons, List.map_append, List.map_map, hhead]
  congr 3
  · apply List.map_congr_left
    intro e he
    obtain ⟨hmem, hfixed⟩ := List.mem_filter.1 he
    have hplace := h.places e hmem
    rw [place_fixed hfixed, ← hlen] at hplace
    rw [Function.comp_apply, Function.comp_apply, length_bytesAt hplace, length_bytesAt (hall e hmem)]
  · congr 1
    apply List.map_congr_left
    rintro ⟨r, c⟩ hc
    obtain ⟨hcert, -, hmem⟩ := h.lays.cert hc
    have hplace := h.places c hmem
    rw [place_cert hcert, ← hlen] at hplace
    rw [Function.comp_apply, Function.comp_apply, length_bytesAt hplace, length_bytesAt (hall c hmem)]

theorem Builds.own_again (h : Builds H template ntPayload force L t) : ∀ w ∈
    (L.again ntPayload.length).writes (L.image H template ntPayload t) ntPayload (L.endRecord t),
    ((L.image H template ntPayload t).drop w.1).take w.2.length = w.2 := by
  obtain ⟨hend, -, -, -⟩ := h.lays.small
  have hlen := h.length_image
  have hown : ∀ a n, a + n ≤ (L.image H template ntPayload t).length →
      ((L.image H template ntPayload t).drop a).take
        (bytesAt (L.image H template ntPayload t) a n).length =
        bytesAt (L.image H template ntPayload t) a n := by
    intro a n hin
    rw [length_bytesAt hin]
    rfl
  intro w hw
  rw [Layout.writes, h.lays.payloadWrites_again, L.records_again] at hw
  obtain rfl | hw := List.mem_cons.1 hw
  · have hlong : 0x400 ≤ (L.image H template ntPayload t).length := by omega
    show ((L.image H template ntPayload t).drop 0).take _ = _
    rw [List.drop_zero, List.length_take, Nat.min_eq_left hlong]
  rcases List.mem_append.1 hw with hw | hw
  · rcases List.mem_append.1 hw with hw | hw
    · obtain ⟨e, he, rfl⟩ := List.mem_map.1 hw
      obtain ⟨hmem, hfixed⟩ := List.mem_filter.1 he
      have hplace := h.places e hmem
      rw [place_fixed hfixed, ← hlen] at hplace
      exact hown _ _ hplace
    obtain rfl | hw := List.mem_cons.1 hw
    · exact h.nt_image
    · obtain ⟨⟨r, c⟩, hc, rfl⟩ := List.mem_map.1 hw
      obtain ⟨hcert, -, hmem⟩ := h.lays.cert hc
      have hplace := h.places c hmem
      rw [place_cert hcert, ← hlen] at hplace
      exact hown _ _ hplace
  · obtain ⟨⟨r, j⟩, hr, rfl⟩ := List.mem_map.1 hw
    have hread := h.isTable.2.record (List.mem_zipIdx_iff_getElem?.1 hr)
    rw [FipRecord.length_fields]
    exact (parts_of_fipRecordAt hread).2.2

theorem Builds.body_again (h : Builds H template ntPayload force L t) {p : ℕ}
    (hp : p < L.checksumOff ∨ L.checksumOff + 40 ≤ p) :
    ((L.again ntPayload.length).body (L.image H template ntPayload t) ntPayload (L.endRecord t))[p]? =
      (L.image H template ntPayload t)[p]? := by
  have hzeros : (List.replicate L.finalEnd (0 : UInt8)).length = L.finalEnd := List.length_replicate
  refine writeAll_again (hzeros.symm ▸ h.fits) h.spans_again h.own_again ?_
  show (L.body template ntPayload t)[p]? = _
  rw [h.getElem?_image, if_neg (by omega)]

theorem Builds.take_again (h : Builds H template ntPayload force L t) :
    ((L.again ntPayload.length).body (L.image H template ntPayload t) ntPayload (L.endRecord t)).take
      L.checksumOff = (L.body template ntPayload t).take L.checksumOff := by
  rw [← h.sum_image.1]
  apply List.ext_getElem?
  intro p
  rw [List.getElem?_take, List.getElem?_take]
  by_cases hp : p < L.checksumOff
  · rw [if_pos hp, if_pos hp, h.body_again (.inl hp)]
  · rw [if_neg hp, if_neg hp]

theorem Builds.again (h : Builds H template ntPayload force L t) (force' : Bool) :
    Builds H (L.image H template ntPayload t) ntPayload force' (L.again ntPayload.length)
      (L.endRecord t) := by
  obtain ⟨hend, -, -, -⟩ := h.lays.small
  refine ⟨h.lays_again force', h.clear_again, ?_, ?_, ?_⟩
  · rw [h.length_image]
    omega
  · intro e he
    obtain ⟨x, hx, rfl⟩ := List.mem_map.1 he
    rw [L.place_again]
    exact h.places x hx
  · show (H.sha256 (List.take L.checksumOff _)).length = 32
    rw [h.take_again]
    exact h.digest

/-- **The container is built from itself.** -/
theorem Builds.image_again (h : Builds H template ntPayload force L t) :
    (L.again ntPayload.length).image H (L.image H template ntPayload t) ntPayload (L.endRecord t) =
      L.image H template ntPayload t := by
  apply List.ext_getElem?
  intro p
  have hagain := (h.again force).getElem?_image p
  by_cases hp : L.checksumOff ≤ p ∧ p < L.checksumOff + 40
  · -- both have the checksum of the same bytes
    rw [hagain, h.getElem?_image, if_pos hp]
    refine (if_pos hp).trans ?_
    show (L.sum H (List.take L.checksumOff _))[p - L.checksumOff]? = _
    rw [h.take_again]
  · rw [hagain]
    exact (if_neg hp).trans (h.body_again (by omega))

/-- **Building twice is building once**, whichever layout is asked for the second time. -/
theorem rebuild_idempotent {es : List FipRecord} {final : List UInt8} {rep : Report}
    (hclear : Clear template es t) (h : rebuild H template ntPayload force = .ok (final, rep))
    (force' : Bool) : rebuild H final ntPayload force' = .ok (final, rep) := by
  obtain ⟨L, rfl, hb, hfinal, hrep⟩ := (rebuild_iff hclear).1 h
  rw [hrep, hfinal]
  refine (rebuild_iff hb.clear_again).2 ⟨L.again ntPayload.length, rfl, hb.again force',
    hb.image_again.symm, ?_⟩
  have hnt : (L.relocated ntPayload.length L.nt).offset = L.nt.offset := by
    rw [Layout.relocated, place_nt hb.lays.nt_mem.2]
  unfold report
  rw [show (L.again ntPayload.length).nt.offset = L.nt.offset from hnt]
  rfl

/-- The template with its new BL33 is rebuilt to itself. -/
theorem rebuild_idempotent_short : ∃ final rep,
    rebuild sampleShort sampleTemplate [1, 2, 3, 4] false = .ok (final, rep) ∧
      rebuild sampleShort final [1, 2, 3, 4] false = .ok (final, rep) := by
  obtain ⟨rep, h⟩ := rebuild_sampleShort false
  exact ⟨_, rep, h, rebuild_idempotent clear_sampleTemplate h false⟩

end Again

end Repack

end UrsusBoot
