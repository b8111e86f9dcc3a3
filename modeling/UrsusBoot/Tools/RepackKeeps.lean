import Mathlib.Data.List.Pairwise
import UrsusBoot.Tools.RepackLaws

/-!
# What the builder of the MD board keeps

The builder copies payloads without asking whether they lie apart in the new container. A BL33 that has
grown over the payload behind it, and a block of certificates that has moved over one, replace its
bytes, and no check looks at them.
-/

namespace UrsusBoot

open Overlay

namespace Repack

/-! ## What is meant to be kept -/

/-- An entry of the template and the entry of the container that it has become. -/
structure Kept (template ntPayload final : List UInt8) (e e' : FipRecord) : Prop where
  uuid : e'.uuid = e.uuid
  flags : e'.flags = e.flags
  nt : e.uuid = ntFwUuid → bytesAt final e'.offset e'.size = ntPayload
  payload : e.uuid ≠ ntFwUuid → e.uuid ≠ checksumUuid →
    bytesAt final e'.offset e'.size = bytesAt template e.offset e.size

/-- The container has the entries of the template, with the new BL33. -/
def Keeps (template ntPayload final : List UInt8) : Prop :=
  ∃ es t es' t', IsTable template es t ∧ IsTable final es' t' ∧
    List.Forall₂ (Kept template ntPayload final) es es'

/-! ## When it is -/

/-- The payload that an entry of the template is to have in the container. -/
def payload (template ntPayload : List UInt8) (e : FipRecord) : List UInt8 :=
  if e.uuid = ntFwUuid then ntPayload else bytesAt template e.offset e.size

/-- The byte that an entry is to have at a position of the container. -/
def Layout.asks (L : Layout) (template ntPayload : List UInt8) (e : FipRecord) (p : ℕ) : Option UInt8 :=
  if (L.place ntPayload.length e).1 ≤ p then
    (payload template ntPayload e)[p - (L.place ntPayload.length e).1]?
  else none

/-- The entries whose payloads are written: of BL33 and of the certificates the last ones. -/
def Layout.Copied (L : Layout) (e : FipRecord) : Prop := isFixed e = true ∨ e = L.nt ∨ e ∈ L.certs

/-- The entries of the container do not contradict each other. -/
structure Consistent (H : Hashes) (L : Layout) (template ntPayload : List UInt8) (t : FipRecord) :
    Prop where
  /-- No two entries ask for different bytes at one position. -/
  agree : ∀ e ∈ L.entries, ∀ e' ∈ L.entries, e.uuid ≠ checksumUuid → e'.uuid ≠ checksumUuid →
    ∀ p b b', L.asks template ntPayload e p = some b → L.asks template ntPayload e' p = some b' → b = b'
  /-- What lies under the checksum has the bytes of the checksum. -/
  sum : ∀ e ∈ L.entries, e.uuid ≠ checksumUuid → ∀ p b, L.asks template ntPayload e p = some b →
    L.checksumOff ≤ p → p < L.checksumOff + 40 →
      (L.sum H ((L.body template ntPayload t).take L.checksumOff))[p - L.checksumOff]? = some b
  /-- An entry that is not copied is covered by entries that are, or has what is there before any
  payload is written. -/
  backed : ∀ e ∈ L.entries, e.uuid ≠ checksumUuid → ¬ L.Copied e →
    ∀ p b, L.asks template ntPayload e p = some b → p < L.checksumOff ∨ L.checksumOff + 40 ≤ p →
      (∃ e' ∈ L.entries, L.Copied e' ∧ (L.asks template ntPayload e' p).isSome = true) ∨
        (L.start template)[p]? = some b

section Keeping

variable {H : Hashes} {template ntPayload : List UInt8} {force : Bool} {L : Layout} {t : FipRecord}

variable {e : FipRecord}

theorem Lays.length_payload (hl : Lays template ntPayload force L) (he : e ∈ L.entries)
    (hsum : e.uuid ≠ checksumUuid) :
    (payload template ntPayload e).length = (L.place ntPayload.length e).2 := by
  have hin := length_bytesAt (hl.inside.2.2.1 e he)
  rcases kinds e with h | h | ⟨r, h⟩ | h
  · rw [payload, if_pos h, place_nt h]
  · exact absurd h hsum
  · rw [payload, if_neg (cert_other _ h).1, place_cert h, hin]
  · rw [payload, if_neg (isFixed_iff.1 h).1, place_fixed h, hin]

theorem Builds.shown_iff (h : Builds H template ntPayload force L t) (he : e ∈ L.entries)
    (hsum : e.uuid ≠ checksumUuid) :
    bytesAt (L.image H template ntPayload t) (L.place ntPayload.length e).1
        (L.place ntPayload.length e).2 = payload template ntPayload e ↔
      ∀ p b, L.asks template ntPayload e p = some b → (L.image H template ntPayload t)[p]? = some b := by
  have hlen := h.lays.length_payload he hsum
  constructor
  · intro hshown p b hask
    unfold Layout.asks at hask
    split_ifs at hask with hle
    obtain ⟨hlt, -⟩ := List.getElem?_eq_some_iff.1 hask
    rw [← hshown, bytesAt, getElem?_slice, if_pos (by omega), Nat.add_sub_cancel' hle] at hask
    exact hask
  · intro hall
    apply List.ext_getElem?
    intro k
    rw [bytesAt, getElem?_slice]
    by_cases hk : k < (L.place ntPayload.length e).2
    · have hsome : (payload template ntPayload e)[k]? = some (payload template ntPayload e)[k] :=
        List.getElem?_eq_getElem (by omega)
      rw [if_pos hk, hsome]
      apply hall
      rw [Layout.asks, if_pos (Nat.le_add_right _ _), Nat.add_sub_cancel_left, hsome]
    · rw [if_neg hk, List.getElem?_eq_none (by omega)]

theorem Builds.keeps_iff (h : Builds H template ntPayload force L t) :
    Keeps template ntPayload (L.image H template ntPayload t) ↔
      ∀ e ∈ L.entries, e.uuid ≠ checksumUuid → ∀ p b, L.asks template ntPayload e p = some b →
        (L.image H template ntPayload t)[p]? = some b := by
  constructor
  · rintro ⟨es, t₀, es', t', hes, hes', hall⟩ e he hsum
    obtain ⟨rfl, rfl⟩ := hes.eq h.clear.table
    obtain ⟨rfl, rfl⟩ := hes'.eq h.isTable.2
    have hkept := List.forall₂_same.1 (List.forall₂_map_right_iff.1 hall) e he
    rw [← h.shown_iff he hsum, payload]
    by_cases hnt : e.uuid = ntFwUuid
    · rw [if_pos hnt]
      exact hkept.nt hnt
    · rw [if_neg hnt]
      exact hkept.payload hnt hsum
  · intro hall
    refine ⟨L.entries, t, _, _, h.clear.table, h.isTable.2,
      List.forall₂_map_right_iff.2 (List.forall₂_same.2 fun e he => ⟨rfl, rfl, ?_, ?_⟩)⟩
    · intro hnt
      have hsum : e.uuid ≠ checksumUuid := by
        rw [hnt]
        decide
      have hshown := (h.shown_iff he hsum).2 (hall e he hsum)
      rwa [payload, if_pos hnt] at hshown
    · intro hnt hsum
      have hshown := (h.shown_iff he hsum).2 (hall e he hsum)
      rwa [payload, if_neg hnt] at hshown

theorem Lays.mem_payloadWrites (hl : Lays template ntPayload force L) {w : ℕ × List UInt8} :
    w ∈ L.payloadWrites template ntPayload ↔ ∃ e ∈ L.entries, L.Copied e ∧
      w = ((L.place ntPayload.length e).1, payload template ntPayload e) := by
  have hfixed : ∀ e, isFixed e = true → (e.offset, bytesAt template e.offset e.size) =
      ((L.place ntPayload.length e).1, payload template ntPayload e) := by
    intro e he
    rw [place_fixed he, payload, if_neg (isFixed_iff.1 he).1]
  have hnt : (L.nt.offset, ntPayload) =
      ((L.place ntPayload.length L.nt).1, payload template ntPayload L.nt) := by
    rw [place_nt hl.nt_mem.2, payload, if_pos hl.nt_mem.2]
  have hcert : ∀ r c, (r, c) ∈ certRel.zip L.certs →
      (L.first + r, bytesAt template c.offset c.size) =
        ((L.place ntPayload.length c).1, payload template ntPayload c) := by
    intro r c hc
    have hkind := (hl.cert hc).1
    rw [place_cert hkind, payload, if_neg (cert_other _ hkind).1]
  constructor
  · intro hw
    rcases List.mem_append.1 hw with hw | hw
    · obtain ⟨e, he, rfl⟩ := List.mem_map.1 hw
      obtain ⟨hmem, hfix⟩ := List.mem_filter.1 he
      exact ⟨e, hmem, .inl hfix, hfixed e hfix⟩
    obtain rfl | hw := List.mem_cons.1 hw
    · exact ⟨L.nt, hl.nt_mem.1, .inr (.inl rfl), hnt⟩
    · obtain ⟨⟨r, c⟩, hc, rfl⟩ := List.mem_map.1 hw
      exact ⟨c, (hl.cert hc).2.2, .inr (.inr (List.of_mem_zip hc).2), hcert r c hc⟩
  · rintro ⟨e, hmem, hcopied, rfl⟩
    rcases hcopied with hfix | rfl | hc
    · rw [← hfixed e hfix]
      exact List.mem_append_left _ (List.mem_map.2 ⟨e, List.mem_filter.2 ⟨hmem, hfix⟩, rfl⟩)
    · rw [← hnt]
      exact List.mem_append_right _ List.mem_cons_self
    · obtain ⟨r, hr⟩ := hl.rel_of_mem hc
      rw [← hcert r e hr]
      exact List.mem_append_right _ (List.mem_cons_of_mem _ (List.mem_map.2 ⟨(r, e), hr, rfl⟩))

theorem Builds.image_behind (h : Builds H template ntPayload force L t) {p : ℕ}
    (htoc : tocEnd L.entries ≤ p) (hp : p < L.checksumOff ∨ L.checksumOff + 40 ≤ p) :
    (L.image H template ntPayload t)[p]? =
      (overlay (L.payloadWrites template ntPayload) p).or (L.start template)[p]? := by
  have hlong := h.long
  obtain ⟨hend, -, -, -⟩ := h.lays.small
  have hstart : (L.start template).length = L.finalEnd := by
    rw [L.start_eq, List.length_append, List.length_take, List.length_replicate]
    omega
  have hfits : ∀ w ∈ L.payloadWrites template ntPayload, Fits (L.start template).length w.1 w.2 := by
    intro w hw
    rw [hstart]
    exact h.fits w (List.mem_cons_of_mem _ (List.mem_append_left _ hw))
  have htocs : ∀ w ∈ tocWrites 0 (L.records ntPayload.length t), Fits
      (writeAll (L.payloadWrites template ntPayload) (L.start template)).length w.1 w.2 := by
    intro w hw
    rw [length_writeAll hfits, hstart]
    exact h.fits w (List.mem_cons_of_mem _ (List.mem_append_right _ hw))
  have hnone : overlay (tocWrites 0 (L.records ntPayload.length t)) p = none := by
    apply overlay_eq_none
    intro w hw
    obtain ⟨-, hhigh, hlen⟩ := tocWrites_bounds hw
    have hrecords := L.length_records ntPayload.length t
    omega
  rw [h.getElem?_image, if_neg (by omega), Layout.body_eq hlong, getElem?_writeAll htocs, hnone,
    Option.none_or, getElem?_writeAll hfits]

theorem Layout.asks_some {p : ℕ} {b : UInt8} :
    L.asks template ntPayload e p = some b ↔ (L.place ntPayload.length e).1 ≤ p ∧
      (payload template ntPayload e)[p - (L.place ntPayload.length e).1]? = some b := by
  unfold Layout.asks
  by_cases hle : (L.place ntPayload.length e).1 ≤ p
  · simp [hle]
  · simp [hle]

theorem Lays.asks_of_overlay (hl : Lays template ntPayload force L) {p : ℕ} {b : UInt8}
    (h : overlay (L.payloadWrites template ntPayload) p = some b) :
    ∃ e ∈ L.entries, L.Copied e ∧ L.asks template ntPayload e p = some b := by
  obtain ⟨w, hw, hle, hb⟩ := mem_of_overlay h
  obtain ⟨e, he, hcopied, rfl⟩ := hl.mem_payloadWrites.1 hw
  exact ⟨e, he, hcopied, Layout.asks_some.2 ⟨hle, hb⟩⟩

theorem Lays.overlay_of_asks (hl : Lays template ntPayload force L) (he : e ∈ L.entries)
    (hcopied : L.Copied e) {p : ℕ} {b : UInt8} (hask : L.asks template ntPayload e p = some b) :
    ∃ b', overlay (L.payloadWrites template ntPayload) p = some b' := by
  obtain ⟨hle, hb⟩ := Layout.asks_some.1 hask
  obtain ⟨hlt, -⟩ := List.getElem?_eq_some_iff.1 hb
  cases hsee : overlay (L.payloadWrites template ntPayload) p with
  | some b' => exact ⟨b', rfl⟩
  | none =>
    have hap := overlay_eq_none_iff.1 hsee _ (hl.mem_payloadWrites.2 ⟨e, he, hcopied, rfl⟩)
    dsimp only at hap
    omega

theorem Lays.copied_ne (hl : Lays template ntPayload force L) (h : L.Copied e) :
    e.uuid ≠ checksumUuid := by
  rcases h with hfix | rfl | hc
  · exact (isFixed_iff.1 hfix).2.1
  · rw [hl.nt_mem.2]
    decide
  · obtain ⟨r, hr⟩ := hl.rel_of_mem hc
    exact (cert_other _ (hl.cert hr).1).2.1

theorem Builds.consistent_of_shown (h : Builds H template ntPayload force L t)
    (hall : ∀ e ∈ L.entries, e.uuid ≠ checksumUuid → ∀ p b, L.asks template ntPayload e p = some b →
      (L.image H template ntPayload t)[p]? = some b) : Consistent H L template ntPayload t := by
  refine ⟨?_, ?_, ?_⟩
  · intro e he e' he' hsum hsum' p b b' hb hb'
    have hone := hall e he hsum p b hb
    rw [hall e' he' hsum' p b' hb'] at hone
    exact (Option.some.inj hone).symm
  · intro e he hsum p b hb hlow hhigh
    rw [← hall e he hsum p b hb, h.getElem?_image, if_pos ⟨hlow, hhigh⟩]
  · intro e he hsum _ p b hb hp
    have htoc := h.lays.le_place h.clear.behind he
    have hle := (Layout.asks_some.1 hb).1
    have hshown := hall e he hsum p b hb
    rw [h.image_behind (by omega) hp] at hshown
    cases hsee : overlay (L.payloadWrites template ntPayload) p with
    | none =>
      rw [hsee, Option.none_or] at hshown
      exact .inr hshown
    | some b' =>
      obtain ⟨e', he', hcopied, hask⟩ := h.lays.asks_of_overlay hsee
      exact .inl ⟨e', he', hcopied, by rw [hask]; rfl⟩

theorem Builds.shown_of_consistent (h : Builds H template ntPayload force L t)
    (hc : Consistent H L template ntPayload t) (he : e ∈ L.entries) (hsum : e.uuid ≠ checksumUuid)
    {p : ℕ} {b : UInt8} (hb : L.asks template ntPayload e p = some b) :
    (L.image H template ntPayload t)[p]? = some b := by
  by_cases hp : L.checksumOff ≤ p ∧ p < L.checksumOff + 40
  · rw [h.getElem?_image, if_pos hp]
    exact hc.sum e he hsum p b hb hp.1 hp.2
  have hout : p < L.checksumOff ∨ L.checksumOff + 40 ≤ p := by omega
  have htoc := h.lays.le_place h.clear.behind he
  have hle := (Layout.asks_some.1 hb).1
  rw [h.image_behind (by omega) hout]
  cases hsee : overlay (L.payloadWrites template ntPayload) p with
  | some b' =>
    -- what was written last is asked for by an entry as well
    obtain ⟨e', he', hcopied, hask⟩ := h.lays.asks_of_overlay hsee
    rw [hc.agree e he e' he' hsum (h.lays.copied_ne hcopied) p b b' hb hask]
    rfl
  | none =>
    have hnot : ∀ e' ∈ L.entries, L.Copied e' → ∀ b', L.asks template ntPayload e' p ≠ some b' := by
      intro e' he' hcopied b' hask
      obtain ⟨b'', hsome⟩ := h.lays.overlay_of_asks he' hcopied hask
      rw [hsee] at hsome
      cases hsome
    have hcopied : ¬ L.Copied e := fun hcopied => hnot e he hcopied b hb
    rcases hc.backed e he hsum hcopied p b hb hout with ⟨e', he', hcopied', hsome⟩ | hstart
    · obtain ⟨b', hask⟩ := Option.isSome_iff_exists.1 hsome
      exact absurd hask (hnot e' he' hcopied' b')
    · rw [Option.none_or]
      exact hstart

/-- Two entries lie apart in the container, or one of them is the checksum. -/
def Layout.Apart (L : Layout) (n : ℕ) (e e' : FipRecord) : Prop :=
  e.uuid = checksumUuid ∨ e'.uuid = checksumUuid ∨
    (L.place n e).1 + (L.place n e).2 ≤ (L.place n e').1 ∨
    (L.place n e').1 + (L.place n e').2 ≤ (L.place n e).1

instance (n : ℕ) (e e' : FipRecord) : Decidable (L.Apart n e e') := inferInstanceAs (Decidable (_ ∨ _))

instance (n : ℕ) : Std.Symm (L.Apart n) where
  symm _ _ h := by
    rcases h with h | h | h | h
    · exact .inr (.inl h)
    · exact .inl h
    · exact .inr (.inr (.inr h))
    · exact .inr (.inr (.inl h))

theorem Lays.consistent_of_apart (hl : Lays template ntPayload force L)
    (hcopied : ∀ e ∈ L.entries, e.uuid ≠ checksumUuid → L.Copied e)
    (hbefore : ∀ e ∈ L.entries, e.uuid ≠ checksumUuid →
      (L.place ntPayload.length e).1 + (L.place ntPayload.length e).2 ≤ L.checksumOff)
    (hapart : L.entries.Pairwise (L.Apart ntPayload.length)) :
    Consistent H L template ntPayload t := by
  have hin : ∀ e ∈ L.entries, e.uuid ≠ checksumUuid → ∀ p b, L.asks template ntPayload e p = some b →
      (L.place ntPayload.length e).1 ≤ p ∧
        p < (L.place ntPayload.length e).1 + (L.place ntPayload.length e).2 := by
    intro e he hsum p b hb
    obtain ⟨hle, hget⟩ := Layout.asks_some.1 hb
    obtain ⟨hlt, -⟩ := List.getElem?_eq_some_iff.1 hget
    rw [hl.length_payload he hsum] at hlt
    omega
  refine ⟨?_, ?_, fun e he hsum hnot => absurd (hcopied e he hsum) hnot⟩
  · intro e he e' he' hsum hsum' p b b' hb hb'
    have hone := hin e he hsum p b hb
    have htwo := hin e' he' hsum' p b' hb'
    by_cases heq : e = e'
    · rw [heq, hb'] at hb
      exact (Option.some.inj hb).symm
    · rcases hapart.forall he he' heq with h | h | h | h
      · exact absurd h hsum
      · exact absurd h hsum'
      · omega
      · omega
  · intro e he hsum p b hb hlow
    have hone := hin e he hsum p b hb
    have hend := hbefore e he hsum
    omega

end Keeping

/-! ## The template -/

theorem consistent_sampleShort :
    Consistent sampleShort sampleLayout sampleTemplate [1, 2, 3, 4] sampleEnd := by
  refine (lays_sampleTemplate (by decide) false).consistent_of_apart ?_ ?_ ?_
  · intro e he hsum
    rcases List.mem_append.1 he with he | he
    · rcases List.mem_append.1 he with he | he
      · rcases List.mem_cons.1 he with rfl | he
        · exact .inr (.inl rfl)
        · rw [List.mem_singleton.1 he]
          exact .inl (by decide)
      · exact .inr (.inr he)
    · rw [List.mem_singleton.1 he] at hsum
      exact absurd rfl hsum
  · show ∀ e ∈ sampleEntries, _
    decide
  · show sampleEntries.Pairwise _
    decide

def sampleLong : Hashes :=
  sampleHashes 0x24451bb7
    [0x42, 0x7f, 0x29, 0xde, 0x94, 0xca, 0x88, 0x0f, 0x7a, 0x87, 0xc1, 0xcc, 0x5f, 0x75, 0xef, 0xe7,
     0xcd, 0xe0, 0xcf, 0x6d, 0x89, 0x48, 0xff, 0xbc, 0x1d, 0xb3, 0x37, 0x7a, 0xbf, 0x01, 0x25, 0xb5]
    [0x0e, 0xeb, 0x08, 0xde, 0xce, 0x3f, 0x45, 0x5d, 0xf0, 0x9e, 0xc7, 0x5f, 0x67, 0x47, 0xb7, 0x95,
     0x21, 0x14, 0xfd, 0xdf, 0x78, 0x47, 0x6c, 0x60, 0x2a, 0x3a, 0xcf, 0x84, 0x7c, 0xc1, 0xd3, 0xd5]

end Repack

end UrsusBoot
