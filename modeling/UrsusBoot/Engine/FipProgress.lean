import UrsusBoot.Engine.FipAccept

/-!
# Stages of a FIP update that get done

The other direction of the safety results: under outcomes picked here, each stage of an update of
the native layout gets done. The lemmas take the effect of a command on the attached device as an
equation, so that a concrete board only has to compute its volume tables.
-/

namespace UrsusBoot

open Prog

/-- The native device is attached for the FIP updater and is `u`. -/
structure Mounted (u : UbiImage) (w : World) : Prop where
  attached : w.attached = some .ursusUpdateUbi
  ubi : w.ubi .native = u

theorem Mounted.set {u : UbiImage} {w : World} (h : Mounted u w) (u' : UbiImage) :
    Mounted u' (w.setUbi .native u') := ⟨h.attached, w.setUbi_ubi_self _ _⟩

theorem Mounted.with_ram {u : UbiImage} {w : World} (h : Mounted u w) (m : Mem UInt8) :
    Mounted u { w with ram := m } := ⟨h.attached, h.ubi⟩

theorem Mounted.later {u : UbiImage} {w : World} (h : Mounted u w) (m : Mem UInt8) (t : ℕ) :
    Mounted u { w with ram := m, clock := t } := ⟨h.attached, h.ubi⟩

theorem Mounted.device {u : UbiImage} {w : World} (h : Mounted u w) : w.device = some u := by
  simp only [World.device, h.attached, Option.map_some, Option.some.injEq]
  exact h.ubi

section Primitives

variable {w : World} {tr : List FlashEvent} {u : UbiImage}

theorem ubiCells_of_none {o : Outcome} (h : o.cells = none) : w.ubiCells o = w := by
  simp only [World.ubiCells, h]

theorem shellUbi_mounted {f : UbiImage → Option UbiImage} {u' : UbiImage} (h : Mounted u w)
    (hf : f u = some u') : w.shellUbi .ok f = (0, w.setUbi .native u') := by
  have hu : w.ubi UbiPart.ursusUpdateUbi.area = u := h.ubi
  simp only [World.shellUbi, h.attached, hu, hf]
  rfl

theorem shellUbi_refused {f : UbiImage → Option UbiImage} {o : Outcome} (h : Mounted u w)
    (hcells : o.cells = none) (hf : o.err.isSome ∨ f u = none) : w.shellUbi o f = (1, w) := by
  have hu : w.ubi UbiPart.ursusUpdateUbi.area = u := h.ubi
  simp only [World.shellUbi, h.attached, hu, ubiCells_of_none hcells]
  rcases hf with hf | hf
  · obtain ⟨e, he⟩ := Option.isSome_iff_exists.1 hf
    rw [he]
  · rw [hf]
    cases o.err <;> rfl

theorem may_removeIfPresent {Q : ℤ → World → List FlashEvent → Prop} {n : String} (o : Outcome)
    (h : Mounted u w) (hcells : o.cells = none) (hn : o.err.isSome ∨ u.vols.find? n = none)
    (hQ : ∀ tr', Q 0 w tr') : May exec Q (removeIfPresent n) w tr := by
  have hcheck : exec (.ubiCheck n) o w = (1, w) := by
    simp only [exec]
    exact shellUbi_refused h hcells (hn.imp id fun hn => by simp [hn])
  refine may_answer hcheck ?_
  rw [if_neg (by simp)]
  exact hQ _

end Primitives

/-! ## Validation -/

section Validation

variable {P : Platform} {w : World} {tr : List FlashEvent}

theorem may_fipBl33Unpack {Q : Except ℤ (List UInt8) → World → List FlashEvent → Prop}
    {buf raw : List UInt8} (h : bl33 P buf = .ok raw) (hQ : ∀ tr', Q (.ok raw) w tr') :
    May exec Q (fipBl33Unpack P buf) w tr := by
  refine (may_of_spec (fipBl33Unpack_fine h w) .ok (fun _ _ => rfl) tr).mono fun r w' tr' hr => ?_
  obtain ⟨rfl, rfl⟩ := hr
  exact hQ tr'

variable {buf : List UInt8}

theorem fipAccepts_ursus (h : fipAccepts P .ursus buf = true) :
    ∃ raw, bl33 P buf = .ok raw ∧ ursusIdentity raw = true := by
  unfold fipAccepts at h
  cases hb : bl33 P buf with
  | error e => simp [hb] at h
  | ok raw => exact ⟨raw, rfl, by simpa [hb] using h⟩

theorem fipAccepts_vanilla (h : fipAccepts P .vanilla buf = true) :
    ∃ raw, bl33 P buf = .ok raw ∧ vanillaIdentity P raw = true ∧ vanillaFipPinned P = true ∧
      P.sha256 buf = P.vanillaFipSha256 := by
  unfold fipAccepts at h
  cases hb : bl33 P buf with
  | error e => simp [hb] at h
  | ok raw =>
    simp only [hb, Bool.and_eq_true, beq_iff_eq] at h
    exact ⟨raw, rfl, h.1.1, h.1.2, h.2⟩

theorem bl33_length {buf raw : List UInt8} (h : bl33 P buf = .ok raw) :
    buf.length ≠ 0 ∧ buf.length ≤ ubiFipVolSize := by
  obtain ⟨toc, hu, hend, hmax⟩ := exists_unpacks h
  have hsize := hu.size
  have hinside := hu.inside
  exact ⟨by omega, hmax⟩

theorem fipAccepts_length {kind : FipKind} (h : fipAccepts P kind buf = true) :
    buf.length ≠ 0 ∧ buf.length ≤ ubiFipVolSize := by
  cases hb : bl33 P buf with
  | error e => simp [fipAccepts, hb] at h
  | ok raw => exact bl33_length hb

theorem may_fipValidate {Q : ℤ → World → List FlashEvent → Prop} {addr len : ℕ}
    (h : fipAccepts P .ursus (w.ram.slice addr len) = true) (hQ : ∀ tr', Q 0 w tr') :
    May exec Q (fipValidate P addr len false) w tr := by
  obtain ⟨raw, hb, hid⟩ := fipAccepts_ursus h
  refine may_next .ok ?_
  rw [if_neg (by simp)]
  refine may_bind (may_fipBl33Unpack hb fun tr' => ?_)
  simpa [hid, exec] using hQ tr'

theorem may_vanillaFipValidate {Q : ℤ → World → List FlashEvent → Prop} {addr len : ℕ}
    (h : fipAccepts P .vanilla (w.ram.slice addr len) = true) (hQ : ∀ tr', Q 0 w tr') :
    May exec Q (vanillaFipValidate P addr len false) w tr := by
  obtain ⟨raw, hb, hid, hpin, hsha⟩ := fipAccepts_vanilla h
  unfold vanillaFipValidate
  rw [if_neg (by simp)]
  refine may_next .ok ?_
  refine may_bind (may_fipBl33Unpack hb fun tr' => ?_)
  have hid' : (!memHas raw P.boardCompatible || memHas raw P.boardOtherCompatible ||
      !memHas raw "U-Boot 2026.07" || memHas raw "U-Boot 2026.07-UrsusBoot-") = false := by
    rw [← Bool.not_eq_true', ← hid, vanillaIdentity]
    simp only [Bool.not_or, Bool.not_not]
  have hsha' : P.sha256 (exec (.readMem addr len) .ok w).1 = P.vanillaFipSha256 := hsha
  simp only [hid', hpin, hsha', Bool.false_eq_true, if_false, Bool.not_true, if_true]
  exact hQ tr'

theorem may_fipValidateKind {Q : ℤ → World → List FlashEvent → Prop} {addr len : ℕ}
    {kind : FipKind} (h : fipAccepts P kind (w.ram.slice addr len) = true) (hQ : ∀ tr', Q 0 w tr') :
    May exec Q (fipValidateKind P addr len false kind) w tr := by
  cases kind with
  | ursus => exact may_fipValidate h hQ
  | vanilla => exact may_vanillaFipValidate h hQ

theorem may_fipValidateCurrent (h : fipAccepts P .ursus buf = true) :
    May exec (fun r w' _ => r = .ok buf.length ∧ w' = w) (fipValidateCurrent P buf) w tr := by
  obtain ⟨raw, hb, hid⟩ := fipAccepts_ursus h
  obtain ⟨toc, hu, hend, -⟩ := exists_unpacks hb
  simpa [hid, hend] using may_of_spec (fipValidateCurrent_fine hu w) .ok (fun _ _ => rfl) tr

/-- A FIP that unpacks but identifies neither UrsusBoot nor the stock bootloader is foreign. -/
theorem may_fipValidateCurrent_foreign {buf raw : List UInt8} (hb : bl33 P buf = .ok raw)
    (hursus : ursusIdentity raw = false) (hstock : stockIdentity raw = false) :
    May exec (fun r w' _ => r = .error (-enodev) ∧ w' = w) (fipValidateCurrent P buf) w tr := by
  obtain ⟨toc, hu, -⟩ := exists_unpacks hb
  simpa [hursus, hstock] using may_of_spec (fipValidateCurrent_fine hu w) .ok (fun _ _ => rfl) tr

end Validation

namespace FipUpdate

/-! ## Stages -/

/-- The board has the supported NAND, and UBI lives where the native layout has it. -/
structure NativeNand (w : World) : Prop where
  geometry : w.geometry = some .supported
  magic : w.nand.slice ubiBase 4 = asciiBytes "UBI#"

section Stages

variable {P : Platform} {c : Ctx} {w : World} {tr : List FlashEvent} {u : UbiImage}

theorem may_detectUbiLayout {Q : Except ℤ Bool → World → List FlashEvent → Prop}
    (h : NativeNand w) (hQ : ∀ tr', Q (.ok true) w tr') : May exec Q detectUbiLayout w tr := by
  refine may_next .ok ?_
  simp only [exec, Outcome.ok, Option.isNone_none, if_true, h.geometry]
  rw [if_neg (by simp)]
  refine may_next .ok ?_
  have hlen : (asciiBytes "UBI#").length = 4 := by decide
  simpa [exec, Outcome.ok, World.nandRead, h.magic, hlen] using hQ _

def Bl2Pinned (P : Platform) (w : World) : Prop :=
  P.sha256 (w.nand.slice 0 ubiBl2Size) = P.bl2ImageSha256

theorem may_installedBl2MatchesPin {Q : ℤ → World → List FlashEvent → Prop} (h : NativeNand w)
    (hpin : Bl2Pinned P w) (hQ : ∀ tr', Q 0 w tr') :
    May exec Q (installedBl2MatchesPin P) w tr := by
  have hfind : exec .findMasterNand .ok w = (some .supported, w) := by
    simp only [exec, Outcome.ok, Option.isNone_none, if_true, h.geometry]
  have hread : exec (.nandRead 0 ubiBl2Size) .ok w = ((0, w.nand.slice 0 ubiBl2Size), w) := rfl
  refine may_answer hfind ?_
  refine may_answer (o := .ok) (r := true) rfl ?_
  refine may_answer hread ?_
  have hlen : (w.nand.slice 0 ubiBl2Size).length = ubiBl2Size := Mem.length_slice _ _ _
  simp only [hlen]
  rw [if_neg (by decide)]
  have hpin' : P.sha256 (w.nand.slice 0 ubiBl2Size) = P.bl2ImageSha256 := hpin
  simp only [hpin']
  rw [if_neg (not_not.2 rfl)]
  exact hQ _

variable {Q : ℤ × Ctx → World → List FlashEvent → Prop}

theorem may_startKind {addr len : ℕ} {kind : FipKind} (hact : c.active = false) (h : NativeNand w)
    (hacc : fipAccepts P kind (w.ram.slice addr len) = true)
    (hpin : kind = .vanilla → Bl2Pinned P w)
    (hQ : ∀ tr', Q (0, { addr, len, kind, ubiLayout := true
                         digest := P.sha256 (w.ram.slice addr len)
                         stage := .precheck, active := true }) w tr') :
    May exec Q (startKind P c addr len kind) w tr := by
  unfold startKind
  rw [if_neg (by simp [hact])]
  refine may_bind (may_detectUbiLayout h fun tr₀ => ?_)
  refine may_bind (may_fipValidateKind hacc fun tr₁ => ?_)
  rw [if_neg (by simp)]
  by_cases hkind : kind = .vanilla
  · rw [if_pos hkind]
    refine may_bind (may_installedBl2MatchesPin h (hpin hkind) fun tr₂ => ?_)
    rw [if_neg (by simp)]
    exact may_next .ok (hQ _)
  · rw [if_neg hkind]
    exact may_next .ok (hQ _)

theorem may_precheck (h : NativeNand w)
    (hacc : fipAccepts P c.kind (w.ram.slice c.addr c.len) = true)
    (hpin : c.kind = .vanilla → Bl2Pinned P w)
    (hQ : ∀ tr', Q ({ c with ubiLayout := true }.advance .ubiAttach) w tr') :
    May exec Q (precheck P c) w tr := by
  refine may_bind (may_detectUbiLayout h fun tr₀ => ?_)
  refine may_bind (may_fipValidateKind hacc fun tr₁ => ?_)
  rw [if_neg (by simp)]
  by_cases hkind : c.kind = .vanilla
  · rw [if_pos hkind]
    refine may_bind (may_installedBl2MatchesPin h (hpin hkind) fun tr₂ => ?_)
    rw [if_neg (by simp)]
    exact hQ tr₂
  · rw [if_neg hkind]
    exact hQ tr₁

def noNand : Outcome := .fails ⟨-enodev, by decide⟩

theorem may_precheck_noNand (hQ : Q (failReason c (-enodev) "PRECHECK_LAYOUT_DETECT_FAILED") w
      (tr ++ [⟨.findMasterNand, noNand, w⟩])) : May exec Q (precheck P c) w tr := by
  refine ⟨noNand, ?_⟩
  exact hQ

theorem area_ursusUpdateUbi : UbiPart.ursusUpdateUbi.area = .native := rfl

/-- The world once the updater has registered and attached its partition. -/
def mounted (w : World) : World :=
  { w with updatePart := some ⟨.ursusUpdateUbi, area_ursusUpdateUbi⟩, attached := some .ursusUpdateUbi }

theorem may_ensureUbiAttachment {Q : ℤ → World → List FlashEvent → Prop} (h : NativeNand w)
    (hat : w.attached = none) (hpart : w.updatePart = none) (hready : w.ubiMtdReady = false)
    (hnames : (w.vols .native).Distinct) (hQ : ∀ tr', Q 0 (mounted w) tr') :
    May exec Q ensureUbiAttachment w tr := by
  have hreg : exec .updateRegisterUbiPart .ok w =
      (.ok .ursusUpdateUbi, { w with updatePart := some ⟨.ursusUpdateUbi, rfl⟩ }) := by
    simp only [exec, World.updateRegisterUbiPart, hpart, Outcome.ok, h.geometry, hready, if_true,
      Bool.false_eq_true, if_false]
  have hnone : exec .ubiGetDevice .ok { w with updatePart := some ⟨.ursusUpdateUbi, rfl⟩ } =
      (none, { w with updatePart := some ⟨.ursusUpdateUbi, rfl⟩ }) := by
    simp only [exec, hat, Option.map_none]
  have hmount : exec (.ubiPart .ursusUpdateUbi) .ok
      { w with updatePart := some ⟨.ursusUpdateUbi, rfl⟩ } = (0, mounted w) := by
    have hnames' : (w.ubi UbiPart.ursusUpdateUbi.area).vols.Distinct := hnames
    simp only [exec, World.ubiPart, hat, hnames', Outcome.ok, Option.isNone_none, and_self, if_true,
      reduceCtorEq, if_false]
    rfl
  refine may_answer hreg (may_answer hnone (may_answer hmount ?_))
  rw [if_neg (by simp)]
  exact may_next .ok (hQ _)

variable {v : Volume} {i : Fin vtblSlots}

theorem ubiRead_mounted {n : String} {len : ℕ} (h : Mounted u w)
    (hn : u.vols.lookup n = some (i, v)) (hmark : v.updMarker = false) (hlen : v.data.length = len)
    (hne : len ≠ 0) :
    exec (.ubiRead ubiReadbackAddr n len) .ok w =
      (0, { w with ram := w.ram.blit ubiReadbackAddr v.data }) := by
  have hdata : v.data ≠ [] := by
    rintro hnil
    simp [hnil] at hlen
    omega
  have htake : v.data.take (min len v.data.length) = v.data := by
    rw [List.take_of_length_le (by omega)]
  simp only [exec, World.ubiRead, h.device, Option.bind_some, hn, hmark, hdata, Outcome.ok,
    Bool.false_eq_true, if_false, Option.isNone_none, if_true, hne, htake]
  rfl

/-- How an active `fip` of the given length is classified after its validation. -/
def verdictMode (len : ℕ) : Except ℤ ℕ → Mode × ℤ
  | .error e => (.repairInvalid, e)
  | .ok n => if n ≠ len then (.repairInvalid, -einval) else (.normal, 0)

theorem may_classifyActiveFip {Q : Mode × ℤ → World → List FlashEvent → Prop} {verdict : Except ℤ ℕ}
    (h : Mounted u w) (hfip : u.vols.lookup "fip" = some (i, v)) (hmark : v.updMarker = false)
    (hne : v.data.length ≠ 0) (hmax : v.data.length ≤ ubiFipVolSize)
    (hvalid : ∀ (w' : World) (tr' : List FlashEvent),
      May exec (fun r w₁ _ => r = verdict ∧ w₁ = w') (fipValidateCurrent P v.data) w' tr')
    (hQ : ∀ tr', Q (verdictMode v.data.length verdict)
      { w.setUbi .native u with ram := w.ram.blit ubiReadbackAddr v.data } tr') :
    May exec Q (classifyActiveFip P) w tr := by
  have hfind : (u.vols.find? "fip").isSome = true := by
    rw [(Slots.lookup_eq_some.1 hfip).1]
    rfl
  have hset := h.set u
  have hcheck : exec (.ubiCheck "fip") .ok w = (0, w.setUbi .native u) := by
    simp only [exec]
    exact shellUbi_mounted h (by simp [hfind])
  have hopen : exec (.ubiOpenVolume "fip") .ok (w.setUbi .native u) =
      (.ok ⟨i, v.static, v.data.length, v.reservedPebs, w.lebSize⟩, w.setUbi .native u) := by
    simp only [exec, World.ubiOpenVolume, Outcome.ok, hset.device, Option.bind_some, hfip]
    rfl
  refine may_answer hcheck ?_
  rw [if_neg (by simp)]
  refine may_answer hopen ?_
  dsimp only
  rw [if_neg (by omega)]
  refine may_answer (ubiRead_mounted hset hfip hmark rfl hne) ?_
  rw [if_neg (by simp)]
  refine may_next .ok ?_
  simp only [exec]
  have hslice : ((w.setUbi .native u).ram.blit ubiReadbackAddr v.data).slice ubiReadbackAddr
      v.data.length = v.data := Mem.slice_blit _ _ _
  rw [hslice]
  refine May.bind (hvalid _ _) fun r w' tr' hr => ?_
  obtain ⟨rfl, rfl⟩ := hr
  cases r with
  | error e => exact hQ tr'
  | ok n => exact hQ tr'

theorem may_ubiAttach {verdict : Except ℤ ℕ}
    (hkind : (verdictMode v.data.length verdict).1 = .normal ∨ c.kind = .ursus) (h : NativeNand w)
    (hat : w.attached = none) (hpart : w.updatePart = none) (hready : w.ubiMtdReady = false)
    (hnames : (w.vols .native).Distinct) (hfip : (w.vols .native).lookup "fip" = some (i, v))
    (hmark : v.updMarker = false) (hne : v.data.length ≠ 0) (hmax : v.data.length ≤ ubiFipVolSize)
    (hvalid : ∀ (w' : World) (tr' : List FlashEvent),
      May exec (fun r w₁ _ => r = verdict ∧ w₁ = w') (fipValidateCurrent P v.data) w' tr')
    (hQ : ∀ tr' w', Mounted (w.ubi .native) w' → w'.lebSize = w.lebSize →
      Q ({ c with
        ubiFipMode := (verdictMode v.data.length verdict).1
        ubiFipInvalidRet := (verdictMode v.data.length verdict).2 }.advance .ubiStagePrep) w' tr') :
    May exec Q (ubiAttach P c) w tr := by
  refine may_bind (may_ensureUbiAttachment h hat hpart hready hnames fun tr' => ?_)
  rw [if_neg (by simp)]
  have hmounted : Mounted (w.ubi .native) (mounted w) := ⟨rfl, rfl⟩
  refine may_bind (may_classifyActiveFip hmounted hfip hmark hne hmax hvalid fun tr₁ => ?_)
  dsimp only
  rw [if_neg fun hrefused => hkind.elim hrefused.1 hrefused.2]
  exact hQ tr₁ _ ((hmounted.set _).with_ram _) rfl

theorem may_createFipNew {avail need : ℕ} {u' : UbiImage} (h : Mounted u w) (hroom : need ≤ avail)
    (hcreate : u.create w.lebSize "fip.new" 0x100000 true none = some u')
    (hQ : ∀ tr', Q (c.advance .ubiStageWrite) (w.setUbi .native u') tr') :
    May exec Q (createFipNew c avail need) w tr := by
  unfold createFipNew
  rw [if_neg (by omega)]
  have hexec : exec (.ubiCreate "fip.new" 0x100000 true none) .ok w =
      (0, w.setUbi .native u') := by
    simp only [exec]
    exact shellUbi_mounted h hcreate
  refine may_answer hexec ?_
  rw [if_neg (by simp)]
  exact hQ _

/-- Preparing a device that has room for `fip.new`; `oOld` is the outcome of the check for
`fip.old`, which only the normal mode makes. -/
theorem may_ubiStagePrep {u' : UbiImage} (oOld : Outcome) (h : Mounted u w)
    (hnew : u.vols.find? "fip.new" = none) (hbad : u.vols.find? "fip.bad" = none)
    (hcells : oOld.cells = none)
    (hold : c.ubiFipMode = .normal → oOld.err.isSome ∨ u.vols.find? "fip.old" = none)
    (hroom : (ubiFipVolSize + w.lebSize - 1) / w.lebSize ≤ u.availPebs)
    (hcreate : u.create w.lebSize "fip.new" 0x100000 true none = some u')
    (hQ : ∀ tr', Q ({ c with writeStarted := true }.advance .ubiStageWrite)
      (w.setUbi .native u') tr') :
    May exec Q (ubiStagePrep c) w tr := by
  have hrest : ∀ tr', May exec Q ((removeIfPresent "fip.bad").bind fun _ =>
      reserveFipNew { c with writeStarted := true }) w tr' := by
    intro tr'
    refine may_bind (may_removeIfPresent .ok h rfl (.inr hbad) fun tr' => may_next .ok ?_)
    have hu : w.ubi UbiPart.ursusUpdateUbi.area = u := h.ubi
    simp only [exec, h.attached, Option.map_some, hu]
    dsimp only [Prog.pure_def, Prog.ret_bind]
    rw [if_neg (by omega)]
    exact may_createFipNew h hroom hcreate hQ
  unfold ubiStagePrep
  dsimp only
  refine may_bind (may_removeIfPresent .ok h rfl (.inr hnew) fun tr' => ?_)
  by_cases hmode : c.ubiFipMode = .normal
  · rw [if_pos hmode]
    exact may_bind (may_removeIfPresent oOld h hcells (hold hmode) hrest)
  · rw [if_neg hmode]
    exact hrest tr'

theorem may_ubiStageWrite (h : Mounted u w) (hnew : u.vols.lookup "fip.new" = some (i, v))
    (hfits : c.len ≤ v.reservedPebs * w.lebSize)
    (hQ : ∀ tr', Q (c.advance .ubiStageVerify) (w.setUbi .native
      (u.setVolume i (v.written w.lebSize (w.ram.slice c.addr c.len)))) tr') :
    May exec Q (ubiStageWrite c) w tr := by
  have hu : w.ubi UbiPart.ursusUpdateUbi.area = u := h.ubi
  have hwrite : exec (.ubiWrite c.addr "fip.new" c.len) .ok w = (0, w.setUbi .native
      (u.setVolume i (v.written w.lebSize (w.ram.slice c.addr c.len)))) := by
    simp only [exec, World.ubiWrite, h.attached, hu, hnew, Mem.length_slice, Nat.not_lt.2 hfits,
      if_false, Outcome.ok, Option.isNone_none, if_true]
    rfl
  refine may_answer hwrite ?_
  rw [if_neg (by simp)]
  exact hQ _

theorem may_ubiStageVerify (h : Mounted u w) (hnew : u.vols.lookup "fip.new" = some (i, v))
    (hmark : v.updMarker = false) (hdata : v.data = w.ram.slice c.addr c.len)
    (hwindow : c.addr + c.len ≤ ubiReadbackAddr) (hacc : fipAccepts P c.kind v.data = true)
    (hQ : ∀ tr', Q (c.advance .ubiPromote)
      { w with ram := w.ram.blit ubiReadbackAddr v.data } tr') :
    May exec Q (ubiStageVerify P c) w tr := by
  have hlen : v.data.length = c.len := by rw [hdata, Mem.length_slice]
  have hne : c.len ≠ 0 := hlen ▸ (fipAccepts_length hacc).1
  have hslice : (w.ram.blit ubiReadbackAddr v.data).slice ubiReadbackAddr c.len = v.data := by
    rw [← hlen]
    exact Mem.slice_blit _ _ _
  have hsrc : (w.ram.blit ubiReadbackAddr v.data).slice c.addr c.len = v.data := by
    rw [Mem.slice_blit_disjoint _ (.inl hwindow), hdata]
  refine may_answer (ubiRead_mounted h hnew hmark hlen hne) ?_
  rw [if_neg (by simp)]
  refine may_bind (may_fipValidateKind (by rw [hslice]; exact hacc) fun tr' => ?_)
  rw [if_neg (by simp)]
  refine may_next .ok (may_next .ok ?_)
  simp only [exec, hslice, hsrc]
  rw [if_neg (by simp)]
  exact hQ _

theorem may_atomicSwitch {Q : ℤ → World → List FlashEvent → Prop}
    {current candidate backup : String} {i j : Fin vtblSlots} {v v' : Volume} (h : Mounted u w)
    (hi : u.vols.lookup current = some (i, v)) (hj : u.vols.lookup candidate = some (j, v'))
    (hQ : ∀ tr', Q 0 (w.setUbi .native { u with vols := u.vols.switch i backup j current }) tr') :
    May exec Q (atomicSwitch current candidate backup) w tr := by
  have hu : w.ubi UbiPart.ursusUpdateUbi.area = u := h.ubi
  refine may_next .ok ?_
  simp only [exec, h.attached, Option.map_some]
  rw [if_neg (by simp)]
  have hopen : ∀ {n : String} {k : Fin vtblSlots} {x : Volume}, u.vols.lookup n = some (k, x) →
      exec (.ubiOpenVolume n) .ok w =
        (.ok ⟨k, x.static, x.data.length, x.reservedPebs, w.lebSize⟩, w) := by
    intro n k x hn
    simp only [exec, World.ubiOpenVolume, Outcome.ok, h.device, Option.bind_some, hn]
    rfl
  refine may_answer (hopen hi) (may_answer (hopen hj) ⟨.ok, ?_⟩)
  simp only [exec, World.ubiRenameVolumes, h.attached, hu, Outcome.ok]
  exact hQ _

/-- The name a switching promotion moves the active `fip` to. -/
def backupName : Mode → String
  | .repairInvalid => "fip.bad"
  | _ => "fip.old"

theorem may_ubiPromote {i j : Fin vtblSlots} {v v' : Volume} (hmode : c.ubiFipMode ≠ .repairMissing)
    (h : Mounted u w) (hi : u.vols.lookup "fip" = some (i, v))
    (hj : u.vols.lookup "fip.new" = some (j, v'))
    (hQ : ∀ tr', Q ({ c with commitStarted := true }.advance .ubiVerify)
      (w.setUbi .native { u with vols := u.vols.switch i (backupName c.ubiFipMode) j "fip" }) tr') :
    May exec Q (ubiPromote c) w tr := by
  have hswitch : ∀ backup, May exec (fun r w' _ => r = 0 ∧
      w' = w.setUbi .native { u with vols := u.vols.switch i backup j "fip" })
      (atomicSwitch "fip" "fip.new" backup) w tr := fun backup =>
    may_atomicSwitch h hi hj fun _ => ⟨rfl, rfl⟩
  unfold ubiPromote
  dsimp only
  cases hm : c.ubiFipMode with
  | repairMissing => exact absurd hm hmode
  | repairInvalid =>
    refine (hswitch "fip.bad").bind fun r w' tr' hr => ?_
    obtain ⟨rfl, rfl⟩ := hr
    rw [if_neg (by simp)]
    rw [hm] at hQ
    exact hQ tr'
  | normal =>
    refine (hswitch "fip.old").bind fun r w' tr' hr => ?_
    obtain ⟨rfl, rfl⟩ := hr
    rw [if_neg (by simp)]
    rw [hm] at hQ
    exact hQ tr'

theorem may_ubiVerify (hkind : c.kind = .ursus) (h : Mounted u w)
    (hfip : u.vols.lookup "fip" = some (i, v)) (hmark : v.updMarker = false)
    (hlen : v.data.length = c.len) (hacc : fipAccepts P .ursus v.data = true)
    (hQ : ∀ tr', Q (1, { c with stage := .complete, active := false })
      { w with ram := w.ram.blit ubiReadbackAddr v.data } tr') :
    May exec Q (ubiVerify P c) w tr := by
  have hne : c.len ≠ 0 := hlen ▸ (fipAccepts_length hacc).1
  have hslice : (w.ram.blit ubiReadbackAddr v.data).slice ubiReadbackAddr c.len = v.data := by
    rw [← hlen]
    exact Mem.slice_blit _ _ _
  have hvalid : fipValidateKind P ubiReadbackAddr c.len false c.kind =
      fipValidate P ubiReadbackAddr c.len false := by
    rw [hkind]
    rfl
  refine may_answer (ubiRead_mounted h hfip hmark hlen hne) ?_
  rw [if_neg (by simp), hvalid]
  refine may_bind (may_fipValidate (by rw [hslice]; exact hacc) fun tr' => ?_)
  rw [if_neg (by simp), if_neg (by simp [hkind])]
  exact hQ tr'

theorem may_ubiVerify_unreadable (e : Errno) (hmode : c.ubiFipMode = .normal) (h : Mounted u w)
    (hfip : u.vols.lookup "fip" = some (i, v)) (hmark : v.updMarker = false) (hne : v.data ≠ [])
    (hQ : ∀ tr' w', Mounted u w' → w'.lebSize = w.lebSize → Q (c.advance .ubiRollback) w' tr') :
    May exec Q (ubiVerify P c) w tr := by
  refine may_next (.fails e) ?_
  simp only [exec, World.ubiRead, h.device, Option.bind_some, hfip, hmark, hne, Outcome.fails,
    Bool.false_eq_true, if_false, Option.isNone_some]
  rw [if_pos (by simp)]
  unfold postcommitFailed
  rw [if_neg (by simp [hmode])]
  exact hQ _ _ (h.with_ram _) rfl

theorem may_ubiRollback {i j : Fin vtblSlots} {v v' : Volume} {w' : World}
    (hmode : c.ubiFipMode = .normal) (h : Mounted u w) (hbad : u.vols.find? "fip.bad" = none)
    (hi : u.vols.lookup "fip" = some (i, v)) (hj : u.vols.lookup "fip.old" = some (j, v'))
    (hw' : w' = w.setUbi .native { u with vols := u.vols.switch i "fip.bad" j "fip" })
    (hQ : ∀ tr', Q (fail c (-ebadmsg)) w' (tr' ++ [⟨.printf (rollbackOk .normal), .ok, w'⟩])) :
    May exec Q (ubiRollback c) w tr := by
  unfold ubiRollback
  simp only [hmode]
  subst hw'
  refine may_bind (may_removeIfPresent .ok h rfl (.inr hbad) fun tr₁ => ?_)
  refine may_bind (may_atomicSwitch h hi hj fun tr₂ => ?_)
  rw [if_neg (by simp)]
  exact may_next .ok (hQ tr₂)

end Stages

end FipUpdate

end UrsusBoot
