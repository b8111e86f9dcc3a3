import UrsusBoot.Engine.VanillaReset
import UrsusBoot.Safety.FipProgress
import UrsusBoot.Safety.Switch

/-!
# A Vanilla replacement that gets done

The last stage of a Vanilla update, carried out under outcomes picked here, and a board to run it
on. The records are kept, so that a run can be shown to have written the environment without a
failure.
-/

namespace UrsusBoot

open Prog

namespace FipUpdate

/-! ## Blanking -/

section Blanking

variable {P : Platform} {c : Ctx} {w : World} {tr : List FlashEvent} {u : UbiImage} {n : String}
  {i : Fin vtblSlots} {v : Volume}

/-- The device with the start of a volume blanked. -/
def blanked (u : UbiImage) (i : Fin vtblSlots) (v : Volume) (leb k : ℕ) : UbiImage :=
  u.setVolume i (v.written leb (List.replicate k 0))

theorem lookup_blanked {leb k : ℕ} (h : u.vols.lookup n = some (i, v)) :
    (blanked u i v leb k).vols.lookup n = some (i, v.written leb (List.replicate k 0)) := by
  obtain ⟨hfind, hslot⟩ := Slots.lookup_eq_some.1 h
  refine Slots.lookup_eq_some.2 ⟨Slots.find?_setBody.trans hfind, ?_⟩
  show (u.vols.setBody i _) i = _
  rw [Slots.setBody_self, hslot, Option.map_some]

theorem ubiRead_start {k : ℕ} (hk : k ≠ 0) (h : Mounted u w) (hl : u.vols.lookup n = some (i, v))
    (hmark : v.updMarker = false) (hdata : v.data ≠ []) :
    exec (.ubiRead ubiReadbackAddr n k) .ok w =
      (0, { w with ram := w.ram.blit ubiReadbackAddr (v.data.take k) }) := by
  have htake : v.data.take (min k v.data.length) = v.data.take k := List.take_eq_take_min.symm
  simp only [exec, World.ubiRead, h.device, Option.bind_some, hl, hmark, hdata, Outcome.ok,
    Bool.false_eq_true, if_false, Option.isNone_none, if_true, hk, htake]
  rfl

theorem ubiWrite_start {k : ℕ} {bs : List UInt8} (h : Mounted u w)
    (hl : u.vols.lookup n = some (i, v)) (hsrc : w.ram.slice ubiReadbackAddr k = bs)
    (hfits : k ≤ v.reservedPebs * w.lebSize) :
    exec (.ubiWrite ubiReadbackAddr n k) .ok w =
      (0, w.setUbi .native (u.setVolume i (v.written w.lebSize bs))) := by
  have hu : w.ubi UbiPart.ursusUpdateUbi.area = u := h.ubi
  have hlen : bs.length = k := by rw [← hsrc, Mem.length_slice]
  have hroom : ¬ v.reservedPebs * w.lebSize < bs.length := by
    rw [hlen]
    exact not_lt.2 hfits
  simp only [exec, World.ubiWrite, h.attached, hu, hl, hsrc, hroom, if_false, Outcome.ok,
    Option.isNone_none, if_true]
  rfl

theorem envWritten_of_zero {addr k : ℕ} {o : Outcome}
    (h : (exec (.ubiWrite addr n k) o w).1 = 0) : EnvWritten ⟨.ubiWrite addr n k, o, w⟩ := by
  intro addr' m size _ hcmd
  injection hcmd with haddr hm hsize
  subst haddr hm hsize
  exact h

theorem all_readBack {k : ℕ} {m : Mem UInt8} {bs : List UInt8}
    (hzeros : bs.take k = List.replicate k 0) :
    (((m.blit ubiReadbackAddr (List.replicate k 0xa5)).blit ubiReadbackAddr (bs.take k)).slice
      ubiReadbackAddr k).all (· == 0) = true := by
  rw [slice_readBack, hzeros, List.length_replicate, List.drop_replicate, Nat.sub_self,
    List.replicate_zero, List.append_nil, List.all_replicate]
  split_ifs <;> rfl

variable {Q : ℤ → World → List FlashEvent → Prop}

theorem may_vanillaReadBack {k : ℕ} (hk : k ≠ 0) (e : Option Errno) (h : Mounted u w)
    (hl : u.vols.lookup n = some (i, v)) (hmark : v.updMarker = false)
    (hzeros : v.data.take k = List.replicate k 0)
    (hQ : ∀ tr' w', Mounted u w' → w'.lebSize = w.lebSize →
      Q (if e.isNone then 0 else -eio) w' tr') :
    May exec Q (vanillaReadBack n k) w tr := by
  have hdata : v.data ≠ [] := by
    intro hnil
    have hlen := congrArg List.length hzeros
    rw [hnil, List.take_nil, List.length_replicate, List.length_nil] at hlen
    exact hk hlen.symm
  refine may_next .ok ?_
  set w₁ : World := { w with ram := w.ram.blit ubiReadbackAddr (List.replicate k 0xa5) }
  have h₁ : Mounted u w₁ := h.with_ram _
  cases e with
  | some err =>
    have hfail : exec (.ubiRead ubiReadbackAddr n k) (.fails err) w₁ =
        (1, { w₁ with ram := w₁.ram.blit ubiReadbackAddr [] }) := by
      simp only [exec, World.ubiRead, h₁.device, Option.bind_some, hl, Outcome.fails, hdata, hk,
        hmark, if_false, Option.isNone_some, Bool.false_eq_true, List.take_nil]
      rfl
    refine may_answer hfail ?_
    rw [if_pos (by simp)]
    exact hQ _ _ (h₁.with_ram _) rfl
  | none =>
    refine may_answer (ubiRead_start hk h₁ hl hmark hdata) ?_
    rw [if_neg (by simp)]
    refine may_answer (o := .ok) (r := _) rfl ?_
    have hall := all_readBack (m := w.ram) hzeros
    change May exec Q (pure (if (((w.ram.blit ubiReadbackAddr (List.replicate k 0xa5)).blit
      ubiReadbackAddr (v.data.take k)).slice ubiReadbackAddr k).all (· == 0) then 0 else -eio)) _ _
    rw [if_pos hall]
    exact hQ _ _ (h₁.with_ram _) rfl

theorem emits_vanillaReadBack (k : ℕ) : Emits exec EnvWritten (vanillaReadBack n k) := by
  have huses : Uses Routine (vanillaReadBack n k) := by
    refine uses_next rfl fun _ => uses_checked rfl fun _ => ?_
    exact uses_next trivial fun _ => trivial
  exact .of_uses (fun c o w hc => envWritten_of_not_blanks hc.not_blanks) huses

theorem may_vanillaRewrite {k : ℕ} (hk : k ≠ 0) (e : Option Errno) (h : Mounted u w)
    (hl : u.vols.lookup n = some (i, v)) (hfits : k ≤ v.reservedPebs * w.lebSize)
    (hQ : ∀ es w', (∀ x ∈ es, EnvWritten x) → Mounted (blanked u i v w.lebSize k) w' →
      w'.lebSize = w.lebSize → Q (if e.isNone then 0 else -eio) w' (tr ++ es)) :
    May exec Q (vanillaRewrite n k) w tr := by
  set w₁ : World := { w with ram := w.ram.blit ubiReadbackAddr (List.replicate k 0) } with hw₁
  have hsrc : w₁.ram.slice ubiReadbackAddr k = List.replicate k 0 := by
    have hblit := w.ram.slice_blit ubiReadbackAddr (List.replicate k 0)
    rw [List.length_replicate] at hblit
    exact hblit
  have hwrite := ubiWrite_start (w := w₁) (h.with_ram _) hl hsrc hfits
  have hfirst : EnvWritten ⟨.writeMem ubiReadbackAddr (List.replicate k 0), .ok, w⟩ :=
    envWritten_of_not_blanks (Routine.not_blanks (c := .writeMem ubiReadbackAddr _) rfl)
  have hsecond : EnvWritten ⟨.ubiWrite ubiReadbackAddr n k, .ok, w₁⟩ :=
    envWritten_of_zero (congrArg Prod.fst hwrite)
  refine may_next .ok ?_
  refine may_answer hwrite ?_
  rw [if_neg (by simp)]
  have hm : Mounted (blanked u i v w.lebSize k)
      (w₁.setUbi .native (u.setVolume i (v.written w₁.lebSize (List.replicate k 0)))) :=
    Mounted.set (w := w₁) (h.with_ram _) _
  have hback : May exec (fun r w' _ => r = (if e.isNone then 0 else -eio) ∧
      Mounted (blanked u i v w.lebSize k) w' ∧ w'.lebSize = w.lebSize) (vanillaReadBack n k) _
      (tr ++ [⟨.writeMem ubiReadbackAddr (List.replicate k 0), .ok, w⟩] ++
        [⟨.ubiWrite ubiReadbackAddr n k, .ok, w₁⟩]) :=
    may_vanillaReadBack hk e hm (lookup_blanked hl) rfl (written_zeros v w.lebSize k)
      fun _ _ hw' hleb => ⟨rfl, hw', hleb⟩
  refine (hback.of_emits (emits_vanillaReadBack k)).mono fun r w' tr' hr => ?_
  obtain ⟨⟨rfl, hw', hleb⟩, es, rfl, hes⟩ := hr
  rw [List.append_assoc, List.append_assoc]
  refine hQ _ w' ?_ hw' hleb
  intro x hx
  rcases List.mem_cons.1 hx with rfl | hx
  · exact hfirst
  rcases List.mem_cons.1 hx with rfl | hx
  · exact hsecond
  · exact hes x hx

theorem may_vanillaResetVolume (e : Option Errno) (h : Mounted u w)
    (hl : u.vols.lookup n = some (i, v)) (hfits : vanillaEnvResetLen ≤ v.reservedPebs * w.lebSize)
    (hQ : ∀ es w', (∀ x ∈ es, EnvWritten x) →
      Mounted (blanked u i v w.lebSize vanillaEnvResetLen) w' → w'.lebSize = w.lebSize →
      Q (if e.isNone then 0 else -eio) w' (tr ++ es)) :
    May exec Q (vanillaResetVolume n) w tr := by
  have hcheck : exec (.ubiCheck n) .ok w = (0, w.setUbi .native u) := by
    have hsome : (u.vols.find? n).isSome = true := by
      rw [(Slots.lookup_eq_some.1 hl).1]
      rfl
    simp only [exec]
    exact shellUbi_mounted h (if_pos hsome)
  have hfirst : EnvWritten ⟨.ubiCheck n, .ok, w⟩ :=
    envWritten_of_not_blanks (Routine.not_blanks (c := .ubiCheck n) trivial)
  refine may_answer hcheck ?_
  rw [if_neg (by simp)]
  refine may_vanillaRewrite (by decide) e (h.set u) hl hfits fun es w' hes hw' hleb => ?_
  rw [List.append_assoc]
  refine hQ _ w' ?_ hw' hleb
  intro x hx
  rcases List.mem_cons.1 hx with rfl | hx
  · exact hfirst
  · exact hes x hx

theorem may_vanillaResetEnv_stops (err : Errno) (h : Mounted u w)
    (hl : u.vols.lookup "ubootenv" = some (i, v))
    (hfits : vanillaEnvResetLen ≤ v.reservedPebs * w.lebSize)
    (hQ : ∀ es w', (∀ x ∈ es, EnvWritten x) →
      Mounted (blanked u i v w.lebSize vanillaEnvResetLen) w' → Q (-eio) w' (tr ++ es)) :
    May exec Q vanillaResetEnv w tr := by
  refine May.bind (may_vanillaResetVolume (Q := fun r w' tr' => r = -eio ∧
    Mounted (blanked u i v w.lebSize vanillaEnvResetLen) w' ∧
    ∃ es, (∀ x ∈ es, EnvWritten x) ∧ tr' = tr ++ es) (some err) h hl hfits ?_) ?_
  · exact fun es w' hes hw' _ => ⟨rfl, hw', es, hes, rfl⟩
  · rintro r w' tr' ⟨rfl, hw', es, hes, rfl⟩
    rw [if_pos (by decide)]
    exact hQ es w' hes hw'

theorem may_vanillaResetEnv_done {j : Fin vtblSlots} {v' : Volume} (h : Mounted u w)
    (hl : u.vols.lookup "ubootenv" = some (i, v))
    (hfits : vanillaEnvResetLen ≤ v.reservedPebs * w.lebSize)
    (hl' : (blanked u i v w.lebSize vanillaEnvResetLen).vols.lookup "ubootenv2" = some (j, v'))
    (hfits' : vanillaEnvResetLen ≤ v'.reservedPebs * w.lebSize) (hQ : ∀ w' tr', Q 0 w' tr') :
    May exec Q vanillaResetEnv w tr := by
  refine May.bind (may_vanillaResetVolume (Q := fun r w' _ => r = 0 ∧
    Mounted (blanked u i v w.lebSize vanillaEnvResetLen) w' ∧ w'.lebSize = w.lebSize) none h hl hfits
    fun es w' _ hw' hleb => ⟨rfl, hw', hleb⟩) ?_
  rintro r w' tr' ⟨rfl, hw', hleb⟩
  rw [if_neg (by simp)]
  exact may_vanillaResetVolume none hw' hl' (by rw [hleb]; exact hfits') fun es w'' _ _ _ => hQ _ _

theorem may_ubiVerify_vanilla {Q : ℤ × Ctx → World → List FlashEvent → Prop}
    (hkind : c.kind = .vanilla) (h : Mounted u w) (hfip : u.vols.lookup "fip" = some (i, v))
    (hmark : v.updMarker = false) (hlen : v.data.length = c.len)
    (hacc : fipAccepts P .vanilla v.data = true)
    (hreset : ∀ es w', (∀ x ∈ es, EnvWritten x) → Mounted u w' → w'.lebSize = w.lebSize →
      May exec (fun ret w₁ tr₁ => Q (if ret ≠ 0 then c.advance .ubiRollback
        else (1, { c with stage := .complete, active := false })) w₁ tr₁) vanillaResetEnv w'
        (tr ++ es)) :
    May exec Q (ubiVerify P c) w tr := by
  have hne : c.len ≠ 0 := hlen ▸ (fipAccepts_length hacc).1
  have hslice : (w.ram.blit ubiReadbackAddr v.data).slice ubiReadbackAddr c.len = v.data := by
    rw [← hlen]
    exact Mem.slice_blit _ _ _
  have hread : EnvWritten ⟨.ubiRead ubiReadbackAddr "fip" c.len, .ok, w⟩ :=
    envWritten_of_not_blanks (Routine.not_blanks (c := .ubiRead ubiReadbackAddr "fip" c.len) rfl)
  have hquiet : Emits exec EnvWritten (fipValidateKind P ubiReadbackAddr c.len false c.kind) :=
    .of_uses (fun c o w hc => envWritten_of_not_blanks (routine_of_query c hc.query).not_blanks)
      (uses_fipValidateKind (fun c hc => hc) P _ _ _ _)
  refine may_answer (ubiRead_mounted h hfip hmark hlen hne) ?_
  rw [if_neg (by simp)]
  have hvalid : May exec
      (fun r w' _ => r = 0 ∧ w' = { w with ram := w.ram.blit ubiReadbackAddr v.data })
      (fipValidateKind P ubiReadbackAddr c.len false c.kind)
      { w with ram := w.ram.blit ubiReadbackAddr v.data }
      (tr ++ [⟨.ubiRead ubiReadbackAddr "fip" c.len, .ok, w⟩]) :=
    may_fipValidateKind (by rw [hslice, hkind]; exact hacc) fun _ => ⟨rfl, rfl⟩
  refine May.bind (hvalid.of_emits hquiet) fun r w' tr' hr => ?_
  obtain ⟨⟨rfl, rfl⟩, es, rfl, hes⟩ := hr
  rw [if_neg (by simp), if_pos hkind]
  have hes' : ∀ x ∈ (⟨.ubiRead ubiReadbackAddr "fip" c.len, .ok, w⟩ : FlashEvent) :: es,
      EnvWritten x := by
    intro x hx
    rcases List.mem_cons.1 hx with rfl | hx
    · exact hread
    · exact hes x hx
  rw [List.append_assoc]
  refine May.bind (hreset _ _ hes' (h.with_ram _) rfl) fun ret w₁ tr₁ hQ => ?_
  by_cases hret : ret ≠ 0
  · rw [if_pos hret] at hQ ⊢
    exact hQ
  · rw [if_neg hret] at hQ ⊢
    exact hQ

end Blanking

/-! ## Records -/

section Records

variable {P : Platform} {s : Attempt} {T : Attempt → Prop} {k : Mode × ℤ} {c₀ : Ctx} {u : UbiImage}

theorem runStage_not_blanks {c : Ctx} (hne : c.stage ≠ .ubiVerify) :
    Emits exec (fun e => ¬ Blanks e.cmd) (runStage P c) := by
  by_cases hstock : c.stage.Stock
  · refine .of_uses (fun c o w hc => ?_) (issues_stock P hstock)
    rintro ⟨addr, size, n, -, rfl⟩
    exact hc
  · refine emits_native P hstock (fun c o w hc => hc.not_blanks) (fun _ c o w hc => ?_)
      (fun hv => absurd hv hne) fun cur cand back e _ he => ?_
    · rintro ⟨addr, size, n, -, hcmd⟩
      exact Cmd.noConfusion (hc.symm.trans hcmd)
    · rintro ⟨addr, size, n, -, hcmd⟩
      obtain ⟨p, i, j, -, -, -, hren⟩ := he
      exact Cmd.noConfusion (hren.symm.trans hcmd)

theorem envWritten_of_timer {e : FlashEvent} (h : ∃ base, e.cmd = .getTimer base) :
    EnvWritten e := by
  obtain ⟨base, hcmd⟩ := h
  refine envWritten_of_not_blanks ?_
  rw [hcmd]
  exact Routine.not_blanks (c := .getTimer base) trivial

theorem Attempt.canReach_blanked {i j : Fin vtblSlots} {v ve : Volume} (m : Mem UInt8)
    (err : Errno) (hc : Running k c₀ s.ctx .ubiVerify) (hkind : c₀.kind = .vanilla) (hw : Mounted u s.world)
    (hfip : u.vols.lookup "fip" = some (i, v)) (hmark : v.updMarker = false)
    (hlen : v.data.length = c₀.len) (hacc : fipAccepts P .vanilla v.data = true)
    (henv : u.vols.lookup "ubootenv" = some (j, ve))
    (hfits : vanillaEnvResetLen ≤ ve.reservedPebs * s.world.lebSize)
    (hT : ∀ c w es, Running k c₀ c .ubiRollback → (∀ x ∈ es, EnvWritten x) →
      Mounted (blanked u j ve s.world.lebSize vanillaEnvResetLen) w →
      Attempt.CanReach P (fun _ _ => True) T ⟨c, w, s.trace ++ es⟩) :
    s.CanReach P (fun _ _ => True) T := by
  refine s.canReach_next m hc (fun _ _ _ _ _ _ => trivial) fun c t es hc hes => ?_
  simp only [runStage, hc.stage]
  have hw' := hw.later m t
  refine may_ubiVerify_vanilla (hc.kind.trans hkind) hw' hfip hmark (hlen.trans hc.len.symm) hacc
    fun es₁ w₁ hes₁ hw₁ hleb₁ => ?_
  have hleb₁ : w₁.lebSize = s.world.lebSize := hleb₁
  refine may_vanillaResetEnv_stops err hw₁ henv (by rw [hleb₁]; exact hfits)
    fun es₂ w₂ hes₂ hw₂ => ?_
  rw [hleb₁] at hw₂
  rw [if_pos (by decide), List.append_assoc, List.append_assoc]
  refine hT _ w₂ _ (hc.advance _) ?_ hw₂
  simp only [List.forall_mem_append]
  exact ⟨fun x hx => envWritten_of_timer (hes x hx), hes₁, hes₂⟩

theorem Attempt.canReach_completed {i j l : Fin vtblSlots} {v ve ve' : Volume} (m : Mem UInt8)
    (hc : Running k c₀ s.ctx .ubiVerify) (hkind : c₀.kind = .vanilla) (hw : Mounted u s.world)
    (hfip : u.vols.lookup "fip" = some (i, v)) (hmark : v.updMarker = false)
    (hlen : v.data.length = c₀.len) (hacc : fipAccepts P .vanilla v.data = true)
    (henv : u.vols.lookup "ubootenv" = some (j, ve))
    (hfits : vanillaEnvResetLen ≤ ve.reservedPebs * s.world.lebSize)
    (henv' : (blanked u j ve s.world.lebSize vanillaEnvResetLen).vols.lookup "ubootenv2" =
      some (l, ve'))
    (hfits' : vanillaEnvResetLen ≤ ve'.reservedPebs * s.world.lebSize) :
    s.CanReach P (fun _ _ => True) fun s' => s'.ctx.stage = .complete := by
  refine s.canReach_next m hc (fun _ _ _ _ _ _ => trivial) fun c t es hc hes => ?_
  simp only [runStage, hc.stage]
  have hw' := hw.later m t
  refine may_ubiVerify_vanilla (hc.kind.trans hkind) hw' hfip hmark (hlen.trans hc.len.symm) hacc
    fun es₁ w₁ hes₁ hw₁ hleb₁ => ?_
  have hleb₁ : w₁.lebSize = s.world.lebSize := hleb₁
  rw [← hleb₁] at hfits henv' hfits'
  refine may_vanillaResetEnv_done hw₁ henv hfits henv' hfits' fun w₂ tr₂ => ?_
  rw [if_neg (by simp)]
  exact Attempt.canReach_here rfl

theorem Attempt.canReach_rolledBack {i j : Fin vtblSlots} {v v' : Volume} (m : Mem UInt8)
    (hmode : k.1 = .normal) (hc : Running k c₀ s.ctx .ubiRollback) (hw : Mounted u s.world)
    (hbad : u.vols.find? "fip.bad" = none) (hi : u.vols.lookup "fip" = some (i, v))
    (hj : u.vols.lookup "fip.old" = some (j, v'))
    (hT : ∀ c w es, c.stage = .failed → (∀ x ∈ es, EnvWritten x) →
      Mounted { u with vols := u.vols.switch i "fip.bad" j "fip" } w →
      Attempt.CanReach P (fun _ _ => True) T ⟨c, w, s.trace ++ es⟩) :
    s.CanReach P (fun _ _ => True) T := by
  refine s.canReach_next m hc (fun _ _ _ _ _ _ => trivial) fun c t es hc hes => ?_
  have hw' := hw.later m t
  have hquiet : Emits exec (fun e => ¬ Blanks e.cmd) (runStage P c) :=
    runStage_not_blanks (by rw [hc.stage]; decide)
  have hroll : May exec (fun r w _ => r.2.stage = .failed ∧
      Mounted { u with vols := u.vols.switch i "fip.bad" j "fip" } w) (runStage P c)
      { s.world with ram := m, clock := t } (s.trace ++ es) := by
    simp only [runStage, hc.stage]
    exact may_ubiRollback (hc.mode.trans hmode) hw' hbad hi hj rfl fun tr' => ⟨rfl, hw'.set _⟩
  refine (hroll.of_emits hquiet).mono fun r w tr' hr => ?_
  obtain ⟨⟨hst, hw''⟩, es', rfl, hes'⟩ := hr
  rw [List.append_assoc]
  refine hT _ w _ hst ?_ hw''
  intro x hx
  rcases List.mem_append.1 hx with hx | hx
  · exact envWritten_of_timer (hes x hx)
  · exact envWritten_of_not_blanks (hes' x hx)

end Records

/-! ## A board to run on -/

section Sample

/-- A BL33 image of 64 KiB that carries the identity of the Vanilla bootloader, as LZMA data. -/
def vanillaBl33Lzma : List UInt8 :=
  [93, 0, 16, 0, 0, 0, 0, 1, 0, 0, 0, 0, 0, 0, 42, 139, 68, 71, 60, 153, 33, 68, 13, 241, 120,
   248, 3, 92, 33, 121, 86, 174, 70, 175, 74, 12, 30, 131, 247, 206, 244, 60, 189, 213, 145,
   175, 120, 121, 212, 29, 4, 225, 46, 158, 231, 139, 194, 228, 37, 63, 34, 47, 114, 19, 172,
   244, 140, 93, 100, 190, 215, 51, 22, 41, 201, 177, 17, 151, 88, 6, 223, 192, 200, 14, 245, 0,
   157, 175, 8, 205, 127, 124, 35, 15, 155, 62, 89, 169, 201, 38, 190, 22, 36, 89, 108, 182, 40,
   207, 9, 135, 217, 99, 144, 73, 43, 154, 41, 251, 220, 125, 94, 185, 255, 255, 181, 134, 128,
   0]

def vanillaBl33 : List UInt8 :=
  asciiBytes "U-Boot 2026.07\x00nokia,xg-040g-md\x00" ++ List.replicate 65504 0

def vanillaFip : List UInt8 := fipAround 0 vanillaBl33Lzma

def vanillaFipDigest : List UInt8 :=
  [188, 39, 117, 250, 104, 121, 26, 139, 66, 105, 9, 79, 13, 13, 255, 185, 77, 31, 235, 16, 178,
   216, 59, 154, 187, 159, 147, 172, 54, 248, 38, 84]

def erasedBl2Digest : List UInt8 :=
  [181, 164, 28, 55, 88, 118, 59, 190, 199, 39, 105, 250, 180, 162, 83, 59, 242, 219, 11, 99,
   18, 217, 61, 37, 166, 149, 249, 228, 185, 224, 34, 96]

def vanillaSha256 (bs : List UInt8) : List UInt8 :=
  if bs = vanillaFip then vanillaFipDigest
  else if bs = List.replicate ubiBl2Size 0xff then erasedBl2Digest
  else samplePlatform.sha256 bs

def vanillaLzma (nt : List UInt8) (n : ℕ) : Option (List UInt8) :=
  if nt = vanillaBl33Lzma then some vanillaBl33
  else samplePlatform.lzmaBuffToBuffDecompress nt n

/-- The sample platform with a Vanilla FIP and a BL2 pinned. -/
def vanillaPlatform : Platform :=
  { samplePlatform with
    sha256 := vanillaSha256, lzmaBuffToBuffDecompress := vanillaLzma
    vanillaFipSha256 := vanillaFipDigest, bl2ImageSha256 := erasedBl2Digest }

theorem vanillaPlatform_sha256 : vanillaPlatform.sha256 = vanillaSha256 := rfl

theorem vanillaPlatform_pin : vanillaPlatform.vanillaFipSha256 = vanillaFipDigest := rfl

theorem vanillaPlatform_bl2 : vanillaPlatform.bl2ImageSha256 = erasedBl2Digest := rfl

theorem length_vanillaBl33Lzma : vanillaBl33Lzma.length = 128 := by
  simp only [vanillaBl33Lzma, List.length_cons, List.length_nil]

theorem length_vanillaFip : vanillaFip.length = 1152 := by
  rw [vanillaFip, length_fipAround, length_vanillaBl33Lzma]

theorem length_vanillaBl33 : vanillaBl33.length = 65536 := by
  have h : (asciiBytes "U-Boot 2026.07\x00nokia,xg-040g-md\x00").length = 32 := by decide
  rw [vanillaBl33, List.length_append, List.length_replicate, h]

theorem bl33_vanillaFip : bl33 vanillaPlatform vanillaFip = .ok vanillaBl33 := by
  have hlzma : vanillaPlatform.lzmaBuffToBuffDecompress vanillaBl33Lzma 65536 =
      some vanillaBl33 := by
    show vanillaLzma vanillaBl33Lzma 65536 = _
    rw [vanillaLzma, if_pos rfl]
  exact bl33_fipAround length_vanillaBl33Lzma (by decide) (by decide) (by decide) hlzma
    length_vanillaBl33

theorem vanillaIdentity_vanillaBl33 : vanillaIdentity vanillaPlatform vanillaBl33 = true := by
  have hboard : memHas vanillaBl33 "nokia,xg-040g-md" = true := by
    rw [vanillaBl33, memHas_append_replicate (by decide)]
    decide
  have hother : memHas vanillaBl33 "nokia,xg-040g-mf" = false := by
    rw [vanillaBl33, memHas_append_replicate (by decide)]
    decide
  have hversion : memHas vanillaBl33 "U-Boot 2026.07" = true := by
    rw [vanillaBl33, memHas_append_replicate (by decide)]
    decide
  have hursus : memHas vanillaBl33 "U-Boot 2026.07-UrsusBoot-" = false := by
    rw [vanillaBl33, memHas_append_replicate (by decide)]
    decide
  have hmd : vanillaPlatform.boardCompatible = "nokia,xg-040g-md" := rfl
  have hmf : vanillaPlatform.boardOtherCompatible = "nokia,xg-040g-mf" := rfl
  rw [vanillaIdentity, hmd, hmf, hboard, hother, hversion, hursus]
  rfl

theorem vanillaFip_accepted : fipAccepts vanillaPlatform .vanilla vanillaFip = true := by
  have hpinned : vanillaFipPinned vanillaPlatform = true := by decide
  have hsha : vanillaPlatform.sha256 vanillaFip = vanillaPlatform.vanillaFipSha256 := by
    rw [vanillaPlatform_sha256, vanillaPlatform_pin, vanillaSha256, if_pos rfl]
  exact fipAccepts_of_vanillaIdentity bl33_vanillaFip vanillaIdentity_vanillaBl33 hpinned hsha

theorem sampleFip_accepted_vanilla : fipAccepts vanillaPlatform .ursus (sampleFip false) = true := by
  have hlzma : vanillaPlatform.lzmaBuffToBuffDecompress sampleBl33Lzma 65536 = some sampleBl33 := by
    have hne : sampleBl33Lzma ≠ vanillaBl33Lzma := by decide
    show vanillaLzma sampleBl33Lzma 65536 = _
    rw [vanillaLzma, if_neg hne]
    simp only [samplePlatform, if_true]
  have hbl33 : bl33 vanillaPlatform (sampleFip false) = .ok sampleBl33 :=
    bl33_fipAround length_sampleBl33Lzma (by decide) (by decide) (by decide) hlzma length_sampleBl33
  exact fipAccepts_of_ursusIdentity hbl33 (by decide)

def vanillaRam : Mem UInt8 := Mem.blit (fun _ => 0) sampleAddr vanillaFip

theorem slice_vanillaRam : vanillaRam.slice sampleAddr 1152 = vanillaFip := by
  rw [← length_vanillaFip]
  exact Mem.slice_blit _ _ _

def envVolume : Volume := ⟨false, 1, List.replicate 0x1f000 0x55, false⟩

/-- Volumes of a board that runs UrsusBoot and has an environment. -/
def vanillaTable : VolumeTable := fun k =>
  if k = 4 then some ("fip", sampleVolume false)
  else if k = 5 then some ("ubootenv", envVolume)
  else if k = 6 then some ("ubootenv2", envVolume) else none

def vanillaWorld : World := { sampleWorld vanillaTable with ram := vanillaRam }

theorem Bl2Pinned.congr {P : Platform} {w w' : World} (h : Bl2Pinned P w) (hnand : w'.nand = w.nand) :
    Bl2Pinned P w' := by
  unfold Bl2Pinned
  rw [hnand]
  exact h

theorem vanillaWorld_pinned : Bl2Pinned vanillaPlatform (sampleWorld vanillaTable) := by
  have hslice : (sampleWorld vanillaTable).nand.slice 0 ubiBl2Size =
      List.replicate ubiBl2Size 0xff := by
    have hout : (sampleWorld vanillaTable).nand.slice 0 ubiBl2Size =
        Mem.slice (fun _ => 0xff) 0 ubiBl2Size := Mem.slice_blit_disjoint _ (.inl (by decide))
    rw [hout, Mem.slice, List.map_const', List.length_range]
  have hne : List.replicate ubiBl2Size (0xff : UInt8) ≠ vanillaFip := by
    intro h
    have hlen := congrArg List.length h
    rw [List.length_replicate, length_vanillaFip] at hlen
    exact absurd hlen (by decide)
  unfold Bl2Pinned
  rw [hslice, vanillaPlatform_sha256, vanillaPlatform_bl2, vanillaSha256, if_neg hne, if_pos rfl]

/-- A Vanilla update of the sample board that has just been started. -/
def vanillaAttempt : Attempt where
  ctx := { addr := sampleAddr, len := 1152, kind := .vanilla, ubiLayout := true
           digest := vanillaPlatform.sha256 vanillaFip, stage := .precheck, active := true }
  world := vanillaWorld
  trace := []

theorem vanillaAttempt_begins : vanillaAttempt.Begins vanillaPlatform := by
  have hslice : vanillaWorld.ram.slice sampleAddr 1152 = vanillaFip := slice_vanillaRam
  have hnative : NativeNand vanillaWorld :=
    ⟨(sampleWorld_native vanillaTable).geometry, (sampleWorld_native vanillaTable).magic⟩
  have hcand : fipAccepts vanillaPlatform .vanilla (vanillaWorld.ram.slice sampleAddr 1152) = true := by
    rw [hslice]
    exact vanillaFip_accepted
  have hpin : Bl2Pinned vanillaPlatform vanillaWorld := vanillaWorld_pinned.congr rfl
  have hstart : May exec (fun r w' _ => r = (0, vanillaAttempt.ctx) ∧ w' = vanillaWorld)
      (startKind vanillaPlatform {} sampleAddr 1152 .vanilla) vanillaWorld [] := by
    refine may_startKind rfl hnative hcand (fun _ => hpin) fun _ => ⟨?_, rfl⟩
    rw [hslice]
    rfl
  obtain ⟨outs, hval, hworld⟩ := hstart.run_of
  exact ⟨{}, sampleAddr, 1152, .vanilla, outs, vanillaWorld, hval, hworld, rfl⟩

theorem vanillaAttempt_normal :
    Running (.normal, 0) vanillaAttempt.ctx vanillaAttempt.ctx .precheck :=
  ⟨rfl, rfl, rfl, rfl, rfl, rfl, rfl, rfl, rfl⟩

def vanillaVolume : Volume := ⟨true, 9, vanillaFip, false⟩

theorem vanilla_promotable : Promotable vanillaPlatform (.normal, 0) vanillaAttempt.ctx vanillaRam
    vanillaWorld .ok 4 0 (sampleVolume false) ⟨true, 9, [], false⟩ vanillaVolume
    (stagedImage vanillaTable) := by
  have hslice : vanillaRam.slice vanillaAttempt.ctx.addr vanillaAttempt.ctx.len = vanillaFip :=
    slice_vanillaRam
  have hcand : fipAccepts vanillaPlatform vanillaAttempt.ctx.kind
      (vanillaRam.slice vanillaAttempt.ctx.addr vanillaAttempt.ctx.len) = true := by
    rw [hslice]
    exact vanillaFip_accepted
  have hboard : Promotable vanillaPlatform (.normal, 0) vanillaAttempt.ctx vanillaRam
      { sampleWorld vanillaTable with ram := vanillaRam } .ok 4 0 (sampleVolume false)
      ⟨true, 9, [], false⟩
      ⟨true, 9, vanillaRam.slice vanillaAttempt.ctx.addr vanillaAttempt.ctx.len, false⟩
      (stagedImage vanillaTable) := board_promotable hcand
    (show sampleAddr + 1152 ≤ ubiReadbackAddr by decide) (fun _ => vanillaWorld_pinned) (.inl rfl)
    (by decide) (by decide) rfl rfl (fipAccepts_length (sampleFip_accepted false))
    (classifiedAs_of_accepted sampleFip_accepted_vanilla) rfl (by decide)
    (by decide) rfl fun _ => .inr (by decide)
  rw [hslice] at hboard
  exact hboard

end Sample

end FipUpdate

end UrsusBoot
