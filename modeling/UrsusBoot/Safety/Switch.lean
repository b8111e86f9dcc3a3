import UrsusBoot.Engine.Issues
import UrsusBoot.Safety.FipAttempt

/-!
# Attaching and switching

What the two steps of a FIP update that are not commands on one named volume do: attaching the
native UBI device, and exchanging names by `ursus_ubi_atomic_switch`.
-/

namespace UrsusBoot

open Prog

/-- The attached device is that of the native layout. -/
def World.Native (w : World) : Prop := ∃ p, w.attached = some p ∧ p.area = .native

theorem World.Native.of_attached {w w' : World} (h : w.Native) (ha : w'.attached = w.attached) :
    w'.Native := by
  obtain ⟨p, hp, harea⟩ := h
  exact ⟨p, ha.trans hp, harea⟩

theorem ubiCreate_zero {w : World} {n : String} {size : ℕ} {st : Bool}
    {id : Option (Fin vtblSlots)} {o : Outcome} (hw : w.Native)
    (h : (exec (.ubiCreate n size st id) o w).1 = 0) :
    ∃ i v, (w.vols .native) i = none ∧ (∀ k, ¬ (w.vols .native).Named k n) ∧ v.static = st ∧
      (exec (.ubiCreate n size st id) o w).2.vols .native = (w.vols .native).put i n v := by
  simp only [exec] at h ⊢
  obtain ⟨p, u, hp, hu, hw'⟩ := World.shellUbi_of_zero h
  obtain ⟨q, hq, harea⟩ := hw
  obtain rfl : q = p := Option.some.inj (hq.symm.trans hp)
  obtain ⟨i, pebs, hi, hn, -, -, hvols⟩ := UbiImage.create_eq_some hu
  rw [harea] at hi hn hvols hw'
  refine ⟨i, ⟨st, pebs, if st then [] else List.replicate (pebs * w.lebSize) 0xff, false⟩, hi, hn,
    rfl, ?_⟩
  rw [hw', World.ubiCells_vols, World.vols, World.setUbi_ubi_self, hvols]
  rfl

def Silent (e : FlashEvent) : Prop := ∀ line, e.cmd ≠ .printf line

theorem Cmd.Edits.silent {c : Cmd} {ns : List String} (h : c.Edits ns) (o : Outcome) (w : World) :
    Silent ⟨c, o, w⟩ := by
  intro line hline
  cases hline
  exact h

namespace FipUpdate

/-! ## Attaching -/

theorem updateRegisterUbiPart_area {w : World} {o : Outcome} {p : UbiPart}
    (h : (w.updateRegisterUbiPart o).1 = .ok p) : p.area = .native := by
  unfold World.updateRegisterUbiPart at h
  split at h
  · rename_i q _
    cases h
    exact q.2
  · cases h
  · cases h
  · dsimp only at h
    split_ifs at h
    · cases h; rfl
    · cases h; rfl

theorem ensureUbiAttachment_native (w : World) :
    Ensures (fun ret w' => ret = 0 → w'.Native)
      ensureUbiAttachment w := by
  have hdev : ∀ (w : World) (p : UbiPart) (dev : UbiDevice), p.area = .native →
      (exec .ubiGetDevice .ok w).1 = some dev → (if dev.mtd = p then (0 : ℤ) else -exdev) = 0 →
      w.Native := by
    intro w p dev hp hsome hret
    have hmtd : dev.mtd = p := by
      by_contra hne
      simp [hne] at hret
    simp only [exec, Option.map_eq_some_iff] at hsome
    obtain ⟨q, hq, rfl⟩ := hsome
    exact ⟨q, hq, by rw [show q = p from hmtd, hp]⟩
  refine spec_next Cmd.updateRegisterUbiPart fun o _ => ⟨trivial, ?_⟩
  cases hreg : (exec .updateRegisterUbiPart o w).1 with
  | error e =>
    have hneg : e < 0 := by
      have h := yields_updateRegisterUbiPart (A := fun _ => True) w o trivial
      exact h.2 e hreg
    exact fun h => absurd h (ne_of_lt hneg)
  | ok p =>
    have hp : p.area = .native := updateRegisterUbiPart_area hreg
    refine spec_next Cmd.ubiGetDevice fun o' _ => ⟨trivial, ?_⟩
    cases hget : (exec .ubiGetDevice o' (exec .updateRegisterUbiPart o w).2).1 with
    | some dev => exact hdev _ p dev hp hget
    | none =>
      refine spec_next (Cmd.ubiPart p) fun o' _ => ⟨trivial, ?_⟩
      refine spec_ite (fun hret h => absurd h hret) fun _ => ?_
      refine spec_next Cmd.ubiGetDevice fun o' _ => ⟨trivial, ?_⟩
      cases hget' : (exec .ubiGetDevice o' _).1 with
      | none => exact fun h => absurd h (by simp)
      | some dev => exact hdev _ p dev hp hget'

def Attaches (c : Cmd) : Prop := c.Query ∨ ∃ p, c = .ubiPart p

theorem exec_attaches {c : Cmd} (h : Attaches c) (o : Outcome) (w : World) (a : UbiArea) :
    (exec c o w).2.vols a = w.vols a := by
  rcases h with h | ⟨p, rfl⟩
  · exact (exec_reads h.reads o w).vols a
  · exact World.ubiPart_vols w o p a

/-! ## Switching -/

/-- `t'` is `t` after the switch of `current` and `candidate`. -/
def SwitchedTo (current candidate backup : String) (t t' : VolumeTable) : Prop :=
  ∃ i j, t.find? current = some i ∧ t.find? candidate = some j ∧ t' = t.switch i backup j current

theorem atomicSwitch_spec (current candidate backup : String) {w : World} (hw : w.Native) :
    Spec exec (fun _ => True)
      (fun e => Silent e ∧ ((e.after exec).vols .native = w.vols .native ∨
        SwitchedTo current candidate backup (w.vols .native) ((e.after exec).vols .native)))
      (fun ret w' => w'.attached = w.attached ∧
        (ret ≠ 0 ∧ w'.vols .native = w.vols .native ∨
          ret = 0 ∧ SwitchedTo current candidate backup (w.vols .native) (w'.vols .native)))
      (atomicSwitch current candidate backup) w := by
  obtain ⟨p, hp, harea⟩ := hw
  refine spec_next Cmd.ubiGetDevice fun o _ =>
    ⟨⟨(by rintro _ ⟨⟩), .inl rfl⟩, ?_⟩
  refine spec_ite (fun _ => ⟨rfl, .inl ⟨by simp, rfl⟩⟩) fun _ => ?_
  refine spec_next (Cmd.ubiOpenVolume current) fun o₁ _ =>
    ⟨⟨(by rintro _ ⟨⟩), .inl (by simp [Event.after, exec])⟩, ?_⟩
  simp only [exec]
  cases hold : w.ubiOpenVolume o₁ current with
  | error e =>
    have hne : e ≠ 0 := ne_of_lt (World.ubiOpenVolume_error hold)
    exact ⟨by simp, .inl ⟨hne, by simp⟩⟩
  | ok old =>
    obtain ⟨p₁, v₁, hp₁, hlook₁, -⟩ := World.ubiOpenVolume_ok hold
    obtain rfl : p = p₁ := Option.some.inj (hp.symm.trans hp₁)
    rw [harea] at hlook₁
    refine spec_next (Cmd.ubiOpenVolume candidate) fun o₂ _ =>
      ⟨⟨(by rintro _ ⟨⟩), .inl (by simp [Event.after, exec])⟩, ?_⟩
    simp only [exec]
    cases hnew : (w.ubiCells o₁).ubiOpenVolume o₂ candidate with
    | error e =>
      have hne : e ≠ 0 := ne_of_lt (World.ubiOpenVolume_error hnew)
      exact ⟨by simp, .inl ⟨hne, by simp⟩⟩
    | ok new =>
      obtain ⟨p₂, v₂, hp₂, hlook₂, -⟩ := World.ubiOpenVolume_ok hnew
      rw [World.ubiCells_attached] at hp₂
      obtain rfl : p = p₂ := Option.some.inj (hp.symm.trans hp₂)
      rw [harea, World.ubiCells_vols] at hlook₂
      intro o₃ _
      set w' := (w.ubiCells o₁).ubiCells o₂ with hw'
      set rs := [(old.id, backup), (new.id, current)] with hrs
      have hresult : ((w'.ubiRenameVolumes o₃ rs).1 ≠ 0 ∧
            (w'.ubiRenameVolumes o₃ rs).2.vols .native = w.vols .native) ∨
          ((w'.ubiRenameVolumes o₃ rs).1 = 0 ∧ SwitchedTo current candidate backup (w.vols .native)
              ((w'.ubiRenameVolumes o₃ rs).2.vols .native)) := by
        rcases World.ubiRenameVolumes_cases w' o₃ rs with ⟨hne, hv⟩ | ⟨hz, q, hq, hv⟩
        · exact .inl ⟨hne, by rw [hv, hw', World.ubiCells_vols, World.ubiCells_vols]⟩
        · simp only [hw', World.ubiCells_attached] at hq
          obtain rfl : p = q := Option.some.inj (hp.symm.trans hq)
          simp only [harea, hw', World.ubiCells_vols] at hv
          exact .inr ⟨hz, old.id, new.id, (Slots.lookup_eq_some.1 hlook₁).1,
            (Slots.lookup_eq_some.1 hlook₂).1, hv⟩
      refine ⟨⟨(by rintro _ ⟨⟩), hresult.imp And.right And.right⟩, ?_, hresult⟩
      simp [exec, hw']

theorem SwitchedTo.agree {n current candidate backup : String} {t t' : VolumeTable}
    (hs : SwitchedTo current candidate backup t t') (hcur : current ≠ n) (hcand : candidate ≠ n)
    (hback : backup ≠ n) : Slots.Agree n t t' := by
  obtain ⟨i, j, hi, hj, rfl⟩ := hs
  exact Slots.agree_switch (fun h => hcur ((Slots.named_of_find? hi).eq h))
    (fun h => hcand ((Slots.named_of_find? hj).eq h)) hback hcur

/-- The event exchanges names: the volume found as `current` is to become `backup`, the one found
as `candidate` is to become `current`. -/
def Exchange (current candidate backup : String) (e : FlashEvent) : Prop :=
  ∃ p i j, e.before.attached = some p ∧ (e.before.vols p.area).find? current = some i ∧
    (e.before.vols p.area).find? candidate = some j ∧
    e.cmd = .ubiRenameVolumes [(i, backup), (j, current)]

theorem emits_atomicSwitch {G : FlashEvent → Prop} {current candidate backup : String}
    (hq : ∀ c o w, c.Query → G ⟨c, o, w⟩) (hx : ∀ e, Exchange current candidate backup e → G e) :
    Emits exec G (atomicSwitch current candidate backup) := by
  intro w
  refine spec_next Cmd.ubiGetDevice fun o _ =>
    ⟨hq .ubiGetDevice o w trivial, spec_ite (fun _ => trivial) fun _ => ?_⟩
  refine spec_next (Cmd.ubiOpenVolume current) fun o₁ _ =>
    ⟨hq (.ubiOpenVolume current) _ _ trivial, ?_⟩
  simp only [exec]
  cases hold : w.ubiOpenVolume o₁ current with
  | error e => trivial
  | ok old =>
    obtain ⟨p, v₁, hp, hlook₁, -⟩ := World.ubiOpenVolume_ok hold
    refine spec_next (Cmd.ubiOpenVolume candidate) fun o₂ _ =>
      ⟨hq (.ubiOpenVolume candidate) _ _ trivial, ?_⟩
    simp only [exec]
    cases hnew : (w.ubiCells o₁).ubiOpenVolume o₂ candidate with
    | error e => trivial
    | ok new =>
      obtain ⟨p₂, v₂, hp₂, hlook₂, -⟩ := World.ubiOpenVolume_ok hnew
      rw [World.ubiCells_attached] at hp₂
      obtain rfl : p = p₂ := Option.some.inj (hp.symm.trans hp₂)
      rw [World.ubiCells_vols] at hlook₂
      intro o₃ _
      refine ⟨hx _ ⟨p, old.id, new.id, ?_, ?_, ?_, rfl⟩, trivial⟩
      · simpa using hp
      · simpa using (Slots.lookup_eq_some.1 hlook₁).1
      · simpa using (Slots.lookup_eq_some.1 hlook₂).1

theorem Exchange.agree {n current candidate backup : String} {e : FlashEvent}
    (h : Exchange current candidate backup e) (hcur : current ≠ n) (hcand : candidate ≠ n)
    (hback : backup ≠ n) (a : UbiArea) :
    Slots.Agree n (e.before.vols a) ((e.after exec).vols a) := by
  obtain ⟨p, i, j, hp, hi, hj, hcmd⟩ := h
  obtain ⟨cmd, o, w⟩ := e
  obtain rfl : cmd = _ := hcmd
  have hp : w.attached = some p := hp
  have hswitch : Slots.Agree n (w.vols p.area) ((w.vols p.area).switch i backup j current) :=
    SwitchedTo.agree ⟨i, j, hi, hj, rfl⟩ hcur hcand hback
  show Slots.Agree n (w.vols a) ((w.ubiRenameVolumes o [(i, backup), (j, current)]).2.vols a)
  cases herr : o.err with
  | some err =>
    have hsame : (w.ubiRenameVolumes o [(i, backup), (j, current)]).2.vols a = w.vols a := by
      simp [World.ubiRenameVolumes, hp, herr]
    rw [hsame]
    exact .refl _ _
  | none =>
    by_cases ha : a = p.area
    · have hafter : (w.ubiRenameVolumes o [(i, backup), (j, current)]).2.vols a =
          (w.vols p.area).switch i backup j current := by
        simp [World.ubiRenameVolumes, hp, herr, World.vols, UbiImage.renameVolumes, Slots.switch, ha]
      rw [hafter, ha]
      exact hswitch
    · have hsame : (w.ubiRenameVolumes o [(i, backup), (j, current)]).2.vols a = w.vols a := by
        simp [World.ubiRenameVolumes, hp, herr, World.vols, World.setUbi_ubi_of_ne _ _ ha]
      rw [hsame]
      exact .refl _ _

/-! ## The stages of the native layout -/

/-- The exchanges of a promotion and of a rollback. -/
def switches : List (String × String × String) :=
  [("fip", "fip.new", "fip.bad"), ("fip", "fip.new", "fip.old"), ("fip", "fip.bad", "fip.new"),
   ("fip", "fip.old", "fip.bad")]

/-- **What a native stage performs.** Whatever holds of every routine command, and of the three
other things a stage may do in its place, holds of every command of a native stage. -/
theorem emits_native {G : FlashEvent → Prop} (P : Platform) {c : Ctx} (h : ¬ c.stage.Stock)
    (hroutine : ∀ c o w, Routine c → G ⟨c, o, w⟩)
    (hdrop : c.stage = .ubiStagePrep → ∀ c o w, Drops c → G ⟨c, o, w⟩)
    (hblank : c.stage = .ubiVerify → ∀ c o w, Blanks c → G ⟨c, o, w⟩)
    (hswitch : ∀ cur cand back e, (cur, cand, back) ∈ switches → Exchange cur cand back e → G e) :
    Emits exec G (runStage P c) := by
  have huses : ∀ {α : Type} {p : FlashProg α}, Uses Routine p → Emits exec G p := fun hp =>
    .of_uses hroutine hp
  have hatomic : ∀ {cur cand back : String}, (cur, cand, back) ∈ switches →
      Emits exec G (atomicSwitch cur cand back) := fun hs =>
    emits_atomicSwitch (fun c o w hc => hroutine c o w (routine_of_query c hc))
      fun e => hswitch _ _ _ e hs
  have hreport : ∀ (line : String) (r : ℤ × Ctx),
      Emits exec G ((printf line).bind fun _ => Prog.ret r) := fun line r =>
    huses (uses_next trivial fun _ => trivial)
  unfold runStage
  cases hs : c.stage with
  | precheck => exact huses (uses_precheck (inert_of_query routine_of_query) P c)
  | ubiAttach => exact huses (routine_ubiAttach P c)
  | ubiStagePrep =>
    refine .of_uses (fun c o w hc => ?_) (uses_ubiStagePrep_drops c)
    exact hc.elim (hroutine c o w) (hdrop hs c o w)
  | ubiStageWrite => exact huses (routine_ubiStageWrite c)
  | ubiStageVerify => exact huses (routine_ubiStageVerify P c)
  | ubiPromote =>
    unfold ubiPromote
    cases c.ubiFipMode with
    | repairMissing =>
      exact huses (uses_checked (.inl ⟨rfl, rfl⟩) fun _ => trivial)
    | repairInvalid =>
      exact emits_bind (hatomic (by decide)) fun _ =>
        emits_ite (fun _ => emits_ret _) fun _ => emits_ret _
    | normal =>
      exact emits_bind (hatomic (by decide)) fun _ =>
        emits_ite (fun _ => emits_ret _) fun _ => emits_ret _
  | ubiVerify =>
    refine .of_uses (fun c o w hc => ?_) (uses_ubiVerify_blanks P c)
    exact hc.elim (hroutine c o w) (hblank hs c o w)
  | ubiRollback =>
    unfold ubiRollback
    cases c.ubiFipMode with
    | repairMissing => exact emits_ret _
    | repairInvalid =>
      exact emits_bind (hatomic (by decide)) fun _ =>
        emits_ite (fun _ => emits_ret _) fun _ => hreport _ _
    | normal =>
      refine emits_bind (huses (routine_removeIfPresent (by simp))) fun _ => ?_
      exact emits_bind (hatomic (by decide)) fun _ =>
        emits_ite (fun _ => emits_ret _) fun _ => hreport _ _
  | idle | complete | failed => exact emits_ret _
  | stockBackup | stockErase | stockWrite | stockVerify =>
    rw [hs] at h
    exact absurd trivial h

end FipUpdate

end UrsusBoot
