import UrsusBoot.Safety.Room

/-!
# A settings reset that fails

`ursus_ubi_reset_settings` removes `rootfs_data` before it looks whether a new one can be created.
With no command failing, a reset that ends in an error has kept the settings exactly when the new
volume would have fitted: its id is free or is that of the old volume, and more than the reserve is
free once the old volume is gone.
-/

namespace UrsusBoot

open Prog

/-- `rootfs_data` is the volume it was, or still is not there. -/
def SettingsKept (w w' : World) : Prop :=
  (w'.vols .native).lookup "rootfs_data" = (w.vols .native).lookup "rootfs_data"

structure CleanFits (u : UbiImage) (leb : ℕ) : Prop where
  leb : leb ≠ 0
  room : rootfsFreeReserveLebs < u.availPebs
  id : u.vols 6 = none
  fresh : u.vols.lookup "rootfs_data" = none

/-- A `rootfs_data` that the reset removes can be created anew. -/
def ResetFits (w : World) : Prop :=
  Attachable w → ∀ i v, (w.vols .native).lookup "rootfs_data" = some (i, v) →
    w.lebSize ≠ 0 ∧
    rootfsFreeReserveLebs + (w.ubi .native).deficit < (w.ubi .native).availPebs + v.reservedPebs ∧
    (w.vols .native 6 = none ∨ i = 6)

section Reset

variable {u : UbiImage} {leb : ℕ} {w : World}

theorem storeRootfsDataMax_device (h : DeviceIs u leb w) (hd : u.vols.Distinct) (bytes : ℕ) :
    Spec exec Succeeds (fun _ => True)
      (fun _ w' => ∃ u', DeviceIs u' leb w' ∧ ∀ n, u'.present n = u.present n)
      (storeRootfsDataMax bytes) w := by
  have hsame : ∀ w', DeviceIs u leb w' →
      ∃ u', DeviceIs u' leb w' ∧ ∀ n, u'.present n = u.present n :=
    fun _ h' => ⟨u, h', fun _ => rfl⟩
  refine spec_next Cmd.envGetRootfsDataMax fun o _ => ⟨trivial, ?_⟩
  have h₁ := h.reads (c := .envGetRootfsDataMax) trivial o
  refine spec_ite (fun _ => hsame _ h₁) fun _ => ?_
  refine spec_next (Cmd.envSetRootfsDataMax bytes) fun o' _ => ⟨trivial, ?_⟩
  have h₂ := h₁.reads (c := .envSetRootfsDataMax bytes) trivial o'
  refine spec_ite (fun _ => hsame _ h₂) fun _ => ?_
  refine spec_next Cmd.envSave fun o'' ho'' => ⟨trivial, ?_⟩
  have h₃ := envSave_device h₂ hd ho''
  exact spec_ite (fun _ => h₃) fun _ => h₃

/-- **When a clean `rootfs_data` can be created**, and what the device is then. -/
theorem createCleanRootfsData_device (h : DeviceIs u leb w) (hd : u.vols.Distinct) :
    Spec exec Succeeds (fun _ => True)
      (fun ret w' => (CleanFits u leb ∧ ret = 0 ∧
          ∃ u', DeviceIs u' leb w' ∧ u'.present "rootfs_data" = true) ∨
        (¬ CleanFits u leb ∧ ret ≠ 0 ∧ DeviceIs u leb w'))
      (createCleanRootfsData true) w := by
  obtain ⟨p, hp, harea⟩ := h.attached
  refine spec_next Cmd.ubiGetDevice fun o _ => ⟨trivial, ?_⟩
  have hdev : (exec .ubiGetDevice o w).1 = some ⟨p, leb, u.availPebs⟩ := by
    simp [exec, hp, h.leb, harea, h.image]
  rw [hdev]
  refine spec_ite (fun hleb => .inr ⟨fun hfits => hfits.leb hleb, by simp, h⟩) fun hleb => ?_
  have hleb' : leb ≠ 0 := hleb
  refine spec_ite (fun hroom => .inr ⟨fun hfits => ?_, by simp, h⟩) fun hroom => ?_
  · exact absurd hfits.room (by dsimp only at hroom; omega)
  have hroom' : rootfsFreeReserveLebs < u.availPebs := Nat.lt_of_not_le hroom
  -- all but the reserve, in bytes and back in PEBs
  have hpebs : ((u.availPebs - rootfsFreeReserveLebs) * leb + leb - 1) / leb =
      u.availPebs - rootfsFreeReserveLebs := by
    rw [Nat.add_sub_assoc (by omega), Nat.mul_comm, Nat.mul_add_div (by omega),
      Nat.div_eq_of_lt (by omega), Nat.add_zero]
  have hsize : (u.availPebs - rootfsFreeReserveLebs) * leb ≠ 0 :=
    Nat.mul_ne_zero (by omega) hleb'
  refine spec_next (Cmd.ubiCreate _ _ _ _) fun o' ho' => ⟨trivial, ?_⟩
  have hcreate := ubiCreate_device "rootfs_data" ((u.availPebs - rootfsFreeReserveLebs) * leb)
    false (some 6) h ho'
  by_cases hfits : CleanFits u leb
  · have hslot : u.freeSlot (some 6) = some 6 := by simp [UbiImage.freeSlot, hfits.id]
    obtain ⟨u', hu', hvols, -⟩ := UbiImage.create_of_room false hsize hslot hfits.fresh
      (by rw [hpebs]; omega)
    rw [hu'] at hcreate
    refine spec_ite (fun hne => absurd hcreate.1 hne) fun _ => ?_
    have hfresh : ∀ k, ¬ u.vols.Named k "rootfs_data" := Slots.lookup_eq_none.1 hfits.fresh
    have hd' : u'.vols.Distinct := by
      rw [hvols]
      exact hd.put hfresh
    have hpresent : u'.present "rootfs_data" = true := by
      rw [UbiImage.present_eq, hvols, Slots.find?_put_fresh (Slots.find?_eq_none.2 hfresh)]
      rfl
    refine (storeRootfsDataMax_device hcreate.2 hd' _).bind fun _ w' hw' => ?_
    obtain ⟨u'', hcarry, hsame⟩ := hw'
    exact .inl ⟨hfits, rfl, u'', hcarry, (hsame _).trans hpresent⟩
  · have hrefuse : u.create leb "rootfs_data" ((u.availPebs - rootfsFreeReserveLebs) * leb) false
        (some 6) = none := by
      by_contra hsome
      obtain ⟨u', hu'⟩ := Option.ne_none_iff_exists'.1 hsome
      obtain ⟨i, pebs, hfree, hnamed, hid, -⟩ := UbiImage.create_eq_some hu'
      obtain rfl := hid 6 rfl
      exact hfits ⟨hleb', hroom', hfree, Slots.lookup_eq_none.2 hnamed⟩
    rw [hrefuse] at hcreate
    have hne : (exec (.ubiCreate "rootfs_data" ((u.availPebs - rootfsFreeReserveLebs) * leb) false
        (some 6)) o' w).1 ≠ 0 := by
      rw [hcreate.1]
      simp
    exact spec_ite (fun _ => .inr ⟨hfits, hne, hcreate.2⟩) fun hz => absurd hne hz

theorem cleanFits_dropped (hd : u.vols.Distinct) {i : Fin vtblSlots} {v : Volume}
    (hl : u.vols.lookup "rootfs_data" = some (i, v)) :
    CleanFits (u.dropped "rootfs_data") leb ↔
      leb ≠ 0 ∧ rootfsFreeReserveLebs + u.deficit < u.availPebs + v.reservedPebs ∧
        (u.vols 6 = none ∨ i = 6) := by
  have havail := UbiImage.availPebs_dropped hl
  have hvols := UbiImage.vols_dropped hl
  have hid : (u.dropped "rootfs_data").vols 6 = none ↔ u.vols 6 = none ∨ i = 6 := by
    rw [hvols]
    by_cases hi : 6 = i
    · subst hi
      simp
    · rw [Slots.free_of_ne hi]
      exact ⟨.inl, fun h => h.resolve_right fun h' => hi h'.symm⟩
  constructor
  · intro h
    have hroom := h.room
    exact ⟨h.leb, by omega, hid.1 h.id⟩
  · rintro ⟨hleb, hroom, h6⟩
    exact ⟨hleb, by omega, hid.2 h6, UbiImage.lookup_dropped_self hd⟩

theorem resetSettings_kept (w : World) :
    Spec exec Succeeds (fun _ => True) (fun ret w' => (ret ≠ 0 → SettingsKept w w') ↔ ResetFits w)
      resetSettings w := by
  refine spec_attach_device (fun hno ret w' _ hubi => ?_) fun hattach w₁ _ h₁ => ?_
  · have hkept : SettingsKept w w' := by
      unfold SettingsKept World.vols
      rw [hubi]
    exact ⟨⟨fun _ h => absurd h hno, fun _ _ => hkept⟩, ⟨fun _ h => absurd h hno, fun _ _ => hkept⟩⟩
  have hd : (w.ubi .native).vols.Distinct := hattach.distinct
  generalize hu : w.ubi .native = u at h₁ hd
  generalize hleb : w.lebSize = leb at h₁
  have hlook : (w.vols .native).lookup "rootfs_data" = u.vols.lookup "rootfs_data" := by
    rw [World.vols, hu]
  refine (removeIfPresent_device h₁).bind fun ret w₂ h₂ => ?_
  obtain ⟨rfl, h₂⟩ := h₂
  refine spec_ite (fun hne => absurd rfl hne) fun _ => ?_
  refine (createCleanRootfsData_device h₂ (UbiImage.distinct_dropped hd)).bind fun ret w₃ h₃ => ?_
  have hfits : ResetFits w ↔ ∀ i v, u.vols.lookup "rootfs_data" = some (i, v) →
      CleanFits (u.dropped "rootfs_data") leb := by
    unfold ResetFits
    rw [hlook, hu, hleb]
    refine ⟨fun h i v hl => (cleanFits_dropped hd hl).2 ?_, fun h _ i v hl => ?_⟩
    · have := h hattach i v hl
      rwa [World.vols, hu] at this
    · have := (cleanFits_dropped hd hl).1 (h i v hl)
      rwa [World.vols, hu]
  rcases h₃ with ⟨hclean, rfl, u', hcarry, hpresent⟩ | ⟨hclean, hne, hcarry⟩
  · refine spec_ite (fun hne => absurd rfl hne) fun _ => ?_
    intro o ho
    refine ⟨trivial, ?_⟩
    have hz := (ubiCheck_device (n := "rootfs_data") hcarry ho).2 hpresent
    exact ⟨fun _ => hfits.2 fun _ _ _ => hclean, fun _ hne => absurd hz hne⟩
  · refine spec_ite (fun _ => ?_) fun hz => absurd hne hz
    have hafter : (w₃.vols .native).lookup "rootfs_data" = none := by
      rw [World.vols, hcarry.image]
      exact UbiImage.lookup_dropped_self hd
    constructor
    · intro h
      have hkept := h hne
      unfold SettingsKept at hkept
      rw [hafter, hlook] at hkept
      exact hfits.2 fun i v hl => absurd (hkept.trans hl) (by simp)
    · intro h _
      unfold SettingsKept
      rw [hafter, hlook]
      by_contra hsome
      obtain ⟨x, hx⟩ := Option.ne_none_iff_exists'.1 fun h => hsome h.symm
      exact hclean (hfits.1 h x.1 x.2 hx)

/-- **When a failed reset has kept the settings.** -/
theorem settings_kept_iff (outs : ℕ → Outcome) (w : World)
    (hok : ∀ e ∈ (run exec resetSettings outs w).trace, Succeeds e) :
    ((run exec resetSettings outs w).val ≠ 0 →
      SettingsKept w (run exec resetSettings outs w).world) ↔ ResetFits w :=
  ((resetSettings_kept w).run_of outs hok).2

/-- A board whose only volume is a `rootfs_data` of `pebs` PEBs, with `avail` PEBs free. -/
def settingsTable (pebs : ℕ) : VolumeTable := fun k =>
  if k = 6 then some ("rootfs_data", ⟨false, pebs, List.replicate (pebs * 0x1f000) 0x55, false⟩)
  else none

@[inherit_doc settingsTable]
def settingsBoard (pebs avail : ℕ) : World :=
  { FipUpdate.sampleWorld (settingsTable pebs) with
    ubi := fun _ => ⟨settingsTable pebs, avail, 40, 40, 2000⟩ }

theorem distinct_settingsTable (pebs : ℕ) : (settingsTable pebs).Distinct := by
  have honly : ∀ i a, (settingsTable pebs).Named i a → i = 6 := by
    rintro i a ⟨r, hr⟩
    by_contra hne
    simp [settingsTable, hne] at hr
  intro i j a hi hj
  rw [honly i a hi, honly j a hj]

theorem lookup_settingsTable (pebs : ℕ) : (settingsTable pebs).lookup "rootfs_data" =
    some (6, ⟨false, pebs, List.replicate (pebs * 0x1f000) 0x55, false⟩) := by
  have hsix : settingsTable pebs 6 =
      some ("rootfs_data", ⟨false, pebs, List.replicate (pebs * 0x1f000) 0x55, false⟩) := if_pos rfl
  refine Slots.lookup_eq_some.2 ⟨?_, hsix⟩
  exact ((distinct_settingsTable pebs).uniqueName _).find?_eq (Slots.named_of_eq hsix)

theorem settingsBoard_attachable (pebs avail : ℕ) : Attachable (settingsBoard pebs avail) :=
  ⟨.inr rfl, distinct_settingsTable pebs⟩

/-- The reset of a board on which the new volume fits. -/
theorem settings_kept_sample : ResetFits (settingsBoard 100 20) ∧
    ((run exec resetSettings (fun _ => .ok) (settingsBoard 100 20)).val ≠ 0 →
      SettingsKept (settingsBoard 100 20)
        (run exec resetSettings (fun _ => .ok) (settingsBoard 100 20)).world) := by
  have hfits : ResetFits (settingsBoard 100 20) := by
    intro _ i v hl
    cases (lookup_settingsTable 100).symm.trans hl
    exact ⟨by decide, by decide, .inr rfl⟩
  exact ⟨hfits, (settings_kept_iff _ _ succeeds_of_ok).2 hfits⟩

/-- A `rootfs_data` of 10 PEBs next to 5 free ones is removed, and 15 free PEBs are no more than the
reserve. -/
theorem settings_lost : (∀ e ∈ (run exec resetSettings (fun _ => .ok) (settingsBoard 10 5)).trace,
      Succeeds e) ∧
    (run exec resetSettings (fun _ => .ok) (settingsBoard 10 5)).val ≠ 0 ∧
    ¬ SettingsKept (settingsBoard 10 5)
      (run exec resetSettings (fun _ => .ok) (settingsBoard 10 5)).world := by
  have hok : ∀ e ∈ (run exec resetSettings (fun _ => .ok) (settingsBoard 10 5)).trace, Succeeds e :=
    succeeds_of_ok
  refine ⟨hok, ?_⟩
  have hiff := ((resetSettings_kept (settingsBoard 10 5)).run_of _ hok).2
  have hno : ¬ ResetFits (settingsBoard 10 5) := by
    intro h
    obtain ⟨-, hroom, -⟩ := h (settingsBoard_attachable 10 5) 6 _ (lookup_settingsTable 10)
    exact absurd hroom (by decide)
  exact Classical.not_imp.1 fun h => hno (hiff.1 h)

end Reset

end UrsusBoot
