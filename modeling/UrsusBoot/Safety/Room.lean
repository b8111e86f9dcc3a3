import UrsusBoot.Safety.Boot

/-!
# Room on a UBI device

What the removals and creations of the engines do to the free PEBs when no command fails. A removal
first tops up the reserve for bad blocks, so the PEBs of a removed volume are not all free
afterwards.
-/

namespace UrsusBoot

open Prog

/-! ## Accounting -/

namespace UbiImage

variable {u : UbiImage} {n m : String} {i : Fin vtblSlots} {v : Volume}

/-- The PEBs of a volume, none when there is no such volume. -/
def pebsOf (u : UbiImage) (n : String) : ℕ :=
  ((u.vols.lookup n).map fun x => x.2.reservedPebs).getD 0

def present (u : UbiImage) (n : String) : Bool := (u.vols.lookup n).isSome

theorem present_eq (u : UbiImage) (n : String) : u.present n = (u.vols.find? n).isSome := by
  cases hf : u.vols.find? n with
  | none => simp [present, Slots.lookup, hf]
  | some i =>
    obtain ⟨r, hr⟩ := Slots.named_of_find? hf
    have hl : u.vols.lookup n = some (i, r) := Slots.lookup_eq_some.2 ⟨hf, hr⟩
    simp [present, hl]

def deficit (u : UbiImage) : ℕ := u.bebRsvdLevel - u.bebRsvdPebs

/-- The device without the volume, when there is one. -/
def dropped (u : UbiImage) (n : String) : UbiImage := (u.remove n).getD u

def dropAll (u : UbiImage) (ns : List String) : UbiImage := ns.foldl dropped u

theorem dropped_of_none (h : u.vols.lookup n = none) : u.dropped n = u := by
  simp [dropped, remove, h]

theorem vols_dropped (h : u.vols.lookup n = some (i, v)) : (u.dropped n).vols = u.vols.free i := by
  simp [dropped, remove, h]

theorem availPebs_dropped (h : u.vols.lookup n = some (i, v)) :
    (u.dropped n).availPebs =
      u.availPebs + v.reservedPebs - min u.deficit (u.availPebs + v.reservedPebs) := by
  simp [dropped, remove, h, deficit]

theorem deficit_dropped (h : u.vols.lookup n = some (i, v)) :
    (u.dropped n).deficit = u.deficit - min u.deficit (u.availPebs + v.reservedPebs) := by
  simp only [dropped, remove, h, deficit, Option.getD_some]
  omega

theorem lookup_dropped_of_ne (h : m ≠ n) : (u.dropped n).vols.lookup m = u.vols.lookup m := by
  cases hl : u.vols.lookup n with
  | none => rw [dropped_of_none hl]
  | some x =>
    have hn : u.vols.Named x.1 n := Slots.named_of_eq (Slots.lookup_eq_some.1 hl).2
    rw [vols_dropped hl]
    exact (Slots.agree_free fun hm => h (hm.eq hn)).lookup_eq.symm

theorem lookup_dropped_self (hd : u.vols.Distinct) : (u.dropped n).vols.lookup n = none := by
  cases hl : u.vols.lookup n with
  | none => rw [dropped_of_none hl, hl]
  | some x =>
    have hn : u.vols.Named x.1 n := Slots.named_of_eq (Slots.lookup_eq_some.1 hl).2
    rw [vols_dropped hl]
    refine Slots.lookup_eq_none.2 fun j hj => ?_
    obtain ⟨hne, hj⟩ := Slots.named_free.1 hj
    exact hne (hd j x.1 n hj hn)

theorem distinct_dropped (hd : u.vols.Distinct) : (u.dropped n).vols.Distinct := by
  cases hl : u.vols.lookup n with
  | none => rwa [dropped_of_none hl]
  | some x =>
    rw [vols_dropped hl]
    exact hd.free

theorem pebsOf_dropped_of_ne (h : m ≠ n) : (u.dropped n).pebsOf m = u.pebsOf m := by
  rw [pebsOf, lookup_dropped_of_ne h, pebsOf]

theorem present_dropped_of_ne (h : m ≠ n) : (u.dropped n).present m = u.present m := by
  rw [present, lookup_dropped_of_ne h, present]

/-- The PEBs that are free, or are of one of the named volumes. -/
def pool (u : UbiImage) (ns : List String) : ℕ := u.availPebs + (ns.map u.pebsOf).sum

variable {ns : List String}

theorem map_pebsOf_dropped (h : n ∉ ns) :
    ns.map (u.dropped n).pebsOf = ns.map u.pebsOf :=
  List.map_congr_left fun _ hm => pebsOf_dropped_of_ne fun heq => h (heq ▸ hm)

theorem any_present_dropped (h : n ∉ ns) :
    ns.any (u.dropped n).present = ns.any u.present := by
  rw [Bool.eq_iff_iff, List.any_eq_true, List.any_eq_true]
  refine exists_congr fun m => and_congr_right fun hm => ?_
  have hne : m ≠ n := fun heq => h (heq ▸ hm)
  rw [present_dropped_of_ne hne]

theorem sum_pebsOf_of_absent (h : ¬ ns.any u.present = true) :
    (ns.map u.pebsOf).sum = 0 := by
  induction ns with
  | nil => rfl
  | cons n ns ih =>
    rw [List.any_cons, Bool.or_eq_true, not_or] at h
    have habs : u.vols.lookup n = none := by
      by_contra hsome
      exact h.1 (Option.isSome_iff_ne_none.2 hsome)
    rw [List.map_cons, List.sum_cons, ih h.2, pebsOf, habs]
    rfl

/-- **The free PEBs after the removals.** The reserve is topped up once for all of them, and not at
all when none of the volumes is there. -/
theorem dropAll_availPebs (hnodup : ns.Nodup) :
    (u.dropAll ns).availPebs =
      if ns.any u.present then u.pool ns - min u.deficit (u.pool ns) else u.availPebs := by
  induction ns generalizing u with
  | nil => rfl
  | cons n ns ih =>
    obtain ⟨hn, hns⟩ := List.nodup_cons.1 hnodup
    have hstep := ih (u := u.dropped n) hns
    rw [any_present_dropped hn, pool, map_pebsOf_dropped hn] at hstep
    change ((u.dropped n).dropAll ns).availPebs = _
    rw [hstep, List.any_cons, pool, List.map_cons, List.sum_cons]
    cases hl : u.vols.lookup n with
    | none =>
      have hp : u.present n = false := by simp [present, hl]
      have hz : u.pebsOf n = 0 := by simp [pebsOf, hl]
      rw [dropped_of_none hl, hp, hz, Bool.false_or, Nat.zero_add]
    | some x =>
      have hp : u.present n = true := by simp [present, hl]
      have hz : u.pebsOf n = x.2.reservedPebs := by simp [pebsOf, hl]
      rw [availPebs_dropped hl, deficit_dropped hl, hp, hz, Bool.true_or, if_pos rfl]
      by_cases hany : ns.any u.present = true
      · rw [if_pos hany]
        omega
      · rw [if_neg hany, sum_pebsOf_of_absent hany, Nat.add_zero]

theorem lookup_dropAll_of_notMem (h : m ∉ ns) :
    (u.dropAll ns).vols.lookup m = u.vols.lookup m := by
  induction ns generalizing u with
  | nil => rfl
  | cons n ns ih =>
    obtain ⟨hne, hns⟩ := not_or.1 (List.mem_cons.not.1 h)
    exact (ih hns).trans (lookup_dropped_of_ne hne)

theorem lookup_dropAll_of_mem (hd : u.vols.Distinct) (h : m ∈ ns) :
    (u.dropAll ns).vols.lookup m = none := by
  induction ns generalizing u with
  | nil => cases h
  | cons n ns ih =>
    by_cases hmem : m ∈ ns
    · exact ih (distinct_dropped hd) hmem
    · obtain rfl : m = n := (List.mem_cons.1 h).resolve_right hmem
      exact (lookup_dropAll_of_notMem hmem).trans (lookup_dropped_self hd)

theorem vols_dropped_of_none (h : u.vols i = none) : (u.dropped n).vols i = none := by
  cases hl : u.vols.lookup n with
  | none => rwa [dropped_of_none hl]
  | some x =>
    rw [vols_dropped hl]
    by_cases hi : i = x.1
    · rw [hi, Slots.free_self]
    · rwa [Slots.free_of_ne hi]

theorem vols_dropAll_of_none (h : u.vols i = none) :
    (u.dropAll ns).vols i = none := by
  induction ns generalizing u with
  | nil => exact h
  | cons n ns ih => exact ih (vols_dropped_of_none h)

theorem exists_free_dropAll (h : ns.any u.present = true) :
    ∃ i, (u.dropAll ns).vols i = none := by
  induction ns generalizing u with
  | nil => cases h
  | cons n ns ih =>
    change ∃ i, ((u.dropped n).dropAll ns).vols i = none
    cases hl : u.vols.lookup n with
    | some x =>
      refine ⟨x.1, vols_dropAll_of_none ?_⟩
      rw [vols_dropped hl, Slots.free_self]
    | none =>
      have hp : u.present n = false := by simp [present, hl]
      rw [List.any_cons, hp, Bool.false_or] at h
      rw [dropped_of_none hl]
      exact ih h

theorem create_of_room {leb size : ℕ} (st : Bool) {id : Option (Fin vtblSlots)} (hsize : size ≠ 0)
    (hi : u.freeSlot id = some i) (hn : u.vols.lookup n = none)
    (hroom : (size + leb - 1) / leb ≤ u.availPebs) :
    ∃ u', u.create leb n size st id = some u' ∧
      u'.vols = u.vols.put i n ⟨st, (size + leb - 1) / leb,
        if st then [] else List.replicate ((size + leb - 1) / leb * leb) 0xff, false⟩ ∧
      u'.availPebs = u.availPebs - (size + leb - 1) / leb := by
  have hfind : u.vols.find? n = none := Slots.find?_eq_none.2 (Slots.lookup_eq_none.1 hn)
  let body : Volume := ⟨st, (size + leb - 1) / leb,
    if st then [] else List.replicate ((size + leb - 1) / leb * leb) 0xff, false⟩
  refine ⟨{ u with
    vols := u.vols.put i n body
    availPebs := u.availPebs - (size + leb - 1) / leb }, ?_, rfl, rfl⟩
  simp only [create, hi, hsize, hfind, if_false]
  exact if_neg (by simp; omega)

theorem create_refused {leb size : ℕ} {st : Bool} {id : Option (Fin vtblSlots)} (hsize : size ≠ 0)
    (h : u.freeSlot id = none ∨ u.availPebs < (size + leb - 1) / leb) :
    u.create leb n size st id = none := by
  simp only [create, hsize, if_false]
  cases hi : u.freeSlot id with
  | none => rfl
  | some i => exact if_pos (.inr (.inr (h.resolve_left (by simp [hi]))))

end UbiImage

/-! ## The attached device -/

/-- The device of the native layout is attached, and is `u`. -/
structure DeviceIs (u : UbiImage) (leb : ℕ) (w : World) : Prop where
  attached : ∃ p, w.attached = some p ∧ p.area = .native
  image : w.ubi .native = u
  leb : w.lebSize = leb

section Commands

variable {u : UbiImage} {leb : ℕ} {w : World} {o : Outcome} {n : String}

theorem DeviceIs.reads {c : Cmd} (h : DeviceIs u leb w) (hc : c.Reads) (o : Outcome) :
    DeviceIs u leb (exec c o w).2 := by
  have hstep := exec_reads hc o w
  refine ⟨?_, ?_, hstep.lebSize.trans h.leb⟩
  · rw [hstep.attached]
    exact h.attached
  · rw [exec_reads_ubi hc]
    exact h.image

theorem DeviceIs.spec_reads {α : Type} {A : FlashEvent → Prop} {p : FlashProg α}
    (h : DeviceIs u leb w) (hp : Uses Cmd.Reads p) :
    Spec exec A (fun _ => True) (fun _ => DeviceIs u leb) p w :=
  Spec.of_uses (fun _ o _ hc _ hw => ⟨trivial, hw.reads hc o⟩) hp h

theorem DeviceIs.shellUbi {f : UbiImage → Option UbiImage} (h : DeviceIs u leb w)
    (ho : o.err = none) :
    (w.shellUbi o f).1 = (if (f u).isSome then 0 else 1) ∧
      DeviceIs ((f u).getD u) leb (w.shellUbi o f).2 := by
  obtain ⟨⟨p, hp, harea⟩, himage, hleb⟩ := h
  have hu : w.ubi p.area = u := by rw [harea, himage]
  simp only [World.shellUbi, hp, ho, hu]
  cases hf : f u with
  | none => exact ⟨rfl, ⟨p, by simpa using hp, harea⟩, by simpa using himage, by simpa using hleb⟩
  | some u' => exact ⟨rfl, ⟨p, by simpa using hp, harea⟩, by simp [harea], by simpa using hleb⟩

theorem DeviceIs.device (h : DeviceIs u leb w) : w.device = some u := by
  obtain ⟨p, hp, harea⟩ := h.attached
  simp [World.device, hp, harea, h.image]

theorem ubiCheck_device (h : DeviceIs u leb w) (ho : o.err = none) :
    (exec (.ubiCheck n) o w).1 = 0 ↔ u.present n = true := by
  have hret := (h.shellUbi (f := fun u => if (u.vols.find? n).isSome then some u else none) ho).1
  change (w.shellUbi o _).1 = 0 ↔ _
  rw [hret, UbiImage.present_eq]
  by_cases hn : (u.vols.find? n).isSome = true <;> simp [hn]

theorem removeIfPresent_device (h : DeviceIs u leb w) :
    Spec exec Succeeds (fun _ => True) (fun ret w' => ret = 0 ∧ DeviceIs (u.dropped n) leb w')
      (removeIfPresent n) w := by
  refine spec_next (Cmd.ubiCheck n) fun o ho => ⟨trivial, ?_⟩
  have hcheck := ubiCheck_device (n := n) h ho
  have hcarry : DeviceIs u leb (exec (.ubiCheck n) o w).2 := h.reads (c := .ubiCheck n) trivial o
  refine spec_ite (fun hz => ?_) fun hne => ?_
  · intro o' ho'
    refine ⟨trivial, ?_⟩
    have hsome : (u.remove n).isSome = true := by
      have hp := hcheck.1 hz
      unfold UbiImage.present at hp
      obtain ⟨x, hx⟩ := Option.isSome_iff_exists.1 hp
      simp [UbiImage.remove, hx]
    have hremove := hcarry.shellUbi (f := fun u => u.remove n) ho'
    rw [if_pos hsome] at hremove
    exact hremove
  · have hnone : u.vols.lookup n = none := by
      by_contra hsome
      exact hne (hcheck.2 (Option.isSome_iff_ne_none.2 hsome))
    refine ⟨rfl, ?_⟩
    rw [UbiImage.dropped_of_none hnone]
    exact hcarry

theorem ubiCreate_device (n : String) (size : ℕ) (st : Bool) (id : Option (Fin vtblSlots))
    (h : DeviceIs u leb w) (ho : o.err = none) :
    (exec (.ubiCreate n size st id) o w).1 = (if (u.create leb n size st id).isSome then 0 else 1) ∧
      DeviceIs ((u.create leb n size st id).getD u) leb (exec (.ubiCreate n size st id) o w).2 := by
  have hcreate := h.shellUbi (f := fun u => u.create leb n size st id) ho
  simp only [exec, h.leb]
  exact hcreate

theorem envSave_device (h : DeviceIs u leb w) (hd : u.vols.Distinct) (ho : o.err = none) :
    ∃ u', DeviceIs u' leb (exec .envSave o w).2 ∧ ∀ n, u'.present n = u.present n := by
  have hpart : (w.ubiPart o .ubi).1 = 0 := by
    refine ubiPart_succeeds ?_ ho
    show (w.ubi .native).vols.Distinct
    rw [h.image]
    exact hd
  have hubi := World.ubiPart_ubi w o .ubi
  have hat := World.ubiPart_attached hpart
  have hleb : (w.ubiPart o .ubi).2.lebSize = leb := by
    simp only [World.ubiPart]
    split_ifs <;> simp [h.leb]
  simp only [exec, World.envSave, hpart, ne_eq, not_true_eq_false, if_false]
  generalize (w.ubiPart o .ubi).2 = w₁ at hubi hat hleb
  have himage : w₁.ubi .native = u := by rw [hubi, h.image]
  have hpresent (n : String) :
      ((w₁.ubiWrite o w.envVolume o.junk).2.ubi .native).present n = u.present n := by
    rw [UbiImage.present_eq, UbiImage.present_eq]
    have hvols := World.ubiWrite_vols w₁ o w.envVolume o.junk .native
    simp only [World.vols, himage] at hvols
    rcases hvols with hsame | ⟨i, v, -, hset⟩
    · rw [hsame]
    · rw [hset, Slots.find?_setBody]
  refine ⟨(w₁.ubiWrite o w.envVolume o.junk).2.ubi .native, ?_, hpresent⟩
  have hkeep : DeviceIs ((w₁.ubiWrite o w.envVolume o.junk).2.ubi .native) leb
      (w₁.ubiWrite o w.envVolume o.junk).2 :=
    ⟨⟨.ubi, by simpa using hat, rfl⟩, rfl, by simpa using hleb⟩
  split_ifs
  · exact ⟨hkeep.attached, hkeep.image, hkeep.leb⟩
  · exact hkeep

theorem ubiRegisterMtd_eq_zero (ho : o.err = none) :
    (exec .ubiRegisterMtd o w).1 = 0 ↔ w.ubiMtdReady = true ∨ w.geometry = some .supported := by
  refine ⟨fun h => ?_, fun h => ubiRegisterMtd_succeeds h ho⟩
  simp only [exec, World.ubiRegisterMtd, ho] at h
  by_cases hready : w.ubiMtdReady = true
  · exact .inl hready
  · rw [if_neg hready] at h
    cases hg : w.geometry with
    | none => simp [hg] at h
    | some g =>
      by_cases hs : g = .supported
      · exact .inr (congrArg some hs)
      · simp [hg, hs] at h

/-- **Attaching, when no command fails**: it succeeds exactly on an attachable device. -/
theorem spec_attach_device {α : Type} {Q : α → World → Prop} {f₁ f₂ : ℤ → α} {k : FlashProg α}
    (hfail : ¬ Attachable w → ∀ ret w', ret ≠ 0 → w'.ubi = w.ubi → Q (f₁ ret) w' ∧ Q (f₂ ret) w')
    (hk : Attachable w → ∀ w', w'.attached = some .ursusUbiFull →
      DeviceIs (w.ubi .native) w.lebSize w' → Spec exec Succeeds (fun _ => True) Q k w') :
    Spec exec Succeeds (fun _ => True) Q (ubiRegisterMtd.bind fun ret =>
      if ret ≠ 0 then Prog.ret (f₁ ret) else ubiDetach.bind fun _ =>
        (ubiPart .ursusUbiFull).bind fun ret => if ret ≠ 0 then Prog.ret (f₂ ret) else k) w := by
  refine spec_next Cmd.ubiRegisterMtd fun o ho => ⟨trivial, ?_⟩
  have hreg := ubiRegisterMtd_eq_zero (w := w) ho
  have hread := exec_reads (c := .ubiRegisterMtd) trivial o w
  have hubi := exec_reads_ubi (c := .ubiRegisterMtd) trivial o w
  refine spec_ite (fun hne => ?_) fun hz => ?_
  · exact (hfail (fun h => hne (hreg.2 h.registered)) _ _ hne hubi).1
  have hready := hreg.1 (not_not.1 hz)
  generalize (exec .ubiRegisterMtd o w).2 = w₁ at hread hubi
  refine spec_next Cmd.ubiDetach fun o₂ ho₂ => ⟨trivial, ?_⟩
  rw [ubiDetach_succeeds ho₂]
  refine spec_next (Cmd.ubiPart .ursusUbiFull) fun o₃ ho₃ => ⟨trivial, ?_⟩
  have hubi₃ : (exec (.ubiPart .ursusUbiFull) o₃ { w₁ with attached := none }).2.ubi = w.ubi :=
    (World.ubiPart_ubi _ _ _).trans hubi
  refine spec_ite (fun hne => ?_) fun hz₃ => ?_
  · refine (hfail (fun h => hne ?_) _ _ hne hubi₃).2
    refine ubiPart_succeeds ?_ ho₃
    show (w₁.ubi .native).vols.Distinct
    rw [hubi]
    exact h.distinct
  · have hz₃ := not_not.1 hz₃
    have hdistinct : (w₁.ubi .native).vols.Distinct := by
      by_contra hd
      have hd' : ¬ (w₁.ubi UbiPart.ursusUbiFull.area).vols.Distinct := hd
      simp [exec, World.ubiPart, hd'] at hz₃
    rw [hubi] at hdistinct
    have hat := World.ubiPart_attached hz₃
    refine hk ⟨hready, hdistinct⟩ _ hat ⟨⟨.ursusUbiFull, hat, rfl⟩, ?_, ?_⟩
    · rw [hubi₃]
    · simp only [exec, World.ubiPart]
      split_ifs <;> simp [hread.lebSize]

end Commands

end UrsusBoot
