import UrsusBoot.Flash.Command

/-!
# What commands do

Inversion lemmas for the effects of UBI commands: each says everything a command can do to the
volume tables, the attachment and RAM, so that later proofs need not unfold `exec`.
-/

namespace UrsusBoot

theorem UbiArea.holds_of_lt {a : UbiArea} {x : ℕ} (h : x < ubiBase) : a.holds x = false := by
  cases a with
  | native => simp [UbiArea.holds, Nat.not_le.2 h]
  | factory =>
    simp only [UbiArea.holds, inFactoryUbi, factoryUbiParts, List.any_cons, List.any_nil]
    simp only [ubiBase] at h
    simp
    omega

namespace World

variable {w : World} {o : Outcome}

/-! ## Updates of the record -/

section Fields

variable (w : World) (o : Outcome)

@[simp] theorem ubiCells_ubi : (w.ubiCells o).ubi = w.ubi := by unfold ubiCells; split <;> rfl

@[simp] theorem ubiCells_ram : (w.ubiCells o).ram = w.ram := by unfold ubiCells; split <;> rfl

@[simp] theorem ubiCells_attached : (w.ubiCells o).attached = w.attached := by
  unfold ubiCells; split <;> rfl

@[simp] theorem ubiCells_lebSize : (w.ubiCells o).lebSize = w.lebSize := by
  unfold ubiCells; split <;> rfl

@[simp] theorem ubiCells_ubiMtdReady : (w.ubiCells o).ubiMtdReady = w.ubiMtdReady := by
  unfold ubiCells; split <;> rfl

theorem ubiCells_nand {x : ℕ} (h : x < ubiBase) : (w.ubiCells o).nand x = w.nand x := by
  unfold ubiCells
  split
  · simp [UbiArea.holds_of_lt h]
  · rfl

@[simp] theorem setUbi_ubi_self (a : UbiArea) (u : UbiImage) : (w.setUbi a u).ubi a = u := by
  simp [setUbi]

theorem setUbi_ubi_of_ne {a b : UbiArea} (u : UbiImage) (h : b ≠ a) :
    (w.setUbi a u).ubi b = w.ubi b := by
  simp [setUbi, h]

@[simp] theorem setUbi_ram (a : UbiArea) (u : UbiImage) : (w.setUbi a u).ram = w.ram := rfl

@[simp] theorem setUbi_nand (a : UbiArea) (u : UbiImage) : (w.setUbi a u).nand = w.nand := rfl

@[simp] theorem setUbi_attached (a : UbiArea) (u : UbiImage) :
    (w.setUbi a u).attached = w.attached := rfl

@[simp] theorem setUbi_lebSize (a : UbiArea) (u : UbiImage) :
    (w.setUbi a u).lebSize = w.lebSize := rfl

end Fields

/-! ## Shell commands on the attached device -/

theorem shellUbi_cases (w : World) (o : Outcome) (f : UbiImage → Option UbiImage) :
    ((w.shellUbi o f).1 = 1 ∧ ((w.shellUbi o f).2 = w ∨ (w.shellUbi o f).2 = w.ubiCells o)) ∨
    (∃ p u, w.attached = some p ∧ o.err = none ∧ f (w.ubi p.area) = some u ∧
      w.shellUbi o f = (0, (w.setUbi p.area u).ubiCells o)) := by
  unfold shellUbi
  cases hp : w.attached with
  | none => exact .inl ⟨rfl, .inl rfl⟩
  | some p =>
    cases he : o.err with
    | some e => exact .inl ⟨rfl, .inr rfl⟩
    | none =>
      cases hf : f (w.ubi p.area) with
      | none => exact .inl ⟨by simp only [hf], .inr (by simp only [hf])⟩
      | some u => exact .inr ⟨p, u, rfl, rfl, hf, by simp only [hf]⟩

theorem shellUbi_of_zero {f : UbiImage → Option UbiImage} (h : (w.shellUbi o f).1 = 0) :
    ∃ p u, w.attached = some p ∧ f (w.ubi p.area) = some u ∧
      (w.shellUbi o f).2 = (w.setUbi p.area u).ubiCells o := by
  rcases shellUbi_cases w o f with ⟨h1, -⟩ | ⟨p, u, hp, -, hf, h'⟩
  · rw [h1] at h; cases h
  · exact ⟨p, u, hp, hf, by rw [h']⟩

@[simp] theorem shellUbi_ram (w : World) (o : Outcome) (f : UbiImage → Option UbiImage) :
    (w.shellUbi o f).2.ram = w.ram := by
  rcases shellUbi_cases w o f with ⟨_, h' | h'⟩ | ⟨p, u, -, -, -, h'⟩ <;> simp [h']

@[simp] theorem shellUbi_attached (w : World) (o : Outcome) (f : UbiImage → Option UbiImage) :
    (w.shellUbi o f).2.attached = w.attached := by
  rcases shellUbi_cases w o f with ⟨_, h' | h'⟩ | ⟨p, u, -, -, -, h'⟩ <;> simp [h']

@[simp] theorem shellUbi_lebSize (w : World) (o : Outcome) (f : UbiImage → Option UbiImage) :
    (w.shellUbi o f).2.lebSize = w.lebSize := by
  rcases shellUbi_cases w o f with ⟨_, h' | h'⟩ | ⟨p, u, -, -, -, h'⟩ <;> simp [h']

end World

/-! ## The volume table -/

variable {n : String}

namespace UbiImage

theorem freeSlot_eq_some {u : UbiImage} {id : Option (Fin vtblSlots)} {i : Fin vtblSlots}
    (h : u.freeSlot id = some i) : u.vols i = none ∧ ∀ j, id = some j → i = j := by
  cases id with
  | some j =>
    simp only [freeSlot] at h
    split_ifs at h with hj
    cases h
    exact ⟨by simpa using hj, fun k hk => Option.some.inj hk⟩
  | none =>
    have hp := List.find?_some h
    exact ⟨by simpa using hp, fun j hj => by cases hj⟩

theorem create_eq_some {u u' : UbiImage} {leb : ℕ} {size : ℕ} {st : Bool}
    {id : Option (Fin vtblSlots)} (h : u.create leb n size st id = some u') :
    ∃ i pebs, u.vols i = none ∧ (∀ k, ¬ u.vols.Named k n) ∧ (∀ j, id = some j → i = j) ∧
      (size ≠ 0 → pebs = (size + leb - 1) / leb) ∧
      u'.vols = u.vols.put i n
        ⟨st, pebs, if st then [] else List.replicate (pebs * leb) 0xff, false⟩ := by
  unfold create at h
  extract_lets bytes pebs at h
  split at h
  · cases h
  · rename_i i hslot
    split_ifs at h with hc
    rw [not_or, not_or] at hc
    obtain ⟨hfree, hid⟩ := freeSlot_eq_some hslot
    refine ⟨i, pebs, hfree, Slots.find?_eq_none.1 (by simpa using hc.2.1), hid, fun hs => ?_, ?_⟩
    · simp [pebs, bytes, hs]
    · rw [← Option.some.inj h]

theorem remove_eq_some {u u' : UbiImage} (h : u.remove n = some u') :
    ∃ i v, u.vols.lookup n = some (i, v) ∧ u'.vols = u.vols.free i := by
  unfold remove at h
  split at h
  · cases h
  · rename_i i v hl
    exact ⟨i, v, hl, by rw [← Option.some.inj h]⟩

theorem rename_eq_some {u u' : UbiImage} {a b : String} (h : u.rename a b = some u') :
    ∃ i, u.vols.find? a = some i ∧ (∀ k, ¬ u.vols.Named k b) ∧ u'.vols = u.vols.rename i b := by
  unfold rename at h
  split at h
  · cases h
  · rename_i i hi
    split_ifs at h with hb
    exact ⟨i, hi, Slots.find?_eq_none.1 (by simpa using hb), by rw [← Option.some.inj h]⟩

end UbiImage

/-- What a command may do to a volume table. Raw operations are the only ones that may do anything;
every other change is to one slot, found by name, or to the names of given ids. -/
inductive VolumeStep : Cmd → VolumeTable → VolumeTable → Prop
  | same (c : Cmd) (t : VolumeTable) : VolumeStep c t t
  | create {n : String} {size : ℕ} {st : Bool} {id : Option (Fin vtblSlots)} {t : VolumeTable}
      {i : Fin vtblSlots} (v : Volume) (hi : t i = none) (hn : ∀ k, ¬ t.Named k n) :
      VolumeStep (.ubiCreate n size st id) t (t.put i n v)
  | remove {n : String} {t : VolumeTable} {i : Fin vtblSlots} (hi : t.find? n = some i) :
      VolumeStep (.ubiRemove n) t (t.free i)
  | rename {a b : String} {t : VolumeTable} {i : Fin vtblSlots} (hi : t.find? a = some i)
      (hb : ∀ k, ¬ t.Named k b) : VolumeStep (.ubiRename a b) t (t.rename i b)
  | write {addr : ℕ} {n : String} {size : ℕ} {t : VolumeTable} {i : Fin vtblSlots} (v : Volume)
      (hi : t.find? n = some i) : VolumeStep (.ubiWrite addr n size) t (t.setBody i v)
  | renames {rs : List (Fin vtblSlots × String)} {t : VolumeTable} :
      VolumeStep (.ubiRenameVolumes rs) t (rs.foldl (fun t r => t.rename r.1 r.2) t)
  | envSave {n : String} {t : VolumeTable} {i : Fin vtblSlots} (v : Volume)
      (hn : n = "ubootenv" ∨ n = "ubootenv2") (hi : t.find? n = some i) :
      VolumeStep .envSave t (t.setBody i v)
  | mtdErase {p : MtdPart} {off len : ℕ} (t t' : VolumeTable) :
      ubiBase < p.offset + off + len → VolumeStep (.mtdErase p off len) t t'
  | mtdWrite {p : MtdPart} {bs : List UInt8} {off : ℕ} (t t' : VolumeTable) :
      ubiBase < p.offset + off + bs.length → VolumeStep (.mtdWrite p bs off) t t'
  | nandErase {off len : ℕ} (t t' : VolumeTable) :
      ubiBase < off + len → VolumeStep (.nandErase off len) t t'
  | nandWrite {off : ℕ} {bs : List UInt8} (t t' : VolumeTable) :
      ubiBase < off + bs.length → VolumeStep (.nandWrite off bs) t t'
  | factoryUbiErase (t t' : VolumeTable) : VolumeStep .factoryUbiErase t t'
  | factoryKernelErase (t t' : VolumeTable) : VolumeStep .factoryKernelErase t t'
  | factoryKernelWrite {addr len : ℕ} (t t' : VolumeTable) :
      VolumeStep (.factoryKernelWrite addr len) t t'

namespace World

def vols (w : World) (a : UbiArea) : VolumeTable := (w.ubi a).vols

@[simp] theorem ubiCells_vols (w : World) (o : Outcome) (a : UbiArea) :
    (w.ubiCells o).vols a = w.vols a := by simp [vols]

theorem shellUbi_vols {w : World} {o : Outcome} {f : UbiImage → Option UbiImage} {a : UbiArea}
    (c : Cmd) (hf : ∀ u u', f u = some u' → VolumeStep c u.vols u'.vols) :
    VolumeStep c (w.vols a) ((w.shellUbi o f).2.vols a) := by
  rcases shellUbi_cases w o f with ⟨_, h' | h'⟩ | ⟨p, u, -, -, hu, h'⟩
  · rw [h']; exact .same _ _
  · rw [h', ubiCells_vols]; exact .same _ _
  · rw [h', ubiCells_vols]
    by_cases ha : a = p.area
    · subst ha
      simpa [vols] using hf _ _ hu
    · simpa [vols, setUbi_ubi_of_ne w u ha] using VolumeStep.same c _

theorem ubiPart_ubi (w : World) (o : Outcome) (p : UbiPart) : (w.ubiPart o p).2.ubi = w.ubi := by
  unfold ubiPart
  split_ifs <;> simp

theorem ubiWrite_vols (w : World) (o : Outcome) (n : String) (bs : List UInt8) (a : UbiArea) :
    (w.ubiWrite o n bs).2.vols a = w.vols a ∨
      ∃ i v, (w.vols a).find? n = some i ∧
        (w.ubiWrite o n bs).2.vols a = (w.vols a).setBody i v := by
  unfold ubiWrite
  cases hp : w.attached with
  | none => exact .inl rfl
  | some p =>
    cases hl : (w.ubi p.area).vols.lookup n with
    | none => exact .inl (by simp only [hl])
    | some iv =>
      obtain ⟨i, v⟩ := iv
      have hfind := (Slots.lookup_eq_some.1 hl).1
      simp only [hl]
      by_cases ha : a = p.area
      · subst ha
        split_ifs
        · exact .inl rfl
        · exact .inr ⟨i, _, hfind, by simp [vols, UbiImage.setVolume]; rfl⟩
        · exact .inr ⟨i, _, hfind, by simp [vols, UbiImage.setVolume]; rfl⟩
      · refine .inl ?_
        split_ifs <;> simp [vols, setUbi_ubi_of_ne w _ ha]

theorem ubiWrite_of_zero {w : World} {o : Outcome} {bs : List UInt8} (h : (w.ubiWrite o n bs).1 = 0)
    :
    ∃ p i v, w.attached = some p ∧ (w.vols p.area).lookup n = some (i, v) ∧
      (w.ubiWrite o n bs).2.vols p.area = (w.vols p.area).setBody i (v.written w.lebSize bs) := by
  unfold ubiWrite at h ⊢
  cases hp : w.attached with
  | none => simp [hp] at h
  | some p =>
    cases hl : (w.ubi p.area).vols.lookup n with
    | none => simp [hp, hl] at h
    | some iv =>
      obtain ⟨i, v⟩ := iv
      simp only [hp, hl] at h ⊢
      refine ⟨p, i, v, rfl, hl, ?_⟩
      split_ifs at h ⊢
      · exact absurd h (by simp)
      · simp [vols, UbiImage.setVolume]
      · exact absurd h (by simp)

theorem ubiRead_of_zero {w : World} {o : Outcome} {addr : ℕ} {size : ℕ}
    (h : (w.ubiRead o addr n size).1 = 0) :
    ∃ p i v, w.attached = some p ∧ (w.vols p.area).lookup n = some (i, v) ∧ v.updMarker = false ∧
      (w.ubiRead o addr n size).2.ram =
        w.ram.blit addr (v.data.take (if size = 0 then v.data.length else size)) := by
  unfold ubiRead device at h ⊢
  cases hp : w.attached with
  | none => simp [hp] at h
  | some p =>
    simp only [hp, Option.map_some, Option.bind_some] at h ⊢
    cases hl : (w.ubi p.area).vols.lookup n with
    | none => simp [hl] at h
    | some iv =>
      obtain ⟨i, v⟩ := iv
      simp only [hl] at h ⊢
      by_cases hm : v.updMarker = true
      · simp [hm] at h
      refine ⟨p, i, v, rfl, hl, by simpa using hm, ?_⟩
      by_cases hd : v.data = []
      · simp [hm, hd]
      · by_cases he : o.err.isNone = true
        · rw [if_neg hm, if_neg hd, if_pos he, ubiCells_ram]
          split_ifs
          · rfl
          · rw [← List.take_eq_take_min]
        · simp [hm, hd, he] at h

theorem ubiCheck_zero {w : World} {o : Outcome} {p : UbiPart} {i : Fin vtblSlots}
    (hp : w.attached = some p) (hi : (w.vols p.area).find? n = some i) (herr : o.err = none) :
    (exec (.ubiCheck n) o w).1 = 0 := by
  have hi' : (w.ubi p.area).vols.find? n = some i := hi
  simp [exec, shellUbi, hp, herr, hi']

theorem ubiRead_zero {w : World} {o : Outcome} {addr : ℕ} {size : ℕ} {p : UbiPart}
    {i : Fin vtblSlots} {v : Volume} (hp : w.attached = some p)
    (hl : (w.vols p.area).lookup n = some (i, v)) (hmark : v.updMarker = false) (hne : v.data ≠ [])
    (herr : o.err = none) : (w.ubiRead o addr n size).1 = 0 := by
  have hl' : (w.ubi p.area).vols.lookup n = some (i, v) := hl
  simp [ubiRead, device, hp, hl', hmark, hne, herr]

theorem ubiPart_vols (w : World) (o : Outcome) (p : UbiPart) (a : UbiArea) :
    (w.ubiPart o p).2.vols a = w.vols a := by simp [vols, ubiPart_ubi]

theorem envVolume_eq (w : World) : w.envVolume = "ubootenv" ∨ w.envVolume = "ubootenv2" := by
  unfold envVolume
  split_ifs
  · exact .inr rfl
  · exact .inl rfl

theorem envSave_vols (w : World) (o : Outcome) (a : UbiArea) :
    VolumeStep .envSave (w.vols a) ((w.envSave o).2.vols a) := by
  have hpart : (w.ubiPart o .ubi).2.vols a = w.vols a := ubiPart_vols w o .ubi a
  have hwrite : VolumeStep .envSave (w.vols a)
      (((w.ubiPart o .ubi).2.ubiWrite o w.envVolume o.junk).2.vols a) := by
    rcases ubiWrite_vols (w.ubiPart o .ubi).2 o w.envVolume o.junk a with h | ⟨i, v, hi, h⟩
    · rw [h, hpart]; exact .same _ _
    · rw [h, hpart]; exact .envSave v (envVolume_eq w) (hpart ▸ hi)
  simp only [envSave]
  split_ifs
  · rw [hpart]; exact .same _ _
  · exact hwrite
  · exact hwrite

theorem ubiRenameVolumes_vols (w : World) (o : Outcome) (rs : List (Fin vtblSlots × String))
    (a : UbiArea) :
    VolumeStep (.ubiRenameVolumes rs) (w.vols a) ((w.ubiRenameVolumes o rs).2.vols a) := by
  unfold ubiRenameVolumes
  split
  · exact .same _ _
  · rename_i p hp
    split
    · rw [ubiCells_vols]; exact .same _ _
    · rw [ubiCells_vols]
      by_cases ha : a = p.area
      · subst ha
        simpa [vols, UbiImage.renameVolumes] using VolumeStep.renames
      · simpa [vols, setUbi_ubi_of_ne w _ ha] using VolumeStep.same _ _

theorem ubiOpenVolume_ok {w : World} {o : Outcome} {d : VolumeDesc}
    (h : w.ubiOpenVolume o n = .ok d) :
    ∃ p v, w.attached = some p ∧ (w.vols p.area).lookup n = some (d.id, v) ∧
      d = ⟨d.id, v.static, v.data.length, v.reservedPebs, w.lebSize⟩ := by
  unfold ubiOpenVolume device at h
  cases he : o.err with
  | some e => simp [he] at h
  | none =>
    cases hp : w.attached with
    | none => simp [he, hp] at h
    | some p =>
      simp only [he, hp, Option.map_some, Option.bind_some] at h
      cases hl : (w.ubi p.area).vols.lookup n with
      | none => simp [hl] at h
      | some iv =>
        obtain ⟨i, v⟩ := iv
        simp only [hl, Except.ok.injEq] at h
        subst h
        exact ⟨p, v, rfl, hl, rfl⟩

theorem ubiOpenVolume_error {w : World} {o : Outcome} {e : ℤ} (h : w.ubiOpenVolume o n = .error e) :
    e < 0 := by
  unfold ubiOpenVolume at h
  cases he : o.err with
  | some e' =>
    simp only [he, Except.error.injEq] at h
    exact h ▸ e'.neg
  | none =>
    simp only [he] at h
    split at h
    · simp only [Except.error.injEq] at h
      rw [← h]
      simp
    · cases h

theorem ubiRenameVolumes_cases (w : World) (o : Outcome) (rs : List (Fin vtblSlots × String)) :
    ((w.ubiRenameVolumes o rs).1 ≠ 0 ∧ ∀ a, (w.ubiRenameVolumes o rs).2.vols a = w.vols a) ∨
    ((w.ubiRenameVolumes o rs).1 = 0 ∧ ∃ p, w.attached = some p ∧
      (w.ubiRenameVolumes o rs).2.vols p.area =
        rs.foldl (fun t r => t.rename r.1 r.2) (w.vols p.area)) := by
  unfold ubiRenameVolumes
  cases hp : w.attached with
  | none => exact .inl ⟨by simp, fun a => rfl⟩
  | some p =>
    cases he : o.err with
    | some e => exact .inl ⟨ne_of_lt e.neg, fun a => by simp⟩
    | none => exact .inr ⟨rfl, p, rfl, by simp [vols, UbiImage.renameVolumes]⟩

@[simp] theorem ubiRenameVolumes_attached (w : World) (o : Outcome)
    (rs : List (Fin vtblSlots × String)) :
    (w.ubiRenameVolumes o rs).2.attached = w.attached := by
  unfold ubiRenameVolumes
  repeat' split
  all_goals simp [*]

theorem ubiPart_attached {w : World} {o : Outcome} {p : UbiPart} (h : (w.ubiPart o p).1 = 0) :
    (w.ubiPart o p).2.attached = some p := by
  unfold ubiPart at h ⊢
  split_ifs at h ⊢ with h1 h2
  · exact h1
  · simp
  · cases h

@[simp] theorem ubiWrite_attached (w : World) (o : Outcome) (n : String) (bs : List UInt8) :
    (w.ubiWrite o n bs).2.attached = w.attached := by
  unfold ubiWrite
  repeat' split
  all_goals simp [*]

@[simp] theorem ubiWrite_lebSize (w : World) (o : Outcome) (n : String) (bs : List UInt8) :
    (w.ubiWrite o n bs).2.lebSize = w.lebSize := by
  unfold ubiWrite
  repeat' split
  all_goals simp

theorem ubiRead_ubi (w : World) (o : Outcome) (addr : ℕ) (n : String) (size : ℕ) :
    (w.ubiRead o addr n size).2.ubi = w.ubi := by
  unfold ubiRead
  split
  · rfl
  · split_ifs <;> simp

theorem rawUbi_below {w : World} {o : Outcome} {x n : ℕ} (h : x + n ≤ ubiBase) :
    w.rawUbi o x n = w.ubi := by simp [rawUbi, h]

theorem rawErase_ubi_below {w : World} {o : Outcome} {x n : ℕ} (h : x + n ≤ ubiBase) :
    (w.rawErase o x n).ubi = w.ubi := by
  have hn : ¬ (x ≤ ubiBase ∧ ubiBase + ubiSize ≤ x + n) := by
    simp only [ubiBase, ubiSize] at h ⊢; omega
  simp only [rawErase, hn, if_false, rawUbi_below h]

theorem mtdErased_ubi_below {w : World} {o : Outcome} {x n : ℕ} (h : x + n ≤ ubiBase) :
    (w.mtdErased o x n).ubi = w.ubi := by
  unfold mtdErased
  split_ifs
  · exact rawErase_ubi_below h
  · exact rawUbi_below h

end World

theorem VolumeStep.of_ubi {c : Cmd} {w w' : World} {a : UbiArea} (h : w'.ubi = w.ubi) :
    VolumeStep c (w.vols a) (w'.vols a) := by
  rw [World.vols, World.vols, h]
  exact .same _ _

theorem exec_register {c : Cmd} {o : Outcome} {w : World} (h : c = .ubiRegisterMtd ∨
    c = .updateRegisterUbiPart ∨ c = .factoryRegisterMtd) :
    (exec c o w).2 = { w with
      ubiMtdReady := (exec c o w).2.ubiMtdReady
      updatePart := (exec c o w).2.updatePart
      factoryMtdReady := (exec c o w).2.factoryMtdReady } := by
  rcases h with rfl | rfl | rfl
  · simp only [exec, World.ubiRegisterMtd]
    repeat' split
    all_goals rfl
  · simp only [exec, World.updateRegisterUbiPart]
    repeat' split
    all_goals rfl
  · simp only [exec, World.factoryRegisterMtd]
    repeat' split
    all_goals rfl

/-- **Inversion.** What any command may do to a volume table. -/
theorem exec_vols (c : Cmd) (o : Outcome) (w : World) (a : UbiArea) :
    VolumeStep c (w.vols a) ((exec c o w).2.vols a) := by
  cases c with
  | ubiDetach => simp only [exec]; split_ifs <;> exact .same _ _
  | ubiPart p => simp only [exec, World.ubiPart_vols]; exact .same _ _
  | ubiCheck n =>
    refine World.shellUbi_vols _ fun u u' h => ?_
    split_ifs at h
    cases h; exact .same _ _
  | ubiCreate n size st id =>
    refine World.shellUbi_vols _ fun u u' h => ?_
    obtain ⟨i, pebs, hi, hn, -, -, hu⟩ := UbiImage.create_eq_some h
    rw [hu]; exact .create _ hi hn
  | ubiRemove n =>
    refine World.shellUbi_vols _ fun u u' h => ?_
    obtain ⟨i, v, hi, hu⟩ := UbiImage.remove_eq_some h
    rw [hu]; exact .remove (Slots.lookup_eq_some.1 hi).1
  | ubiRename x y =>
    refine World.shellUbi_vols _ fun u u' h => ?_
    obtain ⟨i, hi, hb, hu⟩ := UbiImage.rename_eq_some h
    rw [hu]; exact .rename hi hb
  | ubiWrite addr n size =>
    simp only [exec]
    rcases World.ubiWrite_vols w o n (w.ram.slice addr size) a with h | ⟨i, v, hi, h⟩
    · rw [h]; exact .same _ _
    · rw [h]; exact .write v hi
  | ubiRead addr n size => simp only [exec, World.vols, World.ubiRead_ubi]; exact .same _ _
  | ubiReadWhole addr n =>
    simp only [exec, World.ubiReadWhole, World.vols, World.ubiRead_ubi]; exact .same _ _
  | mtdErase p off len =>
    by_cases h : p.offset + off + len ≤ ubiBase
    · simp only [exec]
      split_ifs
      · exact .of_ubi (World.mtdErased_ubi_below h)
      · exact .of_ubi (World.rawUbi_below h)
    · exact .mtdErase _ _ (by omega)
  | mtdWrite p bs off =>
    by_cases h : p.offset + off + bs.length ≤ ubiBase
    · simp only [exec]
      split_ifs
      · exact .of_ubi (World.rawUbi_below h)
      · exact .of_ubi (World.rawUbi_below h)
    · exact .mtdWrite _ _ (by omega)
  | mtdRead p addr off len => simp only [exec]; split_ifs <;> exact .same _ _
  | factoryUbiErase => exact .factoryUbiErase _ _
  | factoryKernelErase => exact .factoryKernelErase _ _
  | factoryKernelWrite addr len => exact .factoryKernelWrite _ _
  | factoryKernelRead addr len =>
    simp only [exec, World.factoryKernelRead]
    split_ifs <;> exact .same _ _
  | ubiRegisterMtd | updateRegisterUbiPart | factoryRegisterMtd =>
    rw [exec_register]
    · exact .same _ _
    · simp
  | ubiOpenVolume n => simp only [exec, World.ubiCells_vols]; exact .same _ _
  | ubiRenameVolumes rs => exact World.ubiRenameVolumes_vols w o rs a
  | nandErase off len =>
    by_cases h : off + len ≤ ubiBase
    · simp only [exec]
      split
      · exact .of_ubi (World.rawErase_ubi_below h)
      · exact .of_ubi (World.rawUbi_below h)
    · exact .nandErase _ _ (by omega)
  | nandWrite off bs =>
    by_cases h : off + bs.length ≤ ubiBase
    · simp only [exec]
      split
      · exact .of_ubi (World.rawUbi_below h)
      · exact .of_ubi (World.rawUbi_below h)
    · exact .nandWrite _ _ (by omega)
  | blockIsBad off => simp only [exec]; split <;> exact .same _ _
  | envSetRootfsDataMax n => simp only [exec]; split_ifs <;> exact .same _ _
  | envSave => exact World.envSave_vols w o a
  | _ => exact .same _ _

end UrsusBoot
