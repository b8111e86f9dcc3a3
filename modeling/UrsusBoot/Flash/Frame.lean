import UrsusBoot.Flash.Effects

/-!
# What commands leave alone

Classes of commands by what they cannot change, for use with the frame rule of command programs.
-/

namespace UrsusBoot

open Prog

variable {c : Cmd} {ns : List String}

namespace Cmd

/-- The command asks a question that UBI has no part in, registers partitions or logs a line. -/
def Inert : Cmd → Prop
  | .ubiRegisterMtd | .updateRegisterUbiPart | .ubiGetDevice => True
  | .findMasterNand | .nandRead .. | .blockIsBad _ | .malloc _ | .getTimer _ | .readMem .. => True
  | .envGetRootfsDataMax | .envSetRootfsDataMax _ | .factoryRegisterMtd | .logf _ => True
  | _ => False

/-- The command asks a question, registers partitions or logs a line. -/
def Query : Cmd → Prop
  | .ubiCheck _ | .ubiRegisterMtd | .updateRegisterUbiPart | .ubiGetDevice | .ubiOpenVolume _ => True
  | .findMasterNand | .nandRead .. | .blockIsBad _ | .malloc _ | .getTimer _ | .readMem .. => True
  | .envGetRootfsDataMax | .envSetRootfsDataMax _ | .factoryRegisterMtd | .logf _ => True
  | _ => False

/-- The command asks a question, or fills the scratch window. -/
def Reads : Cmd → Prop
  | .ubiRead addr _ _ => ubiReadbackAddr ≤ addr
  | .mtdRead _ addr _ _ => ubiReadbackAddr ≤ addr
  | .writeMem addr _ => ubiReadbackAddr ≤ addr
  | c => c.Query

/-- The command leaves the volumes named `n` alone. -/
def Spares (n : String) : Cmd → Prop
  | .ubiCreate m _ _ _ => m ≠ n
  | .ubiRemove m => m ≠ n
  | .ubiRename a b => a ≠ n ∧ b ≠ n
  | .ubiWrite _ m _ => m ≠ n
  | .envSave => n ≠ "ubootenv" ∧ n ≠ "ubootenv2"
  | .ubiRenameVolumes _ => False
  | .mtdErase p off len => p.offset + off + len ≤ ubiBase
  | .mtdWrite p bs off => p.offset + off + bs.length ≤ ubiBase
  | .nandErase off len => off + len ≤ ubiBase
  | .nandWrite off bs => off + bs.length ≤ ubiBase
  | .factoryUbiErase | .factoryKernelErase | .factoryKernelWrite .. => False
  | _ => True

/-- The command leaves the NAND below the UBI area alone. -/
def SparesBl2 : Cmd → Prop
  | .mtdErase p off _ => ubiBase ≤ p.offset + off
  | .mtdWrite p _ off => ubiBase ≤ p.offset + off
  | .nandErase off _ => ubiBase ≤ off
  | .nandWrite off _ => ubiBase ≤ off
  | .factoryUbiErase | .factoryKernelErase | .factoryKernelWrite .. => False
  | _ => True

/-- The command reads, or edits volumes named in `ns`. -/
def Edits (ns : List String) : Cmd → Prop
  | .ubiCreate n _ _ _ => n ∈ ns
  | .ubiRemove n => n ∈ ns
  | .ubiRename a b => a ∈ ns ∧ b ∈ ns
  | .ubiWrite _ n _ => n ∈ ns
  | c => c.Reads

theorem Inert.query (h : c.Inert) : c.Query := by
  cases c <;> first | exact h | exact h.elim

theorem Query.reads (h : c.Query) : c.Reads := by
  cases c <;> first | exact h | exact h.elim

theorem Reads.edits (h : c.Reads) (ns : List String) : c.Edits ns := by
  cases c <;> first | exact h | exact h.elim

theorem Query.edits (h : c.Query) (ns : List String) : c.Edits ns := h.reads.edits ns

theorem Edits.cases (h : c.Edits ns) :
    c.Reads ∨ (∃ n size st id, c = .ubiCreate n size st id) ∨ (∃ n, c = .ubiRemove n) ∨
      (∃ a b, c = .ubiRename a b) ∨ (∃ addr n size, c = .ubiWrite addr n size) := by
  cases c with
  | ubiCreate n size st id => exact .inr (.inl ⟨n, size, st, id, rfl⟩)
  | ubiRemove n => exact .inr (.inr (.inl ⟨n, rfl⟩))
  | ubiRename a b => exact .inr (.inr (.inr (.inl ⟨a, b, rfl⟩)))
  | ubiWrite addr n size => exact .inr (.inr (.inr (.inr ⟨addr, n, size, rfl⟩)))
  | _ => exact .inl h

theorem Edits.spares {n : String} (h : c.Edits ns) (hn : n ∉ ns) :
    c.Spares n := by
  have hne : ∀ m, m ∈ ns → m ≠ n := fun m hm heq => hn (heq ▸ hm)
  cases c with
  | ubiCreate m _ _ _ => exact hne m h
  | ubiRemove m => exact hne m h
  | ubiRename a b => exact ⟨hne a h.1, hne b h.2⟩
  | ubiWrite _ m _ => exact hne m h
  | envSave | ubiRenameVolumes | mtdErase | mtdWrite | nandErase | nandWrite => exact h.elim
  | factoryUbiErase | factoryKernelErase | factoryKernelWrite => exact h.elim
  | _ => trivial

end Cmd

/-! ## Volumes -/

theorem VolumeStep.agree {t t' : VolumeTable} {n : String} (h : VolumeStep c t t') (hs : c.Spares n) :
    Slots.Agree n t t' := by
  cases h with
  | same => exact .refl n t
  | create v hi hn => exact Slots.agree_put hi hs
  | remove hi => exact Slots.agree_free fun h => hs ((Slots.named_of_find? hi).eq h)
  | rename hi hb =>
    exact Slots.agree_rename (fun h => hs.1 ((Slots.named_of_find? hi).eq h)) hs.2
  | write v hi => exact Slots.agree_setBody fun h => hs ((Slots.named_of_find? hi).eq h)
  | renames => exact hs.elim
  | envSave v hn hi =>
    refine Slots.agree_setBody fun h => ?_
    have hne := (Slots.named_of_find? hi).eq h
    rcases hn with rfl | rfl
    · exact hs.1 hne.symm
    · exact hs.2 hne.symm
  | mtdErase _ _ h => exact absurd hs (not_le.2 h)
  | mtdWrite _ _ h => exact absurd hs (not_le.2 h)
  | nandErase _ _ h => exact absurd hs (not_le.2 h)
  | nandWrite _ _ h => exact absurd hs (not_le.2 h)
  | factoryUbiErase | factoryKernelErase | factoryKernelWrite => exact hs.elim

theorem exec_agree {n : String} (o : Outcome) (w : World) (a : UbiArea) (hs : c.Spares n) :
    Slots.Agree n (w.vols a) ((exec c o w).2.vols a) :=
  (exec_vols c o w a).agree hs

/-! ## NAND -/

namespace World

variable {w : World} {o : Outcome} {x : ℕ}

theorem shellUbi_nand (f : UbiImage → Option UbiImage) (h : x < ubiBase) :
    (w.shellUbi o f).2.nand x = w.nand x := by
  rcases shellUbi_cases w o f with ⟨-, hw | hw⟩ | ⟨p, u, -, -, -, hw⟩
  · rw [hw]
  · rw [hw, ubiCells_nand _ _ h]
  · rw [hw]
    exact ubiCells_nand _ _ h

theorem ubiPart_nand (p : UbiPart) (h : x < ubiBase) : (w.ubiPart o p).2.nand x = w.nand x := by
  unfold ubiPart
  split_ifs
  · rfl
  · exact ubiCells_nand _ _ h
  · exact ubiCells_nand _ _ h

theorem ubiWrite_nand (n : String) (bs : List UInt8) (h : x < ubiBase) :
    (w.ubiWrite o n bs).2.nand x = w.nand x := by
  unfold ubiWrite
  split
  · rfl
  · split
    · rfl
    · split_ifs
      · rfl
      · exact ubiCells_nand _ _ h
      · exact ubiCells_nand _ _ h

theorem ubiRead_nand (addr : ℕ) (n : String) (size : ℕ) (h : x < ubiBase) :
    (w.ubiRead o addr n size).2.nand x = w.nand x := by
  unfold ubiRead
  split
  · rfl
  · split_ifs
    · rfl
    · rfl
    all_goals exact ubiCells_nand _ _ h

theorem ubiRenameVolumes_nand (rs : List (Fin vtblSlots × String)) (h : x < ubiBase) :
    (w.ubiRenameVolumes o rs).2.nand x = w.nand x := by
  unfold ubiRenameVolumes
  split
  · rfl
  · split
    · exact ubiCells_nand _ _ h
    · exact ubiCells_nand _ _ h

theorem envSave_nand (h : x < ubiBase) : (w.envSave o).2.nand x = w.nand x := by
  unfold envSave
  dsimp only
  split_ifs
  · exact ubiPart_nand _ h
  · exact (ubiWrite_nand _ _ h).trans (ubiPart_nand _ h)
  · exact (ubiWrite_nand _ _ h).trans (ubiPart_nand _ h)

theorem rawTorn_nand {a n : ℕ} (h : x < a ∨ a + n ≤ x) : (w.rawTorn o a n).nand x = w.nand x := by
  unfold rawTorn
  cases o.cells with
  | none => rfl
  | some c => exact if_neg (by omega)

theorem rawErase_nand {a n : ℕ} (h : x < a ∨ a + n ≤ x) :
    (w.rawErase o a n).nand x = w.nand x := by
  rcases h with h | h
  · exact Mem.fill_apply_of_lt _ _ _ h
  · exact Mem.fill_apply_of_ge _ _ h

theorem rawWrite_nand {a : ℕ} {bs : List UInt8} (h : x < a ∨ a + bs.length ≤ x) :
    (w.rawWrite o a bs).nand x = w.nand x := by
  rcases h with h | h
  · exact Mem.blit_apply_of_lt _ _ h
  · exact Mem.blit_apply_of_ge _ h

theorem mtdErased_nand {a n : ℕ} (h : x < a ∨ a + n ≤ x) :
    (w.mtdErased o a n).nand x = w.nand x := by
  unfold mtdErased
  split_ifs
  · exact rawErase_nand h
  · exact rawTorn_nand h

end World

theorem exec_nandErase {off len x : ℕ} (o : Outcome) (w : World) (h : x < off ∨ off + len ≤ x) :
    (exec (.nandErase off len) o w).2.nand x = w.nand x := by
  simp only [exec]
  split
  · exact World.rawErase_nand h
  · exact World.rawTorn_nand h

theorem exec_nandWrite {off x : ℕ} {bs : List UInt8} (o : Outcome) (w : World)
    (h : x < off ∨ off + bs.length ≤ x) : (exec (.nandWrite off bs) o w).2.nand x = w.nand x := by
  simp only [exec]
  split
  · exact World.rawWrite_nand h
  · exact World.rawTorn_nand h

/-- **Frame of the first block.** -/
theorem exec_bl2 (h : c.SparesBl2) (o : Outcome) (w : World) {x : ℕ} (hx : x < ubiBase) :
    (exec c o w).2.nand x = w.nand x := by
  cases c with
  | ubiPart p => exact World.ubiPart_nand p hx
  | ubiCheck | ubiCreate | ubiRemove | ubiRename => exact World.shellUbi_nand _ hx
  | ubiWrite addr n size => exact World.ubiWrite_nand n _ hx
  | ubiRead addr n size => exact World.ubiRead_nand addr n size hx
  | ubiReadWhole addr n => exact World.ubiRead_nand addr n 0 hx
  | ubiOpenVolume n => exact World.ubiCells_nand _ _ hx
  | ubiRenameVolumes rs => exact World.ubiRenameVolumes_nand rs hx
  | envSave => exact World.envSave_nand hx
  | mtdErase p off len =>
    simp only [exec]
    split_ifs
    · exact World.mtdErased_nand (.inl (lt_of_lt_of_le hx h))
    · exact World.rawTorn_nand (.inl (lt_of_lt_of_le hx h))
  | mtdWrite p bs off =>
    simp only [exec]
    split_ifs
    · exact World.rawWrite_nand (.inl (lt_of_lt_of_le hx h))
    · exact World.rawTorn_nand (.inl (lt_of_lt_of_le hx h))
  | nandErase off len => exact exec_nandErase o w (.inl (lt_of_lt_of_le hx h))
  | nandWrite off bs => exact exec_nandWrite o w (.inl (lt_of_lt_of_le hx h))
  | factoryUbiErase | factoryKernelErase | factoryKernelWrite => exact h.elim
  | ubiDetach | mtdRead | envSetRootfsDataMax =>
    simp only [exec]
    split_ifs <;> rfl
  | factoryKernelRead addr len =>
    simp only [exec, World.factoryKernelRead]
    split_ifs <;> rfl
  | ubiRegisterMtd | updateRegisterUbiPart | factoryRegisterMtd =>
    rw [exec_register]
    simp
  | blockIsBad off =>
    simp only [exec]
    split <;> rfl
  | _ => rfl

/-- `w'` differs from `w`, as far as flash contents go, in volumes named in `ns` only. The cells UBI
keeps its volumes in are its own affair. -/
structure Within (ns : List String) (w w' : World) : Prop where
  bl2 : ∀ x < ubiBase, w'.nand x = w.nand x
  volumes : ∀ n, n ∉ ns → ∀ a, Slots.Agree n (w.vols a) (w'.vols a)

theorem Within.refl (ns : List String) (w : World) : Within ns w w :=
  ⟨fun _ _ => rfl, fun n _ a => .refl n (w.vols a)⟩

theorem Within.trans {w w' w'' : World} (h : Within ns w w') (h' : Within ns w' w'') :
    Within ns w w'' :=
  ⟨fun x hx => (h'.bl2 x hx).trans (h.bl2 x hx),
    fun n hn a => (h.volumes n hn a).trans (h'.volumes n hn a)⟩

theorem Within.mono {ns ns' : List String} {w w' : World} (h : Within ns w w')
    (hns : ∀ n ∈ ns, n ∈ ns') : Within ns' w w' :=
  ⟨h.bl2, fun n hn a => h.volumes n (fun hin => hn (hns n hin)) a⟩

theorem Within.congr {w w₁ w₂ : World} (h : Within ns w w₁) (hnand : w₂.nand = w₁.nand)
    (hubi : w₂.ubi = w₁.ubi) : Within ns w w₂ := by
  refine ⟨fun x hx => ?_, fun n hn a => ?_⟩
  · rw [hnand]
    exact h.bl2 x hx
  · rw [show w₂.vols a = w₁.vols a by rw [World.vols, hubi, World.vols]]
    exact h.volumes n hn a

/-- **Frame of a command** that spares every name outside a list. -/
theorem exec_within (hs : ∀ n, n ∉ ns → c.Spares n) (hb : c.SparesBl2) (o : Outcome) (w : World) :
    Within ns w (exec c o w).2 :=
  ⟨fun _ hx => exec_bl2 hb o w hx, fun n hn a => exec_agree o w a (hs n hn)⟩

/-- What a command that UBI has no part in keeps: all of flash, and RAM. -/
structure InertStep (w w' : World) : Prop where
  nand : w'.nand = w.nand
  ubi : w'.ubi = w.ubi
  ram : w'.ram = w.ram

theorem InertStep.refl (w : World) : InertStep w w := ⟨rfl, rfl, rfl⟩

theorem InertStep.trans {w w' w'' : World} (h : InertStep w w') (h' : InertStep w' w'') :
    InertStep w w'' :=
  ⟨h'.nand.trans h.nand, h'.ubi.trans h.ubi, h'.ram.trans h.ram⟩

/-- **Frame of questions** that UBI has no part in. -/
theorem exec_inert (h : c.Inert) (o : Outcome) (w : World) :
    InertStep w (exec c o w).2 := by
  cases c with
  | ubiRegisterMtd | updateRegisterUbiPart | factoryRegisterMtd =>
    rw [exec_register]
    · exact ⟨rfl, rfl, rfl⟩
    · simp
  | blockIsBad off =>
    simp only [exec]
    split <;> exact .refl w
  | envSetRootfsDataMax n =>
    simp only [exec]
    split_ifs <;> exact ⟨rfl, rfl, rfl⟩
  | getTimer | ubiGetDevice | findMasterNand | nandRead | malloc | readMem | envGetRootfsDataMax =>
    exact ⟨rfl, rfl, rfl⟩
  | logf => exact .refl w
  | _ => exact h.elim

theorem spec_inert {α : Type} {A : FlashEvent → Prop} {p : FlashProg α} (h : Uses Cmd.Inert p)
    (w : World) :
    Spec exec A (fun e => InertStep w (e.after exec)) (fun _ => InertStep w) p w := by
  refine Spec.of_uses (fun c o w' hc _ hw => ?_) h (InertStep.refl w)
  have hstep := hw.trans (exec_inert hc o w')
  exact ⟨hstep, hstep⟩

/-! ## Reading -/

structure ReadStep (w w' : World) : Prop where
  vols : ∀ a, w'.vols a = w.vols a
  attached : w'.attached = w.attached
  lebSize : w'.lebSize = w.lebSize
  ram : ∀ x < ubiReadbackAddr, w'.ram x = w.ram x

theorem ReadStep.refl (w : World) : ReadStep w w := ⟨fun _ => rfl, rfl, rfl, fun _ _ => rfl⟩

theorem ReadStep.trans {w w' w'' : World} (h : ReadStep w w') (h' : ReadStep w' w'') :
    ReadStep w w'' :=
  ⟨fun a => (h'.vols a).trans (h.vols a), h'.attached.trans h.attached,
    h'.lebSize.trans h.lebSize, fun x hx => (h'.ram x hx).trans (h.ram x hx)⟩

theorem ReadStep.ubiCells (w : World) (o : Outcome) : ReadStep w (w.ubiCells o) :=
  ⟨fun _ => by simp, by simp, by simp, fun _ _ => by simp⟩

theorem ReadStep.blit {addr : ℕ} (w : World) (bs : List UInt8) (h : ubiReadbackAddr ≤ addr) :
    ReadStep w { w with ram := w.ram.blit addr bs } :=
  ⟨fun _ => rfl, rfl, rfl, fun _ hx => Mem.blit_apply_of_lt _ _ (lt_of_lt_of_le hx h)⟩

theorem ReadStep.ubiRead {addr : ℕ} (w : World) (o : Outcome) (n : String) (size : ℕ)
    (h : ubiReadbackAddr ≤ addr) : ReadStep w (w.ubiRead o addr n size).2 := by
  unfold World.ubiRead
  split
  · exact .refl w
  · split_ifs
    · exact .refl w
    · exact .refl w
    all_goals exact (ReadStep.blit w _ h).trans (.ubiCells _ o)

theorem ReadStep.shellUbi_check (w : World) (o : Outcome) (n : String) :
    ReadStep w (exec (.ubiCheck n) o w).2 := by
  refine ⟨fun a => ?_, by simp [exec], by simp [exec], fun x _ => by simp [exec]⟩
  have h := exec_vols (.ubiCheck n) o w a
  generalize (exec (.ubiCheck n) o w).2.vols a = t at h
  cases h
  rfl

/-- **Frame of reading.** -/
theorem exec_reads (h : c.Reads) (o : Outcome) (w : World) :
    ReadStep w (exec c o w).2 := by
  cases c with
  | ubiCheck n => exact .shellUbi_check w o n
  | ubiRead addr n size => exact .ubiRead w o n size h
  | mtdRead p addr off len =>
    simp only [exec]
    split_ifs
    · exact .blit w _ h
    · exact .blit w _ h
  | writeMem addr bs => exact .blit w bs h
  | ubiOpenVolume n => exact .ubiCells w o
  | ubiRegisterMtd | updateRegisterUbiPart | factoryRegisterMtd =>
    rw [exec_register]
    · exact ⟨fun _ => rfl, rfl, rfl, fun _ _ => rfl⟩
    · simp
  | blockIsBad off =>
    simp only [exec]
    split <;> exact .refl w
  | envSetRootfsDataMax n =>
    simp only [exec]
    split_ifs
    · exact ⟨fun _ => rfl, rfl, rfl, fun _ _ => rfl⟩
    · exact .refl w
  | getTimer base => exact ⟨fun _ => rfl, rfl, rfl, fun _ _ => rfl⟩
  | ubiGetDevice | findMasterNand | nandRead | malloc | readMem | envGetRootfsDataMax => exact .refl w
  | logf => exact .refl w
  | _ => exact h.elim

theorem exec_reads_ubi (h : c.Reads) (o : Outcome) (w : World) :
    (exec c o w).2.ubi = w.ubi := by
  cases c with
  | ubiCheck n =>
    simp only [exec, World.shellUbi]
    cases w.attached with
    | none => rfl
    | some p =>
      by_cases hn : ((w.ubi p.area).vols.find? n).isSome
      · cases o.err with
        | none =>
          funext a
          by_cases ha : a = p.area
          · subst ha
            simp [hn]
          · simp [hn, World.setUbi_ubi_of_ne, ha]
        | some e => simp
      · simp [hn]
  | ubiRead addr n size => exact w.ubiRead_ubi o addr n size
  | mtdRead p addr off len =>
    simp only [exec]
    split_ifs <;> rfl
  | ubiOpenVolume n => simp [exec]
  | ubiRegisterMtd | updateRegisterUbiPart | factoryRegisterMtd =>
    rw [exec_register]
    simp
  | blockIsBad off =>
    simp only [exec]
    split <;> rfl
  | envSetRootfsDataMax n =>
    simp only [exec]
    split_ifs <;> rfl
  | writeMem | getTimer | ubiGetDevice | findMasterNand | nandRead | malloc | readMem
    | envGetRootfsDataMax => rfl
  | logf => rfl
  | _ => exact h.elim

theorem exec_query_ram (h : c.Query) (o : Outcome) (w : World) :
    (exec c o w).2.ram = w.ram := by
  cases c with
  | ubiCheck n => simp [exec]
  | ubiOpenVolume n => simp [exec]
  | ubiRegisterMtd | updateRegisterUbiPart | factoryRegisterMtd =>
    rw [exec_register]
    simp
  | blockIsBad off =>
    simp only [exec]
    split <;> rfl
  | envSetRootfsDataMax n =>
    simp only [exec]
    split_ifs <;> rfl
  | getTimer | ubiGetDevice | findMasterNand | nandRead | malloc | readMem | envGetRootfsDataMax => rfl
  | logf => rfl
  | _ => exact h.elim

theorem spec_query {α : Type} {A : FlashEvent → Prop} {p : FlashProg α} (h : Uses Cmd.Query p)
    (w : World) :
    Spec exec A (fun e => ReadStep w (e.after exec))
      (fun _ w' => ReadStep w w' ∧ w'.ram = w.ram) p w := by
  refine Spec.of_uses (I := fun w' => ReadStep w w' ∧ w'.ram = w.ram)
    (fun c o w' hc _ hw => ?_) h ⟨ReadStep.refl w, rfl⟩
  have hstep := hw.1.trans (exec_reads hc.reads o w')
  exact ⟨hstep, hstep, (exec_query_ram hc o w').trans hw.2⟩

theorem exec_edits (h : c.Edits ns) (o : Outcome) (w : World) :
    (exec c o w).2.attached = w.attached ∧ (exec c o w).2.lebSize = w.lebSize := by
  rcases h.cases with h | ⟨n, size, st, id, rfl⟩ | ⟨n, rfl⟩ | ⟨a, b, rfl⟩ | ⟨addr, n, size, rfl⟩
  · exact ⟨(exec_reads h o w).attached, (exec_reads h o w).lebSize⟩
  all_goals simp [exec]

theorem spec_reads {α : Type} {A : FlashEvent → Prop} {p : FlashProg α} (h : Uses Cmd.Reads p)
    (w : World) :
    Spec exec A (fun e => ReadStep w (e.after exec)) (fun _ => ReadStep w) p w := by
  refine Spec.of_uses (fun c o w' hc _ hw => ?_) h (ReadStep.refl w)
  have hstep := hw.trans (exec_reads hc o w')
  exact ⟨hstep, hstep⟩

end UrsusBoot
