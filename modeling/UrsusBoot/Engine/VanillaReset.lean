import UrsusBoot.Engine.Issues

/-!
# Blanking the environment

`ursus_vanilla_reset_env` overwrites the start of both environment volumes with zeros and reads them
back. The read-back buffer is filled with `0xa5` before, so that a short read cannot pass for zeros.
-/

namespace UrsusBoot

open Prog

namespace FipUpdate

/-- The volume of that name starts with `k` zeros. -/
def BlankTo (k : ℕ) (n : String) (w : World) : Prop :=
  ∃ p i v, w.attached = some p ∧ (w.vols p.area).lookup n = some (i, v) ∧
    v.data.take k = List.replicate k 0

/-- The volume of that name starts with as many zeros as a reset writes. -/
abbrev Blank (n : String) (w : World) : Prop := BlankTo vanillaEnvResetLen n w

/-- A write to an environment volume does not report a failure. -/
def EnvWritten (e : FlashEvent) : Prop :=
  ∀ addr n size, n ∈ envNames → e.cmd = .ubiWrite addr n size →
    (exec (.ubiWrite addr n size) e.out e.before).1 = 0

theorem envWritten_of_not_blanks {e : FlashEvent} (h : ¬ Blanks e.cmd) : EnvWritten e :=
  fun addr n size hn hcmd => absurd ⟨addr, size, n, hn, hcmd⟩ h

section Buffer

variable {bs : List UInt8}

theorem eq_zeros_of_all (n : ℕ) (hlen : bs.length ≤ n)
    (h : (bs ++ (List.replicate n (0xa5 : UInt8)).drop bs.length).all (· == 0) = true) :
    bs = List.replicate n 0 := by
  rw [List.all_append, Bool.and_eq_true, List.drop_replicate] at h
  have hfull : n - bs.length = 0 := by
    by_contra hpos
    obtain ⟨k, hk⟩ := Nat.exists_eq_succ_of_ne_zero hpos
    rw [hk, List.replicate_succ, List.all_cons] at h
    exact absurd h.2 (by simp)
  refine List.eq_replicate_iff.2 ⟨by omega, fun b hb => ?_⟩
  have hb := List.all_eq_true.1 h.1 b hb
  exact eq_of_beq hb

end Buffer

section Reset

variable {A : FlashEvent → Prop} {n : String} {w : World}

theorem vanillaResetVolume_edits (n : String) : Uses (Cmd.Edits [n]) (vanillaResetVolume n) := by
  refine uses_checked trivial fun _ => ?_
  refine uses_next (le_refl ubiReadbackAddr) fun _ => ?_
  refine uses_checked (List.mem_singleton_self n) fun _ => ?_
  refine uses_next (le_refl ubiReadbackAddr) fun _ => ?_
  refine uses_checked (le_refl ubiReadbackAddr) fun _ => ?_
  exact uses_next trivial fun _ => trivial

/-- The end of a reset: fill the buffer with a pattern, read the volume back, look for zeros. -/
def vanillaReadBack (n : String) (k : ℕ) : FlashProg ℤ := do
  writeMem ubiReadbackAddr (List.replicate k 0xa5)
  if (← ubiRead ubiReadbackAddr n k) ≠ 0 then return -eio
  let buf ← readMem ubiReadbackAddr k
  return if buf.all (· == 0) then 0 else -eio

theorem slice_readBack (m : Mem UInt8) (bs : List UInt8) (k : ℕ) :
    ((m.blit ubiReadbackAddr (List.replicate k 0xa5)).blit ubiReadbackAddr
        (bs.take k)).slice ubiReadbackAddr k =
      bs.take k ++
        (List.replicate k 0xa5).drop (bs.take k).length := by
  have hpattern : (m.blit ubiReadbackAddr (List.replicate k 0xa5)).slice
      ubiReadbackAddr k = List.replicate k 0xa5 := by
    have hblit := m.slice_blit ubiReadbackAddr (List.replicate k 0xa5)
    rw [List.length_replicate] at hblit
    exact hblit
  rw [Mem.slice_blit_of_le _ _ (List.length_take_le _ _), hpattern]

theorem vanillaReadBack_blank (n : String) {k : ℕ} (hk : k ≠ 0) (w : World) :
    Spec exec A (fun _ => True) (fun ret w' => ret = 0 → BlankTo k n w') (vanillaReadBack n k) w := by
  apply spec_next (Cmd.writeMem ubiReadbackAddr (List.replicate k 0xa5))
  intro o₁ _
  refine ⟨trivial, ?_⟩
  set w₁ := (exec (.writeMem ubiReadbackAddr (List.replicate k 0xa5)) o₁ w).2
  apply spec_next (Cmd.ubiRead ubiReadbackAddr n k)
  intro o₂ _
  refine ⟨trivial, spec_ite (fun _ h => absurd h (by decide)) fun hread => ?_⟩
  have hstep : ReadStep w₁ (exec (.ubiRead ubiReadbackAddr n k) o₂ w₁).2 :=
    .ubiRead w₁ o₂ n k (le_refl ubiReadbackAddr)
  obtain ⟨p, i, v, hp, hl, -, hram⟩ := World.ubiRead_of_zero (not_not.1 hread)
  rw [if_neg hk] at hram
  set w₂ := (exec (.ubiRead ubiReadbackAddr n k) o₂ w₁).2 with hw₂
  apply spec_next (Cmd.readMem ubiReadbackAddr k)
  intro o₃ _
  refine ⟨trivial, fun hzero => ?_⟩
  have hbuf : w₂.ram.slice ubiReadbackAddr k = v.data.take k ++
      (List.replicate k 0xa5).drop (v.data.take k).length := by
    have hram' : w₂.ram = (w.ram.blit ubiReadbackAddr (List.replicate k 0xa5)).blit
        ubiReadbackAddr (v.data.take k) := hram
    rw [hram']
    exact slice_readBack w.ram v.data k
  have hall : (w₂.ram.slice ubiReadbackAddr k).all (· == 0) = true := by
    by_contra hne
    have hret : (if (w₂.ram.slice ubiReadbackAddr k).all (· == 0) then (0 : ℤ)
      else -eio) = 0 := hzero
    rw [if_neg hne] at hret
    exact absurd hret (by decide)
  rw [hbuf] at hall
  refine ⟨p, i, v, hstep.attached.trans hp, ?_, ?_⟩
  · show (w₂.vols p.area).lookup n = some (i, v)
    rw [hstep.vols]
    exact hl
  · exact eq_zeros_of_all k (List.length_take_le _ _) hall

theorem vanillaReadBack_zero {k : ℕ} (hk : k ≠ 0) {p : UbiPart} {i : Fin vtblSlots} {v : Volume}
    (hr : ∀ o w, A ⟨.ubiRead ubiReadbackAddr n k, o, w⟩ → o.err = none)
    (hp : w.attached = some p) (hl : (w.vols p.area).lookup n = some (i, v))
    (hmark : v.updMarker = false)
    (hzeros : v.data.take k = List.replicate k 0) :
    Spec exec A (fun _ => True) (fun ret _ => ret = 0) (vanillaReadBack n k) w := by
  apply spec_next (Cmd.writeMem ubiReadbackAddr (List.replicate k 0xa5))
  intro o₁ _
  refine ⟨trivial, ?_⟩
  set w₁ := (exec (.writeMem ubiReadbackAddr (List.replicate k 0xa5)) o₁ w).2
  apply spec_next (Cmd.ubiRead ubiReadbackAddr n k)
  intro o₂ ho₂
  have hne : v.data ≠ [] := by
    intro hnil
    have hlen := congrArg List.length hzeros
    rw [hnil, List.take_nil, List.length_replicate, List.length_nil] at hlen
    exact hk hlen.symm
  have hzero : (w₁.ubiRead o₂ ubiReadbackAddr n k).1 = 0 :=
    World.ubiRead_zero hp hl hmark hne (hr o₂ w₁ ho₂)
  obtain ⟨p', i', v', hp', hl', -, hram⟩ := World.ubiRead_of_zero hzero
  obtain rfl : p = p' := Option.some.inj (hp.symm.trans hp')
  obtain ⟨rfl, rfl⟩ : i = i' ∧ v = v' := Prod.mk.inj (Option.some.inj (hl.symm.trans hl'))
  rw [if_neg hk] at hram
  refine ⟨trivial, spec_ite (fun hfail => absurd hzero hfail) fun _ => ?_⟩
  apply spec_next (Cmd.readMem ubiReadbackAddr k)
  intro o₃ _
  refine ⟨trivial, ?_⟩
  have hbuf : (exec (.readMem ubiReadbackAddr k) o₃
      (exec (.ubiRead ubiReadbackAddr n k) o₂ w₁).2).1 =
      List.replicate k 0 := by
    have hram' : (exec (.ubiRead ubiReadbackAddr n k) o₂ w₁).2.ram =
        (w.ram.blit ubiReadbackAddr (List.replicate k 0xa5)).blit
          ubiReadbackAddr (v.data.take k) := hram
    show (exec (.ubiRead ubiReadbackAddr n k) o₂ w₁).2.ram.slice ubiReadbackAddr
      k = _
    rw [hram', slice_readBack, hzeros, List.length_replicate, List.drop_replicate, Nat.sub_self,
      List.replicate_zero, List.append_nil]
  rw [hbuf]
  have hall : (List.replicate k (0 : UInt8)).all (· == 0) = true := by
    rw [List.all_replicate, if_neg hk]
    rfl
  exact if_pos hall

theorem written_zeros (v : Volume) (leb k : ℕ) :
    (v.written leb (List.replicate k 0)).data.take k = List.replicate k 0 := by
  have hlen : (List.replicate k (0 : UInt8)).length = k := List.length_replicate
  unfold Volume.written
  dsimp only
  split_ifs
  · exact List.take_of_length_le hlen.le
  · exact List.take_left' hlen

def vanillaRewrite (n : String) (k : ℕ) : FlashProg ℤ := do
  writeMem ubiReadbackAddr (List.replicate k 0)
  if (← ubiWrite ubiReadbackAddr n k) ≠ 0 then return -eio
  vanillaReadBack n k

theorem vanillaRewrite_blank (n : String) {k : ℕ} (hk : k ≠ 0) (w : World) :
    Spec exec A (fun _ => True) (fun ret w' => ret = 0 → BlankTo k n w') (vanillaRewrite n k) w := by
  apply spec_next (Cmd.writeMem _ _)
  intro o₁ _
  refine ⟨trivial, ?_⟩
  apply spec_next (Cmd.ubiWrite ubiReadbackAddr n k)
  intro o₂ _
  exact ⟨trivial, spec_ite (fun _ h => absurd h (by decide)) fun _ => vanillaReadBack_blank n hk _⟩

theorem vanillaRewrite_zero {k : ℕ} (hk : k ≠ 0) (w : World)
    (hw : ∀ o w, A ⟨.ubiWrite ubiReadbackAddr n k, o, w⟩ →
      (exec (.ubiWrite ubiReadbackAddr n k) o w).1 = 0)
    (hr : ∀ o w, A ⟨.ubiRead ubiReadbackAddr n k, o, w⟩ → o.err = none) :
    Spec exec A (fun _ => True) (fun ret _ => ret = 0) (vanillaRewrite n k) w := by
  apply spec_next (Cmd.writeMem ubiReadbackAddr (List.replicate k 0))
  intro o₁ _
  refine ⟨trivial, ?_⟩
  set w₁ := (exec (.writeMem ubiReadbackAddr (List.replicate k 0)) o₁ w).2 with hw₁
  apply spec_next (Cmd.ubiWrite ubiReadbackAddr n k)
  intro o₂ ho₂
  have hzero : (w₁.ubiWrite o₂ n (w₁.ram.slice ubiReadbackAddr k)).1 = 0 := hw o₂ w₁ ho₂
  refine ⟨trivial, spec_ite (fun hne => absurd hzero hne) fun _ => ?_⟩
  have hsrc : w₁.ram.slice ubiReadbackAddr k = List.replicate k 0 := by
    have hblit := w.ram.slice_blit ubiReadbackAddr (List.replicate k 0)
    rw [List.length_replicate] at hblit
    exact hblit
  obtain ⟨p, i, v, hp, hl, hvols⟩ := World.ubiWrite_of_zero hzero
  obtain ⟨hfind, hslot⟩ := Slots.lookup_eq_some.1 hl
  set w₂ := (exec (.ubiWrite ubiReadbackAddr n k) o₂ w₁).2 with hw₂
  have hvols' : w₂.vols p.area = (w₁.vols p.area).setBody i (v.written w₁.lebSize (List.replicate k 0)) := by
    rw [← hsrc]
    exact hvols
  have hl' : (w₂.vols p.area).lookup n = some (i, v.written w₁.lebSize (List.replicate k 0)) := by
    rw [hvols']
    refine Slots.lookup_eq_some.2 ⟨Slots.find?_setBody.trans hfind, ?_⟩
    rw [Slots.setBody_self, hslot, Option.map_some]
  have hp' : w₂.attached = some p := (World.ubiWrite_attached w₁ o₂ n _).trans hp
  exact vanillaReadBack_zero hk hr hp' hl' rfl (written_zeros v w₁.lebSize k)

theorem vanillaResetVolume_blank (n : String) (w : World) :
    Spec exec A (fun _ => True) (fun ret w' => ret = 0 → Blank n w') (vanillaResetVolume n) w := by
  apply spec_next (Cmd.ubiCheck n)
  intro o₁ _
  exact ⟨trivial, spec_ite (fun _ h => absurd h (by decide)) fun _ =>
    vanillaRewrite_blank n (by decide) _⟩

theorem vanillaResetVolume_done (n : String) (w : World)
    (hw : ∀ o w, A ⟨.ubiWrite ubiReadbackAddr n vanillaEnvResetLen, o, w⟩ →
      (exec (.ubiWrite ubiReadbackAddr n vanillaEnvResetLen) o w).1 = 0)
    (hr : ∀ o w, A ⟨.ubiRead ubiReadbackAddr n vanillaEnvResetLen, o, w⟩ → o.err = none) :
    Spec exec A (fun _ => True)
      (fun ret w' => ret = 0 ∨ (∀ a, w'.vols a = w.vols a) ∧
        ∃ o, A ⟨.ubiCheck n, o, w⟩ ∧ (exec (.ubiCheck n) o w).1 ≠ 0) (vanillaResetVolume n) w := by
  apply spec_next (Cmd.ubiCheck n)
  intro o ho
  have hcheck : ReadStep w (exec (.ubiCheck n) o w).2 := exec_reads (c := .ubiCheck n) trivial o w
  refine ⟨trivial, spec_ite (fun hne => .inr ⟨hcheck.vols, o, ho, hne⟩) fun _ => ?_⟩
  exact (vanillaRewrite_zero (by decide) _ hw hr).mono fun _ _ h => .inl h

theorem vanillaResetVolume_frame (n : String) (w : World) :
    Spec exec A (fun _ => True) (fun _ w' => w'.attached = w.attached ∧
      ∀ m, m ≠ n → ∀ a, Slots.Agree m (w.vols a) (w'.vols a)) (vanillaResetVolume n) w := by
  refine Spec.of_uses (I := fun w' : World => w'.attached = w.attached ∧
    ∀ m, m ≠ n → ∀ a, Slots.Agree m (w.vols a) (w'.vols a)) (fun c o w' hc _ h => ⟨trivial, ?_, ?_⟩)
    (vanillaResetVolume_edits n) ⟨rfl, fun m _ a => .refl m _⟩
  · exact (exec_edits hc o w').1.trans h.1
  · intro m hm a
    exact (h.2 m hm a).trans (exec_agree o w' a (hc.spares (by simpa using hm)))

theorem BlankTo.of_agree {k : ℕ} {w' : World} (h : BlankTo k n w) (hat : w'.attached = w.attached)
    (hv : ∀ a, Slots.Agree n (w.vols a) (w'.vols a)) : BlankTo k n w' := by
  obtain ⟨p, i, v, hp, hl, hzeros⟩ := h
  refine ⟨p, i, v, hat.trans hp, ?_, hzeros⟩
  exact (hv p.area).lookup_eq_some hl

/-- **The reset** of both volumes leaves both blank when it answers 0. -/
theorem vanillaResetEnv_blank (w : World) :
    Spec exec A (fun _ => True) (fun ret w' => ret = 0 → Blank "ubootenv" w' ∧ Blank "ubootenv2" w')
      vanillaResetEnv w := by
  refine (vanillaResetVolume_blank "ubootenv" w).bind fun ret w₁ h₁ => ?_
  refine spec_ite (fun hne h => absurd h hne) fun hzero => ?_
  have hfirst := h₁ (not_not.1 hzero)
  refine ((vanillaResetVolume_blank "ubootenv2" w₁).and
    (vanillaResetVolume_frame "ubootenv2" w₁)).weaken (fun _ h => h) (fun _ _ _ => trivial) |>.mono ?_
  intro ret₂ w₂ h₂ hz
  exact ⟨hfirst.of_agree h₂.2.1 (h₂.2.2 "ubootenv" (by decide)), h₂.1 hz⟩

end Reset

end FipUpdate

end UrsusBoot
