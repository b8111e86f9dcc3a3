import UrsusBoot.Safety.Room

/-!
# Verdicts on volumes and what is left in RAM

The probe and the boot read a volume into RAM and then check a fixed number of bytes there. A read
moves no more bytes than the volume has, so the check may go on to bytes that were there before.

The commands are answered as `io` says, the same in every run: `Follows io`. What a run decides is
then a function of the flash and of RAM, and it does not depend on RAM exactly when the bytes moved
settle each check.
-/

namespace UrsusBoot

open Prog FipUpdate

/-- The command fails, or not, as `io` says; the environment variable `filesize` is not fixed. -/
structure Follows (io : Cmd → Outcome) (e : FlashEvent) : Prop where
  err : e.out.err = (io e.cmd).err
  junk : e.out.junk = (io e.cmd).junk

/-! ## Reads -/

/-- Whether a read of `size` bytes of a volume succeeds, and the bytes it moves; all bytes for 0. -/
def Volume.fetch (v : Volume) (o : Outcome) (size : ℕ) : Bool × List UInt8 :=
  let n := if size = 0 then v.data.length else min size v.data.length
  if v.updMarker then (false, [])
  else if v.data = [] then (true, [])
  else if o.err.isNone then (true, v.data.take n) else (false, o.junk.take n)

section Reads

variable {u : UbiImage} {leb : ℕ} {w : World} {o o' : Outcome} {n : String}
  {x : Fin vtblSlots × Volume}

theorem Volume.fetch_congr (v : Volume) (size : ℕ) (herr : o.err = o'.err)
    (hjunk : o.junk = o'.junk) : v.fetch o size = v.fetch o' size := by
  unfold Volume.fetch
  rw [herr, hjunk]

/-- **What a read does.** -/
theorem ubiRead_fetch (addr size : ℕ) (h : DeviceIs u leb w) (hx : u.vols.lookup n = some x) :
    ((w.ubiRead o addr n size).1 = 0 ↔ (x.2.fetch o size).1 = true) ∧
      (w.ubiRead o addr n size).2.ram = w.ram.blit addr (x.2.fetch o size).2 ∧
      DeviceIs u leb (w.ubiRead o addr n size).2 := by
  have hdev := h.device
  obtain ⟨p, hp, harea⟩ := h.attached
  have hkeep : ∀ m, DeviceIs u leb ({ w with ram := m }.ubiCells o) := fun m =>
    ⟨⟨p, by simpa using hp, harea⟩, by simpa using h.image, by simpa using h.leb⟩
  simp only [World.ubiRead, hdev, Option.bind_some, hx, Volume.fetch]
  by_cases hm : x.2.updMarker = true
  · simp only [hm, if_true]
    exact ⟨by simp, (Mem.blit_nil _ _).symm, h⟩
  · rw [Bool.not_eq_true] at hm
    simp only [hm, Bool.false_eq_true, if_false]
    by_cases hd : x.2.data = []
    · simp only [hd, if_true]
      exact ⟨by simp, (Mem.blit_nil _ _).symm, h⟩
    · simp only [hd, if_false]
      by_cases he : o.err.isNone = true
      · simp only [he, if_true]
        exact ⟨by simp, by simp, hkeep _⟩
      · rw [Bool.not_eq_true] at he
        simp only [he, Bool.false_eq_true, if_false]
        exact ⟨by simp, by simp, hkeep _⟩

end Reads

/-! ## Checks -/

/-- A check of a volume: how many bytes are asked for, how many are looked at, and what of them is
right. -/
structure Check where
  size : ℕ
  bytes : ℕ
  judge : List UInt8 → Bool

/-- `ursus_ubi_volume_fip_valid`. -/
def fipCheck : Check := ⟨fipTocRead, fipTocRead, fipBufferValid⟩

/-- `ursus_ubi_volume_fit_valid`. -/
def fitCheck : Check :=
  ⟨0x40, 40, fun buf => decide (fdtCheckHeader buf = 0) && decide (40 ≤ (fdtHeader buf).totalsize)⟩

/-- Read a volume and judge what is at the readback address. -/
def Check.validate (k : Check) (name : String) : FlashProg Bool := do
  if (← ubiRead ubiReadbackAddr name k.size) ≠ 0 then return false
  let buf ← readMem ubiReadbackAddr k.bytes
  return k.judge buf

/-- What stands at an address that `bs` is written to, after `before` had been. -/
def refill (bs before : List UInt8) : List UInt8 := bs ++ before.drop bs.length

/-- The command is none of those that load and start an image. -/
def Preliminary (c : Cmd) : Prop := (∀ a n, c ≠ .ubiReadWhole a n) ∧ ∀ a, c ≠ .bootm a

theorem preliminary_ubiRead (addr size : ℕ) (n : String) : Preliminary (.ubiRead addr n size) :=
  ⟨by simp, by simp⟩

theorem preliminary_readMem (addr k : ℕ) : Preliminary (.readMem addr k) := ⟨by simp, by simp⟩

theorem preliminary_ubiOpenVolume (n : String) : Preliminary (.ubiOpenVolume n) :=
  ⟨by simp, by simp⟩

theorem preliminary_ubiCheck (n : String) : Preliminary (.ubiCheck n) := ⟨by simp, by simp⟩

variable {x : Fin vtblSlots × Volume}

section Values

variable {io : Cmd → Outcome} {G : FlashEvent → Prop} {u : UbiImage} {leb : ℕ} {w : World}
  {n : String} {m : Mem UInt8} {seen : List UInt8}

def Check.fetch (k : Check) (io : Cmd → Outcome) (n : String) (v : Volume) : Bool × List UInt8 :=
  v.fetch (io (.ubiRead ubiReadbackAddr n k.size)) k.size

/-- What a check says, with `seen` at the readback address and `m` behind it. -/
def Check.verdict (k : Check) (m : Mem UInt8) (seen : List UInt8) : Bool :=
  k.judge ((m.blit ubiReadbackAddr seen).slice ubiReadbackAddr k.bytes)

/-- **What a check says.** -/
theorem validate_value (k : Check) (hG : ∀ c o w, Preliminary c → G ⟨c, o, w⟩)
    (h : DeviceIs u leb w) (hram : w.ram = m.blit ubiReadbackAddr seen)
    (hx : u.vols.lookup n = some x) :
    Spec exec (Follows io) G (fun b w' => DeviceIs u leb w' ∧
        w'.ram = m.blit ubiReadbackAddr (refill (k.fetch io n x.2).2 seen) ∧
        b = ((k.fetch io n x.2).1 && k.verdict m (refill (k.fetch io n x.2).2 seen)))
      (k.validate n) w := by
  refine spec_next (Cmd.ubiRead ubiReadbackAddr n k.size) fun o ho => ⟨?_, ?_⟩
  · exact hG _ o w (preliminary_ubiRead _ _ _)
  obtain ⟨hret, hread, hdev⟩ := ubiRead_fetch (o := o) ubiReadbackAddr k.size h hx
  rw [x.2.fetch_congr k.size ho.err ho.junk] at hret hread
  rw [hram, Mem.blit_blit] at hread
  change (_ ↔ (k.fetch io n x.2).1 = true) at hret
  change _ = m.blit ubiReadbackAddr (refill (k.fetch io n x.2).2 seen) at hread
  have hexec : exec (.ubiRead ubiReadbackAddr n k.size) o w =
      w.ubiRead o ubiReadbackAddr n k.size := rfl
  rw [hexec]
  refine spec_ite (fun hne => ⟨hdev, hread, ?_⟩) fun hz => ?_
  · have hno : (k.fetch io n x.2).1 = false := by
      rw [← Bool.not_eq_true]
      exact fun hyes => hne (hret.2 hyes)
    rw [hno, Bool.false_and]
  · refine spec_next (Cmd.readMem ubiReadbackAddr k.bytes) fun o' _ => ⟨?_, ?_⟩
    · exact hG _ o' _ (preliminary_readMem _ _)
    · refine ⟨hdev, hread, ?_⟩
      rw [hret.1 (not_not.1 hz), Bool.true_and, Check.verdict, ← hread]
      rfl

/-! ## The probe -/

def opened (io : Cmd → Outcome) (u : UbiImage) (n : String) : Option (Fin vtblSlots × Volume) :=
  if (io (.ubiOpenVolume n)).err = none then u.vols.lookup n else none

/-- What stands at the readback address once the probe has checked a volume. -/
def Check.leaves (k : Check) (io : Cmd → Outcome) (u : UbiImage) (n : String) (seen : List UInt8) :
    List UInt8 :=
  ((opened io u n).map fun x => refill (k.fetch io n x.2).2 seen).getD seen

def Check.report (k : Check) (io : Cmd → Outcome) (u : UbiImage) (leb : ℕ) (m : Mem UInt8)
    (n : String) (seen : List UInt8) : VolumeDiag :=
  match opened io u n with
  | none => {}
  | some x => ⟨some ⟨x.1, x.2.static, x.2.data.length, x.2.reservedPebs, leb⟩,
      (k.fetch io n x.2).1 && k.verdict m (k.leaves io u n seen)⟩

theorem fillVolumeDiag_value (k : Check) (n : String) (hG : ∀ c o w, Preliminary c → G ⟨c, o, w⟩)
    (h : DeviceIs u leb w) (hram : w.ram = m.blit ubiReadbackAddr seen) :
    Spec exec (Follows io) G (fun d w' => d = k.report io u leb m n seen ∧ DeviceIs u leb w' ∧
        w'.ram = m.blit ubiReadbackAddr (k.leaves io u n seen))
      (fillVolumeDiag n k.validate) w := by
  refine spec_next (Cmd.ubiOpenVolume n) fun o ho => ⟨?_, ?_⟩
  · exact hG _ o w (preliminary_ubiOpenVolume n)
  have hdev := h.reads (c := .ubiOpenVolume n) trivial o
  have hram' : (exec (.ubiOpenVolume n) o w).2.ram = m.blit ubiReadbackAddr seen := by
    simp [exec, hram]
  have hanswer : (exec (.ubiOpenVolume n) o w).1 = w.ubiOpenVolume o n := rfl
  rw [hanswer]
  cases hopen : opened io u n with
  | none =>
    have hfail : ∃ e, w.ubiOpenVolume o n = .error e := by
      unfold World.ubiOpenVolume
      rw [ho.err]
      by_cases herr : (io (.ubiOpenVolume n)).err = none
      · rw [opened, if_pos herr] at hopen
        simp [herr, h.device, hopen]
      · obtain ⟨e, he⟩ := Option.ne_none_iff_exists'.1 herr
        exact ⟨_, by rw [he]⟩
    obtain ⟨e, he⟩ := hfail
    rw [he]
    refine ⟨?_, hdev, ?_⟩
    · simp [Check.report, hopen]
    · simp [Check.leaves, hopen, hram']
  | some x =>
    have herr : (io (.ubiOpenVolume n)).err = none := by
      by_contra herr
      rw [opened, if_neg herr] at hopen
      cases hopen
    have hx : u.vols.lookup n = some x := by
      rw [opened, if_pos herr] at hopen
      exact hopen
    have hok : w.ubiOpenVolume o n =
        .ok ⟨x.1, x.2.static, x.2.data.length, x.2.reservedPebs, leb⟩ := by
      unfold World.ubiOpenVolume
      rw [ho.err]
      simp [herr, h.device, hx, h.leb]
    rw [hok]
    refine (validate_value k hG hdev hram' hx).bind fun b w' hb => ?_
    obtain ⟨hdev', hram'', rfl⟩ := hb
    refine ⟨?_, hdev', ?_⟩
    · simp [Check.report, Check.leaves, hopen]
    · simp [Check.leaves, hopen, hram'']

end Values

/-! ## Attaching -/

def registerStatus (io : Cmd → Outcome) (w : World) : ℤ :=
  (exec .ubiRegisterMtd (io .ubiRegisterMtd) w).1

/-- What attaching answers; a device that could not be detached is still attached. -/
def partStatus (io : Cmd → Outcome) (w : World) : ℤ :=
  if (io .ubiDetach).err ≠ none ∧ w.attached = some .ursusUbiFull then 0
  else if (io (.ubiPart .ursusUbiFull)).err = none ∧ (w.ubi .native).vols.Distinct then 0 else 1

def Attaches (io : Cmd → Outcome) (w : World) : Prop :=
  registerStatus io w = 0 ∧ partStatus io w = 0

section Attach

variable {io : Cmd → Outcome} {A G : FlashEvent → Prop} {w : World} {o : Outcome}

theorem registerStatus_ram (m : Mem UInt8) :
    registerStatus io { w with ram := m } = registerStatus io w := by
  simp only [registerStatus, exec, World.ubiRegisterMtd]
  split_ifs
  · rfl
  · split
    · rfl
    · rfl
    · split_ifs <;> rfl

theorem ubiRegisterMtd_value (ho : o.err = (io .ubiRegisterMtd).err) :
    (exec .ubiRegisterMtd o w).1 = registerStatus io w := by
  simp only [registerStatus, exec, World.ubiRegisterMtd, ho]

/-- **Attaching**, with commands answered as `io` says. -/
theorem spec_attach_follows {α : Type} {Q : α → World → Prop} {f₁ f₂ : ℤ → α} {k : FlashProg α}
    (hA : ∀ e, A e → Follows io e) (hG : ∀ c o w, Preliminary c → G ⟨c, o, w⟩)
    (h₁ : registerStatus io w ≠ 0 → ∀ w', Q (f₁ (registerStatus io w)) w')
    (h₂ : registerStatus io w = 0 → partStatus io w ≠ 0 → ∀ w', Q (f₂ (partStatus io w)) w')
    (hk : Attaches io w → ∀ w', DeviceIs (w.ubi .native) w.lebSize w' → w'.ram = w.ram →
      Spec exec A G Q k w') :
    Spec exec A G Q (ubiRegisterMtd.bind fun ret =>
      if ret ≠ 0 then Prog.ret (f₁ ret) else ubiDetach.bind fun _ =>
        (ubiPart .ursusUbiFull).bind fun ret => if ret ≠ 0 then Prog.ret (f₂ ret) else k) w := by
  refine spec_next Cmd.ubiRegisterMtd fun o ho =>
    ⟨hG _ _ _ ⟨by simp, by simp⟩, ?_⟩
  have hreg := ubiRegisterMtd_value (w := w) (hA _ ho).err
  have hread := exec_reads (c := .ubiRegisterMtd) trivial o w
  have hubi := exec_reads_ubi (c := .ubiRegisterMtd) trivial o w
  have hram := exec_query_ram (c := .ubiRegisterMtd) trivial o w
  rw [hreg]
  refine spec_ite (fun hne => h₁ hne _) fun hz => ?_
  have hz := not_not.1 hz
  generalize (exec .ubiRegisterMtd o w).2 = w₁ at hread hubi hram
  refine spec_next Cmd.ubiDetach fun o₂ ho₂ => ⟨hG _ _ _ ⟨by simp, by simp⟩, ?_⟩
  have hdetach : exec .ubiDetach o₂ w₁ =
      if (io .ubiDetach).err = none then (0, { w₁ with attached := none }) else (1, w₁) := by
    rw [← (hA _ ho₂).err]
    simp [exec]
  have hrest : ∀ w₂ : World, w₂ = { w₁ with attached := w₂.attached } →
      w₂.attached = (if (io .ubiDetach).err = none then none else w.attached) →
      Spec exec A G Q ((ubiPart .ursusUbiFull).bind fun ret =>
        if ret ≠ 0 then Prog.ret (f₂ ret) else k) w₂ := by
    intro w₂ hw₂ hat
    refine spec_next (Cmd.ubiPart .ursusUbiFull) fun o₃ ho₃ =>
      ⟨hG _ _ _ ⟨by simp, by simp⟩, ?_⟩
    have hubi₂ : w₂.ubi = w.ubi := by rw [hw₂]; exact hubi
    have hram₂ : w₂.ram = w.ram := by rw [hw₂]; exact hram
    have hleb₂ : w₂.lebSize = w.lebSize := by rw [hw₂]; exact hread.lebSize
    have herr : o₃.err = (io (.ubiPart .ursusUbiFull)).err := (hA _ ho₃).err
    have hpart : (exec (.ubiPart .ursusUbiFull) o₃ w₂).1 = partStatus io w := by
      simp only [exec, World.ubiPart, partStatus, hubi₂, hat, UbiPart.area, herr]
      by_cases hd : (io .ubiDetach).err = none
      · simp [hd, apply_ite Prod.fst]
      · by_cases ha : w.attached = some .ursusUbiFull
        · simp [hd, ha]
        · simp [hd, ha, apply_ite Prod.fst]
    rw [hpart]
    refine spec_ite (fun hne => h₂ hz hne _) fun hp => ?_
    have hp := not_not.1 hp
    have hat₃ := World.ubiPart_attached (hpart.trans hp)
    refine hk ⟨hz, hp⟩ _ ⟨⟨.ursusUbiFull, hat₃, rfl⟩, ?_, ?_⟩ ?_
    · exact congrFun ((World.ubiPart_ubi w₂ o₃ .ursusUbiFull).trans hubi₂) _
    · simp only [exec, World.ubiPart]
      split_ifs <;> simp [hleb₂]
    · simp only [exec, World.ubiPart]
      split_ifs <;> simp [hram₂]
  rw [hdetach]
  by_cases hd : (io .ubiDetach).err = none
  · rw [if_pos hd]
    exact hrest _ rfl (by rw [if_pos hd])
  · rw [if_neg hd]
    exact hrest _ rfl (by rw [if_neg hd]; exact hread.attached)

end Attach

/-! ## The probe -/

section Probe

variable {io : Cmd → Outcome} {w : World}

/-- The answer of the probe, with `m` in RAM. -/
def probeOf (io : Cmd → Outcome) (w : World) (m : Mem UInt8) : ℤ × UbiDiag :=
  if registerStatus io w ≠ 0 then (registerStatus io w, {})
  else if partStatus io w ≠ 0 then (partStatus io w, {})
  else
    let u := w.ubi .native
    let s₁ := fipCheck.leaves io u "fip" []
    let s₂ := fitCheck.leaves io u "fit" s₁
    (0, ⟨true, fipCheck.report io u w.lebSize m "fip" [], fitCheck.report io u w.lebSize m "fit" s₁,
      fitCheck.report io u w.lebSize m "fit.old" s₂⟩)

/-- **What the probe answers.** -/
theorem probeDiag_value (m : Mem UInt8) :
    Spec exec (Follows io) (fun _ => True) (fun r _ => r = probeOf io w m) probeDiag
      { w with ram := m } := by
  have hG : ∀ (c : Cmd) (o : Outcome) (w : World), Preliminary c → True := fun _ _ _ _ => trivial
  have hpart : partStatus io { w with ram := m } = partStatus io w := rfl
  refine spec_attach_follows (fun _ he => he) hG (fun hne w' => ?_) (fun hz hne w' => ?_)
    fun hat w₁ hdev hram => ?_
  · rw [registerStatus_ram] at hne ⊢
    rw [probeOf, if_pos hne]
  · rw [registerStatus_ram] at hz
    rw [hpart] at hne ⊢
    rw [probeOf, if_neg (not_not.2 hz), if_pos hne]
  have hz : registerStatus io w = 0 := by rw [← registerStatus_ram m]; exact hat.1
  have hp : partStatus io w = 0 := hat.2
  refine spec_next Cmd.ubiGetDevice fun o _ => ⟨trivial, ?_⟩
  have hsome : ((exec .ubiGetDevice o w₁).1.isNone) = false := by
    obtain ⟨p, hp, -⟩ := hdev.attached
    simp [exec, hp]
  refine spec_ite (fun hnone => ?_) fun _ => ?_
  · rw [hsome] at hnone
    cases hnone
  have hram₁ : (exec .ubiGetDevice o w₁).2.ram = m.blit ubiReadbackAddr [] := by
    rw [Mem.blit_nil]
    exact hram
  have hdev₁ := hdev.reads (c := .ubiGetDevice) trivial o
  refine (fillVolumeDiag_value fipCheck "fip" hG hdev₁ hram₁).bind fun d w₂ h₂ => ?_
  obtain ⟨rfl, hdev₂, hram₂⟩ := h₂
  refine (fillVolumeDiag_value fitCheck "fit" hG hdev₂ hram₂).bind fun d w₃ h₃ => ?_
  obtain ⟨rfl, hdev₃, hram₃⟩ := h₃
  refine (fillVolumeDiag_value fitCheck "fit.old" hG hdev₃ hram₃).bind fun d w₄ h₄ => ?_
  obtain ⟨rfl, -, -⟩ := h₄
  show _ = _
  rw [probeOf, if_neg (not_not.2 hz), if_neg (not_not.2 hp)]

/-- A check of a volume the probe opens has been settled by what it reads. -/
def Check.Clear (k : Check) (io : Cmd → Outcome) (u : UbiImage) (n : String) (seen : List UInt8) :
    Prop :=
  ∀ x, opened io u n = some x → (k.fetch io n x.2).1 = true →
    Mem.Settled k.judge k.bytes (k.leaves io u n seen)

theorem verdict_const_iff (k : Check) (seen : List UInt8) :
    (∀ m m', k.verdict m seen = k.verdict m' seen) ↔ Mem.Settled k.judge k.bytes seen :=
  (Mem.settled_iff ubiReadbackAddr).symm

theorem report_const_iff (k : Check) (u : UbiImage) (leb : ℕ) (n : String) (seen : List UInt8) :
    (∀ m m', k.report io u leb m n seen = k.report io u leb m' n seen) ↔ k.Clear io u n seen := by
  cases hopen : opened io u n with
  | none => simp [Check.report, Check.Clear, hopen]
  | some x =>
    simp only [Check.report, Check.Clear, hopen, VolumeDiag.mk.injEq, true_and, Option.some.injEq,
      forall_eq']
    cases (k.fetch io n x.2).1 with
    | false => simp
    | true =>
      simp only [Bool.true_and, forall_const]
      exact verdict_const_iff k _

structure ProbeClear (io : Cmd → Outcome) (u : UbiImage) : Prop where
  fip : fipCheck.Clear io u "fip" []
  fit : fitCheck.Clear io u "fit" (fipCheck.leaves io u "fip" [])
  fitOld : fitCheck.Clear io u "fit.old"
    (fitCheck.leaves io u "fit" (fipCheck.leaves io u "fip" []))

theorem probeOf_const_iff :
    (∀ m m', probeOf io w m = probeOf io w m') ↔
      (Attaches io w → ProbeClear io (w.ubi .native)) := by
  by_cases hz : registerStatus io w = 0
  · by_cases hp : partStatus io w = 0
    · have hat : Attaches io w := ⟨hz, hp⟩
      simp only [probeOf, hz, hp, ne_eq, not_true_eq_false, if_false, Prod.mk.injEq, true_and,
        UbiDiag.mk.injEq, forall_and]
      rw [report_const_iff, report_const_iff, report_const_iff]
      exact ⟨fun h _ => ⟨h.1, h.2.1, h.2.2⟩, fun h => ⟨(h hat).fip, (h hat).fit, (h hat).fitOld⟩⟩
    · simp [probeOf, Attaches, hz, hp]
  · simp [probeOf, Attaches, hz]

end Probe

/-! ## The boot -/

/-- The volume a check of `ursus_ubi_boot` finds under a name. -/
def checked (io : Cmd → Outcome) (u : UbiImage) (n : String) : Option (Fin vtblSlots × Volume) :=
  if (io (.ubiCheck n)).err = none then u.vols.lookup n else none

def selected (io : Cmd → Outcome) (u : UbiImage) : Option (String × Volume) :=
  match checked io u "fit" with
  | some x => some ("fit", x.2)
  | none => (checked io u "fit.old").map fun x => ("fit.old", x.2)

def loadFetch (io : Cmd → Outcome) (n : String) (v : Volume) : Bool × List UInt8 :=
  v.fetch (io (.ubiReadWhole ubiBootAddr n)) 0

def headerCheck (buf : List UInt8) : Bool := decide (fdtCheckHeader buf = 0)

/-- How the boot of a volume ends, with `filesize` in the environment and `m` in RAM. -/
def volumeReason (io : Cmd → Outcome) (n : String) (v : Volume) (filesize : ℕ) (m : Mem UInt8) :
    BootReason :=
  let len := if v.data = [] then filesize else v.data.length
  if (loadFetch io n v).1 = false then .fitReadFailed
  else if len = 0 ∨ ubiBootMax < len then .fitSizeInvalid
  else if headerCheck ((m.blit ubiBootAddr (loadFetch io n v).2).slice ubiBootAddr 40) = false then
    .fitHeaderInvalid
  else if (io (.bootm ubiBootAddr)).err = none then .bootInProgress
  else .bootmReturned

def bootOf (io : Cmd → Outcome) (w : World) (filesize : ℕ) (m : Mem UInt8) : BootReason :=
  if registerStatus io w ≠ 0 then .mtdRegisterFailed
  else if partStatus io w ≠ 0 then .ubiAttachFailed
  else
    match checked io (w.ubi .native) "fip" with
    | none => .fipInvalid
    | some x =>
      let f := fipCheck.fetch io "fip" x.2
      if (f.1 && fipCheck.verdict m f.2) = true then
        match selected io (w.ubi .native) with
        | none => .fitMissing
        | some s => volumeReason io s.1 s.2 filesize (m.blit ubiReadbackAddr f.2)
      else .fipInvalid

/-- The event has loaded `len` bytes to be booted. -/
def Reported (e : FlashEvent) (len : ℕ) : Prop :=
  ∃ n o w, e = ⟨.ubiReadWhole ubiBootAddr n, o, w⟩ ∧
    (exec (.ubiReadWhole ubiBootAddr n) o w).1 = (0, len)

/-- What is loaded and started is `bs`. -/
structure Handed (bs : List UInt8) (e : FlashEvent) : Prop where
  length : ∀ len, Reported e len → len = bs.length
  bytes : e.cmd = .bootm ubiBootAddr → e.before.ram.slice ubiBootAddr bs.length = bs

theorem handed_of_preliminary {bs : List UInt8} {c : Cmd} (hc : Preliminary c) (o : Outcome)
    (w : World) : Handed bs ⟨c, o, w⟩ := by
  constructor
  · rintro len ⟨n, o', w', he, -⟩
    cases he
    exact absurd rfl (hc.1 _ _)
  · exact fun h => absurd h (hc.2 _)

section Boot

variable {io : Cmd → Outcome} {A : FlashEvent → Prop} {P : ℕ → Prop} {u : UbiImage} {leb : ℕ}
  {w : World} {n : String}

theorem refill_nil (bs : List UInt8) : refill bs [] = bs := by simp [refill]

theorem ubiCheck_value {o : Outcome} (h : DeviceIs u leb w) (ho : o.err = (io (.ubiCheck n)).err) :
    (exec (.ubiCheck n) o w).1 = 0 ↔ (checked io u n).isSome = true := by
  unfold checked
  by_cases herr : (io (.ubiCheck n)).err = none
  · rw [if_pos herr]
    exact ubiCheck_device h (ho.trans herr)
  · rw [if_neg herr]
    obtain ⟨p, hp, -⟩ := h.attached
    obtain ⟨e, he⟩ := Option.ne_none_iff_exists'.1 herr
    simp [exec, World.shellUbi, hp, ho, he]

theorem lookup_of_checked (h : checked io u n = some x) :
    u.vols.lookup n = some x := by
  unfold checked at h
  split_ifs at h
  exact h

theorem fetch_loadFetch (v : Volume) (h : (loadFetch io n v).1 = true) :
    (loadFetch io n v).2 = v.data := by
  unfold loadFetch Volume.fetch at h ⊢
  by_cases hm : v.updMarker = true
  · simp [hm] at h
  · by_cases hd : v.data = []
    · simp [hm, hd]
    · by_cases he : (io (.ubiReadWhole ubiBootAddr n)).err = none
      · simp [hm, hd, he]
      · simp [hm, hd, he] at h

/-- **How the boot of a volume ends.** -/
theorem bootVolume_value (hA : ∀ e, A e → Follows io e) (hP : ∀ e, A e → P e.out.filesize)
    (h : DeviceIs u leb w) (hx : u.vols.lookup n = some x) :
    Spec exec A (fun e => x.2.data ≠ [] → Handed x.2.data e)
      (fun r _ => ∃ fs, P fs ∧ r.reason = volumeReason io n x.2 fs w.ram) (bootVolume n) w := by
  refine spec_next (Cmd.ubiReadWhole ubiBootAddr n) fun o ho => ?_
  obtain ⟨hret, hread, hdev⟩ := ubiRead_fetch (o := o) ubiBootAddr 0 h hx
  rw [x.2.fetch_congr 0 (hA _ ho).err (hA _ ho).junk] at hret hread
  change (_ ↔ (loadFetch io n x.2).1 = true) at hret
  change _ = w.ram.blit ubiBootAddr (loadFetch io n x.2).2 at hread
  have hbytes : ((w.device.bind fun u => u.vols.lookup n).map fun x => x.2.data.length).getD 0 =
      x.2.data.length := by
    rw [h.device, Option.bind_some, hx]
    rfl
  have hexec : exec (.ubiReadWhole ubiBootAddr n) o w =
      (((w.ubiRead o ubiBootAddr n 0).1,
        if (w.ubiRead o ubiBootAddr n 0).1 = 0 ∧ x.2.data.length ≠ 0 then x.2.data.length
        else o.filesize), (w.ubiRead o ubiBootAddr n 0).2) := by
    simp only [exec, World.ubiReadWhole, hbytes]
  refine ⟨fun hne => ⟨?_, by rintro ⟨⟩⟩, ?_⟩
  · rintro len ⟨n', o', w', he, hres⟩
    cases he
    rw [hexec] at hres
    have hlen : x.2.data.length ≠ 0 := fun hz => hne (List.eq_nil_of_length_eq_zero hz)
    simp only [Prod.mk.injEq] at hres
    rw [if_pos ⟨hres.1, hlen⟩] at hres
    exact hres.2.symm
  rw [hexec]
  generalize w.ubiRead o ubiBootAddr n 0 = r at hret hread hdev
  obtain ⟨ret, w₁⟩ := r
  refine spec_ite (fun hne => ⟨_, hP _ ho, ?_⟩) fun hz => ?_
  · have hno : (loadFetch io n x.2).1 = false := by
      rw [← Bool.not_eq_true]
      exact fun hyes => hne (hret.2 hyes)
    simp [volumeReason, hno, bootFailed]
  have hz : ret = 0 := not_not.1 hz
  have hyes := hret.1 hz
  have hlen : (if ret = 0 ∧ x.2.data.length ≠ 0 then x.2.data.length else o.filesize) =
      if x.2.data = [] then o.filesize else x.2.data.length := by
    by_cases hd : x.2.data = []
    · simp [hd]
    · have hd' : x.2.data.length ≠ 0 := fun hz => hd (List.eq_nil_of_length_eq_zero hz)
      rw [if_pos ⟨hz, hd'⟩, if_neg hd]
  simp only [hlen]
  refine spec_ite (fun hsize => ⟨_, hP _ ho, ?_⟩) fun hsize => ?_
  · simp only [volumeReason, hyes, Bool.true_eq_false, if_false]
    exact (if_pos hsize).symm
  refine spec_next (Cmd.readMem ubiBootAddr 40) fun o₂ _ =>
    ⟨fun _ => handed_of_preliminary (preliminary_readMem _ _) _ _, ?_⟩
  have hbuf : (exec (.readMem ubiBootAddr 40) o₂ w₁).1 =
      (w.ram.blit ubiBootAddr (loadFetch io n x.2).2).slice ubiBootAddr 40 := by
    rw [← hread]
    rfl
  have hworld : (exec (.readMem ubiBootAddr 40) o₂ w₁).2 = w₁ := rfl
  rw [hbuf, hworld]
  refine spec_ite (fun hbad => ⟨_, hP _ ho, ?_⟩) fun hgood => ?_
  · have hno : headerCheck ((w.ram.blit ubiBootAddr (loadFetch io n x.2).2).slice ubiBootAddr 40) =
        false := decide_eq_false hbad
    simp only [volumeReason, hyes, Bool.true_eq_false, if_false, hno, if_true]
    exact (if_neg hsize).symm
  have hok : headerCheck ((w.ram.blit ubiBootAddr (loadFetch io n x.2).2).slice ubiBootAddr 40) =
      true := decide_eq_true (not_not.1 hgood)
  refine spec_next (Cmd.bootm ubiBootAddr) fun o₃ ho₃ => ⟨fun _ => ?_, ?_⟩
  · refine ⟨?_, fun _ => ?_⟩
    · rintro len ⟨n', o', w', he, -⟩
      cases he
    · show w₁.ram.slice ubiBootAddr x.2.data.length = x.2.data
      have hram₁ : w₁.ram = w.ram.blit ubiBootAddr (loadFetch io n x.2).2 := hread
      rw [hram₁, fetch_loadFetch x.2 hyes]
      exact Mem.slice_blit _ _ _
  have hboot : (exec (.bootm ubiBootAddr) o₃ w₁).1 =
      if (io (.bootm ubiBootAddr)).err = none then none else some 1 := by
    have herr : o₃.err = (io (.bootm ubiBootAddr)).err := (hA _ ho₃).err
    simp [exec, herr]
  rw [hboot]
  by_cases hb : (io (.bootm ubiBootAddr)).err = none
  · rw [if_pos hb]
    refine ⟨_, hP _ ho, ?_⟩
    simp only [volumeReason, hyes, hok, Bool.true_eq_false, if_false, hb, if_true]
    exact (if_neg hsize).symm
  · rw [if_neg hb]
    refine ⟨_, hP _ ho, ?_⟩
    simp only [volumeReason, hyes, hok, Bool.true_eq_false, if_false, hb]
    exact (if_neg hsize).symm

/-- **How the boot ends.** -/
theorem ubiBoot_value (fs₀ : ℕ) (m : Mem UInt8) (hA : ∀ e, A e → Follows io e)
    (hP : ∀ e, A e → P e.out.filesize) (hfs : P fs₀) :
    Spec exec A (fun e => ∀ s, selected io (w.ubi .native) = some s → s.2.data ≠ [] →
        Handed s.2.data e)
      (fun r _ => ∃ fs, P fs ∧ r.reason = bootOf io w fs m) ubiBoot { w with ram := m } := by
  have hG : ∀ (c : Cmd) (o : Outcome) (w' : World), Preliminary c →
      ∀ s, selected io (w.ubi .native) = some s → s.2.data ≠ [] → Handed s.2.data ⟨c, o, w'⟩ :=
    fun c o w' hc _ _ _ => handed_of_preliminary hc o w'
  have hpart : partStatus io { w with ram := m } = partStatus io w := rfl
  refine spec_attach_follows hA hG (fun hne w' => ?_) (fun hz hne w' => ?_)
    fun hat w₁ hdev hram => ?_
  · rw [registerStatus_ram] at hne ⊢
    exact ⟨fs₀, hfs, by rw [bootOf, if_pos hne]; rfl⟩
  · rw [registerStatus_ram] at hz
    rw [hpart] at hne ⊢
    exact ⟨fs₀, hfs, by rw [bootOf, if_neg (not_not.2 hz), if_pos hne]; rfl⟩
  have hz : registerStatus io w = 0 := by rw [← registerStatus_ram m]; exact hat.1
  have hp : partStatus io w = 0 := hat.2
  have hof : ∀ fs, bootOf io w fs m = match checked io (w.ubi .native) "fip" with
      | none => .fipInvalid
      | some x =>
        if ((fipCheck.fetch io "fip" x.2).1 &&
            fipCheck.verdict m (fipCheck.fetch io "fip" x.2).2) = true then
          match selected io (w.ubi .native) with
          | none => .fitMissing
          | some s => volumeReason io s.1 s.2 fs
              (m.blit ubiReadbackAddr (fipCheck.fetch io "fip" x.2).2)
        else .fipInvalid := by
    intro fs
    rw [bootOf, if_neg (not_not.2 hz), if_neg (not_not.2 hp)]
  change DeviceIs (w.ubi .native) w.lebSize w₁ at hdev
  change w₁.ram = m at hram
  simp only [hof]
  generalize w.ubi .native = u at *
  refine spec_next (Cmd.ubiCheck "fip") fun o ho =>
    ⟨hG _ _ _ (preliminary_ubiCheck _), ?_⟩
  have hcheck := ubiCheck_value (n := "fip") hdev (hA _ ho).err
  have hdev₁ := hdev.reads (c := .ubiCheck "fip") trivial o
  have hram₁ : (exec (.ubiCheck "fip") o w₁).2.ram = m.blit ubiReadbackAddr [] := by
    rw [Mem.blit_nil, ← hram]
    exact exec_query_ram (c := .ubiCheck _) trivial _ _
  refine spec_ite (fun hne => ⟨fs₀, hfs, ?_⟩) fun hyes => ?_
  · cases hc : checked io u "fip" with
    | none => rfl
    | some x => exact absurd (hcheck.2 (by rw [hc]; rfl)) hne
  obtain ⟨x, hx⟩ := Option.isSome_iff_exists.1 (hcheck.1 (not_not.1 hyes))
  simp only [hx]
  refine ((validate_value fipCheck hG hdev₁ hram₁ (lookup_of_checked hx)).weaken hA
    fun _ _ h => h).bind fun b w₂ hb => ?_
  obtain ⟨hdev₂, hram₂, rfl⟩ := hb
  rw [refill_nil] at hram₂ ⊢
  refine spec_ite (fun hbad => ⟨fs₀, hfs, ?_⟩) fun hgood => ?_
  · rw [Bool.not_eq_true'] at hbad
    exact (if_neg (Bool.not_eq_true _ ▸ hbad)).symm
  have hgood : ((fipCheck.fetch io "fip" x.2).1 &&
      fipCheck.verdict m (fipCheck.fetch io "fip" x.2).2) = true := by simpa using hgood
  simp only [hgood, if_true]
  -- the volume that is there is loaded
  refine spec_next (Cmd.ubiCheck "fit") fun o₃ ho₃ =>
    ⟨hG _ _ _ (preliminary_ubiCheck _), ?_⟩
  have hcheck₃ := ubiCheck_value (n := "fit") hdev₂ (hA _ ho₃).err
  have hdev₃ := hdev₂.reads (c := .ubiCheck "fit") trivial o₃
  have hram₃ : (exec (.ubiCheck "fit") o₃ w₂).2.ram =
      m.blit ubiReadbackAddr (fipCheck.fetch io "fip" x.2).2 := by
    rw [← hram₂]
    exact exec_query_ram (c := .ubiCheck _) trivial _ _
  refine spec_ite (fun hfit => ?_) fun hfit => ?_
  · obtain ⟨y, hy⟩ := Option.isSome_iff_exists.1 (hcheck₃.1 hfit)
    have hsel : selected io u = some ("fit", y.2) := by rw [selected, hy]
    rw [hsel, ← hram₃]
    refine (bootVolume_value hA hP hdev₃ (lookup_of_checked hy)).weaken (fun _ he => he) ?_
    rintro e - he s hs
    cases hs
    exact he
  · have hnone : checked io u "fit" = none := by
      cases hc : checked io u "fit" with
      | none => rfl
      | some y => exact absurd (hcheck₃.2 (by rw [hc]; rfl)) hfit
    refine spec_next (Cmd.ubiCheck "fit.old") fun o₄ ho₄ =>
      ⟨hG _ _ _ (preliminary_ubiCheck _), ?_⟩
    have hcheck₄ := ubiCheck_value (n := "fit.old") hdev₃ (hA _ ho₄).err
    have hdev₄ := hdev₃.reads (c := .ubiCheck "fit.old") trivial o₄
    have hram₄ : (exec (.ubiCheck "fit.old") o₄ (exec (.ubiCheck "fit") o₃ w₂).2).2.ram =
        m.blit ubiReadbackAddr (fipCheck.fetch io "fip" x.2).2 := by
      rw [← hram₃]
      exact exec_query_ram (c := .ubiCheck _) trivial _ _
    refine spec_ite (fun hold => ?_) fun hold => ⟨fs₀, hfs, ?_⟩
    · obtain ⟨y, hy⟩ := Option.isSome_iff_exists.1 (hcheck₄.1 hold)
      have hsel : selected io u = some ("fit.old", y.2) := by rw [selected, hnone, hy]; rfl
      rw [hsel, ← hram₄]
      refine (bootVolume_value hA hP hdev₄ (lookup_of_checked hy)).weaken (fun _ he => he) ?_
      rintro e - he s hs
      cases hs
      exact he
    · have hnone' : checked io u "fit.old" = none := by
        cases hc : checked io u "fit.old" with
        | none => rfl
        | some y => exact absurd (hcheck₄.2 (by rw [hc]; rfl)) hold
      have hsel : selected io u = none := by rw [selected, hnone, hnone']; rfl
      rw [hsel]
      rfl

/-- The checks of the boot have been settled by what it reads. The header is checked in a volume
that was loaded and is not too large, when the FIP has passed. -/
structure BootClear (io : Cmd → Outcome) (u : UbiImage) : Prop where
  fip : ∀ x, checked io u "fip" = some x → (fipCheck.fetch io "fip" x.2).1 = true →
    Mem.Settled fipCheck.judge fipCheck.bytes (fipCheck.fetch io "fip" x.2).2
  fit : ∀ x, checked io u "fip" = some x → (fipCheck.fetch io "fip" x.2).1 = true →
    (∀ m, fipCheck.verdict m (fipCheck.fetch io "fip" x.2).2 = true) →
    ∀ s, selected io u = some s → (loadFetch io s.1 s.2).1 = true → s.2.data.length ≤ ubiBootMax →
      Mem.Settled headerCheck 40 (loadFetch io s.1 s.2).2

theorem bootOf_eq (hat : Attaches io w) (hx : checked io (w.ubi .native) "fip" = some x)
    (hf : (fipCheck.fetch io "fip" x.2).1 = true) (fs : ℕ) (m : Mem UInt8) :
    bootOf io w fs m = if fipCheck.verdict m (fipCheck.fetch io "fip" x.2).2 = true then
      match selected io (w.ubi .native) with
      | none => .fitMissing
      | some s =>
        volumeReason io s.1 s.2 fs (m.blit ubiReadbackAddr (fipCheck.fetch io "fip" x.2).2)
      else .fipInvalid := by
  rw [bootOf, if_neg (not_not.2 hat.1), if_neg (not_not.2 hat.2), hx]
  simp only [hf, Bool.true_and]

theorem volumeReason_ne_fipInvalid (v : Volume) (fs : ℕ) (m : Mem UInt8) :
    volumeReason io n v fs m ≠ .fipInvalid := by
  unfold volumeReason
  dsimp only
  split_ifs <;> decide

theorem bootOf_eq_fipInvalid_iff (hat : Attaches io w)
    (hx : checked io (w.ubi .native) "fip" = some x) (hf : (fipCheck.fetch io "fip" x.2).1 = true)
    (fs : ℕ) (m : Mem UInt8) :
    bootOf io w fs m = .fipInvalid ↔
      fipCheck.verdict m (fipCheck.fetch io "fip" x.2).2 = false := by
  rw [bootOf_eq hat hx hf]
  cases fipCheck.verdict m (fipCheck.fetch io "fip" x.2).2 with
  | false => simp
  | true =>
    simp only [if_true, Bool.true_eq_false, iff_false]
    cases selected io (w.ubi .native) with
    | none => simp
    | some s => exact volumeReason_ne_fipInvalid s.2 fs _

theorem volumeReason_eq (v : Volume) {fs : ℕ} (m : Mem UInt8) (hf : (loadFetch io n v).1 = true)
    (hsize : v.data.length ≤ ubiBootMax) (hfs : v.data = [] → fs ≠ 0 ∧ fs ≤ ubiBootMax) :
    volumeReason io n v fs m =
      if headerCheck ((m.blit ubiBootAddr (loadFetch io n v).2).slice ubiBootAddr 40) = false then
        .fitHeaderInvalid
      else if (io (.bootm ubiBootAddr)).err = none then .bootInProgress else .bootmReturned := by
  have hlen : ¬ ((if v.data = [] then fs else v.data.length) = 0 ∨
      ubiBootMax < if v.data = [] then fs else v.data.length) := by
    by_cases hd : v.data = []
    · rw [if_pos hd]
      have := hfs hd
      omega
    · have hd' : v.data.length ≠ 0 := fun hz => hd (List.eq_nil_of_length_eq_zero hz)
      rw [if_neg hd]
      omega
  simp only [volumeReason, hf, Bool.true_eq_false, if_false]
  exact if_neg hlen

theorem slice_load (m : Mem UInt8) (seen bs : List UInt8) :
    ((m.blit ubiReadbackAddr seen).blit ubiBootAddr bs).slice ubiBootAddr 40 =
      (m.blit ubiBootAddr bs).slice ubiBootAddr 40 := by
  refine Mem.slice_congr fun y hy hlt => ?_
  have hout : m.blit ubiReadbackAddr seen y = m y :=
    Mem.blit_apply_of_lt m seen (by
      have h₁ : ubiBootAddr = 0x90000000 := rfl
      have h₂ : ubiReadbackAddr = 0x94000000 := rfl
      omega)
  simp only [Mem.blit, if_pos hy] at hout ⊢
  rw [hout]

theorem bootClear_of_const (hat : Attaches io w)
    (h : ∀ m m', bootOf io w fipTocRead m = bootOf io w fipTocRead m') :
    BootClear io (w.ubi .native) := by
  constructor
  · intro x hx hf
    refine (verdict_const_iff fipCheck _).1 fun m m' => ?_
    have hm := bootOf_eq_fipInvalid_iff hat hx hf fipTocRead m
    rw [h m m', bootOf_eq_fipInvalid_iff hat hx hf fipTocRead m'] at hm
    rw [Bool.eq_iff_iff, ← not_iff_not, Bool.not_eq_true, Bool.not_eq_true]
    exact hm.symm
  · intro x hx hf hpass s hs hload hsize
    have hof : ∀ m, bootOf io w fipTocRead m = .fitHeaderInvalid ↔
        headerCheck ((m.blit ubiBootAddr (loadFetch io s.1 s.2).2).slice ubiBootAddr 40) =
          false := by
      intro m
      rw [bootOf_eq hat hx hf, if_pos (hpass m), hs]
      simp only
      rw [volumeReason_eq s.2 _ hload hsize fun _ => ⟨by decide, by decide⟩, slice_load]
      split_ifs <;> simp_all
    refine (Mem.settled_iff ubiBootAddr).2 fun m m' => ?_
    rw [Bool.eq_iff_iff, ← not_iff_not, Bool.not_eq_true, Bool.not_eq_true, ← hof m, ← hof m',
      h m m']

theorem not_settled_nil : ¬ Mem.Settled headerCheck 40 [] := by
  intro h
  have heq := h sampleHeader (List.replicate 40 0) (by decide) (by decide)
  revert heq
  decide

theorem BootClear.const (h : Attaches io w → BootClear io (w.ubi .native)) (fs fs' : ℕ)
    (m m' : Mem UInt8) : bootOf io w fs m = bootOf io w fs' m' := by
  by_cases hz : registerStatus io w = 0
  swap
  · rw [bootOf, bootOf, if_pos hz, if_pos hz]
  by_cases hp : partStatus io w = 0
  swap
  · rw [bootOf, bootOf, if_neg (not_not.2 hz), if_neg (not_not.2 hz), if_pos hp, if_pos hp]
  have hat : Attaches io w := ⟨hz, hp⟩
  have hclear := h hat
  cases hx : checked io (w.ubi .native) "fip" with
  | none => simp [bootOf, hz, hp, hx]
  | some x =>
    by_cases hf : (fipCheck.fetch io "fip" x.2).1 = true
    swap
    · rw [Bool.not_eq_true] at hf
      simp [bootOf, hz, hp, hx, hf]
    have hverdict := (verdict_const_iff fipCheck _).2 (hclear.fip x hx hf)
    rw [bootOf_eq hat hx hf, bootOf_eq hat hx hf, hverdict m m']
    by_cases hv : fipCheck.verdict m' (fipCheck.fetch io "fip" x.2).2 = true
    swap
    · rw [if_neg hv, if_neg hv]
    rw [if_pos hv, if_pos hv]
    cases hs : selected io (w.ubi .native) with
    | none => rfl
    | some s =>
      simp only
      by_cases hload : (loadFetch io s.1 s.2).1 = true
      swap
      · rw [Bool.not_eq_true] at hload
        simp [volumeReason, hload]
      by_cases hsize : s.2.data.length ≤ ubiBootMax
      swap
      · have hne : s.2.data ≠ [] := fun hnil => hsize (by simp [hnil])
        simp [volumeReason, hload, hne, Nat.lt_of_not_le hsize]
      have hsettled := hclear.fit x hx hf (fun m => (hverdict m m').trans hv) s hs hload hsize
      have hne : s.2.data ≠ [] := by
        intro hnil
        rw [fetch_loadFetch s.2 hload, hnil] at hsettled
        exact not_settled_nil hsettled
      rw [volumeReason_eq s.2 _ hload hsize fun hnil => absurd hnil hne,
        volumeReason_eq s.2 _ hload hsize fun hnil => absurd hnil hne,
        (Mem.settled_iff ubiBootAddr).1 hsettled (m.blit _ _) (m'.blit _ _)]

theorem selected_of_reached {fs : ℕ} {m : Mem UInt8}
    (h : Attaches io w → BootClear io (w.ubi .native))
    (hr : bootOf io w fs m = .bootInProgress ∨ bootOf io w fs m = .bootmReturned) :
    ∃ s, selected io (w.ubi .native) = some s ∧ s.2.data ≠ [] := by
  by_cases hz : registerStatus io w = 0
  swap
  · simp [bootOf, hz] at hr
  by_cases hp : partStatus io w = 0
  swap
  · simp [bootOf, hz, hp] at hr
  have hat : Attaches io w := ⟨hz, hp⟩
  cases hx : checked io (w.ubi .native) "fip" with
  | none => simp [bootOf, hz, hp, hx] at hr
  | some x =>
    by_cases hf : (fipCheck.fetch io "fip" x.2).1 = true
    swap
    · rw [Bool.not_eq_true] at hf
      simp [bootOf, hz, hp, hx, hf] at hr
    rw [bootOf_eq hat hx hf] at hr
    by_cases hv : fipCheck.verdict m (fipCheck.fetch io "fip" x.2).2 = true
    swap
    · simp [hv] at hr
    rw [if_pos hv] at hr
    cases hs : selected io (w.ubi .native) with
    | none => simp [hs] at hr
    | some s =>
      refine ⟨s, rfl, fun hnil => ?_⟩
      simp only [hs] at hr
      have hload : (loadFetch io s.1 s.2).1 = true := by
        by_contra hno
        rw [Bool.not_eq_true] at hno
        simp [volumeReason, hno] at hr
      have hverdict := (verdict_const_iff fipCheck _).2 ((h hat).fip x hx hf)
      have hsettled := (h hat).fit x hx hf (fun m' => (hverdict m' m).trans hv) s hs hload
        (by simp [hnil])
      rw [fetch_loadFetch s.2 hload, hnil] at hsettled
      exact not_settled_nil hsettled

end Boot

/-! ## Two runs -/

/-- A run hands `bs` to `bootm`: the bytes it has loaded, as many as the read reported. -/
def Hands (tr : List FlashEvent) (bs : List UInt8) : Prop :=
  ∃ len, (∃ e ∈ tr, Reported e len) ∧
    ∃ e ∈ tr, e.cmd = .bootm ubiBootAddr ∧ e.before.ram.slice ubiBootAddr len = bs

/-- Two boots decide the same: they give the same reason and hand over the same bytes. -/
structure SameDecision (r r' : Prog.Result Cmd Outcome World BootResult) : Prop where
  reason : r.val.reason = r'.val.reason
  loaded : ∀ bs, Hands r.trace bs ↔ Hands r'.trace bs

section Runs

variable {io : Cmd → Outcome} {w : World}

theorem ubiBoot_reports :
    Yields exec (fun e => ∀ len, ¬ Reported e len) (fun r => ¬ r.reached) ubiBoot := by
  have hvolume (n : String) :
      Yields exec (fun e => ∀ len, ¬ Reported e len) (fun r => ¬ r.reached) (bootVolume n) := by
    refine yields_bind (P := fun r => r.1 ≠ 0)
      (yields_perform (c := Cmd.ubiReadWhole ubiBootAddr n) fun o w hA hz => ?_) fun r hr => ?_
    · exact hA _ ⟨n, o, w, rfl, Prod.ext hz rfl⟩
    · obtain ⟨ret, len⟩ := r
      exact yields_exit (not_reached_bootFailed (by decide) (by decide))
        fun hz => absurd hr hz
  have hfailed {reason : BootReason} (ret : ℤ) (h₁ : reason ≠ .bootInProgress)
      (h₂ : reason ≠ .bootmReturned) :
      Yields exec (fun e => ∀ len, ¬ Reported e len) (fun r => ¬ r.reached)
        (Prog.ret (bootFailed ret reason) : FlashProg BootResult) :=
    yields_ret (not_reached_bootFailed h₁ h₂)
  refine yields_then fun _ =>
    yields_ite (fun _ => hfailed _ (by decide) (by decide)) fun _ => ?_
  refine yields_then fun _ => yields_then fun _ =>
    yields_ite (fun _ => hfailed _ (by decide) (by decide)) fun _ => ?_
  refine yields_then fun _ =>
    yields_ite (fun _ => hfailed _ (by decide) (by decide)) fun _ => ?_
  refine yields_then fun _ =>
    yields_ite (fun _ => hfailed _ (by decide) (by decide)) fun _ => ?_
  refine yields_then fun _ => yields_ite (fun _ => hvolume "fit") fun _ => ?_
  exact yields_then fun _ => yields_ite (fun _ => hvolume "fit.old") fun _ =>
    hfailed _ (by decide) (by decide)

theorem hands_iff {outs : ℕ → Outcome} (bs : List UInt8)
    {r : Prog.Result Cmd Outcome World BootResult} (hrun : run exec ubiBoot outs w = r)
    (hbs : r.val.reached → ∀ e ∈ r.trace, Handed bs e)
    (cs : List UInt8) : Hands r.trace cs ↔ r.val.reached ∧ cs = bs := by
  subst hrun
  constructor
  · rintro ⟨len, ⟨e, he, hlen⟩, e', he', hcmd, rfl⟩
    have hreached := (reached_iff outs w).2 ⟨e', he', hcmd⟩
    refine ⟨hreached, ?_⟩
    rw [(hbs hreached e he).length len hlen]
    exact (hbs hreached e' he').bytes hcmd
  · rintro ⟨hreached, rfl⟩
    obtain ⟨e', he', hcmd⟩ := (reached_iff outs w).1 hreached
    have hrep : ∃ e ∈ (run exec ubiBoot outs w).trace, ∃ len, Reported e len := by
      by_contra hno
      exact ubiBoot_reports.run_of outs w (fun e he len hlen => hno ⟨e, he, len, hlen⟩) hreached
    obtain ⟨e, he, len, hlen⟩ := hrep
    refine ⟨len, ⟨e, he, hlen⟩, e', he', hcmd, ?_⟩
    rw [(hbs hreached e he).length len hlen]
    exact (hbs hreached e' he').bytes hcmd

/-- Answers that follow `io`, with `filesize` as the read of the FIP leaves it. -/
def answers (io : Cmd → Outcome) (c : Cmd) : Outcome := { io c with filesize := fipTocRead }

theorem follows_of_answers {e : FlashEvent} (h : e.out = answers io e.cmd) : Follows io e :=
  ⟨by rw [h]; rfl, by rw [h]; rfl⟩

theorem exists_run_follows {α : Type} (io : Cmd → Outcome) (p : FlashProg α) (w : World) :
    ∃ outs, (∀ e ∈ (run exec p outs w).trace, e.out = answers io e.cmd) ∧
      ∀ e ∈ (run exec p outs w).trace, Follows io e := by
  obtain ⟨outs, houts⟩ := exists_run_of_pick exec (answers io) p w
  exact ⟨outs, houts, fun e he => follows_of_answers (houts e he)⟩

theorem sameDecision_of_clear (h : Attaches io w → BootClear io (w.ubi .native)) {m m' : Mem UInt8}
    {outs outs' : ℕ → Outcome}
    (hf : ∀ e ∈ (run exec ubiBoot outs { w with ram := m }).trace, Follows io e)
    (hf' : ∀ e ∈ (run exec ubiBoot outs' { w with ram := m' }).trace, Follows io e) :
    SameDecision (run exec ubiBoot outs { w with ram := m })
      (run exec ubiBoot outs' { w with ram := m' }) := by
  have hvalue (m : Mem UInt8) := ubiBoot_value (P := fun _ => True) (w := w) 0 m
    (fun e (he : Follows io e) => he) (fun _ _ => trivial) trivial
  obtain ⟨hG, fs, -, hr⟩ := (hvalue m).run_of outs hf
  obtain ⟨hG', fs', -, hr'⟩ := (hvalue m').run_of outs' hf'
  have hreason : (run exec ubiBoot outs { w with ram := m }).val.reason =
      (run exec ubiBoot outs' { w with ram := m' }).val.reason := by
    rw [hr, hr', BootClear.const h fs fs' m m']
  refine ⟨hreason, fun cs => ?_⟩
  by_cases hreached : (run exec ubiBoot outs { w with ram := m }).val.reached
  · have hsel : bootOf io w fs m = .bootInProgress ∨ bootOf io w fs m = .bootmReturned := by
      rw [← hr]
      exact hreached
    obtain ⟨s, hs, hne⟩ := selected_of_reached h hsel
    have hreached' : (run exec ubiBoot outs' { w with ram := m' }).val.reached := by
      unfold BootResult.reached at hreached ⊢
      rwa [← hreason]
    rw [hands_iff s.2.data rfl (fun _ e he => hG e he s hs hne) cs,
      hands_iff s.2.data rfl (fun _ e he => hG' e he s hs hne) cs]
    exact ⟨fun h => ⟨hreached', h.2⟩, fun h => ⟨hreached, h.2⟩⟩
  · have hreached' : ¬ (run exec ubiBoot outs' { w with ram := m' }).val.reached := by
      unfold BootResult.reached at hreached ⊢
      rwa [← hreason]
    rw [hands_iff [] rfl (fun h => absurd h hreached) cs,
      hands_iff [] rfl (fun h => absurd h hreached') cs]
    exact ⟨fun h => absurd h.1 hreached, fun h => absurd h.1 hreached'⟩

end Runs

theorem fip_passes (io : Cmd → Outcome) {v : Volume}
    (hio : (io (.ubiRead ubiReadbackAddr "fip" fipTocRead)).err = none) (hok : v.fipOk = true)
    (hlen : fipTocRead ≤ v.data.length) :
    (fipCheck.fetch io "fip" v).1 = true ∧
      ∀ m, fipCheck.verdict m (fipCheck.fetch io "fip" v).2 = true := by
  obtain ⟨hmark, hvalid⟩ :
      v.updMarker = false ∧ fipBufferValid (v.data.take fipTocRead) = true := by
    simpa [Volume.fipOk] using hok
  have hne : v.data ≠ [] := by
    rintro hnil
    rw [hnil] at hlen
    exact absurd hlen (by decide)
  have hfetch : fipCheck.fetch io "fip" v = (true, v.data.take fipTocRead) := by
    change v.fetch (io (.ubiRead ubiReadbackAddr "fip" fipTocRead)) fipTocRead = _
    simp only [Volume.fetch, hmark, hne, hio, Bool.false_eq_true, if_false, Nat.min_eq_left hlen]
    rfl
  rw [hfetch]
  refine ⟨rfl, fun m => ?_⟩
  have hbytes : (v.data.take fipTocRead).length = fipCheck.bytes := by
    rw [List.length_take]
    exact Nat.min_eq_left hlen
  rw [Check.verdict, Mem.slice_blit_of_length _ _ hbytes]
  exact hvalid

/-- A board whose `fit` is a static volume nothing has been written to. -/
def emptyFitTable : VolumeTable := fun k =>
  if k = 4 then some ("fip", sampleFipVolume)
  else if k = 5 then some ("fit", ⟨true, 1, [], false⟩) else none

end UrsusBoot
