import UrsusBoot.Engine.Reads
import UrsusBoot.Safety.FipFrame

/-!
# The frame of a FIP update of the stock layout

The stock stages rewrite the bootloader's span `[0, 0x80000)` as a whole: STOCK_BACKUP composes the
new contents from what NAND holds and from a copy of the candidate, STOCK_VERIFY compares NAND with
it. So the FIP area is all that has changed once the update is complete.
-/

namespace UrsusBoot

open Prog

namespace FipUpdate

/-! ## The composed image -/

theorem stock_span : stockFipOff + fipMax = stockEnvOff ∧ stockEnvOff + 0x4000 = stockBootSize := by
  decide

theorem length_stockImage {old fip : List UInt8} (hold : old.length = stockBootSize)
    (hfip : fip.length < fipMax) : (stockImage old fip).length = stockBootSize := by
  unfold stockImage
  rw [List.length_append, List.length_append, List.length_append, List.length_take,
    List.length_drop, List.length_replicate, hold]
  have hspan := stock_span
  omega

section Slices

variable {m m₀ : Mem UInt8} {fip : List UInt8}

theorem slices_of_stockImage (hfip : fip.length < fipMax)
    (h : m.slice 0 stockBootSize = stockImage (m₀.slice 0 stockBootSize) fip) :
    m.slice 0 stockFipOff = m₀.slice 0 stockFipOff ∧ m.slice stockFipOff fip.length = fip ∧
      m.slice (stockFipOff + fip.length) (fipMax - fip.length) =
        List.replicate (fipMax - fip.length) 0xff ∧
      m.slice stockEnvOff 0x4000 = m₀.slice stockEnvOff 0x4000 := by
  have hspan := stock_span
  have hsplit : ∀ m' : Mem UInt8, m'.slice 0 stockBootSize =
      m'.slice 0 stockFipOff ++ m'.slice stockFipOff fip.length ++
        m'.slice (stockFipOff + fip.length) (fipMax - fip.length) ++ m'.slice stockEnvOff 0x4000 := by
    intro m'
    have htotal : stockBootSize = stockFipOff + fip.length + (fipMax - fip.length) + 0x4000 := by
      omega
    have hend : 0 + (stockFipOff + fip.length + (fipMax - fip.length)) = stockEnvOff := by omega
    rw [htotal, Mem.slice_add, Mem.slice_add, Mem.slice_add, hend, Nat.zero_add, Nat.zero_add]
  have htake : (m₀.slice 0 stockBootSize).take stockFipOff = m₀.slice 0 stockFipOff :=
    Mem.take_slice m₀ 0 (by decide)
  have hdrop : (m₀.slice 0 stockBootSize).drop (stockFipOff + fipMax) =
      m₀.slice stockEnvOff 0x4000 := by
    have hlen : (m₀.slice 0 stockFipOff ++ m₀.slice stockFipOff fip.length ++
        m₀.slice (stockFipOff + fip.length) (fipMax - fip.length)).length = stockFipOff + fipMax := by
      rw [List.length_append, List.length_append, Mem.length_slice, Mem.length_slice,
        Mem.length_slice]
      omega
    rw [hsplit m₀, ← hlen, List.drop_left]
  rw [stockImage, htake, hdrop, hsplit m] at h
  obtain ⟨h, henv⟩ := List.append_inj' h (by rw [Mem.length_slice, Mem.length_slice])
  obtain ⟨h, hrest⟩ := List.append_inj' h (by rw [Mem.length_slice, List.length_replicate])
  obtain ⟨hhead, hcopy⟩ := List.append_inj' h (Mem.length_slice _ _ _)
  exact ⟨hhead, hcopy, hrest, henv⟩

end Slices

/-! ## The stages -/

section Stages

variable {A : FlashEvent → Prop} {P : Platform} {c : Ctx}

theorem stockBackup_finds (w : World) :
    Finds A w (fun r => r.2.stage = .stockErase → r.2.stockCandidate =
      some (stockImage (w.nand.slice 0 stockBootSize) (w.ram.slice c.addr c.len)))
      (stockBackup P c) := by
  have hinert : ∀ c : Cmd, c.Inert → c.Inert := fun _ h => h
  have hbad := finds_of_yields (A := A) (uses_badInRange hinert NandGeometry.supported.erasesize 0
    stockBootSize) (yields_true _) w
  apply hbad.then
  intro ret w₁ h₁ _
  apply spec_ite
  · exact fun _ => finds_ret (fun h => nomatch h)
  intro _
  apply finds_issue (c := .malloc stockBootSize) trivial
  intro o₁ _
  apply finds_issue (c := .malloc stockBootSize) trivial
  intro o₂ _
  apply spec_ite
  · exact fun _ => finds_ret (fun h => nomatch h)
  intro _
  apply (readExact_finds 0 stockBootSize w₁).then
  intro old w₂ h₂ hold
  apply spec_ite
  · exact fun _ => finds_ret (fun h => nomatch h)
  intro hread
  have hcur := finds_of_yields (A := A)
    (uses_fipValidateCurrent hinert P (bytesAt old.2 stockFipOff fipMax)) (yields_true _) w₂
  apply hcur.then
  intro cur w₃ h₃ _
  cases cur with
  | error e => exact finds_ret (fun h => nomatch h)
  | ok oldEnd =>
    apply spec_ite
    · exact fun _ => finds_ret (fun h => nomatch h)
    intro _
    apply finds_issue (c := .readMem c.addr c.len) trivial
    intro o₃ _
    apply finds_ret
    intro _
    have hram : w₃.ram = w.ram := (h₁.trans (h₂.trans h₃)).ram
    show some (stockImage old.2 (w₃.ram.slice c.addr c.len)) = _
    rw [hold (not_not.1 hread), hram, h₁.nand]

/-- NAND is the same beyond the bootloader's span. -/
def Beyond (w w' : World) : Prop := ∀ x, stockBootSize ≤ x → w'.nand x = w.nand x

theorem stockErase_beyond (w : World) :
    Spec exec A (fun e => Beyond w (e.after exec))
      (fun r w' => Beyond w w' ∧ r.2.stockCandidate = c.stockCandidate) (stockErase c) w := by
  apply spec_next (Cmd.nandErase 0 stockBootSize)
  intro o _
  have hkeep : Beyond w (exec (.nandErase 0 stockBootSize) o w).2 := by
    intro x hx
    exact exec_nandErase o w (.inr (by omega))
  refine ⟨hkeep, ?_⟩
  exact spec_ite (fun _ => ⟨hkeep, rfl⟩) fun _ => ⟨hkeep, rfl⟩

theorem stockWrite_beyond (w : World) (hlen : (c.stockCandidate.getD []).length ≤ stockBootSize) :
    Spec exec A (fun e => Beyond w (e.after exec))
      (fun r w' => Beyond w w' ∧ r.2.stockCandidate = c.stockCandidate) (stockWrite c) w := by
  apply spec_next (Cmd.nandWrite 0 (c.stockCandidate.getD []))
  intro o _
  have hkeep : Beyond w (exec (.nandWrite 0 (c.stockCandidate.getD [])) o w).2 := by
    intro x hx
    exact exec_nandWrite o w (.inr (by omega))
  refine ⟨hkeep, ?_⟩
  apply spec_ite
  · exact fun _ => ⟨hkeep, rfl⟩
  · exact fun _ => spec_ite (fun _ => ⟨hkeep, rfl⟩) fun _ => ⟨hkeep, rfl⟩

theorem stockVerify_finds (w : World) :
    Finds A w (fun r => r.2.stage = .complete →
      w.nand.slice 0 stockBootSize = c.stockCandidate.getD []) (stockVerify c) := by
  apply (readExact_finds 0 stockBootSize w).then
  intro readback w₁ _ hread
  apply spec_ite
  · exact fun _ => finds_ret (fun h => nomatch h)
  intro hret
  apply spec_ite
  · exact fun _ => finds_ret (fun h => nomatch h)
  intro hsame
  apply finds_ret
  intro _
  rw [not_not.1 hsame, hread (not_not.1 hret)]

end Stages

/-! ## Attempts -/

section Runs

variable (P : Platform) (s₀ : Attempt)

/-- `copy` is what RAM held at the candidate's address in the call that completed STOCK_BACKUP. -/
def Copied (is : List Call) (copy : List UInt8) : Prop :=
  ∃ is₁ i is₂, is = is₁ ++ i :: is₂ ∧
    (runFrom (Attempt.call P) s₀ is₁).ctx.stage = .stockBackup ∧
    (runFrom (Attempt.call P) s₀ (is₁ ++ [i])).ctx.stage = .stockErase ∧
    copy = i.ram.slice s₀.ctx.addr s₀.ctx.len

/-- The bootloader's span with a copy of the candidate in the FIP area. -/
def Composed (is : List Call) (image : List UInt8) : Prop :=
  s₀.ctx.len < fipMax ∧ ∃ copy, Copied P s₀ is copy ∧
    image = stockImage (s₀.world.nand.slice 0 stockBootSize) copy

/-- NAND beyond the span has been left alone so far, also after every command on record. -/
structure StockKept (s : Attempt) : Prop where
  now : Beyond s₀.world s.world
  record : ∀ e ∈ s.trace, Beyond s₀.world (e.after exec)

/-- The invariant of an attempt after the calls `is`. -/
structure Stocked (is : List Call) (s : Attempt) : Prop where
  request : SameRequest s₀.ctx s.ctx
  stock : s.ctx.stage.Stock → s.ctx.ubiLayout = false
  ubi : s.ctx.stage.Ubi → s.ctx.ubiLayout = true
  kept : s.ctx.ubiLayout = false ∨ s.ctx.stage = .precheck → StockKept s₀ s
  untouched : s.ctx.stage = .precheck ∨ s.ctx.stage = .stockBackup → s.world.nand = s₀.world.nand
  fits : s.ctx.stage = .stockBackup → s₀.ctx.len < fipMax
  prepared : s.ctx.stage = .stockErase ∨ s.ctx.stage = .stockWrite ∨ s.ctx.stage = .stockVerify →
    ∃ image, s.ctx.stockCandidate = some image ∧ Composed P s₀ is image
  installed : s.ctx.stage = .complete → s.ctx.ubiLayout = false →
    Composed P s₀ is (s.world.nand.slice 0 stockBootSize)

variable {P s₀} {is is' : List Call} {s : Attempt}

theorem Composed.mono {image : List UInt8} (h : Composed P s₀ is image) (js : List Call) :
    Composed P s₀ (is ++ js) image := by
  obtain ⟨hfits, copy, ⟨is₁, i, is₂, rfl, hcopied⟩, himage⟩ := h
  refine ⟨hfits, copy, ⟨is₁, i, is₂ ++ js, ?_, hcopied⟩, himage⟩
  rw [List.append_assoc, List.cons_append]

theorem Composed.length {image : List UInt8} (h : Composed P s₀ is image) :
    image.length = stockBootSize := by
  obtain ⟨hfits, copy, ⟨is₁, i, is₂, -, -, -, hcopy⟩, himage⟩ := h
  have hlen : copy.length < fipMax := by
    rw [hcopy, Mem.length_slice]
    exact hfits
  rw [himage]
  exact length_stockImage (Mem.length_slice _ _ _) hlen

theorem Stocked.mono (h : Stocked P s₀ is s) (js : List Call) : Stocked P s₀ (is ++ js) s where
  request := h.request
  stock := h.stock
  ubi := h.ubi
  kept := h.kept
  untouched := h.untouched
  fits := h.fits
  prepared hst := by
    obtain ⟨image, hcand, hcomposed⟩ := h.prepared hst
    exact ⟨image, hcand, hcomposed.mono js⟩
  installed hst hlayout := (h.installed hst hlayout).mono js

theorem Stocked.waited (h : Stocked P s₀ is s) {m : Mem UInt8} {es : List FlashEvent}
    (hes : ∀ e ∈ es, Tick { s.world with ram := m } e) (b : Bool) (n t : ℕ) :
    Stocked P s₀ is (s.waited m b n t es) where
  request := h.request
  stock := h.stock
  ubi := h.ubi
  kept hst := by
    have hkept := h.kept hst
    refine ⟨hkept.now, ?_⟩
    intro e he
    rcases List.mem_append.1 he with he | he
    · exact hkept.record e he
    · obtain ⟨t', ht'⟩ := (hes e he).after
      rw [ht']
      exact hkept.now
  untouched := h.untouched
  fits := h.fits
  prepared := h.prepared
  installed := h.installed

theorem Stocked.of_failed (hreq : SameRequest s₀.ctx s.ctx) (hst : s.ctx.stage = .failed)
    (hkept : s.ctx.ubiLayout = false → StockKept s₀ s) : Stocked P s₀ is s where
  request := hreq
  stock h := by simp [hst, Stage.Stock] at h
  ubi h := by simp [hst, Stage.Ubi] at h
  kept h := hkept (h.resolve_right (by simp [hst]))
  untouched h := by simp [hst] at h
  fits h := by simp [hst] at h
  prepared h := by simp [hst] at h
  installed h := by simp [hst] at h

theorem Stocked.of_native (hreq : SameRequest s₀.ctx s.ctx) (hlayout : s.ctx.ubiLayout = true)
    (hpre : s.ctx.stage ≠ .precheck) (hstock : ¬ s.ctx.stage.Stock) : Stocked P s₀ is s := by
  have hne : ∀ st : Stage, st.Stock → s.ctx.stage ≠ st := by
    rintro st hst rfl
    exact hstock hst
  have hbackup := hne .stockBackup trivial
  have herase := hne .stockErase trivial
  have hwrite := hne .stockWrite trivial
  have hverify := hne .stockVerify trivial
  exact
    { request := hreq
      stock := fun h => absurd h hstock
      ubi := fun _ => hlayout
      kept := fun h => by simp [hlayout, hpre] at h
      untouched := fun h => by simp [hpre, hbackup] at h
      fits := fun h => absurd h hbackup
      prepared := fun h => by simp [herase, hwrite, hverify] at h
      installed := fun _ h => by simp [hlayout] at h }

theorem Stocked.of_stock (hreq : SameRequest s₀.ctx s.ctx) (hst : s.ctx.stage.Stock)
    (hlayout : s.ctx.ubiLayout = false) (hkept : StockKept s₀ s)
    (hbackup : s.ctx.stage = .stockBackup → s.world.nand = s₀.world.nand ∧ s₀.ctx.len < fipMax)
    (hprepared : s.ctx.stage ≠ .stockBackup →
      ∃ image, s.ctx.stockCandidate = some image ∧ Composed P s₀ is image) : Stocked P s₀ is s where
  request := hreq
  stock _ := hlayout
  ubi hubi := by
    cases h : s.ctx.stage <;> rw [h] at hst hubi <;> first | exact hst.elim | exact hubi.elim
  kept _ := hkept
  untouched h := by
    rcases h with h | h
    · rw [h] at hst
      exact hst.elim
    · exact (hbackup h).1
  fits h := (hbackup h).2
  prepared h := hprepared (by rcases h with h | h | h <;> simp [h])
  installed h := by
    rw [h] at hst
    exact hst.elim

section Stage

variable (outs : ℕ → Outcome)

theorem StockKept.look {Q : ℤ × Ctx → Prop} (h : StockKept s₀ s)
    (hp : Finds (fun _ => True) s.world Q (runStage P s.ctx)) : StockKept s₀ (s.stage P outs) := by
  obtain ⟨hevents, hend, -⟩ := hp.run_of outs fun _ _ => trivial
  refine ⟨fun x hx => ?_, fun e he => ?_⟩
  · rw [show (s.stage P outs).world.nand = s.world.nand from hend.nand]
    exact h.now x hx
  · rcases List.mem_append.1 he with he | he
    · exact h.record e he
    · intro x hx
      rw [(hevents e he).nand]
      exact h.now x hx

theorem StockKept.beyond {Q : ℤ × Ctx → World → Prop} (h : StockKept s₀ s)
    (hp : Spec exec (fun _ => True) (fun e => Beyond s.world (e.after exec))
      (fun r w' => Beyond s.world w' ∧ Q r w') (runStage P s.ctx) s.world) :
    StockKept s₀ (s.stage P outs) := by
  obtain ⟨hevents, hend, -⟩ := hp.run_of outs fun _ _ => trivial
  refine ⟨fun x hx => (hend x hx).trans (h.now x hx), fun e he => ?_⟩
  rcases List.mem_append.1 he with he | he
  · exact h.record e he
  · exact fun x hx => (hevents e he x hx).trans (h.now x hx)

theorem Stocked.stage_request (h : Stocked P s₀ is s) :
    SameRequest s₀.ctx (s.stage P outs).ctx := by
  have hcont := (s.stage_handover P outs).continues
  obtain ⟨haddr, hlen, hkind⟩ := h.request
  exact ⟨hcont.addr.trans haddr, hcont.len.trans hlen, hcont.kind.trans hkind⟩

theorem Stocked.stage_layout (h : Stocked P s₀ is s) (hst : (s.stage P outs).ctx.stage.Stock) :
    (s.stage P outs).ctx.ubiLayout = false :=
  (s.stage_handover P outs).stock_layout h.stock hst

theorem Stocked.precheck (h : Stocked P s₀ is s) (hst : s.ctx.stage = .precheck) (js : List Call) :
    Stocked P s₀ (is ++ js) (s.stage P outs) := by
  have hrun : runStage P s.ctx = FipUpdate.precheck P s.ctx := by rw [runStage, hst]
  have hlook := finds_of_yields (A := fun _ => True) (uses_precheck (fun _ hc => hc) P s.ctx)
    (yields_true _) s.world
  rw [← hrun] at hlook
  have hkept := (h.kept (.inr hst)).look outs hlook
  obtain ⟨-, hend, -⟩ := hlook.run_of outs fun _ _ => trivial
  have hover := s.stage_handover P outs
  have hreq := h.stage_request outs
  rcases s.stage_next P outs with hf | hnext
  · exact .of_failed hreq hf fun _ => hkept
  rw [hst] at hnext
  rcases List.mem_pair.1 hnext with hn | hn
  · exact .of_native hreq (hover.native hn) (by simp [hn]) (by simp [hn, Stage.Stock])
  · have hstock : (s.stage P outs).ctx.stage.Stock := by rw [hn]; trivial
    refine .of_stock hreq hstock (h.stage_layout outs hstock) hkept ?_ fun hne => absurd hn hne
    intro _
    refine ⟨hend.nand.trans (h.untouched (.inl hst)), ?_⟩
    rw [← h.request.2.1]
    exact (hover.stock hn).2.2

theorem Stocked.backup (h : Stocked P s₀ is s) (hst : s.ctx.stage = .stockBackup) (js : List Call)
    (hcopied : (s.stage P outs).ctx.stage = .stockErase →
      Copied P s₀ (is ++ js) (s.world.ram.slice s₀.ctx.addr s₀.ctx.len)) :
    Stocked P s₀ (is ++ js) (s.stage P outs) := by
  have hrun : runStage P s.ctx = stockBackup P s.ctx := by rw [runStage, hst]
  have hlook := stockBackup_finds (A := fun _ => True) (P := P) (c := s.ctx) s.world
  rw [← hrun] at hlook
  have hkept := (h.kept (.inl (h.stock (by rw [hst]; trivial)))).look outs hlook
  obtain ⟨-, -, hcand⟩ := hlook.run_of outs fun _ _ => trivial
  have hreq := h.stage_request outs
  rcases s.stage_next P outs with hf | hnext
  · exact .of_failed hreq hf fun _ => hkept
  rw [hst] at hnext
  have hn := List.mem_singleton.1 hnext
  have hstock : (s.stage P outs).ctx.stage.Stock := by rw [hn]; trivial
  refine .of_stock hreq hstock (h.stage_layout outs hstock) hkept (fun hb => ?_) fun _ => ?_
  · rw [hn] at hb
    cases hb
  · refine ⟨_, hcand hn, h.fits hst, _, hcopied hn, ?_⟩
    rw [h.untouched (.inr hst), h.request.1, h.request.2.1]

theorem Stocked.commit {next : Stage} {image : List UInt8} (h : Stocked P s₀ is s)
    (hst : s.ctx.stage.Stock) (hone : s.ctx.stage.next = [next]) (hs : next.Stock)
    (hne : next ≠ .stockBackup) (himage : s.ctx.stockCandidate = some image)
    (hcomposed : Composed P s₀ is image) (js : List Call)
    (hspec : Spec exec (fun _ => True) (fun e => Beyond s.world (e.after exec))
      (fun r w' => Beyond s.world w' ∧ r.2.stockCandidate = s.ctx.stockCandidate)
      (runStage P s.ctx) s.world) :
    Stocked P s₀ (is ++ js) (s.stage P outs) := by
  have hkept := (h.kept (.inl (h.stock hst))).beyond outs hspec
  obtain ⟨-, -, hcand⟩ := hspec.run_of outs fun _ _ => trivial
  have hreq := h.stage_request outs
  rcases s.stage_next P outs with hf | hnext
  · exact .of_failed hreq hf fun _ => hkept
  rw [hone] at hnext
  have hn := List.mem_singleton.1 hnext
  have hstock : (s.stage P outs).ctx.stage.Stock := by rw [hn]; exact hs
  refine .of_stock hreq hstock (h.stage_layout outs hstock) hkept (fun hb => ?_) fun _ => ?_
  · exact absurd (hn.symm.trans hb) hne
  · exact ⟨image, hcand.trans himage, hcomposed.mono js⟩

theorem Stocked.verify (h : Stocked P s₀ is s) (hst : s.ctx.stage = .stockVerify) (js : List Call) :
    Stocked P s₀ (is ++ js) (s.stage P outs) := by
  obtain ⟨image, himage, hcomposed⟩ := h.prepared (.inr (.inr hst))
  have hrun : runStage P s.ctx = stockVerify s.ctx := by rw [runStage, hst]
  have hlook := stockVerify_finds (A := fun _ => True) (c := s.ctx) s.world
  rw [← hrun] at hlook
  have hkept := (h.kept (.inl (h.stock (by rw [hst]; trivial)))).look outs hlook
  obtain ⟨-, hend, hsame⟩ := hlook.run_of outs fun _ _ => trivial
  have hreq := h.stage_request outs
  rcases s.stage_next P outs with hf | hnext
  · exact .of_failed hreq hf fun _ => hkept
  rw [hst] at hnext
  have hn := List.mem_singleton.1 hnext
  have hinstalled : (s.stage P outs).world.nand.slice 0 stockBootSize = image := by
    rw [show (s.stage P outs).world.nand = s.world.nand from hend.nand, hsame hn, himage,
      Option.getD_some]
  refine ⟨hreq, h.stage_layout outs, ?_, fun _ => hkept, ?_, ?_, ?_, fun _ _ => ?_⟩
  · simp [hn, Stage.Ubi]
  · simp [hn]
  · simp [hn]
  · simp [hn]
  · rw [hinstalled]
    exact hcomposed.mono js

/-- **Step lemma.** -/
theorem Stocked.stage (h : Stocked P s₀ is s) (js : List Call)
    (hcopied : s.ctx.stage = .stockBackup → (s.stage P outs).ctx.stage = .stockErase →
      Copied P s₀ (is ++ js) (s.world.ram.slice s₀.ctx.addr s₀.ctx.len)) :
    Stocked P s₀ (is ++ js) (s.stage P outs) := by
  have hover := s.stage_handover P outs
  have hreq := h.stage_request outs
  cases hst : s.ctx.stage with
  | precheck => exact h.precheck outs hst js
  | stockBackup => exact h.backup outs hst js (hcopied hst)
  | stockErase =>
    obtain ⟨image, himage, hcomposed⟩ := h.prepared (.inl hst)
    have hspec := stockErase_beyond (A := fun _ => True) (c := s.ctx) s.world
    rw [show stockErase s.ctx = runStage P s.ctx by rw [runStage, hst]] at hspec
    have hstock : s.ctx.stage.Stock := by rw [hst]; trivial
    have hone : s.ctx.stage.next = [.stockWrite] := by rw [hst]; rfl
    exact h.commit outs hstock hone trivial (by rintro ⟨⟩) himage hcomposed js hspec
  | stockWrite =>
    obtain ⟨image, himage, hcomposed⟩ := h.prepared (.inr (.inl hst))
    have hsize : (s.ctx.stockCandidate.getD []).length ≤ stockBootSize := by
      rw [himage, Option.getD_some]
      exact hcomposed.length.le
    have hspec := stockWrite_beyond (A := fun _ => True) (c := s.ctx) s.world hsize
    rw [show stockWrite s.ctx = runStage P s.ctx by rw [runStage, hst]] at hspec
    have hstock : s.ctx.stage.Stock := by rw [hst]; trivial
    have hone : s.ctx.stage.next = [.stockVerify] := by rw [hst]; rfl
    exact h.commit outs hstock hone trivial (by rintro ⟨⟩) himage hcomposed js hspec
  | stockVerify => exact h.verify outs hst js
  | idle | complete | failed =>
    have hrun : runStage P s.ctx = Prog.ret (fail s.ctx (-einval)) := by rw [runStage, hst]; rfl
    have hlook : Finds (fun _ => True) s.world (fun _ => True) (runStage P s.ctx) := by
      rw [hrun]
      exact finds_ret trivial
    have hpre : s.ctx.stage ≠ .precheck := by simp [hst]
    refine .of_failed hreq ?_ fun hl => (h.kept (.inl ?_)).look outs hlook
    · simp only [Attempt.stage, hrun, run]
      rfl
    · exact (hover.continues.layout hpre).symm.trans hl
  | _ =>
    have hpre : s.ctx.stage ≠ .precheck := by simp [hst]
    have hlayout : (s.stage P outs).ctx.ubiLayout = true :=
      (hover.continues.layout hpre).trans (h.ubi (by rw [hst]; trivial))
    refine .of_native hreq hlayout hover.ne_precheck fun hs => ?_
    rw [h.stage_layout outs hs] at hlayout
    cases hlayout

end Stage

/-- **Run lemma.** -/
theorem stocked_run (hbegin : s₀.Begins P) (is : List Call) :
    Stocked P s₀ is (runFrom (Attempt.call P) s₀ is) := by
  refine history_run ?_ (fun is i h => ?_) is
  · have hstage := hbegin.started.stage
    obtain ⟨-, -, -, -, -, -, -, -, htrace⟩ := hbegin
    have hkept : StockKept s₀ s₀ := ⟨fun _ _ => rfl, by simp [htrace]⟩
    refine ⟨⟨rfl, rfl, rfl⟩, ?_, ?_, fun _ => hkept, fun _ => rfl, ?_, ?_, ?_⟩
    · simp [hstage, Stage.Stock]
    · simp [hstage, Stage.Ubi]
    · simp [hstage]
    · simp [hstage]
    · simp [hstage]
  · obtain ⟨b, n, t, es, hes, hcall | ⟨-, -, outs, hcall⟩⟩ :=
      (runFrom (Attempt.call P) s₀ is).call_cases P i
    · rw [hcall]
      exact (h.waited hes b n t).mono [i]
    · have hafter : runFrom (Attempt.call P) s₀ (is ++ [i]) = _ := runFrom_append _ _ _ _
      rw [hcall]
      refine (h.waited hes b n t).stage outs [i] fun hbackup herase => ?_
      refine ⟨is, i, [], rfl, hbackup, ?_, rfl⟩
      rw [hafter, runFrom_cons, runFrom_nil, hcall]
      exact herase

/-- What a completed update of the stock layout has made of the bootloader's span. -/
structure StockInstalled (P : Platform) (s₀ s : Attempt) (is : List Call) (copy : List UInt8) :
    Prop where
  copied : Copied P s₀ is copy
  bl2 : s.world.nand.slice 0 stockFipOff = s₀.world.nand.slice 0 stockFipOff
  fip : s.world.nand.slice stockFipOff s₀.ctx.len = copy
  rest : s.world.nand.slice (stockFipOff + s₀.ctx.len) (stockEnvOff - (stockFipOff + s₀.ctx.len)) =
    List.replicate (stockEnvOff - (stockFipOff + s₀.ctx.len)) 0xff
  env : s.world.nand.slice stockEnvOff (stockBootSize - stockEnvOff) =
    s₀.world.nand.slice stockEnvOff (stockBootSize - stockEnvOff)

theorem Composed.installed (h : Composed P s₀ is (s.world.nand.slice 0 stockBootSize)) :
    ∃ copy, StockInstalled P s₀ s is copy := by
  obtain ⟨hfits, copy, hcopied, himage⟩ := h
  have hlen : copy.length = s₀.ctx.len := by
    obtain ⟨-, i, -, -, -, -, hcopy⟩ := hcopied
    rw [hcopy, Mem.length_slice]
  have hrest : stockEnvOff - (stockFipOff + s₀.ctx.len) = fipMax - copy.length := by
    rw [hlen, ← stock_span.1, Nat.add_sub_add_left]
  obtain ⟨hbl2, hfip, hff, henv⟩ := slices_of_stockImage (by rw [hlen]; exact hfits) himage
  refine ⟨copy, hcopied, hbl2, ?_, ?_, henv⟩
  · rw [← hlen]
    exact hfip
  · rw [hrest, ← hlen]
    exact hff

end Runs

/-- **The frame of a FIP update.** In the native layout nothing has changed, after any command, but
the volumes of the transaction and, for a Vanilla FIP whose promoted volume has been verified, those
of the environment. In the stock layout no NAND cell outside the bootloader's span has, and once the
update is complete the FIP area holds the copy STOCK_BACKUP took, followed by erased cells, between
contents that are as they were. -/
theorem fip_update_frame (P : Platform) (s₀ : Attempt) (is : List Call) (hbegin : s₀.Begins P) :
    let s := runFrom (Attempt.call P) s₀ is
    (s.ctx.ubiLayout = true → NativeRun P s₀ s) ∧
      (s.ctx.ubiLayout = false → StockKept s₀ s ∧
        (s.ctx.stage = .complete → ∃ copy, StockInstalled P s₀ s is copy)) := by
  intro s
  have hstock : Stocked P s₀ is s := stocked_run hbegin is
  refine ⟨fun hlayout => (framed_run hbegin is).native (.inl hlayout), fun hlayout => ⟨?_, ?_⟩⟩
  · exact hstock.kept (.inl hlayout)
  · exact fun hdone => (hstock.installed hdone hlayout).installed

/-- An update of the native layout that runs to its end, with its frame. -/
theorem fip_update_frame_fresh : ∃ is,
    (runFrom (Attempt.call samplePlatform) (sampleAttempt freshTable) is).ctx.stage = .complete ∧
      NativeRun samplePlatform (sampleAttempt freshTable)
        (runFrom (Attempt.call samplePlatform) (sampleAttempt freshTable) is) := by
  have hreach : (sampleAttempt freshTable).CanReach samplePlatform (fun _ _ => True)
      fun s => s.ctx.stage = .complete ∧ s.ctx.ubiLayout = true := by
    refine fresh_promotable.canReach (by decide) (sampleAttempt_normal _)
      (fun _ _ _ _ _ _ _ => trivial) (fun _ _ _ _ _ _ _ _ => trivial) fun c w tr hc hw _ => ?_
    exact Attempt.canReach_verify (m := sampleRam false) (i := 0) (v := sampleVolume false) hc rfl hw
      (Slots.lookup_eq_some.2 ⟨by decide, rfl⟩) rfl (length_sampleFip false)
      (sampleFip_accepted false) (fun _ _ _ _ _ _ => trivial) fun c w tr hc _ =>
      Attempt.canReach_here hc
  obtain ⟨is, -, hstage, hlayout⟩ := hreach
  exact ⟨is, hstage, (fip_update_frame samplePlatform (sampleAttempt freshTable) is
    (sampleAttempt_begins _)).1 hlayout⟩

end FipUpdate

end UrsusBoot
