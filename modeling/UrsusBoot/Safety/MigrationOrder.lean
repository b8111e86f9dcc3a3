import UrsusBoot.Engine.Handover
import UrsusBoot.Engine.Report
import UrsusBoot.Engine.Scratch
import UrsusBoot.Safety.Episode
import UrsusBoot.Safety.FipProgress

/-!
# The order of a migration

A migration reads what it carries over before it writes, and replaces the BL2 in the first block of
NAND only when everything else is in place. In a run RAM may change between two calls, the BL2
candidate may not: no other preloader is uploaded.
-/

namespace UrsusBoot

open Prog

namespace Migration

def engine (P : Platform) : Engine (Ctx × Bl2Candidate) ((ℤ × Ctx) × Bl2Candidate) where
  active s := s.1.active
  announced s := s.1.announced
  announcedAt s := s.1.announcedAt
  hold := stageHoldMs
  mark b n s := ({ s.1 with announced := b, announcedAt := n }, s.2)
  rest s := ((if s.1.stage = .complete then 1 else if s.1.stage = .failed then s.1.error else 0,
    s.1), s.2)
  wait s := ((0, s.1), s.2)
  announce n s := ((0, { s.1 with announced := true, announcedAt := n }), s.2)
  work s :=
    if s.1.stage = .precheck then precheck P s.2 s.1
    else (runStage s.2 s.1).bind fun r => .ret (r, s.2)
  out r := (r.1.2, r.2)
  out_rest _ := rfl
  out_wait _ := rfl
  out_announce _ _ := rfl
  mark_self _ := rfl
  announced_mark _ _ _ := rfl
  announcedAt_mark _ _ _ := rfl
  active_mark _ _ _ := rfl
  mark_mark _ _ _ _ _ := rfl

variable (P : Platform) {s : Ctx × Bl2Candidate}

/-! ## What the stages leave alone -/

/-- The stages before the first write to flash. -/
def Stage.Early (st : Stage) : Prop :=
  st = .precheck ∨ st = .backupBosa ∨ st = .backupRi ∨ st = .backupFip

/-- Questions; what is read goes to RAM. -/
def Surveys (d : Cmd) : Prop := d.Inert ∨ ∃ addr bs, d = .writeMem addr bs

theorem surveys_backup (c : Ctx) (off len addr : ℕ) (next : Stage) :
    Uses Surveys (backup c off len addr next) :=
  uses_bind (uses_readRange (fun _ => .inl) _ _ _) fun _ =>
    uses_next (.inr ⟨_, _, rfl⟩) fun _ => uses_exit fun _ => trivial

theorem work_surveys (h : s.1.stage.Early) : Uses Surveys ((engine P).work s) := by
  refine uses_ite (fun _ => (inert_precheck P _ _).mono fun _ => .inl) fun hpre =>
    uses_bind ?_ fun _ => trivial
  unfold runStage
  rcases h with h | h | h | h
  · exact absurd h hpre
  · rw [h]
    exact surveys_backup _ _ _ _ _
  · rw [h]
    exact surveys_backup _ _ _ _ _
  · rw [h]
    refine uses_bind (uses_currentFipLength (fun _ => .inl) _) fun r => ?_
    cases r with
    | error e => trivial
    | ok n => exact uses_exit fun _ => surveys_backup _ _ _ _ _

theorem work_flash (h : s.1.stage.Early) (w : World) :
    Ensures (fun _ w' => w'.nand = w.nand ∧ w'.ubi = w.ubi) ((engine P).work s) w := by
  refine Spec.of_uses (I := fun w' : World => w'.nand = w.nand ∧ w'.ubi = w.ubi)
    (fun d o w' hd _ hw => ⟨trivial, ?_⟩) (work_surveys P h) ⟨rfl, rfl⟩
  rcases hd with hd | ⟨addr, bs, rfl⟩
  · exact ⟨(exec_inert hd o w').nand.trans hw.1, (exec_inert hd o w').ubi.trans hw.2⟩
  · exact hw

theorem Issues.sparesBl2 {d : Cmd} {commit : Prop} (h : Issues commit d) (hc : ¬ commit) :
    d.SparesBl2 := by
  cases d with
  | mtdErase p off len =>
    rw [h.resolve_right hc]
    exact Nat.le_add_right _ _
  | mtdWrite p bs off => exact absurd h hc
  | nandErase | nandWrite | factoryUbiErase | factoryKernelErase | factoryKernelWrite =>
    exact h.elim
  | _ => trivial

theorem work_spares (h : s.1.stage ≠ .commitBl2) : Uses Cmd.SparesBl2 ((engine P).work s) :=
  uses_ite (fun _ => (@issues_precheck False P _ _).mono fun _ hd => hd.sparesBl2 id) fun _ =>
    uses_bind ((issues_runStage _ _).mono fun _ hd => hd.sparesBl2 h) fun _ => trivial

theorem work_bl2 (h : s.1.stage ≠ .commitBl2) (w : World) :
    Ensures (fun _ w' => ∀ x < ubiBase, w'.nand x = w.nand x) ((engine P).work s) w := by
  refine Spec.of_uses (I := fun w' : World => ∀ x < ubiBase, w'.nand x = w.nand x)
    (fun d o w' hd _ hw => ⟨trivial, fun x hx => ?_⟩) (work_spares P h) fun _ _ => rfl
  exact (exec_bl2 hd o w' hx).trans (hw x hx)

/-! ## Readbacks -/

/-- A volume the migration fills, with its source in RAM. -/
structure Copy where
  addr : ℕ
  name : String
  len : ℕ

/-- The event reads the volume back, and what it reads is the source. -/
structure Copy.ReadBack (x : Copy) (e : FlashEvent) : Prop where
  cmd : e.cmd = .ubiRead ubiReadbackAddr x.name x.len
  read : (exec (.ubiRead ubiReadbackAddr x.name x.len) e.out e.before).1 = 0
  same : (e.after exec).ram.slice x.addr x.len = (e.after exec).ram.slice ubiReadbackAddr x.len

/-- What a migration carries over or installs, in the order in which it is read back. -/
def Ctx.copies (c : Ctx) : List Copy :=
  [⟨migBosaAddr, "bosa", boardDataSize⟩, ⟨migRiAddr, "ri", boardDataSize⟩,
    ⟨migFipAddr, "fip", c.fipLen⟩, ⟨c.fitAddr, "fit", c.fitLen⟩]

def Stage.Verifies (st : Stage) : Prop :=
  st = .verifyBosa ∨ st = .verifyRi ∨ st = .verifyFip ∨ st = .verifyFit

/-- The number of copies that have been read back by the time a stage is reached. -/
def Stage.readBack : Stage → ℕ
  | .verifyRi => 1
  | .verifyFip => 2
  | .verifyFit => 3
  | .commitBl2 | .verifyBl2 | .complete => 4
  | _ => 0

theorem Stage.readBack_of_next {st st' : Stage} (h : st.next = some st') :
    st'.readBack = st.readBack ∨ st.Verifies ∧ st'.readBack = st.readBack + 1 := by
  cases st <;> cases h <;> simp [readBack, Verifies]

section Handover

variable {c : Ctx} {r : ℤ × Ctx} {x : Copy}

theorem Handover.copies (h : Handover c r) (hback : r.2.stage.readBack ≠ 0) :
    r.2.copies = c.copies := by
  have hst : c.stage ≠ .backupFip := by
    intro hst
    rcases h.stage with hr | hr
    · exact hback (by rw [hr]; rfl)
    · rw [hst] at hr
      exact hback (by rw [← Option.some.inj hr]; rfl)
  simp only [Ctx.copies, h.continues.fitAddr, h.continues.fitLen, h.continues.fipLen hst]

/-- A copy that counts as read back after a stage did so before, or is the one of the stage. -/
theorem Handover.readBack (h : Handover c r) (hx : x ∈ r.2.copies.take r.2.stage.readBack) :
    x ∈ c.copies.take c.stage.readBack ∨
      c.stage.Verifies ∧ c.copies[c.stage.readBack]? = some x := by
  have hpos : r.2.stage.readBack ≠ 0 := by
    intro h0
    simp [h0] at hx
  rw [h.copies hpos] at hx
  rcases h.stage with hst | hst
  · exact absurd (by rw [hst]; rfl) hpos
  rcases Stage.readBack_of_next hst with hsame | ⟨hverify, hnext⟩
  · rw [hsame] at hx
    exact .inl hx
  · rw [hnext, List.take_add_one, List.mem_append] at hx
    exact hx.imp_right fun hx => ⟨hverify, by simpa using hx⟩

theorem readback_records (x : Copy) (w : World) (tr : List FlashEvent) :
    Records exec (fun _ _ => True) (fun ret _ tr' => ret = 0 → ∃ e ∈ tr', x.ReadBack e)
      (readback x.addr x.name x.len) w tr := by
  apply records_next (Cmd.ubiRead ubiReadbackAddr x.name x.len)
  intro o
  refine ⟨trivial, records_ite (fun hret hzero => absurd hzero hret) fun hread => ?_⟩
  -- from here on RAM is only looked at
  refine fun o₁ => ⟨trivial, fun o₂ => ⟨trivial, ?_⟩⟩
  refine records_ite (fun _ h => absurd h (by decide)) fun hsame _ => ?_
  refine ⟨⟨.ubiRead ubiReadbackAddr x.name x.len, o, w⟩, by simp, rfl, not_not.1 hread, ?_⟩
  by_contra hne
  exact hsame (ne_of_eq_of_ne (if_neg hne) (by decide))

/-- What a verify stage that does not fail has on record. -/
theorem work_reads (hst : s.1.stage.Verifies) (hx : s.1.copies[s.1.stage.readBack]? = some x)
    (w : World) (tr : List FlashEvent) :
    Records exec (fun _ _ => True) (fun r _ tr' => r.1.2.stage ≠ .failed → ∃ e ∈ tr', x.ReadBack e)
      ((engine P).work s) w tr := by
  have hverify : ∀ next, Records exec (fun _ _ => True)
      (fun r _ tr' => r.2.stage ≠ .failed → ∃ e ∈ tr', x.ReadBack e)
      (verifyVolume s.1 x.addr x.name x.len next) w tr := fun next =>
    (readback_records x w tr).bind fun ret w' tr' h =>
      records_ite (fun _ h => absurd rfl h) fun hret _ => h (not_not.1 hret)
  have hwork : (engine P).work s = (runStage s.2 s.1).bind fun r => .ret (r, s.2) :=
    if_neg (by rcases hst with h | h | h | h <;> simp [h])
  rw [hwork]
  refine Records.bind (M := fun r _ tr' => r.2.stage ≠ .failed → ∃ e ∈ tr', x.ReadBack e) ?_
    fun r w' tr' h => h
  unfold runStage
  cases hs : s.1.stage with
  | verifyBosa | verifyRi | verifyFip =>
    obtain rfl : _ = x := by simpa [Ctx.copies, Stage.readBack, hs] using hx
    exact hverify _
  | verifyFit =>
    obtain rfl : _ = x := by simpa [Ctx.copies, Stage.readBack, hs] using hx
    refine (readback_records ⟨s.1.fitAddr, "fit", s.1.fitLen⟩ w tr).bind fun ret w' tr' h => ?_
    refine records_ite (fun _ h => absurd rfl h) fun hret => ?_
    obtain ⟨e, he, hback⟩ := h (not_not.1 hret)
    -- the policy for `rootfs_data` and the manifest follow, and the record only grows
    refine (records_run _ w' tr').mono ?_
    rintro _ _ _ ⟨_, _, _, rfl⟩ _
    exact ⟨e, List.mem_append_left _ he, hback⟩
  | _ => simp [hs, Stage.Verifies] at hst

end Handover

/-! ## Runs -/

/-- The candidate is the BL2 image whose digest is pinned. -/
def Pinned (b : Bl2Candidate) : Prop := P.sha256 (b.buf.getD []) = P.bl2ImageSha256

theorem pinned_of_verify {b : Bl2Candidate} (h : (verifyBl2Candidate P b).1 = 0) :
    Pinned P (verifyBl2Candidate P b).2 := by
  obtain ⟨buf, hok, hbuf⟩ : ∃ buf, b.ok = true ∧ b.buf = some buf := by
    by_contra hno
    cases hok : b.ok <;> cases hbuf : b.buf <;> simp_all [verifyBl2Candidate]
  by_cases hsha : P.sha256 buf = P.bl2ImageSha256 <;> simp_all [verifyBl2Candidate, Pinned]

theorem work_pinned (s : Ctx × Bl2Candidate) :
    Gives (fun r => r.1.2.stage ≠ .failed → s.1.stage = .precheck ∨ Pinned P s.2 → Pinned P r.2)
      ((engine P).work s) := by
  apply yields_ite
  · intro _
    refine yields_then fun _ => yields_exit (fun h => absurd rfl h) fun _ => ?_
    refine yields_then fun _ => yields_exit (fun h => absurd rfl h) fun _ => ?_
    refine yields_then fun _ => yields_exit (fun h => absurd rfl h) fun _ => ?_
    refine yields_exit (fun h => absurd rfl h) fun hret => yields_ret fun _ _ => ?_
    exact pinned_of_verify P (not_not.1 hret)
  · intro hpre
    exact yields_then fun _ => yields_ret fun _ h => h.resolve_left hpre

theorem work_handover (s : Ctx × Bl2Candidate) :
    Gives (fun r => Handover s.1 r.1) ((engine P).work s) :=
  yields_ite (fun hpre => precheck_handover P s.2 hpre) fun _ =>
    yields_bind (runStage_handover s.2 s.1) fun _ hr => yields_ret hr

/-- A migration that becomes complete has found its candidate in the first block. -/
theorem work_done (s : Ctx × Bl2Candidate) (w : World) :
    Ensures (fun r w' => r.1.2.stage = .complete → w'.nand.slice 0 ubiBl2Size = s.2.buf.getD [])
      ((engine P).work s) w := by
  by_cases hst : s.1.stage = .verifyBl2
  · have hwork : (engine P).work s = (verifyBl2 s.2 s.1).bind fun r => .ret (r, s.2) := by
      simp [engine, hst, runStage]
    rw [hwork]
    refine Spec.bind (P := fun r w' => r.2.stage = .complete →
      w'.nand.slice 0 ubiBl2Size = s.2.buf.getD []) ?_ fun r w' h => h
    refine spec_next (Cmd.mtdRead .ursusUbiBl2 ubiReadbackAddr 0 0x20000) fun o _ => ⟨trivial, ?_⟩
    refine spec_ite (fun _ h => nomatch h) fun hret => ?_
    refine spec_next (Cmd.readMem ubiReadbackAddr ubiBl2Size) fun o' _ => ⟨trivial, ?_⟩
    refine spec_ite (fun _ h => nomatch h) fun hsame _ => ?_
    rw [not_not.1 hsame]
    simp only [exec] at hret ⊢
    split_ifs at hret ⊢ with herr
    · exact (Mem.slice_blit_of_length _ _ (Mem.length_slice _ _ _)).symm
    · simp at hret
  · refine (work_handover P s w).mono fun r w' h hdone => ?_
    rcases h.stage with hr | hr
    · rw [hdone] at hr
      cases hr
    · rw [hdone] at hr
      cases hc : s.1.stage <;> simp [hc, Stage.next] at hr hst

/-- What holds of an attempt that began in `s₀`. -/
structure Ordered (s₀ s : Episode (Ctx × Bl2Candidate)) : Prop where
  opens : s.ctx.1.active = true → s.ctx.1.writeStarted = true ∨ s.ctx.1.stage.Early ∨
    s.ctx.1.stage = .formatUbi
  flash : s.ctx.1.writeStarted = false →
    s.world.nand = s₀.world.nand ∧ s.world.ubi = s₀.world.ubi
  bl2 : s.ctx.1.commitStarted = false → ∀ x < ubiBase, s.world.nand x = s₀.world.nand x
  pinned : s.ctx.1.active = true → s.ctx.1.stage = .precheck ∨ Pinned P s.ctx.2
  reads : ∀ x ∈ s.ctx.1.copies.take s.ctx.1.stage.readBack, ∃ e ∈ s.trace, x.ReadBack e
  ended : s.ctx.1.active = false → s.ctx.1.stage = .complete ∨ s.ctx.1.stage = .failed
  done : s.ctx.1.stage = .complete → P.sha256 (s.world.nand.slice 0 ubiBl2Size) = P.bl2ImageSha256

theorem Stage.early_of_next {st st' : Stage} (h : st.Early) (hnext : st.next = some st') :
    st'.Early ∨ st' = .formatUbi := by
  rcases h with rfl | rfl | rfl | rfl <;> cases hnext <;> simp [Early]

section Run

variable {P} {s₀ s : Episode (Ctx × Bl2Candidate)}

/-- **A stage** keeps the order. -/
theorem Ordered.stage (h : Ordered P s₀ s) (hact : s.ctx.1.active = true) (outs : ℕ → Outcome) :
    Ordered P s₀ (s.stage (engine P) outs) := by
  have hhand := (work_handover P s.ctx).run_of outs s.world fun _ _ => trivial
  have hpin := (work_pinned P s.ctx).run_of outs s.world fun _ _ => trivial
  have hflash := fun hst =>
    ((work_flash P (s := s.ctx) hst s.world).run_of outs fun _ _ => trivial).2
  have hbl2 := fun hst => ((work_bl2 P (s := s.ctx) hst s.world).run_of outs fun _ _ => trivial).2
  have hdone := ((work_done P s.ctx s.world).run_of outs fun _ _ => trivial).2
  have hreads := fun x hst hx =>
    ((work_reads P (s := s.ctx) (x := x) hst hx s.world s.trace).run_of outs
      fun _ _ _ _ => trivial).2
  show Ordered P s₀ ⟨((run exec ((engine P).work s.ctx) outs s.world).val.1.2, _), _, _⟩
  generalize run exec ((engine P).work s.ctx) outs s.world = r at *
  constructor
  · intro hact'
    have hst := hhand.stage.resolve_left (hhand.active hact').1
    rcases h.opens hact with hw | he | hf
    · exact .inl (hhand.continues.writes (.inl hw))
    · exact .inr (Stage.early_of_next he hst)
    · exact .inl (hhand.continues.writes (.inr hf))
  · -- FORMAT_UBI sets the flag before it erases, so a stage that leaves it unset is an early one
    intro hquiet
    have hbefore : ¬ (s.ctx.1.writeStarted = true ∨ s.ctx.1.stage = .formatUbi) := fun hw =>
      absurd (hhand.continues.writes hw) (by simpa using hquiet)
    obtain ⟨hw, hf⟩ := not_or.1 hbefore
    obtain ⟨hnand, hubi⟩ := h.flash (by simpa using hw)
    obtain ⟨hnand', hubi'⟩ := hflash (((h.opens hact).resolve_left hw).resolve_right hf)
    exact ⟨hnand'.trans hnand, hubi'.trans hubi⟩
  · intro hquiet x hx
    have hbefore : ¬ (s.ctx.1.commitStarted = true ∨ s.ctx.1.stage = .commitBl2) := fun hc =>
      absurd (hhand.continues.commits hc) (by simpa using hquiet)
    obtain ⟨hc, hst⟩ := not_or.1 hbefore
    exact (hbl2 hst x hx).trans (h.bl2 (by simpa using hc) x hx)
  · intro hact'
    exact .inr (hpin (hhand.active hact').1 (h.pinned hact))
  · intro x hx
    rcases hhand.readBack hx with hold | ⟨hst, hnew⟩
    · obtain ⟨e, he, hback⟩ := h.reads x hold
      exact ⟨e, List.mem_append_left _ he, hback⟩
    · refine hreads x hst hnew fun hfail => ?_
      simp [hfail, Stage.readBack] at hx
  · intro hidle
    rcases hhand.moves with hr | hr | hr
    · exact .inr hr
    · exact .inl hr
    · exact absurd (hr.1.trans hact) (by simpa using hidle)
  · intro hcomplete
    rw [hdone hcomplete]
    refine (h.pinned hact).resolve_left fun hpre => ?_
    rcases hhand.stage with hr | hr
    · rw [show _ = _ from hcomplete] at hr
      cases hr
    · rw [hpre, show _ = _ from hcomplete] at hr
      cases hr

/-- A start has been accepted, and nothing has been performed since. -/
structure Begins (s : Episode (Ctx × Bl2Candidate)) : Prop where
  start : ∃ c fitAddr fitLen preloaderAddr preloaderLen,
    start c fitAddr fitLen preloaderAddr preloaderLen = (0, s.ctx.1)
  fresh : s.trace = []

theorem Begins.ordered (h : Begins s₀) (is : List EngineCall) :
    Ordered P s₀ (runFrom (Episode.call (engine P)) s₀ is) := by
  obtain ⟨⟨c, a, n, p, q, hstart⟩, -⟩ := h
  unfold Migration.start at hstart
  have hctx : s₀.ctx.1 = { fitAddr := a, fitLen := n, preloaderAddr := p, preloaderLen := q,
                           stage := .precheck, active := true } := by
    split_ifs at hstart
    · simp at hstart
    · simp at hstart
    · exact (Prod.mk.inj hstart).2.symm
  have h₀ : Ordered P s₀ s₀ := by
    refine ⟨fun _ => .inr (.inl (.inl ?_)), fun _ => ⟨rfl, rfl⟩, fun _ _ _ => rfl,
      fun _ => .inl ?_, fun x hx => ?_, fun hidle => ?_, fun hst => ?_⟩ <;>
      simp_all [Stage.readBack]
  refine Episode.run_keeps (J := Ordered P s₀) h₀ ?_ (fun s h hact outs => h.stage hact outs) is
  intro s h m b n t es _
  refine ⟨h.opens, h.flash, h.bl2, h.pinned, fun x hx => ?_, h.ended, h.done⟩
  obtain ⟨e, he, hback⟩ := h.reads x hx
  exact ⟨e, List.mem_append_left _ he, hback⟩

end Run

theorem quiet_of_notStarted : ∀ complete failed active writeStarted : Bool,
    (active = false → complete = true ∨ failed = true) →
    transactionState complete failed active writeStarted = .notStarted → writeStarted = false := by
  decide

theorem complete_of_proven : ∀ complete failed active writeStarted : Bool,
    transactionState complete failed active writeStarted = .completionProven → complete = true := by
  decide

/-- A migration of a sample board. -/
def sampleStart : Episode (Ctx × Bl2Candidate) :=
  ⟨((start {} 0x90000000 0x1000 0x8f000000 0x1000).2, {}), FipUpdate.sampleWorld
    FipUpdate.freshTable, []⟩

theorem sampleStart_begins : Begins sampleStart :=
  ⟨⟨{}, 0x90000000, 0x1000, 0x8f000000, 0x1000, rfl⟩, rfl⟩

theorem work_commits (h : s.1.stage = .commitBl2) :
    Uses (fun d => ∀ p bs off, d = .mtdWrite p bs off → bs = s.2.buf.getD [])
      ((engine P).work s) := by
  have hwork : (engine P).work s = (commitBl2 s.2 s.1).bind fun r => .ret (r, s.2) := by
    simp [engine, h, runStage]
  rw [hwork]
  refine uses_bind ?_ fun _ => trivial
  refine uses_next (fun _ _ _ h => nomatch h) fun _ => uses_checked (fun _ _ _ h => nomatch h)
    fun _ => uses_checked ?_ fun _ => trivial
  rintro _ _ _ ⟨⟩
  rfl

/-- What a call does to the first block of NAND comes after all four readbacks of the attempt, and
what it writes there has the pinned digest. -/
def Bl2Last (s : Episode (Ctx × Bl2Candidate)) (i : EngineCall) : Prop :=
  ∀ e ∈ s.events (engine P) i, ¬ e.cmd.SparesBl2 →
    (∀ x ∈ s.ctx.1.copies, ∃ e' ∈ s.trace, x.ReadBack e') ∧
      ∀ p bs off, e.cmd = .mtdWrite p bs off → P.sha256 bs = P.bl2ImageSha256

end Migration

end UrsusBoot
