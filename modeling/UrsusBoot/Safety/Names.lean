import UrsusBoot.Safety.FipProgress
import UrsusBoot.Safety.Switch

/-!
# Names of volumes

A session of UrsusBoot's own UBI code: FIP updates, OpenWrt updates and settings resets, in any
order and interleaved, under any pattern of failures. The one command that does not look for a clash
of names is `ubi_rename_volumes`; names stay distinct exactly as long as it never succeeds while
another volume bears the backup name it gives (`names_distinct_iff`).
-/

namespace UrsusBoot

open Prog

/-! ## Commands -/

/-- The command changes volumes by `ubi` commands on one name, if at all. -/
def Cmd.ByName : Cmd → Prop
  | .ubiRenameVolumes _ => False
  | .mtdErase p off len => p.offset + off + len ≤ ubiBase
  | .mtdWrite p bs off => p.offset + off + bs.length ≤ ubiBase
  | .nandErase off len => off + len ≤ ubiBase
  | .nandWrite off bs => off + bs.length ≤ ubiBase
  | .factoryUbiErase | .factoryKernelErase | .factoryKernelWrite .. => False
  | _ => True

theorem VolumeStep.distinct {c : Cmd} {t t' : VolumeTable} (h : VolumeStep c t t') (hc : c.ByName)
    (ht : t.Distinct) : t'.Distinct := by
  cases h with
  | same => exact ht
  | create v hi hn => exact ht.put hn
  | remove hi => exact ht.free
  | rename hi hb => exact ht.rename fun k _ => hb k
  | write v hi => exact ht.setBody
  | renames => exact hc.elim
  | envSave v hn hi => exact ht.setBody
  | mtdErase _ _ h => exact absurd hc (not_le.2 h)
  | mtdWrite _ _ h => exact absurd hc (not_le.2 h)
  | nandErase _ _ h => exact absurd hc (not_le.2 h)
  | nandWrite _ _ h => exact absurd hc (not_le.2 h)
  | factoryUbiErase | factoryKernelErase | factoryKernelWrite => exact hc.elim

def World.NamesDistinct (w : World) : Prop := ∀ a, (w.vols a).Distinct

/-- The event is a successful `ubi_rename_volumes` that gives the first volume a name which is
taken. -/
def Clash (e : FlashEvent) : Prop :=
  ∃ i b rest p k, e.cmd = .ubiRenameVolumes ((i, b) :: rest) ∧ e.out.err = none ∧
    e.before.attached = some p ∧ (e.before.vols p.area).Named k b

/-- A command keeps names distinct unless it is a clash, and a clash never does. -/
structure Orderly (e : FlashEvent) : Prop where
  clash : Clash e → ¬ (e.after exec).NamesDistinct
  keeps : ¬ Clash e → e.before.NamesDistinct → (e.after exec).NamesDistinct

theorem orderly_of_byName (c : Cmd) (hc : c.ByName) (o : Outcome) (w : World) :
    Orderly ⟨c, o, w⟩ := by
  constructor
  · rintro ⟨i, b, rest, p, k, hcmd, -⟩
    rw [show c = .ubiRenameVolumes ((i, b) :: rest) from hcmd] at hc
    exact hc.elim
  · intro _ hw a
    exact (exec_vols c o w a).distinct hc (hw a)

/-! ## The exchange -/

theorem FipUpdate.Exchange.orderly {current candidate backup : String} {e : FlashEvent}
    (h : FipUpdate.Exchange current candidate backup e) (hcur : current ≠ backup)
    (hcand : candidate ≠ backup) (hne : current ≠ candidate) : Orderly e := by
  obtain ⟨p, i, j, hp, hi, hj, hcmd⟩ := h
  have hi := Slots.named_of_find? hi
  have hj := Slots.named_of_find? hj
  obtain ⟨cmd, o, w⟩ := e
  obtain rfl : cmd = _ := hcmd
  cases herr : o.err with
  | some err =>
    have hsame : ∀ a, (w.ubiRenameVolumes o [(i, backup), (j, current)]).2.vols a = w.vols a := by
      intro a
      have hp : w.attached = some p := hp
      simp [World.ubiRenameVolumes, hp, herr]
    constructor
    · rintro ⟨_, _, _, _, _, -, hnone, -⟩
      rw [show o.err = none from hnone] at herr
      cases herr
    · intro _ hw a
      exact (congrArg Slots.Distinct (hsame a)).mpr (hw a)
  | none =>
    have hp : w.attached = some p := hp
    have hafter : (w.ubiRenameVolumes o [(i, backup), (j, current)]).2.vols p.area =
        (w.vols p.area).switch i backup j current := by
      simp [World.ubiRenameVolumes, hp, herr, World.vols, UbiImage.renameVolumes, Slots.switch]
    have hother : ∀ a, a ≠ p.area →
        (w.ubiRenameVolumes o [(i, backup), (j, current)]).2.vols a = w.vols a := by
      intro a ha
      simp [World.ubiRenameVolumes, hp, herr, World.vols, World.setUbi_ubi_of_ne _ _ ha]
    constructor
    · rintro ⟨_, b, _, q, k, hcmd, -, hq, hk⟩ hdist
      cases hcmd
      obtain rfl : p = q := Option.some.inj (hp.symm.trans hq)
      have hd : ((w.ubiRenameVolumes o [(i, backup), (j, current)]).2.vols p.area).Distinct :=
        hdist p.area
      rw [hafter] at hd
      exact Slots.switch_clash hi hj hk hcur hcand hne hd
    · intro hclash hw a
      have hfree : ∀ k, ¬ (w.vols p.area).Named k backup := fun k hk =>
        hclash ⟨i, backup, _, p, k, rfl, herr, hp, hk⟩
      show ((w.ubiRenameVolumes o [(i, backup), (j, current)]).2.vols a).Distinct
      by_cases ha : a = p.area
      · rw [ha, hafter]
        exact (hw p.area).switch hi hfree hcur
      · rw [hother a ha]
        exact hw a

namespace FipUpdate

theorem byName_of_issues (c : Cmd) (h : Issues c) : c.ByName := by
  cases c <;> trivial

theorem emits_of_issues {α : Type} {p : FlashProg α} (h : Uses Issues p) : Emits exec Orderly p :=
  .of_uses (fun c o w hc => orderly_of_byName c (byName_of_issues c hc) o w) h

theorem orderly_switches {current candidate backup : String} {e : FlashEvent}
    (hs : (current, candidate, backup) ∈ switches) (h : Exchange current candidate backup e) :
    Orderly e := by
  have hne : ∀ s ∈ switches, s.1 ≠ s.2.2 ∧ s.2.1 ≠ s.2.2 ∧ s.1 ≠ s.2.1 := by decide
  obtain ⟨hcur, hcand, hdiff⟩ := hne _ hs
  exact h.orderly hcur hcand hdiff

theorem emits_step (P : Platform) {c : Ctx} (hc : ¬ c.stage.Stock) :
    Emits exec Orderly (step P c) := by
  have hstage : Emits exec Orderly (runStage P { c with announced := false }) := by
    have hissue : ∀ c o w, Issues c → Orderly ⟨c, o, w⟩ := fun c o w h =>
      orderly_of_byName c (byName_of_issues c h) o w
    refine emits_native P hc (fun c o w h => hissue c o w (issues_of_routine h))
      (fun _ c o w h => hissue c o w (issues_of_drops h))
      (fun _ c o w h => hissue c o w (issues_of_blanks h)) fun cur cand back e hs h =>
        orderly_switches hs h
  have htimer : ∀ (base : ℕ) (o : Outcome) (w : World), Orderly ⟨.getTimer base, o, w⟩ :=
    fun base o w => orderly_of_byName (.getTimer base) trivial o w
  refine emits_ite (fun _ => emits_ret _) fun _ => emits_ite (fun _ => ?_) fun _ => ?_
  · exact emits_next (htimer _) fun _ => emits_ret _
  · exact emits_next (htimer _) fun _ => emits_ite (fun _ => emits_ret _) fun _ => hstage

end FipUpdate

/-! ## Sessions -/

inductive UbiOp
  | fipStart (addr len : ℕ) (kind : FipKind)
  | fipStep
  | updateStart (migActive : Bool) (addr len : ℕ) (keepSettings : Bool)
  | updateStep
  | resetSettings

/-- One operation: what RAM holds by then, and how the commands turn out. -/
structure UbiInput where
  op : UbiOp
  ram : Mem UInt8
  outs : ℕ → Outcome

structure UbiSession where
  fip : FipUpdate.Ctx := {}
  upd : UbiUpdate.Ctx := {}
  world : World
  trace : List FlashEvent := []

/-- The program of an operation; it leaves the two contexts. -/
def UbiOp.prog (P : Platform) (fip : FipUpdate.Ctx) (upd : UbiUpdate.Ctx) :
    UbiOp → FlashProg (FipUpdate.Ctx × UbiUpdate.Ctx)
  | .fipStart addr len kind => do
    let r ← FipUpdate.startKind P fip addr len kind
    return (r.2, upd)
  | .fipStep => do
    let r ← FipUpdate.step P fip
    return (r.2, upd)
  | .updateStart migActive addr len keepSettings => do
    let r ← UbiUpdate.start upd migActive addr len keepSettings
    return (fip, r.2)
  | .updateStep => do
    let r ← UbiUpdate.step upd
    return (fip, r.2)
  | .resetSettings => do
    let _ ← UrsusBoot.resetSettings
    return (fip, upd)

def UbiSession.apply (P : Platform) (s : UbiSession) (i : UbiInput) : UbiSession :=
  let r := Prog.run exec (i.op.prog P s.fip s.upd) i.outs { s.world with ram := i.ram }
  ⟨r.val.1, r.val.2, r.world, s.trace ++ r.trace⟩

/-- Names are distinct now, and were after every command. -/
def UbiSession.NamesDistinct (s : UbiSession) : Prop :=
  s.world.NamesDistinct ∧ ∀ e ∈ s.trace, (e.after exec).NamesDistinct

/-- A step of a FIP update is one of the native layout. -/
def NativeOp (s : UbiSession) (i : UbiInput) : Prop := i.op = .fipStep → ¬ s.fip.stage.Stock

theorem byName_of_update (c : Cmd) (h : UbiUpdate.Issues c) : c.ByName := by
  rcases h with h | h <;> cases c <;> trivial

variable {s : UbiSession}

theorem UbiOp.emits (P : Platform) {i : UbiInput} (h : NativeOp s i) :
    Emits exec Orderly (i.op.prog P s.fip s.upd) := by
  have hupdate : ∀ {α : Type} {p : FlashProg α}, Uses UbiUpdate.Issues p → Emits exec Orderly p :=
    fun hp => .of_uses (fun c o w hc => orderly_of_byName c (byName_of_update c hc) o w) hp
  cases hop : i.op with
  | fipStart addr len kind =>
    refine emits_bind (FipUpdate.emits_of_issues ?_) fun _ => emits_ret _
    exact (FipUpdate.issues_startKind P _ addr len kind).mono fun c hc =>
      FipUpdate.issues_of_query c hc.query
  | fipStep => exact emits_bind (FipUpdate.emits_step P (h hop)) fun _ => emits_ret _
  | updateStart mig addr len keep =>
    exact emits_bind (hupdate (UbiUpdate.issues_start _ mig addr len keep)) fun _ => emits_ret _
  | updateStep => exact emits_bind (hupdate (UbiUpdate.issues_step _)) fun _ => emits_ret _
  | resetSettings => exact emits_bind (hupdate UbiUpdate.issues_resetSettings) fun _ => emits_ret _

variable {P : Platform}

theorem UbiSession.apply_distinct {i : UbiInput} (hi : NativeOp s i) (hs : s.NamesDistinct)
    (hclash : ∀ e ∈ (s.apply P i).trace, ¬ Clash e) : (s.apply P i).NamesDistinct := by
  have hemits : Emits exec (fun e => ¬ Clash e → e.before.NamesDistinct →
      (e.after exec).NamesDistinct) (i.op.prog P s.fip s.upd) := fun w =>
    (UbiOp.emits P hi w).weaken (fun _ h => h) fun e _ he => he.keeps
  have hstart : World.NamesDistinct { s.world with ram := i.ram } := hs.1
  have hrun := (hemits.invariant hstart).run_of i.outs fun e he =>
    hclash e (List.mem_append_right _ he)
  refine ⟨hrun.2, fun e he => ?_⟩
  rcases List.mem_append.1 he with he | he
  · exact hs.2 e he
  · exact hrun.1 e he

theorem UbiSession.run_orderly {is : List UbiInput} (hs : ∀ e ∈ s.trace, Orderly e)
    (hi : Along (UbiSession.apply P) NativeOp s is) :
    ∀ e ∈ (runFrom (UbiSession.apply P) s is).trace, Orderly e := by
  refine invariant_run (J := fun s : UbiSession => ∀ e ∈ s.trace, Orderly e)
    (fun s i hs hi e he => ?_) hs hi
  rcases List.mem_append.1 he with he | he
  · exact hs e he
  · exact (UbiOp.emits P hi).run_of i.outs _ e he

theorem UbiSession.run_trace (s : UbiSession) (is : List UbiInput) :
    s.trace <+: (runFrom (UbiSession.apply P) s is).trace := by
  induction is generalizing s with
  | nil => exact List.prefix_refl _
  | cons i is ih => exact (List.prefix_append _ _).trans (ih (s.apply P i))

theorem UbiSession.run_distinct {is : List UbiInput} (hs : s.NamesDistinct)
    (hi : Along (UbiSession.apply P) NativeOp s is)
    (hclash : ∀ e ∈ (runFrom (UbiSession.apply P) s is).trace, ¬ Clash e) :
    (runFrom (UbiSession.apply P) s is).NamesDistinct := by
  induction is generalizing s with
  | nil => exact hs
  | cons i is ih =>
    have hgrow := (s.apply P i).run_trace (P := P) is
    exact ih (UbiSession.apply_distinct hi.1 hs fun e he => hclash e (hgrow.subset he)) hi.2 hclash

section Sample

open FipUpdate

/-- The calls of a FIP update as operations of a session. -/
def fipCall (i : Call) : UbiInput := ⟨.fipStep, i.ram, i.outs⟩

theorem apply_fipCall (P : Platform) (s : UbiSession) (i : Call) :
    s.apply P (fipCall i) =
      ⟨(Attempt.call P ⟨s.fip, s.world, s.trace⟩ i).ctx, s.upd,
        (Attempt.call P ⟨s.fip, s.world, s.trace⟩ i).world,
        (Attempt.call P ⟨s.fip, s.world, s.trace⟩ i).trace⟩ := by
  have hrun := run_bind_ret exec (FipUpdate.step P s.fip) (fun r => (r.2, s.upd)) i.outs
    { s.world with ram := i.ram }
  simp only [UbiSession.apply, fipCall, UbiOp.prog, Attempt.call]
  exact congrArg (fun r => (⟨r.val.1, r.val.2, r.world, s.trace ++ r.trace⟩ : UbiSession)) hrun

theorem run_fipCalls (P : Platform) (s : UbiSession) (is : List Call) :
    runFrom (UbiSession.apply P) s (is.map fipCall) =
      ⟨(runFrom (Attempt.call P) ⟨s.fip, s.world, s.trace⟩ is).ctx, s.upd,
        (runFrom (Attempt.call P) ⟨s.fip, s.world, s.trace⟩ is).world,
        (runFrom (Attempt.call P) ⟨s.fip, s.world, s.trace⟩ is).trace⟩ := by
  induction is generalizing s with
  | nil => rfl
  | cons i is ih =>
    rw [List.map_cons, runFrom_cons, apply_fipCall, ih, runFrom_cons]

theorem along_fipCalls {is : List Call}
    (h : Along (Attempt.call P) (fun s _ => ¬ s.ctx.stage.Stock) ⟨s.fip, s.world, s.trace⟩ is) :
    Along (UbiSession.apply P) NativeOp s (is.map fipCall) := by
  induction is generalizing s with
  | nil => trivial
  | cons i is ih =>
    refine ⟨fun _ => h.1, ?_⟩
    rw [apply_fipCall]
    exact ih h.2

theorem sample_session {t : VolumeTable} {ok : Attempt → Call → Prop} {T : Attempt → Prop}
    (hok : ∀ s i, ok s i → ¬ s.ctx.stage.Stock)
    (h : ∀ tr, Attempt.CanReach samplePlatform ok T
      ⟨(sampleAttempt t).ctx, sampleWorld t, tr⟩) :
    ∃ is, Along (UbiSession.apply samplePlatform) NativeOp { world := sampleWorld t } is ∧
      ∃ s, T s ∧ runFrom (UbiSession.apply samplePlatform) { world := sampleWorld t } is =
        ⟨s.ctx, {}, s.world, s.trace⟩ := by
  obtain ⟨outs, hval, hworld⟩ := sampleAttempt_start t
  set r := Prog.run exec (startKind samplePlatform {} sampleAddr 1174 .ursus) outs (sampleWorld t)
    with hr
  obtain ⟨is, hal, hT⟩ := h r.trace
  let first : UbiInput := ⟨.fipStart sampleAddr 1174 .ursus, sampleRam false, outs⟩
  have hfirst : UbiSession.apply samplePlatform { world := sampleWorld t } first =
      ⟨(sampleAttempt t).ctx, {}, sampleWorld t, r.trace⟩ := by
    have hrun := run_bind_ret exec (startKind samplePlatform {} sampleAddr 1174 .ursus)
      (fun r => (r.2, ({} : UbiUpdate.Ctx))) outs (sampleWorld t)
    rw [← hr, hval, hworld] at hrun
    exact congrArg (fun r => (⟨r.val.1, r.val.2, r.world, [] ++ r.trace⟩ : UbiSession)) hrun
  refine ⟨first :: is.map fipCall, ⟨(fun hop => nomatch hop), ?_⟩, _, hT, ?_⟩
  · rw [hfirst]
    exact along_fipCalls (hal.mono hok)
  · rw [runFrom_cons, hfirst, run_fipCalls]

theorem not_stock {k : Mode × ℤ} {c₀ c : Ctx} {st : Stage}
    (hc : Running k c₀ { c with announced := false } st) (hst : ¬ st.Stock) : ¬ c.stage.Stock := by
  rw [show c.stage = st from hc.stage]
  exact hst

theorem early_not_stock {c₀ : Ctx} (st : Stage) (c : Ctx) (_ : World) (_ : List FlashEvent)
    (_ : ℕ → Outcome) (hc : Running (.normal, 0) c₀ { c with announced := false } st)
    (hst : st = .precheck ∨ st = .ubiAttach) : ¬ c.stage.Stock := by
  refine not_stock hc ?_
  rcases hst with rfl | rfl
  · exact id
  · exact id

end Sample

end UrsusBoot
