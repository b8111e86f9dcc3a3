import UrsusBoot.Safety.WebBoard

/-!
# The operation the status shows

`ursus_build_status` goes through the engines in a fixed order and takes the first that is active or
has ended; an engine that has ended keeps its place until the next boot.
-/

namespace UrsusBoot

open FipUpdate (samplePlatform sampleWorld freshTable)

/-- The status says that an operation is active, and shows the name and the report of an engine that
is. -/
def ShowsActive (e : Engines) : Prop :=
  e.operationReport.active = true ∧
    ((e.operation = .ubiUpdate ∧ e.operationReport = e.upd.report ∧ e.upd.active = true) ∨
      (e.operation = .stockToUbi ∧ e.operationReport = e.mig.report ∧ e.mig.active = true) ∨
      (e.operation = .ursusbootUpdate ∧ e.operationReport = e.fip.report.toReport ∧
        e.fip.active = true))

/-- An engine that is not active but has something to show stands in front of an active one. -/
def Shadowed (e : Engines) : Prop :=
  (e.upd.active = false ∧ e.upd.report.seen = true ∧ (e.mig.active = true ∨ e.fip.active = true)) ∨
    (e.upd.report.seen = false ∧ e.mig.active = false ∧ e.mig.report.seen = true ∧
      e.fip.active = true)

section Report

variable (e : Engines)

theorem upd_seen_of_active {c : UbiUpdate.Ctx} (h : c.active = true) : c.report.seen = true := by
  simp [Report.seen, UbiUpdate.Ctx.report, h]

theorem mig_seen_of_active {c : Migration.Ctx} (h : c.active = true) : c.report.seen = true := by
  simp [Report.seen, Migration.Ctx.report, h]

theorem fip_seen_of_active {c : FipUpdate.Ctx} (h : c.active = true) :
    c.report.toReport.seen = true := by
  simp [Report.seen, FipUpdate.Ctx.report, h]

theorem anyActive_iff : e.anyActive = true ↔
    e.upd.active = true ∨ e.mig.active = true ∨ e.fip.active = true := by
  simp [Engines.anyActive, or_assoc]

theorem showsActive_of_upd (h : e.upd.active = true) : ShowsActive e := by
  have hop : e.operation = .ubiUpdate := by simp [Engines.operation, upd_seen_of_active h]
  have hrep : e.operationReport = e.upd.report := by simp [Engines.operationReport, hop]
  refine ⟨?_, .inl ⟨hop, hrep, h⟩⟩
  rw [hrep]
  exact h

theorem showsActive_of_mig (hupd : e.upd.report.seen = false) (h : e.mig.active = true) :
    ShowsActive e := by
  have hop : e.operation = .stockToUbi := by simp [Engines.operation, hupd, mig_seen_of_active h]
  have hrep : e.operationReport = e.mig.report := by simp [Engines.operationReport, hop]
  refine ⟨?_, .inr (.inl ⟨hop, hrep, h⟩)⟩
  rw [hrep]
  exact h

theorem showsActive_of_fip (hupd : e.upd.report.seen = false) (hmig : e.mig.report.seen = false)
    (h : e.fip.active = true) : ShowsActive e := by
  have hop : e.operation = .ursusbootUpdate := by
    simp [Engines.operation, hupd, hmig, fip_seen_of_active h]
  have hrep : e.operationReport = e.fip.report.toReport := by simp [Engines.operationReport, hop]
  refine ⟨?_, .inr (.inr ⟨hop, hrep, h⟩)⟩
  rw [hrep]
  exact h

/-- **In a state**, an active engine goes unshown exactly when one that has ended stands in front of
it. -/
theorem showsActive_iff : (e.anyActive = true → ShowsActive e) ↔ ¬ Shadowed e := by
  constructor
  · rintro h (⟨hupd, hseen, hlow⟩ | ⟨hupd, hmig, hseen, hfip⟩)
    · have hany : e.anyActive = true := (anyActive_iff e).2 (.inr hlow)
      have hop : e.operation = .ubiUpdate := by simp [Engines.operation, hseen]
      have hact : e.operationReport.active = true := (h hany).1
      simp only [Engines.operationReport, hop] at hact
      exact absurd hact (by simp [UbiUpdate.Ctx.report, hupd])
    · have hany : e.anyActive = true := (anyActive_iff e).2 (.inr (.inr hfip))
      have hop : e.operation = .stockToUbi := by simp [Engines.operation, hupd, hseen]
      have hact : e.operationReport.active = true := (h hany).1
      simp only [Engines.operationReport, hop] at hact
      exact absurd hact (by simp [Migration.Ctx.report, hmig])
  · intro hno hany
    by_cases hupd : e.upd.active = true
    · exact showsActive_of_upd e hupd
    · have hupd' : e.upd.active = false := by simpa using hupd
      have hlow := ((anyActive_iff e).1 hany).resolve_left hupd
      have hseen : e.upd.report.seen = false := by
        by_contra hs
        exact hno (.inl ⟨hupd', by simpa using hs, hlow⟩)
      by_cases hmig : e.mig.active = true
      · exact showsActive_of_mig e hseen hmig
      · have hmig' : e.mig.active = false := by simpa using hmig
        have hfip := hlow.resolve_left hmig
        have hseen' : e.mig.report.seen = false := by
          by_contra hs
          exact hno (.inr ⟨hseen, hmig', by simpa using hs, hfip⟩)
        exact showsActive_of_fip e hseen hseen' hfip

end Report

/-! ## Runs -/

/-- The engines are in order: whatever stands in front of an active engine has never been started. -/
structure InOrder (e : Engines) : Prop where
  mig : e.mig.active = true → e.upd.report.seen = false
  fip : e.fip.active = true → e.upd.report.seen = false ∧ e.mig.report.seen = false

theorem InOrder.shows {e : Engines} (h : InOrder e) (hany : e.anyActive = true) : ShowsActive e := by
  refine (showsActive_iff e).2 ?_ hany
  rintro (⟨-, hseen, hlow⟩ | ⟨-, -, hseen, hfip⟩)
  · rcases hlow with hmig | hfip
    · exact absurd (h.mig hmig) (by simp [hseen])
    · exact absurd (h.fip hfip).1 (by simp [hseen])
  · exact absurd (h.fip hfip).2 (by simp [hseen])

/-- A request that may start an operation comes in turn: one that migrates only if no UBI update has
been started since the board came up and no bootloader update is active, one for the bootloader only
if neither a UBI update nor a migration has been started. -/
def InTurn (b : Board) (i : Input × (ℕ → Outcome)) : Prop :=
  (b.host.completes i.1 = some .installUbi → b.host.web.currentLayout.Migratable →
    b.host.web.engines.upd.report.seen = false ∧ b.host.web.engines.fip.active = false) ∧
  (b.host.completes i.1 = some .updateUrsusboot ∨ b.host.completes i.1 = some .replaceWithVanilla →
    b.host.web.engines.upd.report.seen = false ∧ b.host.web.engines.mig.report.seen = false)

theorem InOrder.starts {ro : Option Route} {l : Layout} {d d' : Drive} (h : InOrder d.engines)
    (hstep : Starts ro l d d')
    (hmig : ro = some .installUbi → l.Migratable →
      d.engines.upd.report.seen = false ∧ d.engines.fip.active = false)
    (hfip : ro = some .updateUrsusboot ∨ ro = some .replaceWithVanilla →
      d.engines.upd.report.seen = false ∧ d.engines.mig.report.seen = false) :
    InOrder d'.engines := by
  cases hstep with
  | none bl2 => exact ⟨h.mig, h.fip⟩
  | update upd _ _ hnone _ _ =>
    have hidle : d.engines.mig.active = false ∧ d.engines.fip.active = false := by
      simp only [Engines.anyActive, Bool.or_eq_false_iff] at hnone
      exact ⟨hnone.1.2, hnone.2⟩
    constructor
    · intro hact
      exact absurd hact (by simp [hidle.1])
    · intro hact
      exact absurd hact (by simp [hidle.2])
  | migration mig hro hl _ _ _ =>
    obtain ⟨hupd, hidle⟩ := hmig hro hl
    constructor
    · intro _
      exact hupd
    · intro hact
      exact absurd hact (by simp [hidle])
  | bootloader fip hro hidle _ _ _ =>
    constructor
    · intro hact
      exact absurd hact (by simp [hidle])
    · intro _
      exact hfip hro
  | cleared fip _ _ _ hact _ =>
    constructor
    · exact h.mig
    · intro hact'
      exact absurd hact' (by simp [hact])

theorem InOrder.serviced {d d' : Drive} (h : InOrder d.engines) (hstep : Serviced d d') :
    InOrder d'.engines := by
  have hupd : d.engines.upd.report.seen = false → d'.engines.upd = d.engines.upd := by
    intro hseen
    apply hstep.upd
    have hact : d.engines.upd.active = false := by
      by_contra hact
      exact absurd (upd_seen_of_active (by simpa using hact)) (by simp [hseen])
    simp [hact]
  have hmig : d.engines.mig.active = false → d'.engines.mig = d.engines.mig := by
    intro hact
    apply hstep.mig
    simp [hact]
  have hfip : d.engines.fip.active = false → d'.engines.fip = d.engines.fip := by
    intro hact
    apply hstep.fip
    simp [hact]
  constructor
  · intro hact'
    have hact : d.engines.mig.active = true := by
      by_contra hno
      have hno' : d.engines.mig.active = false := by simpa using hno
      rw [hmig hno'] at hact'
      exact hno hact'
    rw [hupd (h.mig hact)]
    exact h.mig hact
  · intro hact'
    have hact : d.engines.fip.active = true := by
      by_contra hno
      have hno' : d.engines.fip.active = false := by simpa using hno
      rw [hfip hno'] at hact'
      exact hno hact'
    have hseen := (h.fip hact).2
    have hidle : d.engines.mig.active = false := by
      by_contra hmact
      exact absurd (mig_seen_of_active (by simpa using hmact)) (by simp [hseen])
    rw [hupd (h.fip hact).1, hmig hidle]
    exact h.fip hact

theorem InOrder.step (P : Platform) (L : FitLib) (b : Board) (i : Input × (ℕ → Outcome))
    (h : InOrder b.host.web.engines) (hturn : InTurn b i) :
    InOrder (b.step P L i).host.web.engines := by
  have hstep := Board.step_drive P L b i
  have heng : (b.step P L i).host.web.engines = (b.step P L i).host.web.drive.engines := rfl
  rw [heng]
  generalize (b.step P L i).host.web.drive = d at hstep
  cases hstep with
  | starts hs => exact InOrder.starts h hs hturn.1 hturn.2
  | serviced _ _ _ hs => exact InOrder.serviced h hs
  | restarted => exact h

end UrsusBoot
