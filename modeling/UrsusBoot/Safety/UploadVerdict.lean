import UrsusBoot.Safety.Uploads
import UrsusBoot.Safety.WebBoard

/-!
# A verdict is about the bytes that are staged

Five kinds of uploads share three windows in RAM. What validation has said of one of them is taken
back before a byte of its window can change.
-/

namespace UrsusBoot

open Prog
open FipUpdate (samplePlatform sampleWorld freshTable)

/-! ## Windows -/

def UploadKind.InWindow (k : UploadKind) (x : ℕ) : Prop :=
  k.stageAddr ≤ x ∧ x < k.stageAddr + k.maxLen

def UploadKind.Shares (k k' : UploadKind) : Prop := k.stageAddr = k'.stageAddr

instance (k k' : UploadKind) : Decidable (k.Shares k') := inferInstanceAs (Decidable (_ = _))

variable {k : UploadKind}

theorem UploadKind.InWindow.below {x : ℕ} (h : k.InWindow x) :
    x < ubiReadbackAddr := by
  have hend : k.stageAddr + k.maxLen ≤ ubiReadbackAddr := by
    cases k <;> decide
  exact lt_of_lt_of_le h.2 hend

theorem UploadKind.InWindow.shares {k k' : UploadKind} {x : ℕ} (h : k.InWindow x)
    (h' : k'.InWindow x) : k.Shares k' := by
  have hapart : k.stageAddr = k'.stageAddr ∨ k.stageAddr + k.maxLen ≤ k'.stageAddr ∨
      k'.stageAddr + k'.maxLen ≤ k.stageAddr := by
    cases k <;> cases k' <;> decide
  unfold InWindow at h h'
  unfold Shares
  omega

theorem Chunk.dest_inWindow (ch : Chunk) {n x : ℕ} (h : ch.dest ≤ x)
    (h' : x < ch.dest + ch.take n) : ch.kind.InWindow x := by
  obtain ⟨haddr, hfit, hrec⟩ := ch.fits
  have htake : ch.take n ≤ ch.contentLen - ch.received := min_le_left _ _
  unfold Chunk.dest at h h'
  unfold UploadKind.InWindow
  omega

/-- The commands store nothing in the window of `k`. -/
def SparesWindow (k : UploadKind) (es : List FlashEvent) : Prop :=
  ∀ e ∈ es, ∀ x, k.InWindow x → ¬ e.cmd.WritesRam x

/-- Of the windows they may only store in the one of `k`. -/
def KeepsToWindow (k : UploadKind) (es : List FlashEvent) : Prop :=
  ∀ e ∈ es, ∀ x < ubiReadbackAddr, e.cmd.WritesRam x → k.InWindow x

variable {es : List FlashEvent}

theorem sparesWindow_of_spares (h : ∀ e ∈ es, e.cmd.SparesStage) (k : UploadKind) :
    SparesWindow k es :=
  fun e he x hx => h e he x hx.below

theorem KeepsToWindow.spares {k k' : UploadKind} (h : KeepsToWindow k es) (hk : ¬ k'.Shares k) :
    SparesWindow k' es :=
  fun e he x hx hw => hk (hx.shares (h e he x hx.below hw))

theorem Stored.keepsToWindow {ch : Chunk} {bs : List UInt8} {w w' : World}
    (h : Stored ch bs w w' es) : KeepsToWindow ch.kind es := by
  intro e he x hx hw
  obtain ⟨hlo, hhi⟩ := h.writes e he x hx hw
  exact ch.dest_inWindow hlo hhi

theorem KeepsToWindow.append {es es' : List FlashEvent} (h : KeepsToWindow k es)
    (h' : ∀ e ∈ es', e.cmd.SparesStage) : KeepsToWindow k (es ++ es') := by
  intro e he x hx hw
  rcases List.mem_append.1 he with he | he
  · exact h e he x hx hw
  · exact absurd hw (h' e he x hx)

theorem KeepsToWindow.after {es es' : List FlashEvent} (h : ∀ e ∈ es, e.cmd.SparesStage)
    (h' : KeepsToWindow k es') : KeepsToWindow k (es ++ es') := by
  intro e he x hx hw
  rcases List.mem_append.1 he with he | he
  · exact absurd hw (h e he x hx)
  · exact h' e he x hx hw

theorem SparesWindow.append {es es' : List FlashEvent} (h : SparesWindow k es)
    (h' : SparesWindow k es') : SparesWindow k (es ++ es') := by
  intro e he
  rcases List.mem_append.1 he with he | he
  · exact h e he
  · exact h' e he

/-! ## Verdicts -/

inductive Finding
  | image (img : ImageState)
  | flag (valid : Bool)

namespace Uploads

variable (u : Uploads)

def verdict : UploadKind → Finding
  | .firmware => .image u.img
  | .initramfs => .image u.expertImg
  | .ubiPreloader => .flag u.preloaderValid
  | .ursusFip => .flag u.fipUploadValid
  | .vanillaFip => .flag u.vanillaUploadValid

/-- The verdict counts: the firmware has reason OK and a type, the initramfs is bootable, a flag is
set. -/
def Validated : UploadKind → Prop
  | .firmware => u.img.reasonClass = .ok ∧ u.img.type ≠ .none
  | .initramfs => u.expertImg.bootableFit = true
  | .ubiPreloader => u.preloaderValid = true
  | .ursusFip => u.fipUploadValid = true
  | .vanillaFip => u.vanillaUploadValid = true

variable {u}

theorem Validated.of_verdict {u' : Uploads} (h : u'.Validated k) (hv : u'.verdict k = u.verdict k) :
    u.Validated k := by
  cases k <;>
    · simp only [verdict, Finding.image.injEq, Finding.flag.injEq] at hv
      simp only [Validated, hv] at h ⊢
      exact h

/-- Of two uploads in one window only one is under way, and none is once one of them counts. -/
structure Sound (u : Uploads) : Prop where
  single : ∀ k k', k ≠ k' → k.Shares k' → (u.session k).active = true →
    (u.session k').active = false
  settled : ∀ k k', u.Validated k → k.Shares k' → (u.session k').active = false

end Uploads

section Updates

variable (s : Web) {k₀ : UploadKind}

theorem begun_session_cleared (u₀ : UploadSession k₀) (hne : k ≠ k₀) (h : k.Shares k₀) :
    (s.begun u₀).session k = .cleared k := by
  cases k₀ <;> cases k <;>
    first
      | exact absurd rfl hne
      | exact absurd h (by decide)
      | rfl

theorem begun_session_of_apart (u₀ : UploadSession k₀) (h : ¬ k.Shares k₀) :
    (s.begun u₀).session k = s.session k := by
  cases k₀ <;> cases k <;>
    first
      | exact absurd rfl h
      | rfl

theorem begun_not_validated (u₀ : UploadSession k₀) (h : k.Shares k₀) :
    ¬ (s.begun u₀).uploads.Validated k := by
  cases k₀ <;> cases k <;>
    first
      | exact absurd h (by decide)
      | exact fun hv => hv.2 rfl
      | exact fun hv => Bool.false_ne_true hv

theorem begun_verdict_of_apart (u₀ : UploadSession k₀) (h : ¬ k.Shares k₀) :
    (s.begun u₀).uploads.verdict k = s.uploads.verdict k := by
  cases k₀ <;> cases k <;>
    first
      | exact absurd rfl h
      | rfl

theorem discarded_session_self : (s.discarded k₀).session k₀ = .cleared k₀ := by
  cases k₀ <;> rfl

theorem discarded_session_of_ne (h : k ≠ k₀) :
    (s.discarded k₀).session k = s.session k := by
  cases k₀ <;> cases k <;>
    first
      | exact absurd rfl h
      | rfl

theorem discarded_session_active (h : ((s.discarded k₀).session k).active = true) :
    (s.session k).active = true := by
  by_cases hk : k = k₀
  · subst hk
    rw [discarded_session_self] at h
    exact absurd h Bool.false_ne_true
  · rwa [discarded_session_of_ne s hk] at h

theorem discarded_not_validated : ¬ (s.discarded k₀).uploads.Validated k₀ := by
  cases k₀ <;>
    first
      | exact fun hv => hv.2 rfl
      | exact fun hv => Bool.false_ne_true hv

theorem discarded_verdict (h : k ≠ k₀) :
    (s.discarded k₀).uploads.verdict k = s.uploads.verdict k := by
  cases k₀ <;> cases k <;>
    first
      | exact absurd rfl h
      | rfl

theorem setSession_self (u₀ : UploadSession k₀) : (s.setSession u₀).session k₀ = u₀ :=
  Function.update_self _ _ _

theorem setSession_of_ne (u₀ : UploadSession k₀) (h : k ≠ k₀) :
    (s.setSession u₀).session k = s.session k :=
  Function.update_of_ne h _ _

theorem setSession_verdict (u₀ : UploadSession k₀) (k : UploadKind) :
    (s.setSession u₀).uploads.verdict k = s.uploads.verdict k := by
  cases k <;> rfl

theorem completeUpload_verdict (P : Platform) (L : FitLib) (k₀ : UploadKind) :
    Gives (fun r => r.web.session = s.session ∧
      ∀ k, k ≠ k₀ → r.web.uploads.verdict k = s.uploads.verdict k) (completeUpload P L s k₀) := by
  cases k₀ <;>
    · apply yields_then
      intro r
      apply yields_ret
      refine ⟨rfl, fun k hk => ?_⟩
      cases k <;> first | exact absurd rfl hk | rfl

end Updates

/-! ## Events -/

/-- Validation of the upload `k`, in the state `s` with the session `u₀`: right after the note that
the upload is complete. -/
inductive Validation (P : Platform) (L : FitLib) (s : Web) (k : UploadKind) (u' : Uploads) (w' : World)
    (es : List FlashEvent) : Prop
  | intro {n : ℕ} {r : Served} {w₁ w₂ : World} {o : Outcome} {os : ℕ → Outcome}
      {before during after : List FlashEvent} :
      es = before ++ ⟨.logf (.uploadComplete k.name (s.session k).generation (s.session k).filename
        (s.session k).total n), o, w₁⟩ :: (during ++ after) →
      run exec (completeUpload P L (s.setSession ((s.session k).receive n).close) k) os w₁ =
        ⟨r, w₂, during⟩ →
      u' = r.web.uploads → Calm w₁ w' (during ++ after) → KeepsToWindow k before →
      Validation P L s k u' w' es

inductive UploadsStep (P : Platform) (L : FitLib) (s : Web) (u' : Uploads) (w' : World)
    (es : List FlashEvent) : Prop
  | same : u' = s.uploads → (∀ e ∈ es, e.cmd.SparesStage) → UploadsStep P L s u' w' es
  | cleared : u' = ({} : Web).uploads → (∀ e ∈ es, e.cmd.SparesStage) → UploadsStep P L s u' w' es
  | begun {k : UploadKind} (u₀ : UploadSession k) : u' = (s.begun u₀).uploads →
      (∀ e ∈ es, e.cmd.SparesStage) → UploadsStep P L s u' w' es
  | discarded (k : UploadKind) : u' = (s.discarded k).uploads → (∀ e ∈ es, e.cmd.SparesStage) →
      UploadsStep P L s u' w' es
  /-- Bytes of a chunk: the session is as it was, or has moved on. -/
  | stored (k : UploadKind) : (s.session k).active = true →
      (u' = s.uploads ∨ ∃ n, u' = (s.setSession ((s.session k).receive n)).uploads) →
      KeepsToWindow k es → UploadsStep P L s u' w' es
  | completed (k : UploadKind) : (s.session k).active = true → Validation P L s k u' w' es →
      UploadsStep P L s u' w' es

section Steps

variable {P : Platform} {L : FitLib} {s : Web}

theorem Requested.step {ro : Route} {r : Served} {w' : World} (h : Requested ro s r)
    (hes : ∀ e ∈ es, e.cmd.SparesStage) :
    UploadsStep P L s r.web.uploads w' es := by
  cases h with
  | other hkeep => exact .same hkeep.1 hes
  | begun _ _ hweb =>
    rw [hweb]
    exact .begun _ rfl hes
  | discarded _ hweb =>
    rw [hweb]
    exact .discarded _ rfl hes
  | bootOnce _ _ hweb =>
    rw [hweb]
    exact .same rfl hes
  | install _ _ hweb =>
    rw [hweb]
    exact .same rfl hes
  | reboot _ _ hweb =>
    rw [hweb]
    exact .same rfl hes

theorem Delivers.step {ch : Chunk} {bs : List UInt8} {w w₁ w' : World} {x : Fed}
    {es es₀ es₁ : List FlashEvent} (h : Delivers P L s ch bs w x w₁ es)
    (h₀ : ∀ e ∈ es₀, e.cmd.SparesStage) (h₁ : Calm w₁ w' es₁) :
    UploadsStep P L s x.web.uploads w' (es₀ ++ es ++ es₁) := by
  have hcalm : es = [] → ∀ e ∈ es₀ ++ es ++ es₁, e.cmd.SparesStage := by
    intro hnil e he
    rw [hnil, List.append_nil, List.mem_append] at he
    exact he.elim (h₀ e) (h₁.spares e)
  have hstored : ∀ {w₁ : World} {es : List FlashEvent}, Stored ch bs w w₁ es →
      KeepsToWindow ch.kind (es₀ ++ es) := fun hst => .after h₀ hst.keepsToWindow
  cases h with
  | nothing _ => exact .same rfl (hcalm rfl)
  | refused _ _ => exact .same rfl (hcalm rfl)
  | part hact _ hst => exact .stored ch.kind hact (.inl rfl) ((hstored hst).append h₁.spares)
  | stale hact _ _ hst hweb =>
    exact .stored ch.kind hact (.inl (congrArg Web.uploads hweb)) ((hstored hst).append h₁.spares)
  | accepted hact _ _ _ hst hweb =>
    exact .stored ch.kind hact (.inr ⟨_, congrArg Web.uploads hweb⟩)
      ((hstored hst).append h₁.spares)
  | @completed r w₂ w₁ es es' o os hact _ _ _ hst hrun _ _ =>
    have hduring : Calm w₂ w₁ es' := by
      have hall := calm_run (sparesStage_completeUpload P L
        (s.setSession (s.advanced ch).close) ch.kind) os w₂
      rw [hrun] at hall
      exact hall
    have hes : es₀ ++ (es ++ ⟨.logf (.uploadComplete ch.kind.name (s.session ch.kind).generation
        (s.session ch.kind).filename (s.session ch.kind).total (ch.offset + ch.contentLen)), o, w₂⟩ ::
          es') ++ es₁ = (es₀ ++ es) ++ ⟨.logf (.uploadComplete ch.kind.name
        (s.session ch.kind).generation (s.session ch.kind).filename (s.session ch.kind).total
          (ch.offset + ch.contentLen)), o, w₂⟩ :: (es' ++ es₁) := by
      simp only [List.append_assoc, List.cons_append]
    exact .completed ch.kind hact (.intro hes hrun rfl (hduring.trans h₁) (hstored hst))

theorem Fed.heard_web (x : Fed) (c : Conn) : (x.heard c).web = x.web := by
  cases x <;> rfl

theorem Board.Moves.step {b b' : Board} {i : Input × (ℕ → Outcome)} (h : b.Moves P L i b' es) :
    UploadsStep P L b.host.web b'.host.web.uploads b'.world es := by
  cases h with
  | quiet _ hsame hcalm => exact .same hsame.uploads hcalm.spares
  | opened _ _ hb hes =>
    rw [hb, hes]
    exact .same rfl fun _ he => nomatch he
  | restarted _ _ hclear _ hcalm => exact .cleared hclear hcalm.spares
  | heard _ _ _ _ hhears hcalm hes hup =>
    have hall : ∀ {es₁ es₂ : List FlashEvent}, (∀ e ∈ es₁, e.cmd.SparesStage) →
        (∀ e ∈ es₂, e.cmd.SparesStage) → ∀ e ∈ es₁ ++ es₂, e.cmd.SparesStage := by
      intro es₁ es₂ h₁ h₂ e he
      exact (List.mem_append.1 he).elim (h₁ e) (h₂ e)
    rw [hup, hes]
    cases hhears with
    | ignored _ => exact .same rfl (hall (fun _ he => nomatch he) hcalm.spares)
    | header _ _ _ => exact .same rfl (hall (fun _ he => nomatch he) hcalm.spares)
    | overflow _ _ _ => exact .same rfl (hall (fun _ he => nomatch he) hcalm.spares)
    | request _ _ _ hreq hreqcalm => exact hreq.step (hall hreqcalm.spares hcalm.spares)
    | admitted _ _ _ _ _ hpre hd =>
      rw [Fed.heard_web]
      exact hd.step hpre.spares hcalm
    | body _ _ _ hd =>
      rw [Fed.heard_web]
      have hnone : ∀ e ∈ ([] : List FlashEvent), e.cmd.SparesStage := fun _ he => nomatch he
      exact hd.step hnone hcalm

theorem Validation.others {u' : Uploads} {w' : World} (h : Validation P L s k u' w' es) :
    (u'.session k).active = false ∧
      (∀ k', k' ≠ k → u'.session k' = s.session k') ∧
      ∀ k', k' ≠ k → u'.verdict k' = s.uploads.verdict k' := by
  obtain ⟨-, hrun, hu, -, -⟩ := h
  rename_i n r w₁ w₂ o os before during after
  have hy := (completeUpload_verdict (s.setSession ((s.session k).receive n).close) P L k).run_of os
    w₁ fun _ _ => trivial
  rw [hrun] at hy
  have hsession : u'.session = (s.setSession ((s.session k).receive n).close).session := by
    rw [hu]
    exact hy.1
  refine ⟨?_, fun k' hk => ?_, fun k' hk => ?_⟩
  · rw [hsession, setSession_self]
    rfl
  · rw [hsession, setSession_of_ne s _ hk]
  · rw [hu, hy.2 k' hk, setSession_verdict]

/-- **Step.** The uploads stay sound. -/
theorem UploadsStep.sound {u' : Uploads} {w' : World} (h : UploadsStep P L s u' w' es)
    (hs : s.uploads.Sound) : u'.Sound := by
  cases h with
  | same hu _ =>
    rw [hu]
    exact hs
  | cleared hu _ =>
    rw [hu]
    exact ⟨fun _ _ _ _ _ => rfl, fun _ _ _ _ => rfl⟩
  | @begun k₀ u₀ hu _ =>
    rw [hu]
    constructor
    · intro k k' hne hsh hact
      by_cases hk : k.Shares k₀
      · -- in the window of the new upload everything else has been cleared
        by_cases hk' : k' = k₀
        · have hkne : k ≠ k₀ := fun he => hne (he.trans hk'.symm)
          have hact' : ((s.begun u₀).session k).active = true := hact
          rw [begun_session_cleared s u₀ hkne hk] at hact'
          exact absurd hact' Bool.false_ne_true
        · show ((s.begun u₀).session k').active = false
          rw [begun_session_cleared s u₀ hk' (hsh.symm.trans hk)]
          rfl
      · have hk' : ¬ k'.Shares k₀ := fun he => hk (hsh.trans he)
        have hact' : ((s.begun u₀).session k).active = true := hact
        rw [begun_session_of_apart s u₀ hk] at hact'
        show ((s.begun u₀).session k').active = false
        rw [begun_session_of_apart s u₀ hk']
        exact hs.single k k' hne hsh hact'
    · intro k k' hval hsh
      have hk : ¬ k.Shares k₀ := fun he => begun_not_validated s u₀ he hval
      have hk' : ¬ k'.Shares k₀ := fun he => hk (hsh.trans he)
      show ((s.begun u₀).session k').active = false
      rw [begun_session_of_apart s u₀ hk']
      exact hs.settled k k' (hval.of_verdict (begun_verdict_of_apart s u₀ hk)) hsh
  | discarded k₀ hu _ =>
    rw [hu]
    have hoff : ∀ k, (s.session k).active = false → ((s.discarded k₀).session k).active = false := by
      intro k hk
      by_contra hno
      exact absurd (hk.symm.trans (discarded_session_active s (by simpa using hno))) (by decide)
    constructor
    · intro k k' hne hsh hact
      exact hoff k' (hs.single k k' hne hsh (discarded_session_active s hact))
    · intro k k' hval hsh
      have hk : k ≠ k₀ := by
        rintro rfl
        exact discarded_not_validated s hval
      exact hoff k' (hs.settled k k' (hval.of_verdict (discarded_verdict s hk)) hsh)
  | stored k₀ hact hu _ =>
    rcases hu with hu | ⟨n, hu⟩
    · rw [hu]
      exact hs
    · rw [hu]
      have hsame : ∀ k, ((s.setSession ((s.session k₀).receive n)).session k).active =
          (s.session k).active := by
        intro k
        by_cases hk : k = k₀
        · subst hk
          rw [setSession_self]
          rfl
        · rw [setSession_of_ne s _ hk]
      constructor
      · intro k k' hne hsh hact'
        exact (hsame k').trans (hs.single k k' hne hsh ((hsame k).symm.trans hact'))
      · intro k k' hval hsh
        exact (hsame k').trans
          (hs.settled k k' (hval.of_verdict (setSession_verdict s _ k)) hsh)
  | completed k₀ hact hval =>
    obtain ⟨hoff, hsession, hverdict⟩ := hval.others
    constructor
    · intro k k' hne hsh hact'
      by_cases hk' : k' = k₀
      · rw [hk']
        exact hoff
      · have hk : k ≠ k₀ := by
          rintro rfl
          exact absurd (hoff.symm.trans hact') (by decide)
        rw [hsession k' hk']
        rw [hsession k hk] at hact'
        exact hs.single k k' hne hsh hact'
    · intro k k' hv hsh
      by_cases hk' : k' = k₀
      · rw [hk']
        exact hoff
      · rw [hsession k' hk']
        by_cases hk : k = k₀
        · -- the other upload of the window gave way when this one began
          subst hk
          exact hs.single k k' (fun he => hk' he.symm) hsh hact
        · exact hs.settled k k' (hv.of_verdict (hverdict k hk)) hsh

/-- **Step.** An upload that counts after an event counted before it, and nothing was stored in its
window; or the event is its validation. -/
theorem UploadsStep.validated {u' : Uploads} {w' : World} (h : UploadsStep P L s u' w' es)
    (hs : s.uploads.Sound) (hv : u'.Validated k) :
    (u'.verdict k = s.uploads.verdict k ∧ SparesWindow k es) ∨
      (¬ s.uploads.Validated k ∧ Validation P L s k u' w' es) := by
  cases h with
  | same hu hes => exact .inl ⟨by rw [hu], sparesWindow_of_spares hes k⟩
  | cleared hu _ =>
    rw [hu] at hv
    cases k with
    | firmware => exact absurd rfl hv.2
    | initramfs => exact absurd hv Bool.false_ne_true
    | ubiPreloader => exact absurd hv Bool.false_ne_true
    | ursusFip => exact absurd hv Bool.false_ne_true
    | vanillaFip => exact absurd hv Bool.false_ne_true
  | @begun k₀ u₀ hu hes =>
    rw [hu] at hv ⊢
    have hk : ¬ k.Shares k₀ := fun he => begun_not_validated s u₀ he hv
    exact .inl ⟨begun_verdict_of_apart s u₀ hk, sparesWindow_of_spares hes k⟩
  | discarded k₀ hu hes =>
    rw [hu] at hv ⊢
    have hk : k ≠ k₀ := by
      rintro rfl
      exact discarded_not_validated s hv
    exact .inl ⟨discarded_verdict s hk, sparesWindow_of_spares hes k⟩
  | stored k₀ hact hu hes =>
    have hverdict : u'.verdict k = s.uploads.verdict k := by
      rcases hu with hu | ⟨n, hu⟩
      · rw [hu]
      · rw [hu, setSession_verdict]
    have hk : ¬ k.Shares k₀ := by
      intro he
      have hoff := hs.settled k k₀ (hv.of_verdict hverdict) he
      exact absurd (hoff.symm.trans hact) (by decide)
    exact .inl ⟨hverdict, hes.spares hk⟩
  | completed k₀ hact hval =>
    by_cases hk : k = k₀
    · subst hk
      right
      refine ⟨fun hv' => ?_, hval⟩
      have hoff := hs.settled k k hv' rfl
      exact absurd (hoff.symm.trans hact) (by decide)
    · have hverdict := hval.others.2.2 k hk
      have hsh : ¬ k.Shares k₀ := by
        intro he
        have hoff := hs.settled k k₀ (hv.of_verdict hverdict) he
        exact absurd (hoff.symm.trans hact) (by decide)
      left
      refine ⟨hverdict, ?_⟩
      obtain ⟨hes, -, -, hcalm, hbefore⟩ := hval
      rw [hes]
      refine (hbefore.spares hsh).append ?_
      intro e he
      rcases List.mem_cons.1 he with rfl | he
      · exact fun _ _ => id
      · exact sparesWindow_of_spares hcalm.spares k e he

end Steps

/-! ## Runs -/

/-- The event is the validation that makes the upload count: the note that it is complete, the
validation, and nothing stored in its window from there on. -/
def Board.Validates (P : Platform) (L : FitLib) (b : Board) (i : Input × (ℕ → Outcome))
    (k : UploadKind) : Prop :=
  ¬ b.host.web.uploads.Validated k ∧ (b.step P L i).host.web.uploads.Validated k ∧
    ∃ before n o w₁ r w₂ os during after,
      b.trace P L i = before ++ ⟨.logf (.uploadComplete k.name (b.host.web.session k).generation
        (b.host.web.session k).filename (b.host.web.session k).total n), o, w₁⟩ ::
          (during ++ after) ∧
      run exec (completeUpload P L
        (b.host.web.setSession ((b.host.web.session k).receive n).close) k) os w₁ =
          ⟨r, w₂, during⟩ ∧
      (b.step P L i).host.web.uploads.verdict k = r.web.uploads.verdict k ∧
      SparesWindow k (during ++ after)

/-- Since then the verdict has stood, and nothing has been stored in the window. -/
def Board.Stands (P : Platform) (L : FitLib) (k : UploadKind) (v : Finding) (b : Board)
    (i : Input × (ℕ → Outcome)) : Prop :=
  b.host.web.uploads.verdict k = v ∧ SparesWindow k (b.trace P L i)

theorem sound_run (P : Platform) (L : FitLib) (w : World) (is : List (Input × (ℕ → Outcome))) :
    (runFrom (Board.step P L) (Board.powerOn w) is).host.web.uploads.Sound := by
  refine history_run (J := fun _ (b : Board) => b.host.web.uploads.Sound) ?_ ?_ is
  · exact ⟨fun _ _ _ _ _ => rfl, fun _ _ _ _ => rfl⟩
  · intro is i hs
    exact (board_moves P L _ i).step.sound hs

/-- **A verdict is about the bytes that are staged.** -/
theorem validated_window_untouched (P : Platform) (L : FitLib) (w : World)
    (is : List (Input × (ℕ → Outcome))) (k : UploadKind)
    (h : (runFrom (Board.step P L) (Board.powerOn w) is).host.web.uploads.Validated k) :
    ∃ js i ks, is = js ++ i :: ks ∧
      (runFrom (Board.step P L) (Board.powerOn w) js).Validates P L i k ∧
      Along (Board.step P L) (Board.Stands P L k
        ((runFrom (Board.step P L) (Board.powerOn w) is).host.web.uploads.verdict k))
        (runFrom (Board.step P L) (Board.powerOn w) (js ++ [i])) ks := by
  induction is using List.reverseRecOn with
  | nil => cases k <;> first | exact absurd rfl h.2 | exact absurd h Bool.false_ne_true
  | append_singleton is i ih =>
    have hlast : runFrom (Board.step P L) (Board.powerOn w) (is ++ [i]) =
        (runFrom (Board.step P L) (Board.powerOn w) is).step P L i := by
      rw [runFrom_append]
      rfl
    rw [hlast] at h ⊢
    set b := runFrom (Board.step P L) (Board.powerOn w) is with hb
    rcases (board_moves P L b i).step.validated (sound_run P L w is) h with
      ⟨hverdict, hspares⟩ | ⟨hno, hval⟩
    · -- the verdict stood before, and the run is one event longer
      obtain ⟨js, i₀, ks, his, hset, hstands⟩ := ih (h.of_verdict hverdict)
      refine ⟨js, i₀, ks ++ [i], by rw [his]; simp, hset, ?_⟩
      rw [along_append, hverdict]
      refine ⟨hstands, ?_, trivial⟩
      have hend : runFrom (Board.step P L)
          (runFrom (Board.step P L) (Board.powerOn w) (js ++ [i₀])) ks = b := by
        rw [← runFrom_append, hb, his]
        simp
      rw [hend]
      exact ⟨rfl, hspares⟩
    · obtain ⟨hes, hrun, hu, hcalm, -⟩ := hval
      exact ⟨is, i, [], rfl, ⟨hno, h, _, _, _, _, _, _, _, _, _, hes, hrun, by rw [hu],
        sparesWindow_of_spares hcalm.spares k⟩, trivial⟩

/-- A UBI sysupgrade is uploaded to the sample board. -/
theorem validated_window_untouched_image :
    ∃ is, (runFrom (Board.step samplePlatform boardFitLib) (Board.powerOn (sampleWorld freshTable))
        is).host.web.uploads.Validated .firmware ∧
      ∃ js i ks, is = js ++ i :: ks ∧
        (runFrom (Board.step samplePlatform boardFitLib) (Board.powerOn (sampleWorld freshTable))
          js).Validates samplePlatform boardFitLib i .firmware ∧
        Along (Board.step samplePlatform boardFitLib) (Board.Stands samplePlatform boardFitLib .firmware
          ((runFrom (Board.step samplePlatform boardFitLib) (Board.powerOn (sampleWorld freshTable))
            is).host.web.uploads.verdict .firmware))
          (runFrom (Board.step samplePlatform boardFitLib) (Board.powerOn (sampleWorld freshTable))
            (js ++ [i])) ks := by
  obtain ⟨is, s, w, hserving, -, himg, -⟩ := reaches_of_first (leads_image onBoard_first)
  have hvalid : (runFrom (Board.step samplePlatform boardFitLib)
      (Board.powerOn (sampleWorld freshTable)) is).host.web.uploads.Validated .firmware := by
    show (Board.host _).web.img.reasonClass = .ok ∧ (Board.host _).web.img.type ≠ .none
    rw [hserving.web, himg]
    exact ⟨rfl, by decide⟩
  exact ⟨is, hvalid, validated_window_untouched samplePlatform boardFitLib (sampleWorld freshTable) is
    .firmware hvalid⟩

end UrsusBoot
