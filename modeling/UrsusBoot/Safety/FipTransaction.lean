import UrsusBoot.Safety.FipProgress
import UrsusBoot.Safety.Switch

/-!
# The FIP transaction keeps a working bootloader

An update of a valid active `fip` stages the candidate in `fip.new`, checks it there, and exchanges
names in one change of the volume table. The original is either still `fip` (`Held`) or has been
moved to `fip.old` by a switch that found no `fip.old` (`Moved`); each stage keeps one of the two
after every single command, and a rollback leads from the second back to the first.
-/

namespace UrsusBoot

open Prog

namespace FipUpdate

/-! ## What must survive -/

/-- The bytes were read back from `fip.new`, found in the candidate's window of RAM as well, and
are an acceptable FIP. -/
def ReadBack (P : Platform) (c₀ : Ctx) (tr : List FlashEvent) (bs : List UInt8) : Prop :=
  fipAccepts P c₀.kind bs = true ∧
    (∃ e ∈ tr, e.cmd = .ubiRead ubiReadbackAddr "fip.new" c₀.len ∧
      (e.after exec).ram.slice ubiReadbackAddr c₀.len = bs) ∧
    ∃ e ∈ tr, e.cmd = .readMem c₀.addr c₀.len ∧ e.before.ram.slice c₀.addr c₀.len = bs

/-- The name `fip` denotes the original or a candidate that was read back, and the original still
exists under one of its two names. -/
structure Kept (P : Platform) (c₀ : Ctx) (v₀ : Volume) (tr : List FlashEvent) (t : VolumeTable) :
    Prop where
  active : ∃ i v, t.lookup "fip" = some (i, v) ∧ (v = v₀ ∨ ReadBack P c₀ tr v.data)
  original : ∃ i, t i = some ("fip", v₀) ∨ t i = some ("fip.old", v₀)

/-- What holds after each command: nothing is lost, and a reported rollback has happened. -/
def FipKept (P : Platform) (c₀ : Ctx) (v₀ : Volume) (before : List FlashEvent) (e : FlashEvent) :
    Prop :=
  Kept P c₀ v₀ before ((e.after exec).vols .native) ∧
    ∀ mode, e.cmd = .printf (rollbackOk mode) →
      ∃ i, ((e.after exec).vols .native).lookup "fip" = some (i, v₀)

theorem ReadBack.mono {P : Platform} {c₀ : Ctx} {tr tr' : List FlashEvent} {bs : List UInt8}
    (h : ReadBack P c₀ tr bs) (htr : tr <+: tr') : ReadBack P c₀ tr' bs := by
  obtain ⟨hacc, ⟨e, he, hread⟩, e', he', hmem⟩ := h
  exact ⟨hacc, ⟨e, htr.subset he, hread⟩, e', htr.subset he', hmem⟩

/-! ## The two places of the original -/

section Places

variable {i₀ : Fin vtblSlots} {v₀ : Volume} {R : List UInt8 → Prop} {t t' : VolumeTable}

/-- The original is the one volume named `fip`. -/
structure Held (i₀ : Fin vtblSlots) (v₀ : Volume) (t : VolumeTable) : Prop where
  slot : t i₀ = some ("fip", v₀)
  unique : t.UniqueName "fip"

/-- The original is the one volume named `fip.old`, and the one named `fip` meets `R`. -/
structure Moved (i₀ : Fin vtblSlots) (v₀ : Volume) (R : List UInt8 → Prop) (t : VolumeTable) :
    Prop where
  slot : t i₀ = some ("fip.old", v₀)
  uniqueOld : t.UniqueName "fip.old"
  unique : t.UniqueName "fip"
  promoted : ∃ j v, t j = some ("fip", v) ∧ R v.data

theorem Held.lookup (h : Held i₀ v₀ t) : t.lookup "fip" = some (i₀, v₀) :=
  Slots.lookup_eq_some.2 ⟨h.unique.find?_eq (Slots.named_of_eq h.slot), h.slot⟩

theorem Held.agree (h : Held i₀ v₀ t) (ha : Slots.Agree "fip" t t') : Held i₀ v₀ t' :=
  ⟨(ha i₀ v₀).1 h.slot, ha.uniqueName h.unique⟩

theorem Moved.agree (h : Moved i₀ v₀ R t) (ha : Slots.Agree "fip" t t')
    (hold : Slots.Agree "fip.old" t t') : Moved i₀ v₀ R t' := by
  obtain ⟨j, v, hj, hR⟩ := h.promoted
  exact ⟨(hold i₀ v₀).1 h.slot, hold.uniqueName h.uniqueOld, ha.uniqueName h.unique,
    j, v, (ha j v).1 hj, hR⟩

theorem Moved.mono {R' : List UInt8 → Prop} (h : Moved i₀ v₀ R t) (hR : ∀ bs, R bs → R' bs) :
    Moved i₀ v₀ R' t := by
  obtain ⟨j, v, hj, hv⟩ := h.promoted
  exact ⟨h.slot, h.uniqueOld, h.unique, j, v, hj, hR _ hv⟩

theorem Held.promote (h : Held i₀ v₀ t) (hfree : ∀ k, ¬ t.Named k "fip.old")
    (hnew : ∀ j v, t.lookup "fip.new" = some (j, v) → R v.data)
    (hs : SwitchedTo "fip" "fip.new" "fip.old" t t') : Moved i₀ v₀ R t' := by
  obtain ⟨i, j, hi, hj, rfl⟩ := hs
  have hfip : t.Named i₀ "fip" := Slots.named_of_eq h.slot
  obtain rfl : i = i₀ := h.unique i i₀ (Slots.named_of_find? hi) hfip
  obtain ⟨v, hv⟩ := Slots.named_of_find? hj
  have hne : i ≠ j := by
    rintro rfl
    exact absurd (hfip.eq ⟨v, hv⟩) (by decide)
  refine ⟨?_, ?_, ?_, j, v, ?_, hnew j v (Slots.lookup_eq_some.2 ⟨hj, hv⟩)⟩
  · rw [Slots.switch_left hne, h.slot, Option.map_some]
  · have hleft : ∀ k, (t.switch i "fip.old" j "fip").Named k "fip.old" → k = i := fun k hk =>
      Slots.eq_left_of_named_switch (fun k _ => hfree k) (by decide) hk
    intro k l hk hl
    rw [hleft k hk, hleft l hl]
  · intro k l hk hl
    rw [h.unique.switch_right hfip (by decide) hk, h.unique.switch_right hfip (by decide) hl]
  · rw [Slots.switch_right hne, hv, Option.map_some]

theorem Moved.rollback (h : Moved i₀ v₀ R t) (hs : SwitchedTo "fip" "fip.old" "fip.bad" t t') :
    Held i₀ v₀ t' := by
  obtain ⟨i, j, hi, hj, rfl⟩ := hs
  have hold : t.Named i₀ "fip.old" := Slots.named_of_eq h.slot
  have hfip : t.Named i "fip" := Slots.named_of_find? hi
  obtain rfl : j = i₀ := h.uniqueOld j i₀ (Slots.named_of_find? hj) hold
  have hne : i ≠ j := by
    rintro rfl
    exact absurd (hfip.eq hold) (by decide)
  refine ⟨?_, ?_⟩
  · rw [Slots.switch_right hne, h.slot, Option.map_some]
  · intro k l hk hl
    rw [h.unique.switch_right hfip (by decide) hk, h.unique.switch_right hfip (by decide) hl]

variable {P : Platform} {c₀ : Ctx} {tr : List FlashEvent} {e : FlashEvent}

theorem FipKept.of_held (h : Held i₀ v₀ ((e.after exec).vols .native)) : FipKept P c₀ v₀ tr e :=
  ⟨⟨⟨i₀, v₀, h.lookup, .inl rfl⟩, i₀, .inl h.slot⟩, fun _ _ => ⟨i₀, h.lookup⟩⟩

theorem FipKept.of_moved (h : Moved i₀ v₀ (ReadBack P c₀ tr) ((e.after exec).vols .native))
    (he : Silent e) : FipKept P c₀ v₀ tr e := by
  obtain ⟨j, v, hj, hR⟩ := h.promoted
  have hlook : ((e.after exec).vols .native).lookup "fip" = some (j, v) :=
    Slots.lookup_eq_some.2 ⟨h.unique.find?_eq (Slots.named_of_eq hj), hj⟩
  exact ⟨⟨⟨j, v, hlook, .inr hR⟩, i₀, .inr h.slot⟩, fun mode hm => absurd hm (he _)⟩

end Places

/-! ## Frames -/

section Frames

variable {i₀ : Fin vtblSlots} {v₀ : Volume} {α : Type} {p : FlashProg α} {w : World}
  {ns : List String}

theorem held_spares (hp : Uses (Cmd.Spares "fip") p) (h : Held i₀ v₀ (w.vols .native)) :
    Spec exec (fun _ => True) (fun e => Held i₀ v₀ ((e.after exec).vols .native))
      (fun _ w' => Held i₀ v₀ (w'.vols .native)) p w := by
  refine Spec.of_uses (fun c o w' hc _ hw => ?_) hp h
  have hstep := hw.agree (exec_agree o w' .native hc)
  exact ⟨hstep, hstep⟩

theorem held_edits (hp : Uses (Cmd.Edits ns) p) (hns : "fip" ∉ ns)
    (h : Held i₀ v₀ (w.vols .native)) (hw : w.Native) :
    Spec exec (fun _ => True) (fun e => Held i₀ v₀ ((e.after exec).vols .native))
      (fun _ w' => Held i₀ v₀ (w'.vols .native) ∧ w'.Native) p w := by
  refine Spec.of_uses (I := fun w' : World => Held i₀ v₀ (w'.vols .native) ∧ w'.Native)
    (fun c o w' hc _ hw => ?_) hp ⟨h, hw⟩
  have hstep := hw.1.agree (exec_agree o w' .native (hc.spares hns))
  exact ⟨hstep, hstep, hw.2.of_attached (exec_edits hc o w').1⟩

theorem moved_edits {R : List UInt8 → Prop} (hp : Uses (Cmd.Edits ns) p) (hns : "fip" ∉ ns)
    (hns' : "fip.old" ∉ ns) (h : Moved i₀ v₀ R (w.vols .native)) (hw : w.Native) :
    Spec exec (fun _ => True) (fun e => Moved i₀ v₀ R ((e.after exec).vols .native) ∧ Silent e)
      (fun _ w' => Moved i₀ v₀ R (w'.vols .native) ∧ w'.Native) p w := by
  refine Spec.of_uses (I := fun w' : World => Moved i₀ v₀ R (w'.vols .native) ∧ w'.Native)
    (fun c o w' hc _ hw => ?_) hp ⟨h, hw⟩
  have hstep := hw.1.agree (exec_agree o w' .native (hc.spares hns))
    (exec_agree o w' .native (hc.spares hns'))
  exact ⟨⟨hstep, hc.silent o w'⟩, hstep, hw.2.of_attached (exec_edits hc o w').1⟩

end Frames

/-! ## Stages -/

section Stages

variable (P : Platform) (c₀ : Ctx) (i₀ : Fin vtblSlots) (v₀ : Volume)

def SameRequest (c : Ctx) : Prop := c.addr = c₀.addr ∧ c.len = c₀.len ∧ c.kind = c₀.kind

/-- The update is one of the native layout whose active `fip` has not been found missing or
invalid. -/
def InScope (c : Ctx) : Prop := c.ubiLayout = true ∧ c.ubiFipMode = .normal

/-- The original is in place, and `fip.new` on the attached device meets `Φ`. -/
structure Staged (Φ : Volume → Prop) (w : World) : Prop where
  held : Held i₀ v₀ (w.vols .native)
  native : w.Native
  new : ∀ j v, (w.vols .native).lookup "fip.new" = some (j, v) → Φ v

/-- Where the original is when a stage is about to run. -/
def Phase (w : World) (tr : List FlashEvent) : Stage → Prop
  | .precheck | .ubiAttach => Held i₀ v₀ (w.vols .native)
  | .ubiStagePrep => Staged i₀ v₀ (fun _ => True) w
  | .ubiStageWrite => Staged i₀ v₀ (fun v => v.static = true) w
  | .ubiStageVerify => Staged i₀ v₀ (fun v => v.data.length = c₀.len) w
  | .ubiPromote => Staged i₀ v₀ (fun v => ReadBack P c₀ tr v.data) w
  | .ubiVerify | .ubiRollback => Moved i₀ v₀ (ReadBack P c₀ tr) (w.vols .native) ∧ w.Native
  | .complete | .failed | .idle =>
    Held i₀ v₀ (w.vols .native) ∨ Moved i₀ v₀ (ReadBack P c₀ tr) (w.vols .native)
  | .stockBackup | .stockErase | .stockWrite | .stockVerify => False

def Transacting (c : Ctx) (w : World) (tr : List FlashEvent) : Prop :=
  SameRequest c₀ c ∧ (InScope c → Phase P c₀ i₀ v₀ w tr c.stage)

variable {P c₀ i₀ v₀} {c : Ctx} {w : World} {tr : List FlashEvent}

theorem transacting_failReason {ret : ℤ} {code : String} (hc : SameRequest c₀ c)
    (h : Held i₀ v₀ (w.vols .native) ∨ Moved i₀ v₀ (ReadBack P c₀ tr) (w.vols .native)) :
    Transacting P c₀ i₀ v₀ (failReason c ret code).2 w tr := ⟨hc, fun _ => h⟩

theorem transacting_advance {next : Stage} (hc : SameRequest c₀ c)
    (h : InScope c → Phase P c₀ i₀ v₀ w tr next) :
    Transacting P c₀ i₀ v₀ (c.advance next).2 w tr := ⟨hc, h⟩

theorem records_of_held {p : FlashProg (ℤ × Ctx)}
    (h : Spec exec (fun _ => True) (fun e => Held i₀ v₀ ((e.after exec).vols .native))
      (fun r w' => ∀ tr, Transacting P c₀ i₀ v₀ r.2 w' tr) p w) :
    Records exec (FipKept P c₀ v₀) (fun r w' tr' => Transacting P c₀ i₀ v₀ r.2 w' tr') p w tr :=
  (Records.of_spec h fun _ _ _ he => .of_held he).mono fun _ _ tr' hr => hr.1 tr'

theorem precheck_kept (hc : SameRequest c₀ c) (h : Held i₀ v₀ (w.vols .native)) :
    Spec exec (fun _ => True) (fun e => Held i₀ v₀ ((e.after exec).vols .native))
      (fun r w' => ∀ tr, Transacting P c₀ i₀ v₀ r.2 w' tr) (precheck P c) w := by
  have hspares : ∀ c : Cmd, c.Query → c.Spares "fip" := fun c hc =>
    (hc.edits []).spares List.not_mem_nil
  refine (held_spares (uses_detectUbiLayout (inert_of_query hspares)) h).bind fun r w₁ h₁ => ?_
  cases r with
  | error e => exact fun tr => transacting_failReason hc (.inl h₁)
  | ok isUbi =>
    refine (held_spares (uses_fipValidateKind (inert_of_query hspares) P _ _ _ _) h₁).bind fun ret w₂ h₂ => ?_
    refine spec_ite (fun _ tr => transacting_failReason hc (.inl h₂)) fun _ => ?_
    have hdone : ∀ {w' : World} (tr : List FlashEvent), Held i₀ v₀ (w'.vols .native) →
        Transacting P c₀ i₀ v₀ ({ c with ubiLayout := isUbi }.advance
          (if isUbi then .ubiAttach else .stockBackup)).2 w' tr := by
      intro w' tr hw'
      refine transacting_advance hc fun hscope => ?_
      have hubi : isUbi = true := hscope.1
      rw [hubi]
      exact hw'
    refine spec_ite (fun _ => ?_) fun _ tr => hdone tr h₂
    refine (held_spares (uses_installedBl2MatchesPin (inert_of_query hspares) P) h₂).bind fun ret w₃ h₃ => ?_
    exact spec_ite (fun _ tr => transacting_failReason hc (.inl h₃)) fun _ tr => hdone tr h₃

theorem ubiAttach_kept (hc : SameRequest c₀ c) (h : Held i₀ v₀ (w.vols .native)) :
    Spec exec (fun _ => True) (fun e => Held i₀ v₀ ((e.after exec).vols .native))
      (fun r w' => ∀ tr, Transacting P c₀ i₀ v₀ r.2 w' tr) (ubiAttach P c) w := by
  have hspares : ∀ c : Cmd, c.Query → c.Spares "fip" := fun c hc =>
    (hc.edits []).spares List.not_mem_nil
  have hattach : Uses (Cmd.Spares "fip") ensureUbiAttachment :=
    uses_ensureUbiAttachment hspares fun p => trivial
  refine Spec.bind (((held_spares hattach h).and (ensureUbiAttachment_native w)).weaken
    (fun _ h => h) fun _ _ h => h.1) fun ret w₁ h₁ => ?_
  refine spec_ite (fun _ tr => transacting_failReason hc (.inl h₁.1)) fun hret => ?_
  have hnative : w₁.Native := h₁.2 (not_not.1 hret)
  have hclassify : Uses (Cmd.Edits []) (classifyActiveFip P) :=
    uses_classifyActiveFip (fun c hc => hc.edits []) P fun used => le_refl _
  refine (held_edits hclassify List.not_mem_nil h₁.1 hnative).bind fun r w₂ h₂ => ?_
  refine spec_ite (fun _ tr => ?_) fun _ tr =>
    transacting_advance hc fun _ => ⟨h₂.1, h₂.2, fun _ _ _ => trivial⟩
  split_ifs
  · exact transacting_failReason hc (.inl h₂.1)
  · exact transacting_failReason hc (.inl h₂.1)

theorem createFipNew_kept (avail need : ℕ) (hc : SameRequest c₀ c)
    (h : Held i₀ v₀ (w.vols .native)) (hw : w.Native) :
    Spec exec (fun _ => True) (fun e => Held i₀ v₀ ((e.after exec).vols .native))
      (fun r w' => ∀ tr, Transacting P c₀ i₀ v₀ r.2 w' tr) (createFipNew c avail need) w := by
  refine spec_ite (fun _ tr => transacting_failReason hc (.inl h)) fun _ => ?_
  refine spec_next (Cmd.ubiCreate "fip.new" 0x100000 true none) fun o _ => ?_
  have hagree : Slots.Agree "fip" (w.vols .native)
      ((exec (.ubiCreate "fip.new" 0x100000 true none) o w).2.vols .native) :=
    exec_agree o w .native (show "fip.new" ≠ "fip" by decide)
  have hheld := h.agree hagree
  refine ⟨hheld, spec_ite (fun _ tr => transacting_failReason hc (.inl hheld)) fun hret tr => ?_⟩
  obtain ⟨i, v, hi, hn, hst, hvols⟩ := ubiCreate_zero hw (not_not.1 hret)
  refine transacting_advance hc fun _ => ⟨hheld, hw.of_attached (by simp [exec]), fun j u hj => ?_⟩
  -- the only volume named fip.new is the one just created
  obtain ⟨hj, hu⟩ := Slots.lookup_eq_some.1 hj
  rw [hvols] at hu hj
  have hnamed := Slots.named_of_find? hj
  rw [Slots.named_put] at hnamed
  split_ifs at hnamed with hji
  · subst hji
    rw [Slots.put_self] at hu
    cases hu
    exact hst
  · exact absurd hnamed (hn j)

theorem ubiStagePrep_kept (hc : SameRequest c₀ c) (hmode : c.ubiFipMode = .normal)
    (h : Staged i₀ v₀ (fun _ => True) w) :
    Spec exec (fun _ => True) (fun e => Held i₀ v₀ ((e.after exec).vols .native))
      (fun r w' => ∀ tr, Transacting P c₀ i₀ v₀ r.2 w' tr) (ubiStagePrep c) w := by
  have hremove : ∀ n ∈ ["fip.new", "fip.old", "fip.bad"],
      Uses (Cmd.Edits ["fip.new", "fip.old", "fip.bad"]) (removeIfPresent n) := fun n hn =>
    uses_removeIfPresent trivial hn
  have hns : "fip" ∉ ["fip.new", "fip.old", "fip.bad"] := by decide
  unfold ubiStagePrep
  simp only [hmode, if_true]
  refine (held_edits (hremove "fip.new" (by simp)) hns h.held h.native).bind fun _ w₁ h₁ => ?_
  refine (held_edits (hremove "fip.old" (by simp)) hns h₁.1 h₁.2).bind fun _ w₂ h₂ => ?_
  refine (held_edits (hremove "fip.bad" (by simp)) hns h₂.1 h₂.2).bind fun _ w₃ h₃ => ?_
  have hroom : Uses (Cmd.Edits []) fipNewHeadroom := uses_fipNewHeadroom fun c hc => hc.query.edits []
  refine (held_edits hroom List.not_mem_nil h₃.1 h₃.2).bind fun r w₄ h₄ => ?_
  cases r with
  | none => exact fun tr => transacting_failReason hc (.inl h₄.1)
  | some an =>
    obtain ⟨avail, need⟩ := an
    dsimp only
    rw [if_neg (by simp)]
    exact createFipNew_kept avail need hc h₄.1 h₄.2

theorem ubiStageWrite_kept (hc : SameRequest c₀ c)
    (h : Staged i₀ v₀ (fun v => v.static = true) w) :
    Spec exec (fun _ => True) (fun e => Held i₀ v₀ ((e.after exec).vols .native))
      (fun r w' => ∀ tr, Transacting P c₀ i₀ v₀ r.2 w' tr) (ubiStageWrite c) w := by
  refine spec_next (Cmd.ubiWrite c.addr "fip.new" c.len) fun o _ => ?_
  have hspares : Cmd.Spares "fip" (.ubiWrite c.addr "fip.new" c.len) :=
    show "fip.new" ≠ "fip" by decide
  have hheld := h.held.agree (exec_agree o w .native hspares)
  refine ⟨hheld, spec_ite (fun _ tr => transacting_failReason hc (.inl hheld)) fun hret tr => ?_⟩
  obtain ⟨p, i, v, hp, hlook, hvols⟩ := World.ubiWrite_of_zero (not_not.1 hret)
  obtain ⟨q, hq, harea⟩ := h.native
  obtain rfl : q = p := Option.some.inj (hq.symm.trans hp)
  rw [harea] at hlook hvols
  refine transacting_advance hc fun _ => ⟨hheld, h.native.of_attached (by simp [exec]), ?_⟩
  intro j u hj
  obtain ⟨hj, hu⟩ := Slots.lookup_eq_some.1 hj
  have hvols' : (exec (.ubiWrite c.addr "fip.new" c.len) o w).2.vols .native =
      (w.vols .native).setBody i (v.written w.lebSize (w.ram.slice c.addr c.len)) := hvols
  rw [hvols'] at hj hu
  -- replacing a body does not change which volume the name denotes
  have hsame : ((w.vols .native).setBody i (v.written w.lebSize (w.ram.slice c.addr c.len))).find?
      "fip.new" = (w.vols .native).find? "fip.new" := Slots.find?_setBody
  rw [hsame, (Slots.lookup_eq_some.1 hlook).1] at hj
  obtain rfl : i = j := Option.some.inj hj
  rw [Slots.setBody_self, (Slots.lookup_eq_some.1 hlook).2, Option.map_some] at hu
  have hdata : u = v.written w.lebSize (w.ram.slice c.addr c.len) :=
    (congrArg Prod.snd (Option.some.inj hu)).symm
  rw [hdata, Volume.written, h.new i v hlook]
  simp [hc.2.1]

theorem ubiStageVerify_kept (hc : SameRequest c₀ c)
    (h : Staged i₀ v₀ (fun v => v.data.length = c₀.len) w) :
    Records exec (FipKept P c₀ v₀) (fun r w' tr' => Transacting P c₀ i₀ v₀ r.2 w' tr')
      (ubiStageVerify P c) w tr := by
  obtain ⟨haddr, hlen, hkind⟩ := hc
  unfold ubiStageVerify
  rw [haddr, hlen, hkind]
  have hc : SameRequest c₀ c := ⟨haddr, hlen, hkind⟩
  -- every command of this stage is a read
  have hkept : ∀ (c : Cmd) (o : Outcome) (w' : World) (tr' : List FlashEvent), c.Reads →
      Held i₀ v₀ (w'.vols .native) → FipKept P c₀ v₀ tr' ⟨c, o, w'⟩ := fun c o w' tr' hc hw' =>
    .of_held (hw'.agree (exec_agree o w' .native ((hc.edits []).spares List.not_mem_nil)))
  refine records_next (Cmd.ubiRead ubiReadbackAddr "fip.new" c₀.len) fun o =>
    ⟨hkept _ o w tr (le_refl ubiReadbackAddr) h.held, ?_⟩
  have hstep : ReadStep w (exec (.ubiRead ubiReadbackAddr "fip.new" c₀.len) o w).2 :=
    .ubiRead w o "fip.new" c₀.len (le_refl _)
  set e₁ : FlashEvent := ⟨.ubiRead ubiReadbackAddr "fip.new" c₀.len, o, w⟩ with he₁
  have hheld₁ : Held i₀ v₀ ((e₁.after exec).vols .native) := by
    rw [show (e₁.after exec).vols .native = w.vols .native from hstep.vols _]
    exact h.held
  refine records_ite (fun _ => transacting_failReason hc (.inl hheld₁)) fun hret => ?_
  have hread := World.ubiRead_of_zero (not_not.1 hret)
  obtain ⟨p, j, v, hp, hlook, -, hram⟩ := hread
  obtain ⟨q, hq, harea⟩ := h.native
  obtain rfl : q = p := Option.some.inj (hq.symm.trans hp)
  rw [harea] at hlook
  have hv : v.data.length = c₀.len := h.new j v hlook
  -- the readback window now holds the volume
  have hslice : (e₁.after exec).ram.slice ubiReadbackAddr c₀.len = v.data := by
    have htake : v.data.take (if c₀.len = 0 then v.data.length else c₀.len) = v.data := by
      rw [List.take_of_length_le]
      split_ifs <;> omega
    have hram' : (e₁.after exec).ram = w.ram.blit ubiReadbackAddr v.data := by
      rw [← htake]
      exact hram
    rw [hram', ← hv, Mem.slice_blit]
  change Records exec _ _ _ (e₁.after exec) (tr ++ [e₁])
  have hquery : Uses Cmd.Query (fipValidateKind P ubiReadbackAddr c₀.len false c₀.kind) :=
    uses_fipValidateKind (fun c hc => hc.query) P _ _ _ _
  have hvalidate := (spec_query (A := fun _ => True) hquery (e₁.after exec)).and
    (fipValidateKind_accepts P ubiReadbackAddr c₀.len false c₀.kind (e₁.after exec))
  refine (Records.of_spec hvalidate fun e tr' _ he => ?_).bind fun ret w₂ tr₂ hr => ?_
  · have hkept₁ : Held i₀ v₀ ((e.after exec).vols .native) := by
      rw [he.1.vols]
      exact hheld₁
    exact .of_held hkept₁
  obtain ⟨⟨⟨hstep₂, hram₂⟩, haccepts⟩, htr₂⟩ := hr
  have hheld₂ : Held i₀ v₀ (w₂.vols .native) := by
    rw [hstep₂.vols]
    exact hheld₁
  refine records_ite (fun _ => transacting_failReason hc (.inl hheld₂)) fun hret₂ => ?_
  refine records_next (Cmd.readMem c₀.addr c₀.len) fun o₂ =>
    ⟨hkept _ o₂ w₂ tr₂ trivial hheld₂, ?_⟩
  refine records_next (Cmd.readMem ubiReadbackAddr c₀.len) fun o₃ =>
    ⟨hkept _ o₃ w₂ _ trivial hheld₂, ?_⟩
  refine records_ite (fun _ => transacting_failReason hc (.inl hheld₂)) fun heq => ?_
  have heq' : w₂.ram.slice c₀.addr c₀.len = w₂.ram.slice ubiReadbackAddr c₀.len := not_not.1 heq
  refine transacting_advance hc fun _ => ⟨hheld₂, ?_, fun k u hk => ?_⟩
  · exact h.native.of_attached (hstep₂.attached.trans hstep.attached)
  · have hvols : w₂.vols .native = w.vols .native := (hstep₂.vols _).trans (hstep.vols _)
    have hk' : (w.vols .native).lookup "fip.new" = some (k, u) := by
      rw [← hvols]
      exact hk
    obtain ⟨-, rfl⟩ := Prod.mk.inj (Option.some.inj (hlook.symm.trans hk'))
    rw [hram₂, hslice] at heq'
    refine ⟨?_, ⟨e₁, ?_, rfl, hslice⟩, ⟨.readMem c₀.addr c₀.len, o₂, w₂⟩, by simp, rfl, ?_⟩
    · rw [← hslice]
      exact haccepts (not_not.1 hret₂)
    · have hmem : e₁ ∈ tr₂ := htr₂.subset (by simp)
      simp [hmem]
    · rw [hram₂]
      exact heq'

theorem ubiPromote_kept (hc : SameRequest c₀ c) (hmode : c.ubiFipMode = .normal)
    (h : Staged i₀ v₀ (fun v => ReadBack P c₀ tr v.data) w)
    (hfree : ∀ k, ¬ (w.vols .native).Named k "fip.old") :
    Records exec (FipKept P c₀ v₀) (fun r w' tr' => Transacting P c₀ i₀ v₀ r.2 w' tr')
      (ubiPromote c) w tr := by
  unfold ubiPromote
  simp only [hmode]
  have hpromote : ∀ t', SwitchedTo "fip" "fip.new" "fip.old" (w.vols .native) t' →
      Moved i₀ v₀ (ReadBack P c₀ tr) t' := fun t' => h.held.promote hfree h.new
  refine (Records.of_spec (atomicSwitch_spec "fip" "fip.new" "fip.old" h.native)
    fun e tr' htr he => ?_).bind fun ret w₁ tr₁ hr => ?_
  · rcases he.2 with hsame | hs
    · have hheld : Held i₀ v₀ ((e.after exec).vols .native) := by
        rw [hsame]
        exact h.held
      exact .of_held hheld
    · exact .of_moved ((hpromote _ hs).mono fun bs hbs => hbs.mono htr) he.1
  · obtain ⟨⟨hat, hcases⟩, htr⟩ := hr
    rcases hcases with ⟨hne, hsame⟩ | ⟨hz, hs⟩
    · rw [if_pos hne]
      refine transacting_failReason hc (.inl ?_)
      rw [hsame]
      exact h.held
    · rw [if_neg (by simp [hz])]
      exact transacting_advance hc fun _ =>
        ⟨(hpromote _ hs).mono fun bs hbs => hbs.mono htr, h.native.of_attached hat⟩

theorem records_of_moved {α : Type} {p : FlashProg α} {Q : α → World → Prop}
    (h : Spec exec (fun _ => True)
      (fun e => Moved i₀ v₀ (ReadBack P c₀ tr) ((e.after exec).vols .native) ∧ Silent e) Q p w) :
    Records exec (FipKept P c₀ v₀) (fun a w' tr' => Q a w' ∧ tr <+: tr') p w tr :=
  Records.of_spec h fun _ _ htr he => .of_moved (he.1.mono fun _ hbs => hbs.mono htr) he.2

theorem ubiVerify_kept (hc : SameRequest c₀ c) (hmode : c.ubiFipMode = .normal)
    (h : Moved i₀ v₀ (ReadBack P c₀ tr) (w.vols .native)) (hw : w.Native) :
    Records exec (FipKept P c₀ v₀) (fun r w' tr' => Transacting P c₀ i₀ v₀ r.2 w' tr')
      (ubiVerify P c) w tr := by
  have hq : ∀ c : Cmd, c.Query → c.Edits ["ubootenv", "ubootenv2"] := fun c hc => hc.edits _
  have hpost : ∀ ret, postcommitFailed c ret = return c.advance .ubiRollback := fun ret => by
    unfold postcommitFailed
    rw [if_neg (by simp [hmode])]
  have hreset : Uses (Cmd.Edits ["ubootenv", "ubootenv2"]) vanillaResetEnv :=
    uses_vanillaResetEnv hq (fun _ hn _ _ => hn) (fun _ _ => le_refl _) fun _ => le_refl _
  have huses : Uses (Cmd.Edits ["ubootenv", "ubootenv2"]) (ubiVerify P c) := by
    refine uses_next (le_refl ubiReadbackAddr) fun ret => uses_ite (fun _ => ?_) fun _ => ?_
    · rw [hpost]
      trivial
    refine uses_bind (uses_fipValidateKind (inert_of_query hq) P _ _ _ _) fun ret =>
      uses_ite (fun _ => ?_) fun _ => ?_
    · rw [hpost]
      trivial
    refine uses_ite (fun _ => uses_bind hreset fun _ => ?_) fun _ => trivial
    exact uses_exit fun _ => trivial
  have hctx : Gives (fun r => SameRequest c₀ r.2 ∧
      (r.2.stage = .ubiRollback ∨ r.2.stage = .complete)) (ubiVerify P c) := by
    refine yields_then fun ret => yields_ite (fun _ => ?_) fun _ => ?_
    · rw [hpost]
      exact yields_ret ⟨hc, .inl rfl⟩
    refine yields_then fun ret => yields_ite (fun _ => ?_) fun _ => ?_
    · rw [hpost]
      exact yields_ret ⟨hc, .inl rfl⟩
    refine yields_ite (fun _ => yields_then fun ret => ?_) fun _ => yields_ret ⟨hc, .inr rfl⟩
    exact yields_exit ⟨hc, .inl rfl⟩ fun _ => yields_ret ⟨hc, .inr rfl⟩
  have hspec := moved_edits huses (by decide) (by decide) h hw
  refine (records_of_moved ((hspec.and (hctx w)).weaken (fun _ h => h) fun _ _ h => h.1)).mono
    fun r w' tr' hr => ?_
  obtain ⟨⟨⟨hmoved, hnative⟩, hreq, hstage⟩, htr⟩ := hr
  have hmoved' := hmoved.mono fun bs hbs => hbs.mono htr
  refine ⟨hreq, fun _ => ?_⟩
  rcases hstage with hstage | hstage
  · rw [hstage]
    exact ⟨hmoved', hnative⟩
  · rw [hstage]
    exact .inr hmoved'

theorem ubiRollback_kept (hc : SameRequest c₀ c) (hmode : c.ubiFipMode = .normal)
    (h : Moved i₀ v₀ (ReadBack P c₀ tr) (w.vols .native)) (hw : w.Native) :
    Records exec (FipKept P c₀ v₀) (fun r w' tr' => Transacting P c₀ i₀ v₀ r.2 w' tr')
      (ubiRollback c) w tr := by
  unfold ubiRollback
  simp only [hmode]
  have hremove : Uses (Cmd.Edits ["fip.bad"]) (removeIfPresent "fip.bad") :=
    uses_removeIfPresent trivial (by simp [Cmd.Edits])
  refine (records_of_moved (moved_edits hremove (by decide) (by decide) h hw)).bind
    fun _ w₁ tr₁ h₁ => ?_
  obtain ⟨⟨hmoved, hnative⟩, htr⟩ := h₁
  have hmoved₁ := hmoved.mono fun bs hbs => hbs.mono htr
  refine (Records.of_spec (atomicSwitch_spec "fip" "fip.old" "fip.bad" hnative)
    fun e tr' htr he => ?_).bind fun ret w₂ tr₂ hr => ?_
  · rcases he.2 with hsame | hs
    · have hmoved' : Moved i₀ v₀ (ReadBack P c₀ tr') ((e.after exec).vols .native) := by
        rw [hsame]
        exact hmoved₁.mono fun bs hbs => hbs.mono htr
      exact .of_moved hmoved' he.1
    · exact .of_held (hmoved₁.rollback hs)
  · obtain ⟨⟨hat, hcases⟩, htr⟩ := hr
    rcases hcases with ⟨hne, hsame⟩ | ⟨hz, hs⟩
    · rw [if_pos hne]
      refine transacting_failReason hc (.inr ?_)
      rw [hsame]
      exact hmoved₁.mono fun bs hbs => hbs.mono htr
    · rw [if_neg (by simp [hz])]
      have hheld : Held i₀ v₀ (w₂.vols .native) := hmoved₁.rollback hs
      refine records_next (Cmd.printf (rollbackOk .normal)) fun o =>
        ⟨.of_held hheld, ?_⟩
      exact transacting_failReason hc (.inl hheld)

/-- **Every stage** keeps a working bootloader after each of its commands, provided a promotion
finds no volume named `fip.old`. -/
theorem runStage_kept (hc : SameRequest c₀ c) (hscope : InScope c)
    (h : Phase P c₀ i₀ v₀ w tr c.stage)
    (hfree : c.stage = .ubiPromote → ∀ k, ¬ (w.vols .native).Named k "fip.old") :
    Records exec (FipKept P c₀ v₀) (fun r w' tr' => Transacting P c₀ i₀ v₀ r.2 w' tr')
      (runStage P c) w tr := by
  unfold runStage
  generalize hs : c.stage = s at h hfree
  cases s with
  | precheck => exact records_of_held (precheck_kept hc h)
  | ubiAttach => exact records_of_held (ubiAttach_kept hc h)
  | ubiStagePrep => exact records_of_held (ubiStagePrep_kept hc hscope.2 h)
  | ubiStageWrite => exact records_of_held (ubiStageWrite_kept hc h)
  | ubiStageVerify => exact ubiStageVerify_kept hc h
  | ubiPromote => exact ubiPromote_kept hc hscope.2 h (hfree rfl)
  | ubiVerify => exact ubiVerify_kept hc hscope.2 h.1 h.2
  | ubiRollback => exact ubiRollback_kept hc hscope.2 h.1 h.2
  | idle | complete | failed => exact transacting_failReason hc h
  | stockBackup | stockErase | stockWrite | stockVerify => exact h.elim

theorem Phase.place {st : Stage} (h : Phase P c₀ i₀ v₀ w tr st) :
    Held i₀ v₀ (w.vols .native) ∨ Moved i₀ v₀ (ReadBack P c₀ tr) (w.vols .native) := by
  cases st with
  | precheck | ubiAttach => exact .inl h
  | ubiStagePrep | ubiStageWrite | ubiStageVerify | ubiPromote => exact .inl h.held
  | ubiVerify | ubiRollback => exact .inr h.1
  | idle | complete | failed => exact h
  | stockBackup | stockErase | stockWrite | stockVerify => exact h.elim

theorem Phase.congr {st : Stage} {w' : World} {tr' : List FlashEvent}
    (h : Phase P c₀ i₀ v₀ w tr st) (hv : w'.vols .native = w.vols .native)
    (ha : w'.attached = w.attached) (htr : tr <+: tr') : Phase P c₀ i₀ v₀ w' tr' st := by
  have hstaged : ∀ {Φ Φ' : Volume → Prop}, (∀ v, Φ v → Φ' v) → Staged i₀ v₀ Φ w →
      Staged i₀ v₀ Φ' w' := by
    intro Φ Φ' hΦ hs
    refine ⟨?_, hs.native.of_attached ha, fun j v hj => hΦ v (hs.new j v ?_)⟩
    · rw [hv]
      exact hs.held
    · rw [← hv]
      exact hj
  have hmoved : Moved i₀ v₀ (ReadBack P c₀ tr) (w.vols .native) →
      Moved i₀ v₀ (ReadBack P c₀ tr') (w'.vols .native) := by
    intro hm
    rw [hv]
    exact hm.mono fun bs hbs => hbs.mono htr
  have hheld : Held i₀ v₀ (w.vols .native) → Held i₀ v₀ (w'.vols .native) := by
    intro hh
    rw [hv]
    exact hh
  cases st with
  | precheck | ubiAttach => exact hheld h
  | ubiStagePrep | ubiStageWrite | ubiStageVerify => exact hstaged (fun v hv => hv) h
  | ubiPromote => exact hstaged (fun v hv => hv.mono htr) h
  | ubiVerify | ubiRollback => exact ⟨hmoved h.1, h.2.of_attached ha⟩
  | idle | complete | failed => exact h.imp hheld hmoved
  | stockBackup | stockErase | stockWrite | stockVerify => exact h.elim

end Stages

/-! ## Whole attempts -/

/-- A promotion finds no volume named `fip.old`. -/
def NoBackupAtPromote (c : Ctx) (w : World) : Prop :=
  c.stage = .ubiPromote → ∀ k, ¬ (w.vols .native).Named k "fip.old"

theorem Attempt.call_transacting {P : Platform} {c₀ : Ctx} {i₀ : Fin vtblSlots} {v₀ : Volume}
    {s : Attempt} (i : Call) (h : Transacting P c₀ i₀ v₀ s.ctx s.world s.trace)
    (hscope : InScope s.ctx) (hfree : NoBackupAtPromote s.ctx s.world)
    (hG : Recorded (FipKept P c₀ v₀) s.trace) :
    Recorded (FipKept P c₀ v₀) (s.call P i).trace ∧
      Transacting P c₀ i₀ v₀ (s.call P i).ctx (s.call P i).world (s.call P i).trace := by
  refine Attempt.call_invariant (P := P) (I := Transacting P c₀ i₀ v₀)
    (J := fun c w tr => Transacting P c₀ i₀ v₀ c w tr ∧ InScope c ∧ NoBackupAtPromote c w)
    ⟨?_, ?_, ?_, ?_⟩ (fun h => h.1) ?_ ?_ i ⟨h, hscope, hfree⟩ hG
  · intro c w tr tr' h htr
    exact ⟨⟨h.1.1, fun hs => (h.1.2 hs).congr rfl rfl htr⟩, h.2⟩
  · intro c w tr m h
    exact ⟨⟨h.1.1, fun hs => (h.1.2 hs).congr rfl rfl (List.prefix_refl tr)⟩, h.2⟩
  · intro c w tr t h
    exact ⟨⟨h.1.1, fun hs => (h.1.2 hs).congr rfl rfl (List.prefix_refl tr)⟩, h.2⟩
  · intro c w tr b n h
    exact h
  · intro c w tr base o h
    rcases (h.1.2 h.2.1).place with hh | hm
    · exact .of_held hh
    · exact .of_moved hm fun _ hp => nomatch hp
  · intro c w tr _ h
    exact runStage_kept h.1.1 h.2.1 (h.1.2 h.2.1) h.2.2

/-- **The transaction.** Start an update of the native layout whose active `fip` is the only volume
of that name. As long as it is found valid, and no volume is named `fip.old` when a promotion is
about to run, the working bootloader is never lost: after every single command, under every pattern
of failures, `fip` is the original or a candidate that was read back and accepted, the original is
still there as `fip` or `fip.old`, and a reported rollback has restored it. -/
theorem update_keeps_bootloader (P : Platform) (s₀ : Attempt) (i₀ : Fin vtblSlots) (v₀ : Volume)
    (is : List Call) (hbegin : s₀.Begins P)
    (hfip : (s₀.world.vols .native).lookup "fip" = some (i₀, v₀))
    (huniq : (s₀.world.vols .native).UniqueName "fip")
    (hok : Along (Attempt.call P) (fun s _ => InScope s.ctx ∧ NoBackupAtPromote s.ctx s.world)
      s₀ is) :
    Recorded (FipKept P s₀.ctx v₀) (runFrom (Attempt.call P) s₀ is).trace := by
  have hstart := hbegin.started
  have htrace : s₀.trace = [] := by
    obtain ⟨c, addr, len, kind, outs, w, -, -, htrace⟩ := hbegin
    exact htrace
  have hheld : Held i₀ v₀ (s₀.world.vols .native) := ⟨(Slots.lookup_eq_some.1 hfip).2, huniq⟩
  have hinit : Transacting P s₀.ctx i₀ v₀ s₀.ctx s₀.world s₀.trace := by
    refine ⟨⟨rfl, rfl, rfl⟩, fun _ => ?_⟩
    rw [hstart.stage]
    exact hheld
  have hempty : Recorded (FipKept P s₀.ctx v₀) s₀.trace := by
    rw [htrace]
    exact recorded_nil _
  have hrun := invariant_run (J := fun s : Attempt => Recorded (FipKept P s₀.ctx v₀) s.trace ∧
      Transacting P s₀.ctx i₀ v₀ s.ctx s.world s.trace)
    (fun s i hs hok => s.call_transacting i hs.2 hok.1 hok.2 hs.1) ⟨hempty, hinit⟩ hok
  exact hrun.1

/-- The backup of the previous update is not seen by the clean-up because its check fails. After
the promotion two volumes are named `fip.old`, and the rollback restores the wrong one. -/
theorem rollback_restores_stale_backup :
    (sampleAttempt staleTable).Begins samplePlatform ∧
    ((sampleAttempt staleTable).world.vols .native).Distinct ∧
    ((sampleAttempt staleTable).world.vols .native).lookup "fip" = some (7, sampleVolume false) ∧
    ∃ is, Along (Attempt.call samplePlatform) (fun s _ => InScope s.ctx)
        (sampleAttempt staleTable) is ∧
      (∃ e ∈ (runFrom (Attempt.call samplePlatform) (sampleAttempt staleTable) is).trace,
        e.cmd = .printf (rollbackOk .normal) ∧
        ((e.after exec).vols .native).lookup "fip" = some (4, sampleVolume true)) ∧
      ¬ Recorded (FipKept samplePlatform (sampleAttempt staleTable).ctx (sampleVolume false))
        (runFrom (Attempt.call samplePlatform) (sampleAttempt staleTable) is).trace := by
  refine ⟨sampleAttempt_begins _, stale_promotable.names, stale_promotable.fip, ?_⟩
  have hreach : (sampleAttempt staleTable).CanReach samplePlatform (fun s _ => InScope s.ctx)
      fun s => ∃ before e, s.trace = before ++ [e] ∧ e.cmd = .printf (rollbackOk .normal) ∧
        ((e.after exec).vols .native).lookup "fip" = some (4, sampleVolume true) := by
    have hscope : ∀ {st : Stage} {c : Ctx},
        Running (.normal, 0) (sampleAttempt staleTable).ctx { c with announced := false } st →
        InScope c := fun hc => ⟨hc.layout, hc.mode⟩
    refine stale_promotable.canReach (by decide) (sampleAttempt_normal _)
      (fun _ _ _ _ _ hc _ => hscope hc)
      (fun _ _ _ _ _ hc _ _ => hscope hc) fun c w tr hc hw _ => ?_
    have hfip : (Slots.switch ((stagedImage staleTable).setVolume 0 (sampleVolume false)).vols 7
        "fip.old" 0 "fip").lookup "fip" = some (0, sampleVolume false) :=
      Slots.lookup_eq_some.2 ⟨by decide, rfl⟩
    have hold : (Slots.switch ((stagedImage staleTable).setVolume 0 (sampleVolume false)).vols 7
        "fip.old" 0 "fip").lookup "fip.old" = some (4, sampleVolume true) :=
      Slots.lookup_eq_some.2 ⟨by decide, rfl⟩
    have hne : (sampleVolume false).data ≠ [] := by
      intro hnil
      have hlen := length_sampleFip false
      rw [show sampleFip false = [] from hnil] at hlen
      cases hlen
    refine Attempt.canReach_unreadable (m := sampleRam false) ⟨-eio, by decide⟩ rfl hc hw hfip rfl hne
      (fun _ _ _ _ hc _ => hscope hc) fun c w tr hc hw => ?_
    refine Attempt.canReach_rollback (m := sampleRam false) rfl hc hw (by decide) hfip hold
      (fun _ _ _ _ hc _ => hscope hc) fun c w tr _ hw => Attempt.canReach_here ?_
    refine ⟨tr, _, rfl, rfl, ?_⟩
    have hvols : w.vols .native = Slots.switch (Slots.switch
        ((stagedImage staleTable).setVolume 0 (sampleVolume false)).vols 7 "fip.old" 0 "fip") 0
        "fip.bad" 4 "fip" := congrArg UbiImage.vols hw.ubi
    show (w.vols .native).lookup "fip" = _
    rw [hvols]
    exact Slots.lookup_eq_some.2 ⟨by decide, rfl⟩
  obtain ⟨is, hal, before, e, htr, hprint, hlook⟩ := hreach
  refine ⟨is, hal, ⟨e, by rw [htr]; simp, hprint, hlook⟩, fun hrec => ?_⟩
  -- the event that reports the rollback contradicts what a report promises
  obtain ⟨i, hi⟩ := (hrec before e [] htr).2 .normal hprint
  rw [hlook] at hi
  have hdata : sampleFip true = sampleFip false :=
    congrArg (fun x => x.2.data) (Option.some.inj hi)
  exact sampleFip_injective hdata

/-- On a board that has never been updated, an update meets the conditions up to its end. -/
theorem update_keeps_bootloader_fresh :
    ∃ is, Along (Attempt.call samplePlatform)
        (fun s _ => InScope s.ctx ∧ NoBackupAtPromote s.ctx s.world) (sampleAttempt freshTable) is ∧
      (runFrom (Attempt.call samplePlatform) (sampleAttempt freshTable) is).ctx.stage = .complete ∧
      Recorded (FipKept samplePlatform (sampleAttempt freshTable).ctx (sampleVolume false))
        (runFrom (Attempt.call samplePlatform) (sampleAttempt freshTable) is).trace := by
  have hreach : (sampleAttempt freshTable).CanReach samplePlatform
      (fun s _ => InScope s.ctx ∧ NoBackupAtPromote s.ctx s.world) fun s => s.ctx.stage = .complete := by
    have hfree : ((stagedImage freshTable).setVolume 0 (sampleVolume false)).vols.find? "fip.old" =
        none := by decide
    have hok : ∀ st c w (tr : List FlashEvent) (outs : ℕ → Outcome),
        Running (.normal, 0) (sampleAttempt freshTable).ctx { c with announced := false } st → ¬ st.Stock →
        (st = .ubiPromote →
          w.ubi .native = (stagedImage freshTable).setVolume 0 (sampleVolume false)) →
        InScope c ∧ NoBackupAtPromote c w := by
      intro st c w tr outs hc _ hw
      refine ⟨⟨hc.layout, hc.mode⟩, fun hstage => ?_⟩
      have hst : st = .ubiPromote := hc.stage.symm.trans hstage
      rw [World.vols, hw hst]
      exact Slots.find?_eq_none.1 hfree
    have hearly : ∀ st c w (tr : List FlashEvent) (outs : ℕ → Outcome),
        Running (.normal, 0) (sampleAttempt freshTable).ctx { c with announced := false } st →
        st = .precheck ∨ st = .ubiAttach → InScope c ∧ NoBackupAtPromote c w := by
      intro st c w tr outs hc hst
      rcases hst with rfl | rfl
      · exact hok _ c w tr outs hc id (by rintro ⟨⟩)
      · exact hok _ c w tr outs hc id (by rintro ⟨⟩)
    refine fresh_promotable.canReach (by decide) (sampleAttempt_normal _) hearly hok
      fun c w tr hc hw _ => ?_
    refine Attempt.canReach_verify (m := sampleRam false) (i := 0) (v := sampleVolume false) hc rfl hw
      (Slots.lookup_eq_some.2 ⟨by decide, rfl⟩) rfl (length_sampleFip false)
      (sampleFip_accepted false) (fun c w tr outs hc _ => hok _ c w tr outs hc id (by rintro ⟨⟩))
      fun c w tr hc _ => Attempt.canReach_here hc.1
  obtain ⟨is, hal, hstage⟩ := hreach
  exact ⟨is, hal, hstage, update_keeps_bootloader samplePlatform (sampleAttempt freshTable) 4
    (sampleVolume false) is (sampleAttempt_begins _) fresh_promotable.fip
    (fresh_promotable.names.uniqueName "fip") hal⟩

end FipUpdate

end UrsusBoot
