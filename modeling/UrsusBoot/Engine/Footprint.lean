import UrsusBoot.Engine.FipUpdate
import UrsusBoot.Engine.Migration
import UrsusBoot.Engine.UbiUpdate
import UrsusBoot.Flash.Frame

/-!
# The commands the helpers issue

For every helper, the class of commands it stays in. The lemmas are stated for an arbitrary class
that contains all queries, or only those that UBI has no part in, and name the other commands the
helper needs.
-/

namespace UrsusBoot

open Prog

variable {C : Cmd → Prop}

theorem uses_next {α : Type} {c : Cmd} {f : c.Resp → FlashProg α} (hc : C c)
    (hf : ∀ r, Uses C (f r)) : Uses C ((issue c).bind f) := ⟨hc, hf⟩

theorem uses_ite {α : Type} {c : Prop} [Decidable c] {p q : FlashProg α} (hp : c → Uses C p)
    (hq : ¬ c → Uses C q) : Uses C (if c then p else q) := by
  split_ifs with h
  · exact hp h
  · exact hq h

theorem uses_exit {α : Type} {c : Prop} [Decidable c] {a : α} {q : FlashProg α}
    (hq : ¬ c → Uses C q) : Uses C (if c then Prog.ret a else q) :=
  uses_ite (fun _ => trivial) hq

theorem uses_checked {α : Type} {c : Cmd} {e : c.Resp → Prop} [∀ r, Decidable (e r)]
    {a : c.Resp → α} {f : c.Resp → FlashProg α} (hc : C c) (hf : ∀ r, Uses C (f r)) :
    Uses C ((issue c).bind fun r => if e r then Prog.ret (a r) else f r) :=
  uses_next hc fun r => uses_exit fun _ => hf r

theorem uses_removeIfPresent {n : String} (h₁ : C (.ubiCheck n)) (h₂ : C (.ubiRemove n)) :
    Uses C (removeIfPresent n) :=
  uses_next h₁ fun _ => uses_ite (fun _ => (uses_perform _ _).2 h₂) fun _ => trivial

section Inert

variable (hq : ∀ c : Cmd, c.Inert → C c)
include hq

theorem uses_readExact (off len : ℕ) : Uses C (readExact off len) :=
  uses_next (hq _ trivial) fun _ => trivial

theorem uses_readRangeLoop (page off len : ℕ) (acc : List UInt8) :
    Uses C (readRangeLoop page off len acc) := by
  fun_induction readRangeLoop page off len acc with
  | case1 => trivial
  | case2 => trivial
  | case3 off len acc hlen hpage hin direct direct' ih =>
    exact uses_bind (uses_readExact hq _ _) fun r => uses_exit fun _ => ih _
  | case4 off len acc hlen hpage hin take ih =>
    exact uses_bind (uses_readExact hq _ _) fun r => uses_exit fun _ => ih _

theorem uses_readRange (writesize off len : ℕ) : Uses C (readRange writesize off len) :=
  uses_checked (hq _ trivial) fun _ => uses_readRangeLoop hq _ _ _ _

theorem uses_badScan (offs : List ℕ) : Uses C (badScan offs) := by
  induction offs with
  | nil => trivial
  | cons off offs ih =>
    exact uses_checked (hq _ trivial) fun _ => uses_exit fun _ => ih

theorem uses_badInRange (erasesize start len : ℕ) : Uses C (badInRange erasesize start len) :=
  uses_badScan hq _

theorem uses_memEqual (a b len : ℕ) : Uses C (memEqual a b len) :=
  uses_next (hq _ trivial) fun _ => uses_next (hq _ trivial) fun _ => trivial

theorem uses_fdtCheckHeaderAt (addr : ℕ) : Uses C (fdtCheckHeaderAt addr) :=
  uses_next (hq _ trivial) fun _ => trivial

/-! ## Checks of the UBI engines -/

theorem uses_validatePreloader (P : Platform) (addr len : ℕ) :
    Uses C (validatePreloader P addr len) :=
  uses_exit fun _ => uses_checked (hq _ trivial) fun _ => uses_exit fun _ => trivial

theorem uses_prepareBl2Candidate (P : Platform) (b : Bl2Candidate) (addr len : ℕ) :
    Uses C (prepareBl2Candidate P b addr len) := by
  refine uses_exit fun _ => ?_
  have hbuild : Uses C ((readMem addr len).bind fun src =>
      if P.sha256 (bl2Image src) ≠ P.bl2ImageSha256 then
        Prog.ret (-ebadmsg, { b with ok := false, buf := some (bl2Image src) })
      else Prog.ret (0, { b with ok := true, buf := some (bl2Image src) })) :=
    uses_checked (hq _ trivial) fun _ => trivial
  refine uses_ite (fun _ => uses_next (hq _ trivial) fun _ => ?_) fun _ => hbuild
  exact uses_exit fun _ => hbuild

theorem uses_installedBl2MatchesPin (P : Platform) : Uses C (installedBl2MatchesPin P) := by
  refine uses_next (hq _ trivial) fun r => ?_
  cases r with
  | none => trivial
  | some g =>
    refine uses_checked (hq _ trivial) fun _ => ?_
    exact uses_bind (uses_readExact hq _ _) fun _ => uses_exit fun _ => trivial

theorem uses_currentFipLength (writesize : ℕ) : Uses C (currentFipLength writesize) := by
  refine uses_checked (hq _ trivial) fun _ => ?_
  exact uses_bind (uses_readRange hq _ _ _) fun _ => uses_exit fun _ => trivial

/-! ## Checks of the FIP update -/

theorem uses_unpackNt (P : Platform) (nt : List UInt8) : Uses C (unpackNt P nt) := by
  refine uses_exit fun _ => uses_next (hq _ trivial) fun _ => ?_
  refine uses_exit fun _ => ?_
  split <;> trivial

theorem uses_fipBl33Unpack (P : Platform) (buf : List UInt8) : Uses C (fipBl33Unpack P buf) := by
  refine uses_exit fun _ => ?_
  cases fipParse buf with
  | error e => trivial
  | ok toc =>
    exact uses_exit fun _ => uses_exit fun _ =>
      uses_unpackNt hq P _

theorem uses_fipValidateCurrent (P : Platform) (buf : List UInt8) :
    Uses C (fipValidateCurrent P buf) := by
  unfold fipValidateCurrent
  cases fipParse buf with
  | error e => trivial
  | ok toc =>
    refine uses_exit fun _ => uses_bind (uses_unpackNt hq P _) fun r => ?_
    cases r <;> trivial

theorem uses_fipValidate (P : Platform) (addr len : ℕ) (stock : Bool) :
    Uses C (fipValidate P addr len stock) := by
  refine uses_checked (hq _ trivial) fun buf => ?_
  refine uses_bind (uses_fipBl33Unpack hq P _) fun r => ?_
  cases r <;> trivial

theorem uses_vanillaFipValidate (P : Platform) (addr len : ℕ) (stock : Bool) :
    Uses C (vanillaFipValidate P addr len stock) := by
  refine uses_exit fun _ => uses_next (hq _ trivial) fun buf => ?_
  refine uses_bind (uses_fipBl33Unpack hq P _) fun r => ?_
  cases r with
  | error e => trivial
  | ok raw => exact uses_exit fun _ => uses_exit fun _ => trivial

theorem uses_fipValidateKind (P : Platform) (addr len : ℕ) (stock : Bool) (kind : FipKind) :
    Uses C (fipValidateKind P addr len stock kind) := by
  cases kind with
  | ursus => exact uses_fipValidate hq P _ _ _
  | vanilla => exact uses_vanillaFipValidate hq P _ _ _

namespace FipUpdate

theorem uses_detectUbiLayout : Uses C detectUbiLayout := by
  refine uses_next (hq _ trivial) fun r => ?_
  cases r with
  | none => trivial
  | some g =>
    exact uses_exit fun _ => uses_bind (uses_readExact hq _ _) fun _ => trivial

theorem uses_precheck (P : Platform) (c : Ctx) : Uses C (precheck P c) := by
  refine uses_bind (uses_detectUbiLayout hq) fun r => ?_
  cases r with
  | error e => trivial
  | ok isUbi =>
    refine uses_bind (uses_fipValidateKind hq P _ _ _ _) fun _ => uses_exit fun _ => ?_
    refine uses_ite (fun _ => uses_bind (uses_installedBl2MatchesPin hq P) fun _ => ?_) fun _ => trivial
    exact uses_exit fun _ => trivial

theorem uses_fipNewHeadroom : Uses C fipNewHeadroom := by
  refine uses_next (hq _ trivial) fun r => ?_
  cases r <;> trivial

end FipUpdate

end Inert

section Queries

variable (hq : ∀ c : Cmd, c.Query → C c)
include hq

omit hq in
theorem inert_of_query (hq : ∀ c : Cmd, c.Query → C c) (c : Cmd) (h : c.Inert) : C c :=
  hq c h.query

/-! ## Helpers of the UBI engines -/

theorem uses_openAll (ns : List String) : Uses C (openAll ns) := by
  induction ns with
  | nil => trivial
  | cons n ns ih =>
    refine uses_next (hq _ trivial) fun r => ?_
    cases r with
    | error e => trivial
    | ok d => exact ih

theorem uses_verifyVolumeManifest (fit : Bool) : Uses C (verifyVolumeManifest fit) := by
  refine uses_checked (hq _ trivial) fun _ => ?_
  refine uses_bind (uses_openAll hq _) fun _ => uses_exit fun _ => ?_
  refine uses_next (hq _ trivial) fun r => ?_
  cases r <;> trivial

theorem uses_storeRootfsDataMax (h : C .envSave) (bytes : ℕ) : Uses C (storeRootfsDataMax bytes) :=
  uses_checked (hq _ trivial) fun _ =>
    uses_checked (hq _ trivial) fun _ =>
      uses_checked h fun _ => trivial

theorem uses_currentRootfsData : Uses C currentRootfsData := by
  refine uses_next (hq _ trivial) fun r => ?_
  cases r <;> trivial

theorem uses_createCleanRootfsData (hcreate : ∀ size id, C (.ubiCreate "rootfs_data" size false id))
    (env : Bool) (henv : env = true → C .envSave) : Uses C (createCleanRootfsData env) := by
  refine uses_next (hq _ trivial) fun r => ?_
  cases r with
  | none => trivial
  | some dev =>
    refine uses_exit fun _ => uses_exit fun _ => ?_
    refine uses_checked (hcreate _ _) fun _ => ?_
    refine uses_ite (fun h => ?_) fun _ => trivial
    exact uses_bind (uses_storeRootfsDataMax hq (henv h) _) fun _ => trivial

theorem uses_resetSettings (hdetach : C .ubiDetach) (hpart : C (.ubiPart .ursusUbiFull))
    (hremove : C (.ubiRemove "rootfs_data"))
    (hcreate : ∀ size id, C (.ubiCreate "rootfs_data" size false id)) (henv : C .envSave) :
    Uses C resetSettings := by
  refine uses_checked (hq _ trivial) fun _ => ?_
  refine uses_next hdetach fun _ => ?_
  refine uses_checked hpart fun _ => ?_
  refine uses_bind (uses_removeIfPresent (hq _ trivial) hremove) fun _ =>
    uses_exit fun _ => ?_
  refine uses_bind (uses_createCleanRootfsData hq hcreate _ fun _ => henv) fun _ =>
    uses_exit fun _ => ?_
  exact (uses_perform _ _).2 (hq _ trivial)

/-! ## Helpers of the FIP update -/

namespace FipUpdate

theorem uses_ensureUbiAttachment (h : ∀ p, C (.ubiPart p)) : Uses C ensureUbiAttachment := by
  refine uses_next (hq _ trivial) fun r => ?_
  cases r with
  | error e => trivial
  | ok part =>
    refine uses_next (hq _ trivial) fun dev => ?_
    cases dev with
    | some dev => trivial
    | none =>
      refine uses_checked (h part) fun _ => ?_
      refine uses_next (hq _ trivial) fun dev => ?_
      cases dev <;> trivial

theorem uses_classifyActiveFip (P : Platform)
    (h : ∀ used, C (.ubiRead ubiReadbackAddr "fip" used)) : Uses C (classifyActiveFip P) := by
  refine uses_checked (hq _ trivial) fun _ => ?_
  refine uses_next (hq _ trivial) fun r => ?_
  cases r with
  | error e => trivial
  | ok d =>
    refine uses_exit fun _ => ?_
    refine uses_checked (h _) fun _ => ?_
    refine uses_next (hq _ trivial) fun _ => ?_
    refine uses_bind (uses_fipValidateCurrent (inert_of_query hq) P _) fun r => ?_
    cases r <;> trivial

omit hq in
theorem uses_createFipNew (h : ∀ size st id, C (.ubiCreate "fip.new" size st id)) (c : Ctx)
    (avail need : ℕ) : Uses C (createFipNew c avail need) :=
  uses_exit fun _ => uses_checked (h _ _ _) fun _ => trivial

theorem uses_ubiStagePrep (c : Ctx) (hnew : C (.ubiRemove "fip.new"))
    (hold : c.ubiFipMode = .normal → C (.ubiRemove "fip.old")) (hbad : C (.ubiRemove "fip.bad"))
    (hdrop : c.ubiFipMode = .repairInvalid → c.ubiFipInvalidRet ≠ -enodev → C (.ubiRemove "fip"))
    (hcreate : ∀ size st id, C (.ubiCreate "fip.new" size st id)) : Uses C (ubiStagePrep c) := by
  have hroom : Uses C fipNewHeadroom := uses_fipNewHeadroom (inert_of_query hq)
  have hremove : ∀ {n}, C (.ubiRemove n) → Uses C (removeIfPresent n) := fun hn =>
    uses_removeIfPresent (hq _ trivial) hn
  have hreserve : Uses C (reserveFipNew { c with writeStarted := true }) := by
    refine uses_bind hroom fun r => ?_
    cases r with
    | none => trivial
    | some room =>
      refine uses_ite (fun h => ?_) fun _ => uses_createFipNew hcreate _ _ _
      refine uses_checked (hdrop h.2.1 h.2.2) fun _ => ?_
      refine uses_bind hroom fun r => ?_
      cases r with
      | none => trivial
      | some room => exact uses_createFipNew hcreate _ _ _
  refine uses_bind (hremove hnew) fun _ => uses_ite (fun h => ?_) fun _ => ?_
  · exact uses_bind (hremove (hold h)) fun _ => uses_bind (hremove hbad) fun _ => hreserve
  · exact uses_bind (hremove hbad) fun _ => hreserve

theorem uses_atomicSwitch {current candidate backup : String}
    (h : ∀ i j, C (.ubiRenameVolumes [(i, backup), (j, current)])) :
    Uses C (atomicSwitch current candidate backup) := by
  refine uses_checked (hq _ trivial) fun _ => ?_
  refine uses_next (hq _ trivial) fun r => ?_
  cases r with
  | error e => trivial
  | ok old =>
    refine uses_next (hq _ trivial) fun r => ?_
    cases r with
    | error e => trivial
    | ok new => exact (uses_perform _ _).2 (h _ _)

theorem uses_vanillaResetVolume {n : String} (hwrite : ∀ a s, C (.ubiWrite a n s))
    (hread : ∀ s, C (.ubiRead ubiReadbackAddr n s)) (hmem : ∀ bs, C (.writeMem ubiReadbackAddr bs)) :
    Uses C (vanillaResetVolume n) := by
  refine uses_checked (hq _ trivial) fun _ => ?_
  refine uses_next (hmem _) fun _ => ?_
  refine uses_checked (hwrite _ _) fun _ => ?_
  refine uses_next (hmem _) fun _ => ?_
  refine uses_checked (hread _) fun _ => ?_
  exact uses_next (hq _ trivial) fun _ => trivial

theorem uses_vanillaResetEnv
    (hwrite : ∀ n ∈ ["ubootenv", "ubootenv2"], ∀ a s, C (.ubiWrite a n s))
    (hread : ∀ n s, C (.ubiRead ubiReadbackAddr n s)) (hmem : ∀ bs, C (.writeMem ubiReadbackAddr bs)) :
    Uses C vanillaResetEnv := by
  have hround : ∀ n ∈ ["ubootenv", "ubootenv2"], Uses C (vanillaResetVolume n) := fun n hn =>
    uses_vanillaResetVolume hq (hwrite n hn) (hread n) hmem
  exact uses_bind (hround _ (by simp)) fun _ => uses_exit fun _ =>
    hround _ (by simp)

end FipUpdate

end Queries

end UrsusBoot
