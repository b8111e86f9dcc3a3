import UrsusBoot.Safety.FipProgress
import UrsusBoot.Safety.WebEngines
import UrsusBoot.Safety.WebReach

/-!
# A session on a board in the UBI layout

What a client can do there with an image and a FIP that are made for the board, from whatever state
the earlier requests have left.
-/

namespace UrsusBoot

open Prog
open FipUpdate (NativeNand sampleFip samplePlatform length_sampleFip sampleFip_accepted sampleWorld
  freshTable sampleWorld_native)

/-! ## The image -/

/-- The metadata: `supported_devices` is the array of `nokia,xg-040g-md-ubi`. -/
def boardJson : List UInt8 :=
  [0x7b, 0x22, 0x73, 0x75, 0x70, 0x70, 0x6f, 0x72, 0x74, 0x65, 0x64, 0x5f, 0x64, 0x65, 0x76,
   0x69, 0x63, 0x65, 0x73, 0x22, 0x3a, 0x5b, 0x22, 0x6e, 0x6f, 0x6b, 0x69, 0x61, 0x2c, 0x78,
   0x67, 0x2d, 0x30, 0x34, 0x30, 0x67, 0x2d, 0x6d, 0x64, 0x2d, 0x75, 0x62, 0x69, 0x22, 0x5d,
   0x7d]

@[irreducible]
def boardImage : List UInt8 := fwtoolImage boardFit boardJson

theorem length_boardImage : boardImage.length = 913 := by
  rw [boardImage, length_fwtoolImage, length_boardFit]
  rfl

theorem boardImage_ne_nil : boardImage ≠ [] := by
  intro hnil
  have hlen := length_boardImage
  rw [hnil] at hlen
  exact absurd hlen (by decide)

theorem sampleFip_ne_nil : sampleFip false ≠ [] := by
  intro hnil
  have hlen := length_sampleFip false
  rw [hnil] at hlen
  exact absurd hlen (by decide)

theorem boardImage_eq : ∃ rest, boardImage = boardFit ++ rest := by
  refine ⟨List.replicate 8 0 ++ boardJson ++ (be32 fwtoolMagic ++
    be32 (crc32Fwtool 0xffffffff (boardFit ++ List.replicate 8 0 ++ boardJson)).toNat ++
    [1, 0, 0, 0] ++ be32 (boardJson.length + 24)), ?_⟩
  simp only [boardImage, fwtoolImage, List.append_assoc]

theorem verifyFit_boardImage : verifyFit boardFitLib boardImage = (0, true) := by
  obtain ⟨rest, hrest⟩ := boardImage_eq
  rw [hrest]
  exact verifyFit_boardFit rest

theorem stagedMeta_boardImage : stagedMeta boardImage = ⟨true, true, true, false, true, 851, 46⟩ := by
  have hdevices : jsonExactSupportedDevices boardJson = ⟨true, false, true⟩ := by decide
  have hjson : boardJson.length = 46 := rfl
  unfold stagedMeta boardImage
  rw [parseFwtoolMeta_fwtoolImage (by rw [hjson]; decide), hdevices, hjson, length_boardFit]

theorem prefix_boardImage : boardFit <+: boardImage := by
  obtain ⟨rest, hrest⟩ := boardImage_eq
  rw [hrest]
  exact List.prefix_append _ _

def ImageState.listed (s : ImageState) : ImageState :=
  { s with kernelFound := true, rootFound := true, fdtFound := true, kernelSize := 4, rootSize := 4
           fdtSize := 119 }

theorem inspectFitImages_boardImage (s : ImageState) (hk : s.kernelSize = 0) (hr : s.rootSize = 0)
    (hf : s.fdtSize = 0) : inspectFitImages boardFitLib boardImage s = s.listed := by
  have himages : boardFitLib.images boardImage = [kernelNode, dtbNode, rootfsNode] := by
    simp only [boardFitLib, if_pos prefix_boardImage]
  have hkernel : ([kernelNode, dtbNode, rootfsNode].map
      (·.isKind "kernel" "linux" "kernel")) = [true, false, false] := by decide
  have hrootfs : ([kernelNode, dtbNode, rootfsNode].map
      (·.isKind "rootfs" "filesystem" "filesystem")) = [false, false, true] := by decide
  have hdtb : ([kernelNode, dtbNode, rootfsNode].map
      (·.isKind "fdt" "dtb" "flat_dt")) = [false, true, false] := by decide
  simp only [List.map_cons, List.map_nil, List.cons.injEq, and_true] at hkernel hrootfs hdtb
  have hks : kernelNode.size = some 4 := rfl
  have hds : dtbNode.size = some 119 := rfl
  have hrs : rootfsNode.size = some 4 := rfl
  simp [inspectFitImages, himages, inspectNode, hkernel, hrootfs, hdtb, hk, hr, hf, hks, hds, hrs,
    ImageState.listed]

/-- What its default configuration says: a kernel for this architecture, and a device tree for the
board in its UBI layout. -/
def ImageState.forBoard (s : ImageState) : ImageState :=
  { s with kernelArchValid := true, fdtFound := true, fdtSize := 119, fdtIsStock := false
           fdtIsUbi := true, fdtCompatible := true }

theorem fdtPlatform_boardDtb (s : ImageState) :
    fdtPlatform boardFitLib boardDtb { s with kernelArchValid := true } = (0, s.forBoard) := by
  have hcompat : boardFitLib.compatible boardDtb = some ubiCompatible := by
    simp only [boardFitLib, if_true]
  have hne : ubiCompatible ≠ [] := by decide
  have hstock : stringlistContains ubiCompatible.length ubiCompatible "nokia,xg-040g-md" = false := by
    decide
  have hubi : stringlistContains ubiCompatible.length ubiCompatible "nokia,xg-040g-md-ubi" = true := by
    decide
  have hcheck : fdtCheckHeader boardDtb = 0 := by decide
  have htotal : (fdtHeader boardDtb).totalsize = 119 := by decide
  unfold fdtPlatform
  rw [hcheck, htotal, length_boardDtb, if_neg (by decide)]
  simp only [hcompat, hne, if_false, hstock, hubi, Bool.not_true, Bool.and_false,
    Bool.false_eq_true]
  rfl

theorem may_fitDefaultPlatform (s : ImageState) {w : World} (tr : List FlashEvent) :
    May exec (fun r w' _ => r = (0, s.forBoard) ∧ w' = w)
      (fitDefaultPlatform boardFitLib stageAddr boardImage s) w tr := by
  have hconf : boardFitLib.defaultConf boardImage =
      some ⟨some (some ihArchArm64), some ⟨some ihTypeFlatdt, some (272, boardDtb)⟩⟩ := by
    simp only [boardFitLib, if_pos prefix_boardImage]
  unfold fitDefaultPlatform
  simp only [hconf, ne_eq, not_true_eq_false, if_false, length_boardDtb]
  rw [if_neg (by decide), if_neg (by decide), fdtPlatform_boardDtb]
  exact ⟨rfl, rfl⟩

/-! ## The firmware channel -/

def boardState : ImageState where
  type := .ubiSysupgrade
  addr := stageAddr
  len := 913
  metadataPresent := true
  metadataValid := true
  deviceCompatible := true
  fitValid := true
  fitHashesValid := true
  kernelFound := true
  fdtFound := true
  rootFound := true
  kernelArchValid := true
  fdtCompatible := true
  fdtIsUbi := true
  kernelSize := 4
  fdtSize := 119
  rootSize := 4
  reason := "UBI sysupgrade FIT valid; in-place UBI update is available after confirmation"

theorem may_stagedFit (m : FwtoolMeta) (layout : Layout) (s : ImageState) {w : World}
    (hm : m.found = true) (hk : s.kernelSize = 0) (hr : s.rootSize = 0) (hf : s.fdtSize = 0)
    (tr : List FlashEvent) :
    May exec (fun r w' _ => r = stagedUbi layout m 0 (ImageState.forBoard (ImageState.listed { s with
        fitValid := true, fitHashesValid := true, type := .ubiSysupgrade })) ∧ w' = w)
      (stagedFit boardFitLib layout m stageAddr boardImage s) w tr := by
  unfold stagedFit
  simp only [verifyFit_boardImage, beq_self_eq_true]
  rw [if_neg (by decide), if_neg (by simp), if_neg (by simp [hm])]
  generalize hs : ({ s with
    fitValid := true, fitHashesValid := true, type := .ubiSysupgrade } : ImageState) = s₁
  have hsizes : s₁.kernelSize = 0 ∧ s₁.rootSize = 0 ∧ s₁.fdtSize = 0 := by
    rw [← hs]
    exact ⟨hk, hr, hf⟩
  rw [inspectFitImages_boardImage s₁ hsizes.1 hsizes.2.1 hsizes.2.2]
  apply (may_fitDefaultPlatform _ tr).bind
  rintro r w' tr' ⟨rfl, rfl⟩
  exact ⟨rfl, rfl⟩

theorem may_stagedVerdict {w : World} (tr : List FlashEvent) :
    May exec (fun r w' _ => r = (0, boardState) ∧ w' = w)
      (stagedVerdict boardFitLib .openwrtUbi stageAddr boardImage) w tr := by
  have htar : tarMagic boardImage = false := by decide +kernel
  have hubi : bytesAt boardImage 0 4 ≠ asciiBytes "UBI#" := by decide +kernel
  have hmagic : beNat (bytesAt boardImage 0 4) = fdtMagic := by decide +kernel
  unfold stagedVerdict
  simp only [boardImage_ne_nil, if_false, stagedMeta_boardImage, htar, Bool.false_eq_true, length_boardImage,
    hubi, and_false, hmagic, and_true]
  rw [if_neg (by decide), if_pos (by decide)]
  apply (may_stagedFit _ _ _ rfl rfl rfl rfl tr).mono
  rintro r w' _ ⟨rfl, rfl⟩
  refine ⟨?_, rfl⟩
  simp [stagedUbi, ImageState.forBoard, ImageState.listed, boardState, ImageState.setReason,
    resetImageState, FwtoolMeta.valid]

variable {L : FitLib}

theorem may_validateStaged {layout : Layout} {addr len : ℕ} {buf : List UInt8}
    {Q : ℤ × ImageState → World → Prop} {w : World} (hw : w.ram.slice addr len = buf)
    (h : ∀ tr, May exec (fun r w' _ => Q r w') (stagedVerdict L layout addr buf) w tr)
    (tr : List FlashEvent) :
    May exec (fun r w' _ => Q r w') (validateStaged L layout addr len) w tr := by
  subst hw
  apply may_next .ok
  apply may_next .ok
  apply (h _).bind
  intro r w' _ hq
  apply may_next .ok
  exact may_next .ok hq

/-! ## The session -/

/-- The loop runs on a board in the UBI layout whose UBI could not be attached when it was probed;
the engines and their flags are `d`. -/
structure OnBoard (d : Drive) (s : Web) (w : World) : Prop where
  drive : s.drive = d
  layout : s.currentLayout = .openwrtUbi
  detached : s.ubiDiag.attached = false
  noReboot : s.pendingReboot = false
  running : s.stop = false
  native : NativeNand w
  unregistered : w.ubiMtdReady = false

/-- What `ursusweb` begins with on the sample board. -/
def firstWeb : Web := ({} : Web).restarted.probed ⟨.openwrtUbi, {}⟩

theorem onBoard_first : OnBoard ({} : Web).drive firstWeb (sampleWorld freshTable) :=
  ⟨rfl, rfl, rfl, rfl, rfl, sampleWorld_native freshTable, rfl⟩

variable {Q : Web → World → Prop}

theorem reaches_of_first (h : Leads samplePlatform L firstWeb (sampleWorld freshTable) Q) :
    Reaches (Board.step samplePlatform L) (Board.powerOn (sampleWorld freshTable))
      fun b => ∃ s w, Serving s w b ∧ Q s w :=
  reaches_first ⟨.openwrtUbi, {}⟩ fun b hb => h b hb

def fileUpload (kind : UploadKind) (body digits : List UInt8) (hne : body ≠ [])
    (hmax : body.length ≤ 0x800) (hvis : ∀ b ∈ digits, Visible b)
    (hshort : digits ≠ [] ∧ digits.length < 32)
    (hread : simpleStrtoul digits = (body.length, [])) : Upload where
  kind := kind
  body := body
  digits := digits
  generation := List.replicate 8 0x30
  filename := [0x61]
  nonempty := hne
  fits := hmax.trans (by cases kind <;> decide)
  short := hmax.trans (by decide)
  digits_visible := hvis
  digits_short := hshort
  digits_read := hread
  generation_visible := forall_mem_of_all rfl
  generation_valid := by decide
  filename_visible := forall_mem_of_all rfl
  filename_short := by decide
  filename_decoded := by decide

section Session

variable {P : Platform} {d : Drive} {s : Web} {w : World}

theorem begun_keeps {k : UploadKind} (s : Web) (u : UploadSession k) :
    (s.begun u).drive = s.drive ∧ (s.begun u).currentLayout = s.currentLayout ∧
      (s.begun u).ubiDiag = s.ubiDiag ∧ (s.begun u).pendingReboot = s.pendingReboot ∧
      (s.begun u).stop = s.stop := by
  cases k <;> exact ⟨rfl, rfl, rfl, rfl, rfl⟩

theorem setSession_session {k : UploadKind} (s : Web) (u : UploadSession k) :
    (s.setSession u).session k = u := by
  simp [Web.setSession]

theorem OnBoard.uploaded (h : OnBoard d s w) (u : Upload) :
    OnBoard d ((s.begun u.session).setSession u.received)
      { w with ram := w.ram.blit u.kind.stageAddr u.body } := by
  obtain ⟨hdrive, hlayout, hdiag, hreboot, hstop⟩ := begun_keeps s u.session
  exact ⟨hdrive.trans h.drive, hlayout.trans h.layout, (congrArg UbiDiag.attached hdiag).trans h.detached,
    hreboot.trans h.noReboot, hstop.trans h.running, ⟨h.native.geometry, h.native.magic⟩, h.unregistered⟩

theorem leads_file (h : OnBoard d s w) (kind : UploadKind) (body digits : List UInt8)
    (hne : body ≠ []) (hmax : body.length ≤ 0x800) (hvis : ∀ b ∈ digits, Visible b)
    (hshort : digits ≠ [] ∧ digits.length < 32) (hread : simpleStrtoul digits = (body.length, []))
    (hend : ∀ s₁ w₁ tr, OnBoard d s₁ w₁ → (s₁.session kind).addr = kind.stageAddr →
      (s₁.session kind).total = body.length → (s₁.session kind).received = body.length →
      w₁.ram.slice kind.stageAddr body.length = body →
      May exec (fun x w' _ => Q x.web w') (completeUpload P L s₁ kind) w₁ tr) :
    Leads P L s w Q := by
  set u := fileUpload kind body digits hne hmax hvis hshort hread with hu
  apply u.leads_upload
  intro tr
  have hsession := setSession_session (s.begun u.session) u.received
  apply hend _ _ tr (h.uploaded u)
  · exact congrArg UploadSession.addr hsession
  · exact congrArg UploadSession.total hsession
  · exact congrArg UploadSession.received hsession
  · exact Mem.slice_blit _ _ _

/-- **The firmware** is uploaded and valid. -/
theorem leads_image (h : OnBoard d s w) :
    Leads P boardFitLib s w fun s' w' => OnBoard d s' w' ∧ s'.img = boardState ∧
      w'.ram.slice stageAddr 913 = boardImage := by
  apply leads_file h .firmware boardImage [0x39, 0x31, 0x33] boardImage_ne_nil
    (by rw [length_boardImage]; decide) (forall_mem_of_all rfl) (by decide)
    (by rw [length_boardImage]; decide)
  intro s₁ w₁ tr hb haddr htotal _ hslice
  rw [length_boardImage] at htotal hslice
  unfold completeUpload
  simp only [haddr, htotal, hb.layout]
  apply (may_validateStaged hslice (fun _ => may_stagedVerdict _) _).bind
  rintro r w' _ ⟨rfl, rfl⟩
  exact ⟨⟨hb.drive, rfl, hb.detached, hb.noReboot, hb.running, hb.native, hb.unregistered⟩, rfl, hslice⟩

structure FipStaged (s : Web) (w : World) : Prop where
  valid : s.fipUploadValid = true
  addr : (s.session .ursusFip).addr = fipStageAddr
  total : (s.session .ursusFip).total = 1174
  received : (s.session .ursusFip).received = 1174
  staged : w.ram.slice fipStageAddr 1174 = sampleFip false

/-- **The FIP** is uploaded and valid. -/
theorem leads_fip (h : OnBoard d s w) :
    Leads samplePlatform L s w fun s' w' => OnBoard d s' w' ∧ FipStaged s' w' := by
  apply leads_file h .ursusFip (sampleFip false) [0x31, 0x31, 0x37, 0x34] sampleFip_ne_nil
    (by rw [length_sampleFip]; decide) (forall_mem_of_all rfl) (by decide)
    (by rw [length_sampleFip]; decide)
  intro s₁ w₁ tr hb haddr htotal hreceived hslice
  rw [length_sampleFip] at htotal hreceived hslice
  have hacc : fipAccepts samplePlatform .ursus (w₁.ram.slice fipStageAddr 1174) = true := by
    have hslice' : w₁.ram.slice fipStageAddr 1174 = sampleFip false := hslice
    rw [hslice']
    exact sampleFip_accepted false
  unfold completeUpload
  simp only [haddr, htotal, hb.layout]
  apply (may_fipValidate (Q := fun r w' _ => r = 0 ∧ w' = w₁) hacc (fun _ => ⟨rfl, rfl⟩)).bind
  rintro r w' _ ⟨rfl, rfl⟩
  exact ⟨⟨hb.drive, rfl, hb.detached, hb.noReboot, hb.running, hb.native, hb.unregistered⟩,
    ⟨rfl, haddr, htotal, hreceived, hslice⟩⟩

/-! ### Operations -/

/-- **A confirmed request**: all that matters of its header is where it goes and what it confirms. -/
theorem leads_confirmed {e : String × Route} (he : e ∈ endpoints) (text : String)
    (bytes : List UInt8) (htext : asciiBytes text = bytes) (hvis : ∀ b ∈ bytes, Visible b)
    (hne : bytes ≠ []) (hshort : bytes.length < 40) (h : ∀ hdr, Route.ofHeader hdr = e.2 →
      (∀ outLen, bytes.length < outLen → confirmed hdr outLen text = true) →
      keepSettings hdr = true →
      May exec (fun r w' _ => ∃ x, r = .served x ∧ Q x.web w') (routeReady P hdr s) w []) :
    Leads P L s w Q := by
  have hstart := endpoints_plain e he
  have hpath := endpoints_short e he
  have hhttp : (asciiBytes "HTTP/1.1").length = 8 := by decide
  have hlen : (request (asciiBytes e.1) [FieldName.confirm.field bytes hvis]).length <
      httpHdrMax := by
    show _ < 2048
    simp only [request, List.length_append, List.flatMap_cons, List.flatMap_nil, Field.line,
      FieldName.field, FieldName.bytes, crlf, List.length_cons, List.length_nil, hhttp]
    omega
  apply leads_request hstart hlen
  apply h
  · exact ofHeader_request he _
  · intro outLen hout
    have hvalue : parseHeaderValue (request (asciiBytes e.1) [FieldName.confirm.field bytes hvis])
        "X-Ursus-Confirm" outLen = some bytes :=
      FieldName.parseHeaderValue_some (n := .confirm) hstart (FieldName.lookupField_self hvis) hne hout
    rw [confirmed, hvalue, htext]
    exact beq_self_eq_true _
  · have hnone : parseHeaderValue (request (asciiBytes e.1) [FieldName.confirm.field bytes hvis])
        "X-Ursus-Keep-Settings" 16 = none := by
      apply FieldName.parseHeaderValue_none (n := .keepSettings) hstart
      rw [FieldName.lookupField_ne _ (by decide), FieldName.lookupField_nil]
    rw [keepSettings, hnone]
    rfl

/-- `INSTALL-UBI`. -/
def installUbiText : List UInt8 :=
  [0x49, 0x4e, 0x53, 0x54, 0x41, 0x4c, 0x4c, 0x2d, 0x55, 0x42, 0x49]

/-- `UPDATE-URSUSBOOT`. -/
def updateUrsusbootText : List UInt8 :=
  [0x55, 0x50, 0x44, 0x41, 0x54, 0x45, 0x2d, 0x55, 0x52, 0x53, 0x55, 0x53, 0x42, 0x4f, 0x4f,
   0x54]

def startedUpdate : UbiUpdate.Ctx :=
  { fitAddr := stageAddr, fitLen := 913, keepSettings := true, stage := .precheck, active := true }

theorem fdtCheckHeader_staged (hslice : w.ram.slice stageAddr 913 = boardImage) :
    fdtCheckHeader (w.ram.slice stageAddr 40) = 0 := by
  have htake : w.ram.slice stageAddr 40 = boardImage.take 40 := by
    rw [← hslice, Mem.take_slice _ _ (by decide)]
  rw [htake]
  decide +kernel

theorem may_updateStart {c : UbiUpdate.Ctx} (hc : c.active = false)
    (hslice : w.ram.slice stageAddr 913 = boardImage) (tr : List FlashEvent) :
    May exec (fun r w' _ => r = (0, startedUpdate) ∧ w' = w)
      (UbiUpdate.start c false stageAddr 913 true) w tr := by
  unfold UbiUpdate.start
  rw [if_neg (by simp [hc]), if_neg (by decide)]
  apply may_next .ok
  have hcheck : fdtCheckHeader (exec (.readMem stageAddr 40) .ok w).1 = 0 :=
    fdtCheckHeader_staged hslice
  rw [hcheck]
  exact ⟨rfl, rfl⟩

/-- **The UBI update** is started. -/
theorem leads_install (h : OnBoard d s w) (hidle : d.engines.anyActive = false)
    (himg : s.img = boardState) (hslice : w.ram.slice stageAddr 913 = boardImage) :
    Leads P boardFitLib s w fun s' w' => OnBoard { d with
      engines := { d.engines with upd := startedUpdate }, ubiUpdate := true } s' w' := by
  have hmem : ("POST /api/install-ubi ", Route.installUbi) ∈ endpoints := by simp [endpoints]
  have hready : boardState.UbiReady := ⟨rfl, rfl, rfl, rfl, rfl, rfl, rfl⟩
  have hlen : boardState.len = 913 := rfl
  have haddr : boardState.addr = stageAddr := rfl
  obtain ⟨rfl⟩ := h.drive
  have hidle' : s.engines.anyActive = false := hidle
  have hactive : s.engines.upd.active = false ∧ s.engines.mig.active = false := by
    simp only [Engines.anyActive, Bool.or_eq_false_iff] at hidle'
    exact hidle'.1
  apply leads_confirmed hmem "INSTALL-UBI" installUbiText (by decide) (forall_mem_of_all rfl)
    (by decide) (by decide)
  intro hdr hroute hconfirm hkeep
  unfold routeReady
  rw [hroute]
  unfold installUbi installUbiUpdate
  simp only [hconfirm 32 (by decide), himg, hready, h.layout, h.detached, hactive.2, hkeep, hlen, haddr,
    Bool.not_true, Bool.false_eq_true, if_false, not_true_eq_false, if_true, false_and]
  rw [if_neg (by simp [hidle'])]
  apply May.bind (M := fun x w' _ => OnBoard { s.drive with
    engines := { s.engines with upd := startedUpdate }, ubiUpdate := true } x.web w')
  · apply (may_updateStart hactive.1 hslice _).bind
    rintro r w' _ ⟨rfl, rfl⟩
    rw [if_neg (by simp)]
    apply may_next .ok
    exact ⟨rfl, rfl, h.detached, h.noReboot, h.running, h.native, h.unregistered⟩
  · intro x w' _ hx
    exact ⟨x, rfl, hx⟩

theorem may_service {probe : Probe} {Q : Web → World → List FlashEvent → Prop}
    {tr : List FlashEvent} (hreboot : s.pendingReboot = false)
    (h : May exec Q (serviceEngines P probe s) w tr) : May exec Q (service P probe s) w tr := by
  unfold service
  simp only [hreboot, Bool.false_and, Bool.false_eq_true, if_false]
  exact h

theorem may_serviceUpdate {probe : Probe} {tr : List FlashEvent} (hflag : s.pendingUbiUpdate = true)
    (hact : s.engines.upd.active = true) (hmig : s.engines.mig.active = false)
    (hfip : s.engines.fip.active = false) (h : May exec (fun r w' _ => r.1 ≤ 0 ∧
      Q { s with engines := { s.engines with upd := r.2 } } w') (UbiUpdate.step s.engines.upd) w tr)
    :
    May exec (fun s' w' _ => Q s' w') (serviceEngines P probe s) w tr := by
  apply May.bind (M := fun s' w' _ => s'.engines.mig.active = false ∧
    s'.engines.fip.active = false ∧ Q s' w')
  · unfold serviceUpdate
    rw [if_neg (by simp [hflag, hact])]
    apply h.bind
    rintro r w' tr' ⟨hneg, hq⟩
    by_cases hr : r.1 < 0
    · rw [if_pos hr]
      exact may_next .ok ⟨hmig, hfip, hq⟩
    · rw [if_neg hr, if_neg (by omega)]
      exact ⟨hmig, hfip, hq⟩
  · rintro s' w' tr' ⟨hmig', hfip', hq⟩
    have hm : serviceMigration P s' = .ret s' := by
      unfold serviceMigration
      rw [if_pos (by simp [hmig'])]
      rfl
    have hf : serviceBootloader P s' = .ret s' := by
      unfold serviceBootloader
      rw [if_pos (by simp [hfip'])]
      rfl
    rw [hm, bind_def, ret_bind, hf]
    exact hq

theorem may_announceBootloader {probe : Probe} {tr : List FlashEvent}
    (hflag : s.pendingBootloaderUpdate = true) (hact : s.engines.fip.active = true)
    (hann : s.engines.fip.announced = false) (hupd : s.engines.upd.active = false)
    (hmig : s.engines.mig.active = false) (h : ∀ n, Q { s with engines := { s.engines with
      fip := { s.engines.fip with announced := true, announcedAt := n } } } w) :
    May exec (fun s' w' _ => Q s' w') (serviceEngines P probe s) w tr := by
  have hu : serviceUpdate probe s = .ret s := by
    unfold serviceUpdate
    rw [if_pos (by simp [hupd])]
    rfl
  have hm : serviceMigration P s = .ret s := by
    unfold serviceMigration
    rw [if_pos (by simp [hmig])]
    rfl
  unfold serviceEngines serviceBootloader FipUpdate.step
  rw [hu, bind_def, ret_bind, hm, bind_def, ret_bind, if_neg (by simp [hflag, hact]),
    if_neg (by simp [hact]), if_pos (by simp [hann])]
  apply may_answer (World.getTimer_now w)
  exact h _

theorem may_precheckFails {c : UbiUpdate.Ctx} (hstage : c.stage = .precheck) (hact : c.active = true)
    (hann : c.announced = true) (hsince : c.announcedAt = w.clock % 2 ^ 64)
    (hmtd : w.ubiMtdReady = false) (tr : List FlashEvent) :
    May exec (fun r w' _ => r.1 ≤ 0 ∧ r.2.active = false ∧ r.2.stage = .failed ∧
      w' = { w with clock := w.clock + UbiUpdate.stageHoldMs }) (UbiUpdate.step c) w tr := by
  have hheld : exec (.getTimer c.announcedAt) { tick := UbiUpdate.stageHoldMs } w =
      (UbiUpdate.stageHoldMs, { w with clock := w.clock + UbiUpdate.stageHoldMs }) := by
    rw [hsince]
    exact World.getTimer_elapsed w (by decide)
  have hregister : exec .ubiRegisterMtd (.fails ⟨-enodev, by decide⟩)
      { w with clock := w.clock + UbiUpdate.stageHoldMs } =
      (-enodev, { w with clock := w.clock + UbiUpdate.stageHoldMs }) := by
    simp [exec, World.ubiRegisterMtd, hmtd, Outcome.fails]
  unfold UbiUpdate.step
  rw [if_neg (by simp [hact]), if_neg (by simp [hann])]
  apply may_answer hheld
  rw [if_neg (lt_irrefl _)]
  unfold UbiUpdate.runStage
  simp only [hstage]
  apply may_answer hregister
  rw [if_pos (by decide)]
  have hneg : -enodev ≤ 0 := by decide
  exact ⟨hneg, rfl, rfl, rfl⟩

/-- **The UBI update fails** in its first stage. -/
theorem leads_updateFails (h : OnBoard d s w) (hflag : d.ubiUpdate = true)
    (hupd : d.engines.upd = startedUpdate) (hmig : d.engines.mig.active = false)
    (hfip : d.engines.fip.active = false) :
    Leads P L s w fun s' w' => ∃ upd : UbiUpdate.Ctx, upd.active = false ∧ upd.stage = .failed ∧
      OnBoard { d with engines := { d.engines with upd } } s' w' := by
  obtain ⟨rfl⟩ := h.drive
  have hupd' : s.engines.upd = startedUpdate := hupd
  have hact : s.engines.upd.active = true := by rw [hupd']; rfl
  -- the stage is announced
  set c : UbiUpdate.Ctx :=
    { startedUpdate with announced := true, announcedAt := w.clock % 2 ^ 64 } with hc
  apply Leads.trans (M := fun s' w' => OnBoard { s.drive with
    engines := { s.engines with upd := c } } s' w' ∧ w'.clock = w.clock)
  · apply leads_service ⟨.openwrtUbi, {}⟩
    apply may_service h.noReboot
    apply may_serviceUpdate hflag hact hmig hfip
    rw [hupd']
    apply may_answer (World.getTimer_now w)
    exact ⟨le_rfl, h.running, ⟨rfl, h.layout, h.detached, h.noReboot, h.running, h.native,
      h.unregistered⟩, rfl⟩
  rintro s' w' ⟨h', hclock⟩
  have hdrive := h'.drive
  have heng : s'.engines = { s.engines with upd := c } := congrArg Drive.engines hdrive
  have hflag' : s'.pendingUbiUpdate = true := (congrArg Drive.ubiUpdate hdrive).trans hflag
  -- and carried out once it has been held
  apply leads_service ⟨.openwrtUbi, {}⟩
  apply may_service h'.noReboot
  apply may_serviceUpdate hflag' (by rw [heng]; rfl) (by rw [heng]; exact hmig)
    (by rw [heng]; exact hfip)
  rw [heng]
  apply (may_precheckFails rfl rfl rfl (by rw [hclock]) h'.unregistered []).mono
  rintro r w'' _ ⟨hneg, hdone, hfailed, rfl⟩
  have hdrive' : { s' with engines := { s.engines with upd := r.2 } }.drive =
      { s.drive with engines := { s.engines with upd := r.2 } } := by
    have hflags := congrArg (fun d => (d.ubiUpdate, d.ubiMigration, d.bootloader)) hdrive
    simp only [Prod.mk.injEq] at hflags
    simp only [Web.drive] at hflags ⊢
    rw [hflags.1, hflags.2.1, hflags.2.2]
  exact ⟨hneg, h'.running, r.2, hdone, hfailed, hdrive', h'.layout, h'.detached, h'.noReboot,
    h'.running, ⟨h'.native.geometry, h'.native.magic⟩, h'.unregistered⟩

/-- `UPDATE-URSUSBOOT` is confirmed: **the bootloader update** is started. -/
theorem leads_update (h : OnBoard d s w) (hmig : d.engines.mig.active = false)
    (hfip : d.engines.fip.active = false) (hstaged : FipStaged s w) :
    Leads samplePlatform L s w fun s' w' => ∃ fip : FipUpdate.Ctx, fip.active = true ∧
      fip.stage = .precheck ∧ fip.announced = false ∧
      OnBoard { d with engines := { d.engines with fip }, bootloader := true } s' w' := by
  have hmem : ("POST /api/update-ursusboot ", Route.updateUrsusboot) ∈ endpoints := by
    simp [endpoints]
  obtain ⟨rfl⟩ := h.drive
  have hmig' : s.engines.mig.active = false := hmig
  have hfip' : s.engines.fip.active = false := hfip
  have hacc : fipAccepts samplePlatform .ursus (w.ram.slice fipStageAddr 1174) = true := by
    rw [hstaged.staged]
    exact sampleFip_accepted false
  apply leads_confirmed hmem "UPDATE-URSUSBOOT" updateUrsusbootText (by decide) (forall_mem_of_all rfl)
    (by decide) (by decide)
  intro hdr hroute hconfirm _
  unfold routeReady
  rw [hroute]
  unfold updateUrsusboot fipRequest
  simp only [hconfirm 32 (by decide), hstaged.valid, hstaged.total, hstaged.received, hstaged.addr,
    hmig', hfip', Bool.not_true, Bool.false_eq_true, if_false, ne_eq, not_true_eq_false, false_or,
    Bool.or_self]
  rw [if_neg (by decide)]
  apply May.bind (M := fun x w' _ => ∃ fip : FipUpdate.Ctx, fip.active = true ∧
    fip.stage = .precheck ∧ fip.announced = false ∧ OnBoard { s.drive with
      engines := { s.engines with fip }, bootloader := true } x.web w')
  · apply (FipUpdate.may_startKind (Q := fun r w' _ => r.1 = 0 ∧ r.2.active = true ∧
      r.2.stage = .precheck ∧ r.2.announced = false ∧ w' = w) hfip' h.native hacc (by rintro ⟨⟩)
      (fun _ => ⟨rfl, rfl, rfl, rfl, rfl⟩)).bind
    rintro r w' _ ⟨hret, hact, hstage, hann, rfl⟩
    rw [if_neg (not_not.2 hret)]
    apply may_next .ok
    exact ⟨r.2, hact, hstage, hann, rfl, h.layout, h.detached, h.noReboot, h.running, h.native,
      h.unregistered⟩
  · intro x w' _ hx
    exact ⟨x, rfl, hx⟩

end Session

end UrsusBoot
