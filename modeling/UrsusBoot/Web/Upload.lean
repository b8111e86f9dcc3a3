import UrsusBoot.Web.Install

/-!
# Uploads

An upload begins with its size, name and generation, and arrives in chunks, each a request of its
own; the last one starts the validation.
-/

namespace UrsusBoot

def uploadReject (s : Web) (status : ℕ) (reasonClass : ReasonClass) (reason : String)
    (expected got : ℕ) : FlashProg Served := do
  logf (.uploadError reasonClass.name reason expected got)
  return ⟨⟨status, .json [("result", .str "REJECTED"), ("reason_class", .str reasonClass.name),
    ("reason", .str reason), ("expected", .num expected), ("got", .num got)]⟩, s, false, false⟩

/-- The other kind of upload that is staged in the same window. -/
def UploadKind.partner : UploadKind → Option UploadKind
  | .firmware => some .initramfs
  | .initramfs => some .firmware
  | .ubiPreloader => none
  | .ursusFip => some .vanillaFip
  | .vanillaFip => some .ursusFip

def Web.clearSession (s : Web) (k : UploadKind) : Web := s.setSession (UploadSession.cleared k)

/-- What is known of the window of a kind no longer holds. -/
def Web.invalidate (s : Web) : UploadKind → Web
  | .firmware | .initramfs => { s with img := resetImageState, expertImg := resetExpertState }
  | .ubiPreloader => { s with preloaderValid := false }
  | .ursusFip | .vanillaFip => { s with fipUploadValid := false, vanillaUploadValid := false }

/-- The state once an upload has begun: the other upload of the window is forgotten, and so is what
was known of the window. -/
def Web.begun (s : Web) {k : UploadKind} (u : UploadSession k) : Web :=
  let s := (s.setSession u).invalidate k
  match k.partner with
  | none => s
  | some k' => s.clearSession k'

def UploadSession.fresh (k : UploadKind) (total : ℕ) (generation filename : List UInt8)
    (h : total ≤ k.maxLen) : UploadSession k where
  addr := k.stageAddr
  maxLen := k.maxLen
  total := total
  received := 0
  active := true
  generation := generation
  filename := filename
  wf := .inr ⟨rfl, rfl, h⟩

def beginUpload (k : UploadKind) (h : List UInt8) (s : Web) : FlashProg Served :=
  let total := (parseHeaderUlong h "X-Ursus-Total").getD 0
  if total = 0 then
    uploadReject s 400 .uploadIncomplete "missing or invalid declared size" 1 total
  else if hmax : k.maxLen < total then
    uploadReject s 413 .imageTooLarge "declared image exceeds staging capacity" k.maxLen total
  else
    match (parseHeaderValue h "X-Ursus-Generation" generationMax).filter generationValid with
    | none => uploadReject s 400 .uploadIncomplete "missing or invalid upload generation" 0 0
    | some generation =>
      match (parseHeaderValue h "X-Ursus-Filename" (filenameMax * 3)).bind
          (decodeFilename · filenameMax) with
      | none => uploadReject s 400 .uploadIncomplete "missing or invalid filename" 0 0
      | some filename => do
        let u := UploadSession.fresh k total generation filename (Nat.le_of_not_lt hmax)
        logf (.uploadBegin k.name generation filename total)
        return ⟨⟨200, .json [("result", .str "UPLOAD_READY"), ("reason_class", .str "OK"),
          ("generation", .bytes generation), ("filename", .bytes filename),
          ("declared_size", .num total), ("received", .num 0)]⟩, s.begun u, false, false⟩

/-- What a discarded upload takes with it. Unlike a new upload it leaves the other upload of the
window, and what is known of that one, as they are. -/
def Web.discarded (s : Web) (k : UploadKind) : Web :=
  let s := s.clearSession k
  match k with
  | .firmware => { s with img := resetImageState }
  | .initramfs => { s with expertImg := resetExpertState }
  | .ubiPreloader => { s with preloaderValid := false }
  | .ursusFip => { s with fipUploadValid := false }
  | .vanillaFip => { s with vanillaUploadValid := false }

def discardUpload (k : UploadKind) (s : Web) : FlashProg Served := do
  let u := s.session k
  logf (.uploadDiscard k.name u.generation u.filename u.total u.received)
  return ⟨.result 200 [("result", "DISCARDED")], s.discarded k, false, false⟩

theorem UploadSession.window {k : UploadKind} (u : UploadSession k) (h : ¬ u.active = false) :
    u.addr = k.stageAddr ∧ u.maxLen = k.maxLen ∧ u.total ≤ k.maxLen :=
  u.wf.resolve_left fun hno => h hno.2

/-- `ursus_prepare_chunk`: the chunk the connection is to deliver, or the refusal. -/
def prepareChunk (k : UploadKind) (h : List UInt8) (s : Web) : FlashProg (Except Served Chunk) :=
  let u := s.session k
  let contentLen := (parseHeaderUlong h "Content-Length").getD 0
  let refuse := fun (status : ℕ) (rc : ReasonClass) (reason : String) (expected got : ℕ) =>
    (do return .error (← uploadReject s status rc reason expected got) :
      FlashProg (Except Served Chunk))
  if contentLen = 0 ∨ uploadChunkMax < contentLen then
    refuse 413 .uploadIncomplete "chunk must be 1..65536 bytes" uploadChunkMax contentLen
  else
    match parseHeaderUlong h "X-Ursus-Offset", parseHeaderUlong h "X-Ursus-Total",
        parseHeaderValue h "X-Ursus-Generation" generationMax with
    | some off, some total, some generation =>
      if hact : u.active = false then
        refuse 409 .uploadIncomplete "no active upload generation; begin upload first" 0 off
      else if generation ≠ u.generation then
        refuse 409 .uploadIncomplete "stale or wrong upload generation" u.received off
      else if total ≠ u.total then
        refuse 409 .uploadIncomplete "declared size changed during upload" u.total total
      else if off ≠ u.received then
        refuse 409 .uploadIncomplete "unexpected chunk offset" u.received off
      else if total < off ∨ total - off < contentLen then
        refuse 413 .uploadIncomplete "chunk exceeds declared image size" total (off + contentLen)
      else if hfit : u.maxLen < off + contentLen then
        refuse 413 .imageTooLarge "chunk exceeds staging capacity" u.maxLen (off + contentLen)
      else
        return .ok ⟨k, u.addr, off, total, contentLen, 0, generation, (u.window hact).1,
          (u.window hact).2.1 ▸ Nat.le_of_not_lt hfit, Nat.zero_le _⟩
    | off, _, _ =>
      refuse 400 .uploadIncomplete "chunk headers are incomplete" u.received (off.getD 0)

/-! ## The last chunk -/

/-- The fields of a reply that identify the upload. -/
def UploadSession.fields {k : UploadKind} (u : UploadSession k) : List (String × JsonValue) :=
  [("generation", .bytes u.generation), ("filename", .bytes u.filename),
   ("declared_size", .num u.total), ("received", .num u.received)]

/-- The same in the order of the two image replies. -/
def UploadSession.imageFields {k : UploadKind} (u : UploadSession k) : List (String × JsonValue) :=
  [("filename", .bytes u.filename), ("generation", .bytes u.generation),
   ("declared_size", .num u.total), ("received", .num u.received)]

/-- A reply to a completed upload: `fields` between the upload and the reason. -/
def completeReply {k : UploadKind} (u : UploadSession k) (ret : ℤ)
    (fields : List (String × JsonValue)) (reasonClass : ReasonClass) (reason : String) : Reply :=
  ⟨if ret ≠ 0 then 400 else 200, .json ([("result", .str (if ret ≠ 0 then "REJECTED" else "VALID")),
    ("complete", .bool true)] ++ u.fields ++ fields ++
    [("reason_class", .str reasonClass.name), ("reason", .str reason)])⟩

/-- The flags `ursus_build_plan_reply` shows. -/
def ImageState.flags (img : ImageState) : List (String × JsonValue) :=
  [("metadata_valid", .bool img.metadataValid), ("device_compatible", .bool img.deviceCompatible),
   ("fit_valid", .bool img.fitValid), ("fit_hashes_valid", .bool img.fitHashesValid),
   ("kernel_found", .bool img.kernelFound), ("fdt_found", .bool img.fdtFound),
   ("root_found", .bool img.rootFound), ("kernel_arch_valid", .bool img.kernelArchValid),
   ("fdt_compatible", .bool img.fdtCompatible), ("kernel_size", .num img.kernelSize),
   ("fdt_size", .num img.fdtSize), ("root_size", .num img.rootSize)]

/-- `next_action` of `ursus_build_plan_reply`. -/
def nextAction (s : Web) (ret : ℤ) : String :=
  if ret ≠ 0 then "NONE"
  else
    match s.img.type with
    | .nonubiSysupgrade =>
      match s.currentLayout with
      | .openwrtStockLayout => "UPDATE_OPENWRT_STOCK_LAYOUT"
      | .stock => "INSTALL_OPENWRT_STOCK_LAYOUT"
      | _ => "NONE"
    | .ubiSysupgrade =>
      if s.currentLayout = .openwrtUbi then "UPDATE_OPENWRT_UBI"
      else if s.currentLayout.Migratable ∧ s.preloaderValid ∧ s.engines.bl2.ok then
        "INSTALL_OPENWRT_UBI"
      else "INSTALL_OPENWRT_UBI_NEEDS_PRELOADER"
    | _ => "NONE"

def planReply (s : Web) (ret : ℤ) : Reply :=
  let stockReady := ret = 0 ∧ s.img.type = .nonubiSysupgrade ∧ s.currentLayout.Migratable
  let update := ret = 0 ∧ s.img.type = .ubiSysupgrade ∧ s.currentLayout = .openwrtUbi
  let migrate := ret = 0 ∧ s.img.type = .ubiSysupgrade ∧ s.currentLayout.Migratable ∧
    s.preloaderValid = true ∧ s.engines.bl2.ok = true
  let reasonClass := if ret = 0 ∧ s.img.type = .nonubiSysupgrade ∧ ¬ s.currentLayout.Migratable then
    .layoutUnsupported else s.img.reasonClass
  ⟨if ret ≠ 0 then 400 else 200, .json
    ([("result", .str (if ret ≠ 0 then "REJECTED" else "VALID")),
      ("image_type", .str s.img.type.name), ("size", .num s.img.len)] ++
     (s.session .firmware).imageFields ++ s.img.flags ++
     [("current_layout", .str s.currentLayout.name),
      ("stock_layout_install_available", .bool stockReady), ("ubi_update_available", .bool update),
      ("ubi_migration_available", .bool migrate), ("ubi_preloader_valid", .bool s.preloaderValid),
      ("next_action", .str (nextAction s ret)), ("reason_class", .str reasonClass.name),
      ("reason", .str s.img.reason)])⟩

/-- The reason given with a completed FIP of either kind, by the status of its validation. -/
def fipReason (vanilla stockLimit : Bool) (ret : ℤ) : String :=
  if ret = 0 then
    if vanilla then
      "Pinned Vanilla U-Boot FIP validated for this board; installed BL2 is the pinned fast BL2"
    else "UrsusBoot FIP validated for this board/layout"
  else if ret = -enodev then
    if vanilla then "Not a Vanilla OpenWrt U-Boot FIP for this board"
    else "UrsusBoot FIP is for another device"
  else if vanilla then
    if ret = -enoexec then "Installed BL2 is not the pinned fast BL2 of this UrsusBoot"
    else if stockLimit then "Vanilla U-Boot requires the OpenWrt UBI layout"
    else "Not the Vanilla FIP pinned into this UrsusBoot"
  else "Expected a complete UrsusBoot .fip container; raw u-boot.bin or u-boot.lzma is not an update FIP"

def fipReasonClass (ret : ℤ) : ReasonClass :=
  if ret = 0 then .ok else if ret = -enodev then .deviceMismatch else .badContainer

def expertReply (s : Web) (ret : ℤ) : Reply :=
  let img := s.expertImg
  ⟨if ret ≠ 0 then 400 else 200, .json
    ([("result", .str (if ret ≠ 0 then "REJECTED" else "VALID")), ("complete", .bool true),
      ("size", .num img.len)] ++ (s.session .initramfs).imageFields ++
     [("fit_valid", .bool img.fitValid), ("fit_hashes_valid", .bool img.fitHashesValid),
      ("kernel_found", .bool img.kernelFound), ("fdt_found", .bool img.fdtFound),
      ("kernel_arch_valid", .bool img.kernelArchValid), ("fdt_compatible", .bool img.fdtCompatible),
      ("bootable", .bool img.bootableFit), ("reason_class", .str img.reasonClass.name),
      ("reason", .str img.reason)])⟩

/-- The status of a completed preloader: its own validation, then the BL2 candidate built from it. -/
def preloaderStatus (P : Platform) (bl2 : Bl2Candidate) (addr total : ℕ) :
    FlashProg (ℤ × Bl2Candidate) := do
  let ret ← validatePreloader P addr total
  if ret ≠ 0 then return (ret, bl2)
  prepareBl2Candidate P bl2 addr total

/-- The status of a completed Vanilla FIP: its own validation, then that of the installed BL2. -/
def vanillaUploadStatus (P : Platform) (addr total : ℕ) (stockLimit : Bool) : FlashProg ℤ := do
  let ret ← vanillaFipValidate P addr total stockLimit
  if ret ≠ 0 then return ret
  let pin ← installedBl2MatchesPin P
  return if pin ≠ 0 then -enoexec else 0

/-- The end of `ursus_feed_bytes` once all bytes of an upload are there: the session has been closed,
and what it staged is validated. -/
def completeUpload (P : Platform) (L : FitLib) (s : Web) : UploadKind → FlashProg Served
  | .firmware => do
    let u := s.session .firmware
    let (ret, img) ← validateStaged L s.currentLayout u.addr u.total
    let s := { s with img }
    return ⟨planReply s ret, s, false, false⟩
  | .initramfs => do
    let u := s.session .initramfs
    let (ret, expertImg) ← validateExpertFit L s.currentLayout u.addr u.total
    let s := { s with expertImg }
    return ⟨expertReply s ret, s, false, false⟩
  | .ubiPreloader => do
    let u := s.session .ubiPreloader
    let (ret, bl2) ← preloaderStatus P s.engines.bl2 u.addr u.total
    let s := { s with
      engines := { s.engines with bl2 }, preloaderValid := ret == 0 && bl2.ok }
    return ⟨completeReply u ret [("ubi_bl2_candidate_valid", .bool bl2.ok)]
      (if ret ≠ 0 then .badContainer else .ok)
      (if ret ≠ 0 then "UBI preloader or full 128 KiB BL2 candidate validation failed"
       else "UBI preloader and full 128 KiB BL2 candidate validated"), s, false, false⟩
  | .vanillaFip => do
    let u := s.session .vanillaFip
    let stockLimit := s.currentLayout ≠ .openwrtUbi
    let ret ← vanillaUploadStatus P u.addr u.total stockLimit
    let s := { s with vanillaUploadValid := ret == 0 }
    return ⟨completeReply u ret [("layout", .str (if stockLimit then "STOCK" else "UBI")),
      ("vanilla_fip_pinned", .bool (vanillaFipPinned P))] (fipReasonClass ret)
      (fipReason true stockLimit ret), s, false, false⟩
  | .ursusFip => do
    let u := s.session .ursusFip
    let stockLimit := s.currentLayout ≠ .openwrtUbi
    let ret ← fipValidate P u.addr u.total stockLimit
    let s := { s with fipUploadValid := ret == 0 }
    return ⟨completeReply u ret [("layout", .str (if stockLimit then "STOCK" else "UBI"))]
      (fipReasonClass ret) (fipReason false stockLimit ret), s, false, false⟩

/-! ## The body of a chunk -/

/-- What the bytes of a chunk come to: more are expected, the connection is aborted, or there is a
reply. -/
inductive Fed
  | more (web : Web) (chunk : Chunk)
  | abort (web : Web)
  | served (result : Served)

/-- The second half of `ursus_feed_bytes`: bytes for a chunk. The session is looked up by kind each
time, and the generation only once the chunk is complete. -/
def receiveBody (P : Platform) (L : FitLib) (s : Web) (ch : Chunk) (bs : List UInt8) :
    FlashProg Fed := do
  let u := s.session ch.kind
  if bs = [] then return .more s ch
  if !u.active then return .abort s
  let n := ch.take bs.length
  if n ≠ 0 then writeMem (ch.addr + ch.offset + ch.received) (bs.take n)
  let ch := ch.advance bs.length
  if ch.received ≠ ch.contentLen then return .more s ch
  if ch.generation ≠ u.generation then
    return .served (← uploadReject s 409 .uploadIncomplete
      "upload generation changed while receiving chunk" u.received ch.offset)
  let done := ch.offset + ch.contentLen
  let u := u.receive done
  if done = u.total then
    let s := s.setSession u.close
    logf (.uploadComplete ch.kind.name u.generation u.filename u.total u.received)
    return .served (← completeUpload P L s ch.kind)
  else
    return .served ⟨⟨200, .json [("result", .str "CHUNK_OK"), ("reason_class", .str "OK"),
      ("complete", .bool false), ("generation", .bytes u.generation),
      ("filename", .bytes u.filename), ("received", .num u.received),
      ("declared_size", .num u.total)]⟩, s.setSession u, false, false⟩

end UrsusBoot
