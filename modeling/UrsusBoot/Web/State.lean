import UrsusBoot.Engine.Boot
import UrsusBoot.Engine.FipUpdate
import UrsusBoot.Engine.Migration
import UrsusBoot.Engine.UbiUpdate
import UrsusBoot.Web.Http

/-!
# The state of WebFailsafe

The static variables of `ursusweb.c` together with the contexts of the three engines (`Web`), and
the open connections (`Host`).
-/

namespace UrsusBoot

/-! ## Images -/

inductive Layout
  | unknown
  | stock
  | openwrtStockLayout
  | openwrtUbi
deriving DecidableEq

def Layout.name : Layout → String
  | .unknown => "UNKNOWN"
  | .stock => "STOCK"
  | .openwrtStockLayout => "OPENWRT_STOCK_LAYOUT"
  | .openwrtUbi => "OPENWRT_UBI"

/-- The layouts a stock-layout image is installed on and a migration starts from. -/
def Layout.Migratable (l : Layout) : Prop := l = .stock ∨ l = .openwrtStockLayout

instance (l : Layout) : Decidable l.Migratable := inferInstanceAs (Decidable (_ ∨ _))

inductive ImageType
  | none
  | nonubiSysupgrade
  | ubiSysupgrade
  | factoryKernel
  | factoryRootfs
  | fit
  | invalid
deriving DecidableEq

def ImageType.name : ImageType → String
  | .nonubiSysupgrade => "OPENWRT_NONUBI_SYSUPGRADE"
  | .ubiSysupgrade => "OPENWRT_UBI_SYSUPGRADE"
  | .factoryKernel => "OPENWRT_FACTORY_KERNEL"
  | .factoryRootfs => "OPENWRT_FACTORY_ROOTFS"
  | .fit => "GENERIC_FIT"
  | .invalid => "INVALID"
  | .none => "NONE"

inductive ReasonClass
  | ok
  | uploadIncomplete
  | badContainer
  | badFit
  | hashMismatch
  | metadataMissing
  | deviceMismatch
  | unsupportedClass
  | imageTooLarge
  | layoutUnsupported
  | operationLocked
deriving DecidableEq

def ReasonClass.name : ReasonClass → String
  | .ok => "OK"
  | .uploadIncomplete => "UPLOAD_INCOMPLETE"
  | .badContainer => "BAD_CONTAINER"
  | .badFit => "BAD_FIT"
  | .hashMismatch => "HASH_MISMATCH"
  | .metadataMissing => "METADATA_MISSING"
  | .deviceMismatch => "DEVICE_MISMATCH"
  | .unsupportedClass => "UNSUPPORTED_IMAGE_CLASS"
  | .imageTooLarge => "IMAGE_TOO_LARGE"
  | .layoutUnsupported => "LAYOUT_UNSUPPORTED"
  | .operationLocked => "OPERATION_LOCKED"

structure ImageState where
  type : ImageType := .none
  addr : ℕ := 0
  len : ℕ := 0
  metadataPresent : Bool := false
  metadataValid : Bool := false
  deviceCompatible : Bool := false
  fitValid : Bool := false
  fitHashesValid : Bool := false
  kernelFound : Bool := false
  fdtFound : Bool := false
  rootFound : Bool := false
  kernelArchValid : Bool := false
  fdtCompatible : Bool := false
  fdtIsStock : Bool := false
  fdtIsUbi : Bool := false
  bootableFit : Bool := false
  kernelSize : ℕ := 0
  fdtSize : ℕ := 0
  rootSize : ℕ := 0
  kernelOff : ℕ := 0
  rootOff : ℕ := 0
  reasonClass : ReasonClass := .ok
  reason : String := ""

def ImageState.setReason (s : ImageState) (reasonClass : ReasonClass) (reason : String) :
    ImageState :=
  { s with reasonClass, reason }

def resetImageState : ImageState := { reason := "no staged image" }

def resetExpertState : ImageState := { reason := "no initramfs/FIT selected" }

/-! ## Uploads -/

abbrev stageAddr : ℕ := 0x90000000
abbrev stageMax : ℕ := 0x04000000
abbrev ubiPreloaderAddr : ℕ := 0x8f000000
abbrev fipStageAddr : ℕ := 0x8e000000
abbrev fipStageMax : ℕ := 0x00100000
abbrev uploadChunkMax : ℕ := 0x00010000

namespace UploadKind

/-- Start of the RAM window an upload is staged in. Firmware and initramfs share one window, and so
do the two kinds of FIP. -/
def stageAddr : UploadKind → ℕ
  | .firmware | .initramfs => UrsusBoot.stageAddr
  | .ubiPreloader => ubiPreloaderAddr
  | .ursusFip | .vanillaFip => fipStageAddr

def maxLen : UploadKind → ℕ
  | .firmware | .initramfs => stageMax
  | .ubiPreloader => ubiPreloaderMax
  | .ursusFip | .vanillaFip => fipStageMax

end UploadKind

/-- `struct ursus_upload_session` of kind `k`: cleared, or begun with the window of its kind. -/
structure UploadSession (k : UploadKind) where
  addr : ℕ
  maxLen : ℕ
  total : ℕ
  received : ℕ
  active : Bool
  generation : List UInt8
  filename : List UInt8
  wf : (total = 0 ∧ active = false) ∨ (addr = k.stageAddr ∧ maxLen = k.maxLen ∧ total ≤ k.maxLen)

/-- A session after `memset`. -/
def UploadSession.cleared (k : UploadKind) : UploadSession k where
  addr := 0
  maxLen := 0
  total := 0
  received := 0
  active := false
  generation := []
  filename := []
  wf := .inl ⟨rfl, rfl⟩

/-- The session after a chunk: `received` has moved on. -/
def UploadSession.receive {k : UploadKind} (u : UploadSession k) (received : ℕ) :
    UploadSession k :=
  { u with received }

def UploadSession.close {k : UploadKind} (u : UploadSession k) : UploadSession k :=
  { u with active := false, wf := u.wf.imp (fun h => ⟨h.1, rfl⟩) id }

/-- The upload fields of a connection: a chunk of `contentLen` bytes at `offset`, of which
`received` have arrived. -/
structure Chunk where
  kind : UploadKind
  addr : ℕ
  offset : ℕ
  total : ℕ
  contentLen : ℕ
  received : ℕ
  generation : List UInt8
  fits : addr = kind.stageAddr ∧ offset + contentLen ≤ kind.maxLen ∧ received ≤ contentLen

/-- Bytes of the chunk among `n` that arrive. -/
def Chunk.take (ch : Chunk) (n : ℕ) : ℕ := min (ch.contentLen - ch.received) n

/-- The chunk after `n` more bytes have arrived. -/
def Chunk.advance (ch : Chunk) (n : ℕ) : Chunk :=
  { ch with
    received := ch.received + ch.take n
    fits := ⟨ch.fits.1, ch.fits.2.1, by
      have := ch.fits.2.2
      simp only [take]
      omega⟩ }

/-! ## Replies -/

inductive JsonValue
  | str (s : String)
  | bytes (bs : List UInt8)
  | num (n : ℕ)
  | bool (b : Bool)

/-- The body of a reply: a page, a JSON object, or a plain text. -/
inductive Body
  | page (page : Page)
  | json (fields : List (String × JsonValue))
  | text (s : String)

/-- The reply `ursus_http_start_response` is called with. -/
structure Reply where
  status : ℕ
  body : Body

def Reply.result (status : ℕ) (fields : List (String × String)) : Reply :=
  ⟨status, .json (fields.map fun f => (f.1, .str f.2))⟩

def Reply.refused (reasonClass : ReasonClass) (reason : String) : Reply :=
  .result 409
    [("result", "REJECTED"), ("reason_class", reasonClass.name), ("reason", reason)]

/-! ## Connections -/

/-- `struct ursus_conn`; the response has been started once there is a reply. -/
structure Conn where
  reqhdr : List UInt8 := []
  headersDone : Bool := false
  chunk : Option Chunk := none
  reply : Option Reply := none
  allQueued : Bool := false
  stopAfterResponse : Bool := false
  rebootAfterResponse : Bool := false

def Conn.header (c : Conn) : List UInt8 := cstr c.reqhdr

/-! ## WebFailsafe -/

structure Engines where
  upd : UbiUpdate.Ctx := {}
  mig : Migration.Ctx := {}
  bl2 : Bl2Candidate := {}
  fip : FipUpdate.Ctx := {}

def Engines.anyActive (e : Engines) : Bool := e.upd.active || e.mig.active || e.fip.active

/-- The static variables of `ursusweb.c` and of the engines. -/
structure Web where
  stop : Bool := false
  pendingExpertBoot : Bool := false
  pendingFactoryInstall : Bool := false
  pendingUbiUpdate : Bool := false
  pendingUbiMigration : Bool := false
  pendingBootloaderUpdate : Bool := false
  pendingReboot : Bool := false
  rebootResponseQueued : Bool := false
  rebootResponseQueuedAt : ℕ := 0
  rebootRequestAt : ℕ := 0
  networkFailed : Bool := false
  img : ImageState := resetImageState
  expertImg : ImageState := resetExpertState
  session : (k : UploadKind) → UploadSession k := UploadSession.cleared
  preloaderValid : Bool := false
  fipUploadValid : Bool := false
  vanillaUploadValid : Bool := false
  currentLayout : Layout := .unknown
  ubiDiag : UbiDiag := {}
  engines : Engines := {}

def Web.setSession (s : Web) {k : UploadKind} (u : UploadSession k) : Web :=
  { s with session := Function.update s.session k u }

/-- Where `do_ursusweb` stands: at the top of its loop, between polling the UART and the end of the
iteration, or past the loop. -/
inductive Phase
  | top
  | net
  | exited
deriving DecidableEq

structure Host where
  phase : Phase := .top
  web : Web := {}
  conns : ℕ → Option Conn := fun _ => none
  /-- `ursus_conn_id`. -/
  connId : ℕ := 0

end UrsusBoot
