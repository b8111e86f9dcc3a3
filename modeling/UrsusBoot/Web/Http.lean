import UrsusBoot.Format.Fwtool

/-!
# Requests

The part of HTTP the Web page speaks: the header of a request as a C string, the values of its
fields, and the endpoint its first line names.
-/

namespace UrsusBoot

/-! ## Fields -/

/-- `tolower` of an ASCII byte. -/
def toLower (b : UInt8) : UInt8 := if 0x41 ≤ b ∧ b ≤ 0x5a then b + 0x20 else b

def isOws (b : UInt8) : Bool := b == 0x20 || b == 0x09

/-- What follows the colon, if the line at `p` is the named field. -/
def fieldAt (name : List UInt8) (p : List UInt8) : Option (List UInt8) :=
  if (p.take name.length).map toLower = name.map toLower then
    match p.drop name.length with
    | 0x3a :: v => some v
    | _ => none
  else none

/-- The value of a field: to the end of the line, without blanks at either end. -/
def fieldValue (v : List UInt8) : List UInt8 :=
  let line := (v.dropWhile isOws).takeWhile fun b => b != 0x0d && b != 0x0a
  (line.reverse.dropWhile isOws).reverse

/-- The search of `ursus_parse_header_value`; `start` says whether `p` is at the start of a line.
The first line with the name decides. -/
def findField (name : List UInt8) : Bool → List UInt8 → Option (List UInt8)
  | _, [] => none
  | start, b :: bs =>
    match if start then fieldAt name (b :: bs) else none with
    | some v => some (fieldValue v)
    | none => findField name (b == 0x0a) bs

/-- `ursus_parse_header_value` into a buffer of `outLen` bytes. -/
def parseHeaderValue (h : List UInt8) (name : String) (outLen : ℕ) : Option (List UInt8) :=
  match findField (asciiBytes name) true h with
  | none => none
  | some v => if v = [] ∨ outLen ≤ v.length then none else some v

def decodeDigit (b : UInt8) : ℕ :=
  if 0x30 ≤ b ∧ b ≤ 0x39 then b.toNat - 0x30
  else if 0x61 ≤ toLower b ∧ toLower b ≤ 0x66 then (toLower b).toNat - 0x61 + 10
  else 256

/-- The loop of `simple_strtoul`: the value and what is left. -/
def strtoulLoop (base : ℕ) : List UInt8 → ℕ → ℕ × List UInt8
  | [], v => (v, [])
  | b :: bs, v =>
    if decodeDigit b < base then strtoulLoop base bs ((v * base + decodeDigit b) % 2 ^ 64)
    else (v, b :: bs)

/-- `simple_strtoul` with base 10, which a prefix `0x` still turns into base 16. -/
def simpleStrtoul : List UInt8 → ℕ × List UInt8
  | 0x30 :: b :: bs =>
    if toLower b = 0x78 then strtoulLoop 16 bs 0 else strtoulLoop 10 (0x30 :: b :: bs) 0
  | s => strtoulLoop 10 s 0

def parseHeaderUlong (h : List UInt8) (name : String) : Option ℕ :=
  match parseHeaderValue h name 32 with
  | none => none
  | some s =>
    let (v, rest) := simpleStrtoul s
    if rest = [] then some v else none

def hexDigit (b : UInt8) : Option ℕ := if decodeDigit b < 16 then some (decodeDigit b) else none

/-- A byte of a decoded name: controls, quotes and backslashes are replaced. -/
def sanitize (ch : UInt8) : UInt8 :=
  if ch < 0x20 ∨ ch = 0x7f ∨ ch = 0x22 ∨ ch = 0x5c then 0x5f else ch

/-- The loop of `ursus_decode_filename` with room for `room` more bytes. -/
def decodeLoop : ℕ → List UInt8 → Option (List UInt8)
  | _, [] => some []
  | 0, _ :: _ => none
  | room + 1, 0x25 :: a :: b :: bs =>
    match hexDigit a, hexDigit b with
    | some hi, some lo =>
      (decodeLoop room bs).map fun r => sanitize (UInt8.ofNat (hi * 16 + lo)) :: r
    | _, _ => none
  | room + 1, ch :: bs => (decodeLoop room bs).map fun r => sanitize ch :: r

/-- `ursus_decode_filename` into a buffer of `outLen` bytes. -/
def decodeFilename (encoded : List UInt8) (outLen : ℕ) : Option (List UInt8) :=
  if encoded = [] then none else decodeLoop (outLen - 1) encoded

abbrev generationMax : ℕ := 48
abbrev filenameMax : ℕ := 192

def generationValid (g : List UInt8) : Bool :=
  decide (8 ≤ g.length) && decide (g.length < generationMax) &&
    g.all fun c => (decide (0x61 ≤ c) && decide (c ≤ 0x7a)) || (decide (0x41 ≤ c) && decide (c ≤ 0x5a)) ||
      (decide (0x30 ≤ c) && decide (c ≤ 0x39)) || c == 0x2d || c == 0x5f || c == 0x2e

/-- `X-Ursus-Confirm` is present and is the given text. -/
def confirmed (h : List UInt8) (outLen : ℕ) (text : String) : Bool :=
  parseHeaderValue h "X-Ursus-Confirm" outLen == some (asciiBytes text)

/-! ## Endpoints -/

inductive UploadKind
  | firmware
  | initramfs
  | ubiPreloader
  | ursusFip
  | vanillaFip
deriving DecidableEq

def UploadKind.name : UploadKind → String
  | .firmware => "firmware"
  | .initramfs => "initramfs"
  | .ubiPreloader => "ubi-preloader"
  | .vanillaFip => "vanilla-fip"
  | .ursusFip => "ursus-fip"

inductive Page
  | logo
  | favicon
  | status
  | log
  | root
deriving DecidableEq

inductive Route
  | get (page : Page)
  | discard (kind : UploadKind)
  | begin (kind : UploadKind)
  | chunk (kind : UploadKind)
  | bootOnce
  | installStockLayout
  | installUbi
  | resetSettings
  | updateUrsusboot
  | replaceWithVanilla
  | reboot
  | notFound
deriving DecidableEq

def reqMatch (h : List UInt8) (lit : String) : Bool := (asciiBytes lit).isPrefixOf h

/-- The endpoints. The console, which runs arbitrary commands, is not among them. -/
def endpoints : List (String × Route) :=
  [("GET /logo.svg ", .get .logo), ("GET /favicon.svg ", .get .favicon),
   ("GET /api/status ", .get .status), ("GET /api/log ", .get .log),
   ("GET /api/operation-log ", .get .log),
   ("POST /api/discard ", .discard .firmware), ("POST /api/expert/discard ", .discard .initramfs),
   ("POST /api/ubi-preloader-discard ", .discard .ubiPreloader),
   ("POST /api/vanilla-fip-discard ", .discard .vanillaFip),
   ("POST /api/ursus-fip-discard ", .discard .ursusFip),
   ("POST /api/firmware-begin ", .begin .firmware),
   ("POST /api/initramfs-begin ", .begin .initramfs),
   ("POST /api/ubi-preloader-begin ", .begin .ubiPreloader),
   ("POST /api/ursus-fip-begin ", .begin .ursusFip),
   ("POST /api/vanilla-fip-begin ", .begin .vanillaFip),
   ("POST /api/firmware-chunk ", .chunk .firmware),
   ("POST /api/initramfs-chunk ", .chunk .initramfs),
   ("POST /api/ubi-preloader-chunk ", .chunk .ubiPreloader),
   ("POST /api/ursus-fip-chunk ", .chunk .ursusFip),
   ("POST /api/vanilla-fip-chunk ", .chunk .vanillaFip),
   ("POST /api/expert/boot-once ", .bootOnce),
   ("POST /api/install-openwrt-stock-layout ", .installStockLayout),
   ("POST /api/install-ubi ", .installUbi),
   ("POST /api/reset-openwrt-settings ", .resetSettings),
   ("POST /api/update-ursusboot ", .updateUrsusboot),
   ("POST /api/replace-with-vanilla ", .replaceWithVanilla),
   ("POST /api/reboot ", .reboot), ("GET / ", .get .root)]

def Route.ofHeader (h : List UInt8) : Route :=
  match endpoints.find? fun e => reqMatch h e.1 with
  | some e => e.2
  | none => .notFound

/-! ## Arrival of a header -/

abbrev httpHdrMax : ℕ := 2048

def headerEnd : List UInt8 := [0x0d, 0x0a, 0x0d, 0x0a]

/-- What became of the header once some bytes have arrived. -/
inductive Header
  | more (hdr : List UInt8)
  | overflow (hdr : List UInt8)
  | complete (hdr rest : List UInt8)

/-- The first loop of `ursus_feed_bytes`. -/
def feedHeader (hdr : List UInt8) : List UInt8 → Header
  | [] => .more hdr
  | b :: bs =>
    if httpHdrMax ≤ hdr.length + 1 then .overflow hdr
    else if headerEnd.isSuffixOf (hdr ++ [b]) then .complete (hdr ++ [b]) bs
    else feedHeader (hdr ++ [b]) bs

end UrsusBoot
