import UrsusBoot.Format.Fit
import UrsusBoot.Format.Fwtool

/-!
# Writing images

The other side of the readers of this directory: what a build lays out as a device tree or a FIT,
and as the metadata at the end of an OpenWrt image.
-/

namespace UrsusBoot

/-! ## Numbers -/

/-- A number as four bytes, the most significant first. -/
def be32 (n : ℕ) : List UInt8 :=
  [UInt8.ofNat (n / 2 ^ 24), UInt8.ofNat (n / 2 ^ 16), UInt8.ofNat (n / 2 ^ 8), UInt8.ofNat n]

theorem length_be32 (n : ℕ) : (be32 n).length = 4 := rfl

theorem beNat_be32 {n : ℕ} (h : n < 2 ^ 32) : beNat (be32 n) = n := by
  simp only [beNat, be32, List.foldl_cons, List.foldl_nil, UInt8.toNat_ofNat']
  omega

/-! ## Device trees -/

def fdtPad (bs : List UInt8) : List UInt8 := bs ++ List.replicate ((4 - bs.length % 4) % 4) 0

/-- A property, its name given by its offset in the strings block. -/
def fdtProp (nameoff : ℕ) (value : List UInt8) : List UInt8 :=
  be32 3 ++ be32 value.length ++ be32 nameoff ++ fdtPad value

def fdtNode (name body : List UInt8) : List UInt8 :=
  be32 1 ++ fdtPad (name ++ [0]) ++ body ++ be32 2

/-- The header of a blob with a structure block and a strings block of the given lengths. -/
def fdtBlobHeader (nstruct nstrings : ℕ) : List UInt8 :=
  be32 fdtMagic ++ be32 (56 + nstruct + nstrings) ++ be32 56 ++ be32 (56 + nstruct) ++ be32 40 ++
    be32 17 ++ be32 16 ++ be32 0 ++ be32 nstrings ++ be32 nstruct

/-- A blob around its root node: header, an empty memory reservation map, structure and strings. -/
def fdtBlob (root strings : List UInt8) : List UInt8 :=
  fdtBlobHeader (root.length + 4) strings.length ++
    (List.replicate 16 0 ++ (root ++ be32 9 ++ strings))

theorem length_fdtBlob (root strings : List UInt8) :
    (fdtBlob root strings).length = 56 + (root.length + 4) + strings.length := by
  simp only [fdtBlob, fdtBlobHeader, List.length_append, length_be32, List.length_replicate]
  omega

section Header

variable {nstruct nstrings : ℕ} (rest : List UInt8)

theorem fdtHeader_fdtBlobHeader (h : 56 + nstruct + nstrings < 2 ^ 31) :
    fdtHeader (fdtBlobHeader nstruct nstrings ++ rest) =
      ⟨fdtMagic, 56 + nstruct + nstrings, 56, 56 + nstruct, 40, 17, 16, nstrings, nstruct⟩ := by
  have hat : ∀ k, k < 10 → bytesAt (fdtBlobHeader nstruct nstrings ++ rest) (4 * k) 4 =
      bytesAt (fdtBlobHeader nstruct nstrings) (4 * k) 4 := by
    intro k hk
    have hlen : (fdtBlobHeader nstruct nstrings).length = 40 := rfl
    unfold bytesAt
    rw [List.drop_append_of_le_length (by omega), List.take_append_of_le_length]
    rw [List.length_drop]
    omega
  unfold fdtHeader
  rw [hat 0 (by decide), hat 1 (by decide), hat 2 (by decide), hat 3 (by decide), hat 4 (by decide),
    hat 5 (by decide), hat 6 (by decide), hat 8 (by decide), hat 9 (by decide)]
  show FdtHeader.mk (beNat (be32 _)) (beNat (be32 _)) (beNat (be32 _)) (beNat (be32 _))
    (beNat (be32 _)) (beNat (be32 _)) (beNat (be32 _)) (beNat (be32 _)) (beNat (be32 _)) = _
  rw [beNat_be32 (by decide), beNat_be32 (by omega), beNat_be32 (by decide), beNat_be32 (by omega),
    beNat_be32 (by decide), beNat_be32 (by decide), beNat_be32 (by decide), beNat_be32 (by omega),
    beNat_be32 (by omega)]

/-- **The header of a blob passes the check.** -/
theorem fdtCheckHeader_fdtBlobHeader (h : 56 + nstruct + nstrings < 2 ^ 31) :
    fdtCheckHeader (fdtBlobHeader nstruct nstrings ++ rest) = 0 := by
  have hoff : ∀ off, 40 ≤ off → off ≤ 56 + nstruct + nstrings →
      fdtCheckOff 40 (56 + nstruct + nstrings) off = true := by
    intro off hlo hhi
    simp [fdtCheckOff, hlo, hhi]
  have hblock : ∀ base size, 40 ≤ base → base + size ≤ 56 + nstruct + nstrings →
      fdtCheckBlock 40 (56 + nstruct + nstrings) base size = true := by
    intro base size hlo hhi
    have hmod : (base + size) % 2 ^ 32 = base + size := Nat.mod_eq_of_lt (by omega)
    rw [fdtCheckBlock, hmod, hoff base hlo (by omega), hoff (base + size) (by omega) hhi]
    simp
  unfold fdtCheckHeader
  rw [fdtHeader_fdtBlobHeader rest h]
  dsimp only
  have hsize : fdtHeaderSize 17 = 40 := rfl
  rw [hsize, if_neg (by simp), if_neg (by omega), if_neg (by omega), hoff 40 (by omega) (by omega),
    if_neg (by simp), if_neg (by omega), hblock 56 _ (by omega) (by omega), if_neg (by simp),
    hblock (56 + nstruct) _ (by omega) (by omega), if_neg (by simp)]

end Header

theorem verifyFit_fdtBlob {L : FitLib} {root strings rest : List UInt8}
    (h : 56 + (root.length + 4) + strings.length < 2 ^ 31)
    (hformat : L.checkFormat (fdtBlob root strings ++ rest) = 0)
    (hhash : L.allImageVerify (fdtBlob root strings ++ rest) = true) :
    verifyFit L (fdtBlob root strings ++ rest) = (0, true) := by
  have hsize : (fdtBlob root strings ++ rest).length =
      56 + (root.length + 4) + strings.length + rest.length := by
    rw [List.length_append, length_fdtBlob]
  have hsplit : fdtBlob root strings ++ rest = fdtBlobHeader (root.length + 4) strings.length ++
      (List.replicate 16 0 ++ (root ++ be32 9 ++ strings) ++ rest) := List.append_assoc _ _ _
  have hcheck : fdtCheckHeader (fdtBlob root strings ++ rest) = 0 := by
    rw [hsplit, fdtCheckHeader_fdtBlobHeader _ h]
  have htotal : (fdtHeader (fdtBlob root strings ++ rest)).totalsize =
      56 + (root.length + 4) + strings.length := by
    rw [hsplit, fdtHeader_fdtBlobHeader _ h]
  unfold verifyFit
  dsimp only
  rw [htotal, hcheck, hformat, hhash, hsize]
  rw [if_neg (by omega), if_neg (by omega), if_neg (by simp), if_pos rfl]

/-! ## Metadata -/

/-- An image followed by its metadata: a header, the JSON text and the trailer. -/
def fwtoolImage (body json : List UInt8) : List UInt8 :=
  let data := body ++ List.replicate 8 0 ++ json
  data ++ (be32 fwtoolMagic ++ be32 (crc32Fwtool 0xffffffff data).toNat ++ [1, 0, 0, 0] ++
    be32 (json.length + 24))

theorem length_fwtoolImage (body json : List UInt8) :
    (fwtoolImage body json).length = body.length + json.length + 24 := by
  simp only [fwtoolImage, List.length_append, length_be32, List.length_replicate, List.length_cons,
    List.length_nil]
  omega

/-- **The metadata of an image is found**, with the right checksum. -/
theorem parseFwtoolMeta_fwtoolImage {body json : List UInt8} (h : json.length + 24 < 2 ^ 32) :
    parseFwtoolMeta (fwtoolImage body json) = some (.ok {
      found := true
      crcOk := true
      supportedDevicesPresent := (jsonExactSupportedDevices json).ok
      deviceFactory := (jsonExactSupportedDevices json).factory
      deviceUbi := (jsonExactSupportedDevices json).ubi
      jsonOff := body.length + 8
      jsonLen := json.length }) := by
  set data := body ++ List.replicate 8 0 ++ json with hdata
  have hlen : data.length = body.length + 8 + json.length := by
    simp only [hdata, List.length_append, List.length_replicate]
  set trailer : List UInt8 := be32 fwtoolMagic ++ be32 (crc32Fwtool 0xffffffff data).toNat ++
    [1, 0, 0, 0] ++ be32 (json.length + 24) with htrailer
  have himg : fwtoolImage body json = data ++ trailer := rfl
  have hat : bytesAt (fwtoolImage body json) data.length 16 = trailer := by
    rw [himg, bytesAt, List.drop_left]
    exact List.take_of_length_le le_rfl
  have hsize : beNat (bytesAt trailer 12 4) = json.length + 24 := beNat_be32 h
  have hcrc : beNat (bytesAt trailer 4 4) = (crc32Fwtool 0xffffffff data).toNat :=
    beNat_be32 (UInt32.toNat_lt _)
  have hmagic : beNat (bytesAt trailer 0 4) = fwtoolMagic := beNat_be32 (by decide)
  have hinfo : leNat (bytesAt trailer 8 1) = fwtoolInfo := rfl
  have hoff : data.length + 16 - (json.length + 24) + 8 = body.length + 8 := by omega
  have hjlen : json.length + 24 - 16 - 8 = json.length := by omega
  have hjson : bytesAt (fwtoolImage body json) (body.length + 8) json.length = json := by
    have hbefore : (body ++ List.replicate 8 (0 : UInt8)).length = body.length + 8 := by simp
    rw [himg, hdata, List.append_assoc, bytesAt, ← hbefore, List.drop_left, List.take_left]
  have hfound : fwtoolTrailerAt (fwtoolImage body json) data.length = some {
      found := true
      crcOk := true
      supportedDevicesPresent := (jsonExactSupportedDevices json).ok
      deviceFactory := (jsonExactSupportedDevices json).factory
      deviceUbi := (jsonExactSupportedDevices json).ubi
      jsonOff := body.length + 8
      jsonLen := json.length } := by
    unfold fwtoolTrailerAt
    simp only [hat, hsize, hcrc, hmagic, hinfo, hoff, hjlen, hjson]
    rw [if_pos ⟨trivial, trivial, by omega, by omega⟩, himg, List.take_left, beq_self_eq_true]
  obtain ⟨pos, hpos⟩ : ∃ pos, data.length = pos + 1 := ⟨data.length - 1, by omega⟩
  have hpos' : (fwtoolImage body json).length - 16 = pos + 1 := by
    rw [length_fwtoolImage]
    omega
  unfold parseFwtoolMeta
  rw [if_neg (by rw [length_fwtoolImage]; omega), hpos', fwtoolScan, ← hpos, hfound]

/-! ## FITs

The names are given as bytes, which the kernel reads faster than strings. -/

/-- `description`, `timestamp`, `data`, `type`, `arch`, `compression`, `algo`, `value`, `default`,
`kernel` and `fdt`, each followed by a zero byte. -/
def fitStrings : List UInt8 :=
  [0x64, 0x65, 0x73, 0x63, 0x72, 0x69, 0x70, 0x74, 0x69, 0x6f, 0x6e, 0,
   0x74, 0x69, 0x6d, 0x65, 0x73, 0x74, 0x61, 0x6d, 0x70, 0, 0x64, 0x61, 0x74, 0x61, 0,
   0x74, 0x79, 0x70, 0x65, 0, 0x61, 0x72, 0x63, 0x68, 0,
   0x63, 0x6f, 0x6d, 0x70, 0x72, 0x65, 0x73, 0x73, 0x69, 0x6f, 0x6e, 0, 0x61, 0x6c, 0x67, 0x6f, 0,
   0x76, 0x61, 0x6c, 0x75, 0x65, 0, 0x64, 0x65, 0x66, 0x61, 0x75, 0x6c, 0x74, 0,
   0x6b, 0x65, 0x72, 0x6e, 0x65, 0x6c, 0, 0x66, 0x64, 0x74, 0]

/-- A node of `/images`, with the checksum of its data in a node `hash-1`. Its architecture is
`arm64`, and it is not compressed. -/
def fitImage (name type data : List UInt8) : List UInt8 :=
  fdtNode name (fdtProp 22 data ++ fdtProp 27 type ++
    fdtProp 32 [0x61, 0x72, 0x6d, 0x36, 0x34, 0] ++ fdtProp 37 [0x6e, 0x6f, 0x6e, 0x65, 0] ++
    fdtNode [0x68, 0x61, 0x73, 0x68, 0x2d, 0x31]
      (fdtProp 49 [0x63, 0x72, 0x63, 0x33, 0x32, 0] ++
        fdtProp 54 (be32 (Nat.xor 0xffffffff (crcNat 0xffffffff data)))))

/-- A FIT around the nodes of `/images` and the nodes that follow. -/
def fit (images rest : List UInt8) : List UInt8 :=
  fdtBlob (fdtNode [] (fdtProp 0 [0x46, 0x49, 0x54, 0] ++ fdtProp 12 (be32 0x6a000000) ++
    fdtNode [0x69, 0x6d, 0x61, 0x67, 0x65, 0x73] images ++ rest)) fitStrings

/-- `kernel`, also as the type of a node. -/
def kernelWord : List UInt8 := [0x6b, 0x65, 0x72, 0x6e, 0x65, 0x6c]

def smallFit : List UInt8 := fit (fitImage kernelWord (kernelWord ++ [0]) [0xd5, 0x03, 0x20, 0x1f]) []

/-- `fdt`. -/
def fdtWord : List UInt8 := [0x66, 0x64, 0x74]

/-- `flat_dt`. -/
def flatDtWord : List UInt8 := [0x66, 0x6c, 0x61, 0x74, 0x5f, 0x64, 0x74]

/-- `rootfs`. -/
def rootfsWord : List UInt8 := [0x72, 0x6f, 0x6f, 0x74, 0x66, 0x73]

/-- `filesystem`. -/
def filesystemWord : List UInt8 := [0x66, 0x69, 0x6c, 0x65, 0x73, 0x79, 0x73, 0x74, 0x65, 0x6d]

/-- `nokia,xg-040g-md-ubi`, followed by a zero byte. -/
def ubiCompatible : List UInt8 :=
  [0x6e, 0x6f, 0x6b, 0x69, 0x61, 0x2c, 0x78, 0x67, 0x2d, 0x30, 0x34, 0x30, 0x67, 0x2d, 0x6d, 0x64,
   0x2d, 0x75, 0x62, 0x69, 0]

/-- A device tree that only says which board it is for. The one name is `compatible`. -/
def boardDtb : List UInt8 :=
  fdtBlob (fdtNode [] (fdtProp 0 ubiCompatible))
    [0x63, 0x6f, 0x6d, 0x70, 0x61, 0x74, 0x69, 0x62, 0x6c, 0x65, 0]

def boardImages : List UInt8 :=
  fitImage kernelWord (kernelWord ++ [0]) [0xd5, 0x03, 0x20, 0x1f] ++
    fitImage fdtWord (flatDtWord ++ [0]) boardDtb ++
    fitImage rootfsWord (filesystemWord ++ [0]) [0x68, 0x73, 0x71, 0x73]

/-- A FIT for this board in its UBI layout. `/configurations` has one node, `conf`, which is the
default. -/
def boardFit : List UInt8 :=
  fit boardImages
    (fdtNode [0x63, 0x6f, 0x6e, 0x66, 0x69, 0x67, 0x75, 0x72, 0x61, 0x74, 0x69, 0x6f, 0x6e, 0x73]
      (fdtProp 60 [0x63, 0x6f, 0x6e, 0x66, 0] ++
        fdtNode [0x63, 0x6f, 0x6e, 0x66] (fdtProp 68 (kernelWord ++ [0]) ++ fdtProp 75 (fdtWord ++ [0]))))

/-- The nodes of `/images`, as the library lists them. -/
def kernelNode : FitImageNode := ⟨kernelWord, some (kernelWord ++ [0]), some 4⟩

@[inherit_doc kernelNode]
def dtbNode : FitImageNode := ⟨fdtWord, some (flatDtWord ++ [0]), some 119⟩

@[inherit_doc kernelNode]
def rootfsNode : FitImageNode := ⟨rootfsWord, some (filesystemWord ++ [0]), some 4⟩

/-- What the FIT library says about the two FITs, whatever follows them in memory. The device tree
of the second lies at offset 272. -/
@[irreducible]
def boardFitLib : FitLib where
  checkFormat buf := if smallFit <+: buf ∨ boardFit <+: buf then 0 else -einval
  allImageVerify buf := decide (smallFit <+: buf ∨ boardFit <+: buf)
  images buf :=
    if boardFit <+: buf then [kernelNode, dtbNode, rootfsNode]
    else if smallFit <+: buf then [kernelNode]
    else []
  defaultConf buf :=
    if boardFit <+: buf then
      some ⟨some (some ihArchArm64), some ⟨some ihTypeFlatdt, some (272, boardDtb)⟩⟩
    else none
  compatible dtb := if dtb = boardDtb then some ubiCompatible else none

theorem length_smallFit : smallFit.length = 343 := by decide +kernel

theorem length_boardFit : boardFit.length = 843 := by decide +kernel

theorem length_boardDtb : boardDtb.length = 119 := by decide

theorem verifyFit_smallFit (rest : List UInt8) :
    verifyFit boardFitLib (smallFit ++ rest) = (0, true) := by
  have hin : smallFit <+: smallFit ++ rest ∨ boardFit <+: smallFit ++ rest :=
    .inl (List.prefix_append _ _)
  have hformat : boardFitLib.checkFormat (smallFit ++ rest) = 0 := by
    simp only [boardFitLib, if_pos hin]
  have hhash : boardFitLib.allImageVerify (smallFit ++ rest) = true := by
    simp only [boardFitLib, decide_eq_true hin]
  have hlen := length_smallFit
  unfold smallFit fit at hformat hhash hlen ⊢
  rw [length_fdtBlob] at hlen
  exact verifyFit_fdtBlob (by omega) hformat hhash

theorem verifyFit_boardFit (rest : List UInt8) :
    verifyFit boardFitLib (boardFit ++ rest) = (0, true) := by
  have hin : smallFit <+: boardFit ++ rest ∨ boardFit <+: boardFit ++ rest :=
    .inr (List.prefix_append _ _)
  have hformat : boardFitLib.checkFormat (boardFit ++ rest) = 0 := by
    simp only [boardFitLib, if_pos hin]
  have hhash : boardFitLib.allImageVerify (boardFit ++ rest) = true := by
    simp only [boardFitLib, decide_eq_true hin]
  have hlen := length_boardFit
  unfold boardFit fit at hformat hhash hlen ⊢
  rw [length_fdtBlob] at hlen
  exact verifyFit_fdtBlob (by omega) hformat hhash

end UrsusBoot
