import UrsusBoot.Format.Fdt

/-!
# FIT images

`FitLib` is what U-Boot's FIT library says about the bytes of an image; `ursus_verify_fit` and the
tests on node names are the repository's own.
-/

namespace UrsusBoot

/-! ## The library -/

/-- A node below `/images`: its name, its `type` property and the size of its data. -/
structure FitImageNode where
  name : List UInt8
  type : Option (List UInt8)
  size : Option ℕ

/-- The FDT node of a configuration: its image type, and where in the FIT its data lies. -/
structure FitFdtNode where
  type : Option ℕ
  data : Option (ℕ × List UInt8)

/-- The default configuration: its kernel node, which may state an architecture, and its FDT
node. -/
structure FitConf where
  kernel : Option (Option ℕ)
  fdt : Option FitFdtNode

/-- The functions of the FIT library the validation calls. -/
structure FitLib where
  /-- `fit_check_format`. -/
  checkFormat : List UInt8 → ℤ
  /-- `fit_all_image_verify`. -/
  allImageVerify : List UInt8 → Bool
  /-- The subnodes of `/images`. -/
  images : List UInt8 → List FitImageNode
  /-- `fit_conf_get_node` without a name. -/
  defaultConf : List UInt8 → Option FitConf
  /-- The `compatible` property of the root of a device tree. -/
  compatible : List UInt8 → Option (List UInt8)

abbrev ihArchArm64 : ℕ := 22
abbrev ihTypeFlatdt : ℕ := 8

/-! ## Verification -/

/-- `ursus_verify_fit`: the status and `hash_ok`. -/
def verifyFit (L : FitLib) (fit : List UInt8) : ℤ × Bool :=
  let total := (fdtHeader fit).totalsize
  if fit.length < 40 ∨ fdtCheckHeader fit ≠ 0 then (-enoexec, false)
  else if fit.length < total ∨ total < 40 then (-efbig, false)
  else if L.checkFormat fit ≠ 0 then (L.checkFormat fit, false)
  else if L.allImageVerify fit then (0, true) else (-ebadmsg, false)

/-- `!strncmp(a, b, n)`. -/
def strncmpEq : ℕ → List UInt8 → List UInt8 → Bool
  | 0, _, _ => true
  | _ + 1, [], b => b.head?.getD 0 == 0
  | _ + 1, x :: _, [] => x == 0
  | n + 1, x :: a, y :: b => x == y && (x == 0 || strncmpEq n a b)

/-- A node is of a kind if its name contains one of two words or its type is the given one. -/
def FitImageNode.isKind (node : FitImageNode) (word₁ word₂ type : String) : Bool :=
  memHas node.name word₁ || memHas node.name word₂ ||
    match node.type with
    | none => false
    | some t => decide (0 < t.length) && strncmpEq t.length t (asciiBytes type)

/-- `fdt_stringlist_contains`; `fuel` bounds the number of strings. -/
def stringlistContains : ℕ → List UInt8 → String → Bool
  | 0, _, _ => false
  | fuel + 1, strlist, str =>
    if strlist.length < (asciiBytes str).length then false
    else if (asciiBytes str ++ [0]).isPrefixOf strlist then true
    else
      match strlist.dropWhile (· != 0) with
      | [] => false
      | _ :: rest => stringlistContains fuel rest str

end UrsusBoot
