import UrsusBoot.Format.FwtoolRead
import UrsusBoot.Web.Http

/-!
# The device list as JSON

`ursus_json_exact_supported_devices` looks for the text of the key and reads the array behind it. The
metadata is a JSON object, in which that text may also stand as a value or in a nested object.
-/

namespace UrsusBoot

/-! ## JSON -/

def Blank (w : List UInt8) : Prop := ∀ b ∈ w, jsonBlank b = true

/-- Characters of a string that stand for themselves. -/
def Bare (s : List UInt8) : Prop := ∀ b ∈ s, ¬ b < 0x20 ∧ b ≠ 0x22 ∧ b ≠ 0x5c

/-- What stands between the quotes of a string, and the characters it means. -/
inductive Spells : List UInt8 → List ℕ → Prop
  | nil : Spells [] []
  | bare {b : UInt8} {s : List UInt8} {n : List ℕ} : ¬ b < 0x20 ∧ b ≠ 0x22 ∧ b ≠ 0x5c → Spells s n →
      Spells (b :: s) (b.toNat :: n)
  | escape {b : UInt8} {c : ℕ} {s : List UInt8} {n : List ℕ} :
      (b, c) ∈ [(0x22, 0x22), (0x5c, 0x5c), (0x2f, 0x2f), (0x62, 8), (0x66, 12), (0x6e, 10),
        (0x72, 13), (0x74, 9)] → Spells s n → Spells (0x5c :: b :: s) (c :: n)
  | hex {a b c d : UInt8} {w x y z : ℕ} {s : List UInt8} {n : List ℕ} : hexDigit a = some w →
      hexDigit b = some x → hexDigit c = some y → hexDigit d = some z → Spells s n →
      Spells (0x5c :: 0x75 :: a :: b :: c :: d :: s) ((((w * 16 + x) * 16 + y) * 16 + z) :: n)

def quoted (s : List UInt8) : List UInt8 := 0x22 :: s ++ [0x22]

def Digits (ds : List UInt8) : Prop := ds ≠ [] ∧ ∀ b ∈ ds, 0x30 ≤ b ∧ b ≤ 0x39

def IsNumber (t : List UInt8) : Prop := ∃ sign whole frac ex, t = sign ++ whole ++ frac ++ ex ∧
  sign ∈ [[], [0x2d]] ∧ Digits whole ∧ (whole.head? = some 0x30 → whole = [0x30]) ∧
  (frac = [] ∨ ∃ ds, Digits ds ∧ frac = 0x2e :: ds) ∧
  (ex = [] ∨ ∃ e s ds, e ∈ [0x65, 0x45] ∧ s ∈ [[], [0x2b], [0x2d]] ∧ Digits ds ∧ ex = e :: s ++ ds)

structure Item where
  before : List UInt8 := []
  value : List UInt8
  after : List UInt8 := []

def Item.Spaced (x : Item) : Prop := Blank x.before ∧ Blank x.after

def Item.text (x : Item) : List UInt8 := x.before ++ x.value ++ x.after

structure Member extends Item where
  lead : List UInt8 := []
  key : List UInt8
  gap : List UInt8 := []

def Member.Spaced (m : Member) : Prop := m.toItem.Spaced ∧ Blank m.lead ∧ Blank m.gap

def Member.text (m : Member) : List UInt8 :=
  m.lead ++ quoted m.key ++ m.gap ++ 0x3a :: m.toItem.text

inductive IsJson : List UInt8 → Prop
  | literal {t : String} : t ∈ ["null", "true", "false"] → IsJson (asciiBytes t)
  | number {t : List UInt8} : IsNumber t → IsJson t
  | string {s : List UInt8} {n : List ℕ} : Spells s n → IsJson (quoted s)
  | emptyArray {w : List UInt8} : Blank w → IsJson (0x5b :: w ++ [0x5d])
  | array {x : Item} {xs : List Item} : (∀ y ∈ x :: xs, y.Spaced) → (∀ y ∈ x :: xs, IsJson y.value) →
      IsJson (0x5b :: x.text ++ xs.flatMap (fun y => 0x2c :: y.text) ++ [0x5d])
  | emptyObject {w : List UInt8} : Blank w → IsJson (0x7b :: w ++ [0x7d])
  | object {m : Member} {ms : List Member} : (∀ y ∈ m :: ms, y.Spaced ∧ ∃ n, Spells y.key n) →
      (∀ y ∈ m :: ms, IsJson y.value) →
      IsJson (0x7b :: m.text ++ ms.flatMap (fun y => 0x2c :: y.text) ++ [0x7d])

/-! ## Documents -/

abbrev deviceName : List UInt8 := asciiBytes "nokia,xg-040g-md"
abbrev ubiDeviceName : List UInt8 := asciiBytes "nokia,xg-040g-md-ubi"

/-- An array of strings without escapes; `inner` is what an empty array has between its brackets. -/
structure Devices where
  inner : List UInt8 := []
  items : List Item

namespace Devices

structure WellFormed (ds : Devices) : Prop where
  inner : Blank ds.inner
  items : ∀ x ∈ ds.items, x.Spaced ∧ Bare x.value

def item (x : Item) : List UInt8 := x.before ++ 0x22 :: x.value ++ 0x22 :: x.after

def text (ds : Devices) : List UInt8 :=
  0x5b :: (match ds.items with
    | [] => ds.inner
    | x :: xs => item x ++ xs.flatMap fun y => 0x2c :: item y) ++ [0x5d]

def expected (ds : Devices) : SupportedDevices :=
  ⟨true, (ds.items.map Item.value).contains deviceName,
    (ds.items.map Item.value).contains ubiDeviceName⟩

end Devices

/-- A JSON object with a member `supported_devices`, apart from the devices. -/
structure Manifest where
  lead : List UInt8 := []
  earlier : List Member := []
  before : List UInt8 := []
  gap : List UInt8 := []
  space : List UInt8 := []
  after : List UInt8 := []
  later : List Member := []
  trail : List UInt8 := []

namespace Manifest

/-- The other members are well-formed and have other names. -/
structure WellFormed (x : Manifest) : Prop where
  blank : ∀ w ∈ [x.lead, x.before, x.gap, x.space, x.after, x.trail], Blank w
  members : ∀ m ∈ x.earlier ++ x.later, m.Spaced ∧ IsJson m.value ∧
    ∃ n, Spells m.key n ∧ n ≠ "supported_devices".toList.map Char.toNat

def front (x : Manifest) : List UInt8 :=
  x.lead ++ 0x7b :: x.earlier.flatMap (fun m => m.text ++ [0x2c]) ++ x.before

def back (x : Manifest) : List UInt8 :=
  x.after ++ x.later.flatMap (fun m => 0x2c :: m.text) ++ 0x7d :: x.trail

def text (x : Manifest) (ds : Devices) : List UInt8 :=
  x.front ++ (supportedDevicesKey ++ (x.gap ++ 0x3a :: (x.space ++ (ds.text ++ x.back))))

end Manifest

/-! ## Reading the array -/

section Reading

variable {w s r : List UInt8} {b : UInt8}

theorem jsonWs_append (hw : Blank w) (hb : jsonBlank b = false) : jsonWs (w ++ b :: r) = b :: r := by
  induction w with
  | nil => exact List.dropWhile_cons_of_neg (Bool.eq_false_iff.1 hb)
  | cons c w ih =>
    have hc := hw c List.mem_cons_self
    exact (List.dropWhile_cons_of_pos hc).trans (ih fun b hb => hw b (List.mem_cons_of_mem _ hb))

theorem jsonString_bare (hs : Bare s) : jsonString (s ++ 0x22 :: r) = some (s, r) := by
  induction s with
  | nil => rfl
  | cons b s ih =>
    obtain ⟨hlow, hquote, hback⟩ := hs b List.mem_cons_self
    rw [List.cons_append, jsonString, if_neg hquote, if_neg (not_or.2 ⟨hback, hlow⟩),
      ih fun b hb => hs b (List.mem_cons_of_mem _ hb)]
    rfl

def SupportedDevices.noted (d : SupportedDevices) (v : List UInt8) : SupportedDevices :=
  { d with factory := d.factory || v == deviceName, ubi := d.ubi || v == ubiDeviceName }

/-- What `ursus_json_exact_supported_devices` does behind a string of the array. -/
def jsonNext (fuel : ℕ) (p : List UInt8) (d : SupportedDevices) : SupportedDevices :=
  match jsonWs p with
  | [] => d
  | b :: rest =>
    if b = 0x2c then jsonDevices fuel rest d
    else if b = 0x5d then { d with ok := true }
    else d

theorem jsonDevices_succ (fuel : ℕ) (p : List UInt8) (d : SupportedDevices) :
    jsonDevices (fuel + 1) p d =
      match jsonWs p with
      | [] => d
      | b :: bs =>
        if b = 0x5d then { d with ok := true }
        else if b ≠ 0x22 then d
        else
          match jsonString bs with
          | none => d
          | some (v, rest) => jsonNext fuel rest (d.noted v) := rfl

theorem jsonDevices_string (hw : Blank w) (hs : Bare s) (fuel : ℕ) (d : SupportedDevices) :
    jsonDevices (fuel + 1) (w ++ 0x22 :: (s ++ 0x22 :: r)) d = jsonNext fuel r (d.noted s) := by
  rw [jsonDevices_succ, jsonWs_append hw rfl]
  simp only [jsonString_bare hs]
  rfl

theorem jsonDevices_item {x : Item} (hx : x.Spaced ∧ Bare x.value) (hb : jsonBlank b = false)
    (fuel : ℕ) (d : SupportedDevices) :
    jsonDevices (fuel + 1) (Devices.item x ++ b :: r) d =
      if b = 0x2c then jsonDevices fuel r (d.noted x.value)
      else if b = 0x5d then { d.noted x.value with ok := true }
      else d.noted x.value := by
  have htext : Devices.item x ++ b :: r =
      x.before ++ 0x22 :: (x.value ++ 0x22 :: (x.after ++ b :: r)) := by simp [Devices.item]
  rw [htext, jsonDevices_string hx.1.1 hx.2, jsonNext, jsonWs_append hx.1.2 hb]

/-- **The strings of the array.** -/
theorem jsonDevices_items {x : Item} {xs : List Item}
    (h : ∀ y ∈ x :: xs, y.Spaced ∧ Bare y.value) {fuel : ℕ} (hfuel : xs.length < fuel)
    (d : SupportedDevices) :
    jsonDevices fuel (Devices.item x ++ ((xs.flatMap fun y => 0x2c :: Devices.item y) ++ 0x5d :: r)) d =
      ⟨true, d.factory || ((x :: xs).map Item.value).contains deviceName,
        d.ubi || ((x :: xs).map Item.value).contains ubiDeviceName⟩ := by
  obtain ⟨fuel, rfl⟩ := Nat.exists_eq_succ_of_ne_zero (Nat.ne_zero_of_lt hfuel)
  have hx := h x List.mem_cons_self
  induction xs generalizing x fuel d with
  | nil =>
    rw [List.flatMap_nil, List.nil_append, jsonDevices_item hx rfl]
    simp only [SupportedDevices.noted, List.map, List.contains_cons, List.contains_nil, Bool.or_false,
      BEq.comm (a := x.value)]
    rfl
  | cons y ys ih =>
    obtain ⟨fuel, rfl⟩ := Nat.exists_eq_succ_of_ne_zero (by simp at hfuel; omega : fuel ≠ 0)
    have hrest := ih (x := y) (fun z hz => h z (List.mem_cons_of_mem _ hz)) (d.noted x.value) fuel
      (by simpa using hfuel) (h y (by simp))
    rw [List.flatMap_cons, List.cons_append, List.cons_append, List.append_assoc,
      jsonDevices_item hx rfl, if_pos rfl, hrest]
    simp only [SupportedDevices.noted, List.map_cons, List.contains_cons, Bool.or_assoc,
      BEq.comm (a := x.value)]

theorem jsonDeviceArray_of_bracket {p q t : List UInt8} (hp : jsonWs p = 0x3a :: q)
    (hq : jsonWs q = 0x5b :: t) : jsonDeviceArray p = jsonDevices (t.length + 1) t {} := by
  unfold jsonDeviceArray
  simp only [hp, hq]

theorem jsonDeviceArray_open {gap space : List UInt8} (hgap : Blank gap) (hspace : Blank space) :
    jsonDeviceArray (gap ++ 0x3a :: (space ++ 0x5b :: r)) = jsonDevices (r.length + 1) r {} :=
  jsonDeviceArray_of_bracket (jsonWs_append hgap rfl) (jsonWs_append hspace rfl)

theorem jsonDeviceArray_text {ds : Devices} (h : ds.WellFormed) {gap space : List UInt8}
    (hgap : Blank gap) (hspace : Blank space) :
    jsonDeviceArray (gap ++ 0x3a :: (space ++ (ds.text ++ r))) = ds.expected := by
  obtain ⟨inner, items⟩ := ds
  have hopen : ∀ t : List UInt8, gap ++ 0x3a :: (space ++ (0x5b :: t ++ [0x5d] ++ r)) =
      gap ++ 0x3a :: (space ++ 0x5b :: (t ++ 0x5d :: r)) := fun t => by simp
  cases items with
  | nil =>
    rw [Devices.text, hopen, jsonDeviceArray_open hgap hspace, jsonDevices, jsonWs_append h.inner rfl]
    rfl
  | cons x xs =>
    have hlen : ∀ ys : List Item, ys.length ≤ (ys.flatMap fun y => 0x2c :: Devices.item y).length := by
      intro ys
      induction ys with
      | nil => exact le_rfl
      | cons y ys ih =>
        rw [List.flatMap_cons, List.length_append, List.length_cons, List.length_cons]
        omega
    have hxs := hlen xs
    rw [Devices.text, hopen, jsonDeviceArray_open hgap hspace, List.append_assoc,
      jsonDevices_items h.items]
    · rfl
    · simp only [List.length_append]
      omega

end Reading

/-! ## The key -/

section Key

variable {pre r r' w b : List UInt8}

theorem key_overlap : ∀ k < supportedDevicesKey.length, 0 < k →
    supportedDevicesKey.drop k = supportedDevicesKey.take (supportedDevicesKey.length - k) →
      supportedDevicesKey.take k = supportedDevicesKey.dropLast := by
  decide

theorem jsonExactSupportedDevices_here :
    jsonExactSupportedDevices (supportedDevicesKey ++ r) = jsonDeviceArray r := by
  have hpre : supportedDevicesKey.isPrefixOf (supportedDevicesKey ++ r) = true :=
    List.isPrefixOf_iff_prefix.2 (List.prefix_append _ _)
  have hdrop : (supportedDevicesKey ++ r).drop supportedDevicesKey.length = r := List.drop_left
  have hcons : supportedDevicesKey ++ r = 0x22 :: (asciiBytes "supported_devices\"" ++ r) := rfl
  rw [hcons] at hpre hdrop ⊢
  rw [jsonExactSupportedDevices, if_pos hpre, hdrop]

theorem jsonExactSupportedDevices_cons {c : UInt8} (h : ¬ supportedDevicesKey <+: c :: r) :
    jsonExactSupportedDevices (c :: r) = jsonExactSupportedDevices r := by
  rw [jsonExactSupportedDevices, if_neg fun hpre => h (List.isPrefixOf_iff_prefix.1 hpre)]

theorem jsonExactSupportedDevices_first (hpre : ¬ supportedDevicesKey <:+: pre)
    (hlast : pre.getLast? ≠ some 0x73) :
    jsonExactSupportedDevices (pre ++ (supportedDevicesKey ++ r)) = jsonDeviceArray r := by
  induction pre with
  | nil => exact jsonExactSupportedDevices_here
  | cons c pre ih =>
    have hno : ¬ supportedDevicesKey <+: c :: pre ++ (supportedDevicesKey ++ r) := by
      intro h
      rcases Nat.lt_or_ge (c :: pre).length supportedDevicesKey.length with hlt | hge
      · have hkey := List.prefix_iff_eq_take.1 h
        rw [List.take_append, List.take_of_length_le hlt.le, List.take_append_of_le_length (by omega)]
          at hkey
        have hfront : supportedDevicesKey.take (c :: pre).length = c :: pre :=
          (congrArg (List.take (c :: pre).length) hkey).trans List.take_left
        have hdrop : supportedDevicesKey.drop (c :: pre).length =
            supportedDevicesKey.take (supportedDevicesKey.length - (c :: pre).length) :=
          (congrArg (List.drop (c :: pre).length) hkey).trans List.drop_left
        have hend := key_overlap _ hlt (by simp) hdrop
        rw [hfront] at hend
        rw [hend] at hlast
        exact hlast (by decide)
      · exact hpre (List.prefix_of_prefix_length_le h (List.prefix_append _ _) hge).isInfix
    rw [List.cons_append] at hno ⊢
    rw [jsonExactSupportedDevices_cons hno]
    refine ih (fun h => hpre (h.trans (List.suffix_cons c pre).isInfix)) fun h => hlast ?_
    rw [List.getLast?_cons, h]
    rfl

theorem jsonExactSupportedDevices_early (hpre : supportedDevicesKey <:+: pre) :
    ∃ b, ∀ r, jsonExactSupportedDevices (pre ++ r) = jsonDeviceArray (b ++ r) := by
  induction pre with
  | nil => exact absurd (List.infix_nil.1 hpre) (by decide)
  | cons c pre ih =>
    by_cases hhere : supportedDevicesKey <+: c :: pre
    · obtain ⟨b, hb⟩ := hhere
      refine ⟨b, fun r => ?_⟩
      rw [← hb, List.append_assoc, jsonExactSupportedDevices_here]
    · obtain ⟨b, hb⟩ := ih ((List.infix_cons_iff.1 hpre).resolve_left hhere)
      refine ⟨b, fun r => ?_⟩
      rw [List.cons_append, jsonExactSupportedDevices_cons, hb]
      intro h
      exact hhere (List.prefix_of_prefix_length_le h (List.prefix_append (c :: pre) r) hpre.length_le)

/-! ### What an early list sees -/

theorem jsonWs_cases (b : List UInt8) : (∀ r, jsonWs (b ++ r) = jsonWs r) ∨
    ∃ x b', ∀ r, jsonWs (b ++ r) = x :: (b' ++ r) := by
  induction b with
  | nil => exact .inl fun _ => rfl
  | cons c b ih =>
    by_cases hc : jsonBlank c = true
    · have hskip : ∀ r, jsonWs (c :: b ++ r) = jsonWs (b ++ r) := fun r =>
        List.dropWhile_cons_of_pos hc
      exact ih.imp (fun h r => (hskip r).trans (h r)) fun ⟨x, b', h⟩ =>
        ⟨x, b', fun r => (hskip r).trans (h r)⟩
    · exact .inr ⟨c, b, fun r => List.dropWhile_cons_of_neg hc⟩

theorem jsonString_cases (b : List UInt8) : (∀ r, jsonString (b ++ r) = none) ∨
    (∃ v b', ∀ r, jsonString (b ++ r) = some (v, b' ++ r)) ∨
    ∀ r, jsonString (b ++ 0x22 :: r) = some (b, r) := by
  induction b with
  | nil => exact .inr (.inr fun _ => rfl)
  | cons c b ih =>
    by_cases hquote : c = 0x22
    · exact .inr (.inl ⟨[], b, fun r => if_pos hquote⟩)
    by_cases hbad : c = 0x5c ∨ c < 0x20
    · exact .inl fun r => (if_neg hquote).trans (if_pos hbad)
    have hgo : ∀ r, jsonString (c :: b ++ r) = (jsonString (b ++ r)).map fun x => (c :: x.1, x.2) :=
      fun r => (if_neg hquote).trans (if_neg hbad)
    rcases ih with h | ⟨v, b', h⟩ | h
    · exact .inl fun r => by rw [hgo, h]; rfl
    · exact .inr (.inl ⟨c :: v, b', fun r => by rw [hgo, h]; rfl⟩)
    · exact .inr (.inr fun r => by rw [hgo, h]; rfl)

theorem jsonNext_blocked {fuel : ℕ} {d : SupportedDevices}
    (h : ∀ b, jsonDevices fuel (b ++ (supportedDevicesKey ++ (w ++ 0x3a :: r))) d =
      jsonDevices fuel (b ++ (supportedDevicesKey ++ (w ++ 0x3a :: r'))) d) (b : List UInt8) :
    jsonNext fuel (b ++ (supportedDevicesKey ++ (w ++ 0x3a :: r))) d =
      jsonNext fuel (b ++ (supportedDevicesKey ++ (w ++ 0x3a :: r'))) d := by
  unfold jsonNext
  rcases jsonWs_cases b with hb | ⟨x, b', hb⟩
  · rw [hb, hb]
    rfl
  · rw [hb, hb]
    dsimp only
    rw [h]

/-- **A list that is read too early never gets past the key.** -/
theorem jsonDevices_blocked (hw : Blank w) (fuel : ℕ) (b : List UInt8) (d : SupportedDevices) :
    jsonDevices fuel (b ++ (supportedDevicesKey ++ (w ++ 0x3a :: r))) d =
      jsonDevices fuel (b ++ (supportedDevicesKey ++ (w ++ 0x3a :: r'))) d := by
  have hcolon : ∀ fuel d r, jsonNext fuel (w ++ 0x3a :: r) d = d := fun fuel d r => by
    rw [jsonNext, jsonWs_append hw rfl]
    rfl
  have hname : Bare (asciiBytes "supported_devices") := by
    have hall : (asciiBytes "supported_devices").all
        (fun b => decide (¬ b < 0x20 ∧ b ≠ 0x22 ∧ b ≠ 0x5c)) = true := by decide
    exact fun b hb => of_decide_eq_true (List.all_eq_true.1 hall b hb)
  have hkey : ∀ r : List UInt8, supportedDevicesKey ++ r =
      0x22 :: (asciiBytes "supported_devices" ++ 0x22 :: r) := fun _ => rfl
  induction fuel generalizing b d with
  | zero => rfl
  | succ fuel ih =>
    rcases jsonWs_cases b with hb | ⟨x, b', hb⟩
    · -- only white space before the key: its text is taken for a string of the list
      have hstring : ∀ r, jsonDevices (fuel + 1)
          (b ++ (supportedDevicesKey ++ (w ++ 0x3a :: r))) d =
            d.noted (asciiBytes "supported_devices") := fun r => by
        have hsame := jsonDevices_string (w := []) (r := w ++ 0x3a :: r) nofun hname fuel d
        rw [jsonDevices_succ] at hsame ⊢
        rw [hb, hkey]
        exact hsame.trans (hcolon _ _ _)
      rw [hstring, hstring]
    · rw [jsonDevices_succ, jsonDevices_succ, hb, hb]
      dsimp only
      split_ifs
      · rfl
      · rfl
      · rcases jsonString_cases b' with hs | ⟨v, b'', hs⟩ | hs
        · rw [hs, hs]
        · rw [hs, hs]
          exact jsonNext_blocked (fun b => ih b _) b''
        · -- the key's opening quote is taken for a closing one
          rw [hkey, hkey, hs, hs]
          rfl

theorem jsonDeviceArray_of_not_bracket {y : UInt8} {p q t : List UInt8} (hp : jsonWs p = 0x3a :: q)
    (hq : jsonWs q = y :: t) (hy : y ≠ 0x5b) : jsonDeviceArray p = {} := by
  unfold jsonDeviceArray
  simp only [hp, hq]
  split
  · next heq => exact absurd (List.cons.inj heq).1 hy
  · rfl

theorem jsonDeviceArray_blocked (hw : Blank w) (hlen : r.length = r'.length) (b : List UInt8) :
    jsonDeviceArray (b ++ (supportedDevicesKey ++ (w ++ 0x3a :: r))) =
      jsonDeviceArray (b ++ (supportedDevicesKey ++ (w ++ 0x3a :: r'))) := by
  have hquote : ∀ r, jsonWs (supportedDevicesKey ++ r) =
      0x22 :: (asciiBytes "supported_devices\"" ++ r) := fun _ => rfl
  rcases jsonWs_cases b with hb | ⟨x, b', hb⟩
  · rw [jsonDeviceArray_of_not_colon ((hb _).trans (hquote _)) (by decide),
      jsonDeviceArray_of_not_colon ((hb _).trans (hquote _)) (by decide)]
  rcases ne_or_eq x 0x3a with hx | rfl
  · rw [jsonDeviceArray_of_not_colon (hb _) hx, jsonDeviceArray_of_not_colon (hb _) hx]
  rcases jsonWs_cases b' with hb' | ⟨y, b'', hb'⟩
  · rw [jsonDeviceArray_of_not_bracket (hb _) ((hb' _).trans (hquote _)) (by decide),
      jsonDeviceArray_of_not_bracket (hb _) ((hb' _).trans (hquote _)) (by decide)]
  rcases ne_or_eq y 0x5b with hy | rfl
  · rw [jsonDeviceArray_of_not_bracket (hb _) (hb' _) hy,
      jsonDeviceArray_of_not_bracket (hb _) (hb' _) hy]
  · rw [jsonDeviceArray_of_bracket (hb _) (hb' _), jsonDeviceArray_of_bracket (hb _) (hb' _)]
    simp only [List.length_append, List.length_cons, hlen]
    exact jsonDevices_blocked hw _ _ _

end Key

/-! ## Documents as they are read -/

theorem Manifest.front_last {x : Manifest} (hx : x.WellFormed) : x.front.getLast? ≠ some 0x73 := by
  intro h
  rw [Manifest.front, List.getLast?_append] at h
  cases hbefore : x.before.getLast? with
  | some b =>
    have hblank := hx.blank x.before (by simp) b (List.mem_of_getLast? hbefore)
    rw [hbefore] at h
    obtain rfl : b = 0x73 := Option.some.inj h
    exact absurd hblank (by decide)
  | none =>
    rw [hbefore, Option.none_or, List.getLast?_append] at h
    rcases List.eq_nil_or_concat x.earlier with hnil | ⟨ms, m, hms⟩
    · simp [hnil] at h
    · rw [hms, List.concat_eq_append, List.flatMap_append, List.flatMap_singleton,
        ← List.append_assoc, ← List.cons_append, List.getLast?_concat] at h
      exact absurd h (by simp)

def Devices.single (name : List UInt8) : Devices := ⟨[], [⟨[], name, []⟩]⟩

theorem Devices.single_wellFormed {name : List UInt8}
    (h : name.all (fun b => decide (¬ b < 0x20 ∧ b ≠ 0x22 ∧ b ≠ 0x5c)) = true) :
    (Devices.single name).WellFormed := by
  refine ⟨nofun, fun x hx => ?_⟩
  rw [List.mem_singleton.1 hx]
  exact ⟨⟨nofun, nofun⟩, fun b hb => of_decide_eq_true (List.all_eq_true.1 h b hb)⟩

/-- The metadata that the build writes: `\x7b"metadata_version":"1.1","supported_devices":[..]\x7d`. -/
def buildManifest : Manifest where
  earlier := [{ key := asciiBytes "metadata_version", value := quoted (asciiBytes "1.1") }]

theorem spells_bare {s : List UInt8}
    (h : s.all (fun b => decide (¬ b < 0x20 ∧ b ≠ 0x22 ∧ b ≠ 0x5c)) = true) :
    Spells s (s.map UInt8.toNat) := by
  induction s with
  | nil => exact .nil
  | cons b s ih =>
    rw [List.all_cons, Bool.and_eq_true] at h
    exact .bare (of_decide_eq_true h.1) (ih h.2)

theorem buildManifest_wellFormed : buildManifest.WellFormed := by
  refine ⟨fun w hw b hb => ?_, fun m hm => ?_⟩
  · simp only [buildManifest, List.mem_cons, List.not_mem_nil, or_false] at hw
    simp_all
  · obtain rfl := List.mem_singleton.1 hm
    exact ⟨⟨⟨nofun, nofun⟩, nofun, nofun⟩, .string (spells_bare (by decide)), _,
      spells_bare (by decide), by decide⟩

/-- An object in an earlier member that has a device list of its own. -/
def nestedMember : Member :=
  { key := asciiBytes "supported_devices", value := (Devices.single deviceName).text }

def nestedManifest : Manifest where
  earlier := [{ key := asciiBytes "old", value := 0x7b :: nestedMember.text ++ [0x7d] }]

theorem nestedManifest_wellFormed : nestedManifest.WellFormed := by
  have hlist : IsJson (Devices.single deviceName).text :=
    @IsJson.array ⟨[], quoted deviceName, []⟩ [] (fun y hy => by
        rw [List.mem_singleton.1 hy]
        exact ⟨nofun, nofun⟩) fun y hy => by
      rw [List.mem_singleton.1 hy]
      exact .string (spells_bare (by decide))
  refine ⟨fun w hw b hb => ?_, fun m hm => ?_⟩
  · simp only [nestedManifest, List.mem_cons, List.not_mem_nil, or_false] at hw
    simp_all
  · obtain rfl := List.mem_singleton.1 hm
    refine ⟨⟨⟨nofun, nofun⟩, nofun, nofun⟩, @IsJson.object nestedMember [] (fun y hy => ?_)
      (fun y hy => ?_), _, spells_bare (by decide), by decide⟩
    · rw [List.mem_singleton.1 hy]
      exact ⟨⟨⟨nofun, nofun⟩, nofun, nofun⟩, _, spells_bare (by decide)⟩
    · rw [List.mem_singleton.1 hy]
      exact hlist

end UrsusBoot
