import UrsusBoot.Web.Image

/-!
# What an archive holds

The members of a tar archive as a list, read off its bytes without a verdict, and what the walk of
`ursus_validate_factory` makes of them.
-/

namespace UrsusBoot

structure TarEntry where
  name : List UInt8
  data : ℕ
  sz : ℕ
deriving DecidableEq

namespace TarEntry

variable (e : TarEntry) (buf : List UInt8)

def isKernel : Bool := nameEnds e.name "/kernel"

/-- A name that ends in `/kernel` is not looked at as a root filesystem. -/
def isRoot : Bool := !e.isKernel && nameEnds e.name "/root"

def badRoot : Bool := e.isRoot && (decide (e.sz < 4) || bytesAt buf e.data 4 != asciiBytes "hsqs")

def verifies (L : FitLib) : Bool :=
  (verifyFit L (bytesAt buf e.data e.sz)).1 == 0 && (verifyFit L (bytesAt buf e.data e.sz)).2

end TarEntry

/-- The members from `pos` on, and whether the archive ends in a member that is cut short. -/
def tarEntries (buf : List UInt8) : ℕ → ℕ → List TarEntry × Bool
  | 0, _ => ([], false)
  | fuel + 1, pos =>
    let h := buf.drop pos
    if !tarMagic h then ([], false)
    else
      let sz := tarOctal (bytesAt h 124 12) 0
      let data := pos + 512
      let next := data + (sz + 511) / 512 * 512
      if buf.length < data + sz then ([], true)
      else
        let e : TarEntry := ⟨cstr (h.take 100), data, sz⟩
        if buf.length < next then ([e], false)
        else
          let rest := tarEntries buf fuel next
          (e :: rest.1, rest.2)

def TarEntry.record (L : FitLib) (buf : List UInt8) (s : ImageState) (e : TarEntry) : ImageState :=
  (tarMember L buf e.name e.data e.sz s).2

/-- The walk over the members of a list, `cut` saying whether the archive is cut short behind
them. -/
def walkEntries (L : FitLib) (buf : List UInt8) (cut : Bool) : List TarEntry → ImageState →
    ℤ × ImageState
  | [], s => (if cut then -efbig else 0, s)
  | e :: es, s =>
    if e.badRoot buf then (-einval, e.record L buf s) else walkEntries L buf cut es (e.record L buf s)

theorem tarMember_status (L : FitLib) (buf : List UInt8) (e : TarEntry) (s : ImageState) :
    (tarMember L buf e.name e.data e.sz s).1 = if e.badRoot buf then -einval else 0 := by
  unfold tarMember TarEntry.badRoot TarEntry.isRoot TarEntry.isKernel
  by_cases hk : nameEnds e.name "/kernel" = true
  · simp [hk]
  · by_cases hr : nameEnds e.name "/root" = true
    · by_cases hb : e.sz < 4 ∨ bytesAt buf e.data 4 ≠ asciiBytes "hsqs"
      · simp [hk, hr, hb]
      · simp [hk, hr, hb]
    · simp [hk, hr]

/-- **The walk** goes over the members one by one. -/
theorem tarWalk_eq (L : FitLib) (buf : List UInt8) (fuel pos : ℕ) (s : ImageState) :
    tarWalk L buf fuel pos s =
      walkEntries L buf (tarEntries buf fuel pos).2 (tarEntries buf fuel pos).1 s := by
  -- on the number of members; the state is whatever the members so far have left
  induction fuel generalizing pos s with
  | zero => rfl
  | succ fuel ih =>
    simp only [tarWalk, tarEntries]
    by_cases hmagic : tarMagic (buf.drop pos) = true
    · by_cases hcut : buf.length < pos + 512 + tarOctal (bytesAt (buf.drop pos) 124 12) 0
      · simp [hmagic, hcut, walkEntries]
      · set e : TarEntry := ⟨cstr ((buf.drop pos).take 100), pos + 512,
          tarOctal (bytesAt (buf.drop pos) 124 12) 0⟩
        have hstatus := tarMember_status L buf e s
        by_cases hbad : e.badRoot buf = true
        · rw [if_pos hbad] at hstatus
          have hne : (tarMember L buf e.name e.data e.sz s).1 ≠ 0 := by
            rw [hstatus]
            decide
          by_cases hend : buf.length < pos + 512 +
              (tarOctal (bytesAt (buf.drop pos) 124 12) 0 + 511) / 512 * 512
          all_goals
            simp only [hmagic, hcut, hend, walkEntries, hbad, if_true, if_false,
              Bool.not_true, Bool.false_eq_true]
            rw [if_pos hne]
            exact Prod.ext hstatus rfl
        · rw [if_neg hbad] at hstatus
          have hz : ¬ (tarMember L buf e.name e.data e.sz s).1 ≠ 0 := not_not.2 hstatus
          by_cases hend : buf.length < pos + 512 +
              (tarOctal (bytesAt (buf.drop pos) 124 12) 0 + 511) / 512 * 512
          · simp only [hmagic, hcut, hend, walkEntries, hbad, if_true, if_false,
              Bool.not_true, Bool.false_eq_true]
            rw [if_neg hz]
            rfl
          · simp only [hmagic, hcut, hend, walkEntries, hbad, if_false,
              Bool.not_true, Bool.false_eq_true]
            rw [if_neg hz]
            exact ih _ _
    · simp [hmagic, walkEntries]

/-! ## What the walk leaves -/

/-- The members the walk looks at: all up to the first root filesystem that is not a squashfs. -/
def visited (buf : List UInt8) : List TarEntry → List TarEntry
  | [] => []
  | e :: es => if e.badRoot buf then [e] else e :: visited buf es

def kernelVerifies (L : FitLib) (buf : List UInt8) (es : List TarEntry) : Bool :=
  es.foldl (fun ok e => if e.isKernel then e.verifies buf L else ok) false

section Walk

variable (L : FitLib) (buf : List UInt8)

theorem walkEntries_status (cut : Bool) (es : List TarEntry) (s : ImageState) :
    (walkEntries L buf cut es s).1 =
      if es.any (TarEntry.badRoot · buf) then -einval else if cut then -efbig else 0 := by
  induction es generalizing s with
  | nil => rfl
  | cons e es ih =>
    by_cases h : e.badRoot buf = true
    · simp [walkEntries, h]
    · simp [walkEntries, h, ih]

theorem walkEntries_state (cut : Bool) (es : List TarEntry) (s : ImageState) :
    (walkEntries L buf cut es s).2 = (visited buf es).foldl (TarEntry.record L buf) s := by
  induction es generalizing s with
  | nil => rfl
  | cons e es ih =>
    by_cases h : e.badRoot buf = true
    · simp [walkEntries, visited, h]
    · simp [walkEntries, visited, h, ih]

theorem record_fields (s : ImageState) (e : TarEntry) :
    let s' := e.record L buf s
    (s'.type = s.type ∧ s'.metadataValid = s.metadataValid ∧
      s'.deviceCompatible = s.deviceCompatible) ∧
    s'.kernelFound = (s.kernelFound || e.isKernel) ∧ s'.rootFound = (s.rootFound || e.isRoot) ∧
    (s'.fitValid && s'.fitHashesValid) =
      if e.isKernel then e.verifies buf L else (s.fitValid && s.fitHashesValid) := by
  unfold TarEntry.record tarMember TarEntry.isRoot TarEntry.verifies TarEntry.isKernel
  by_cases hk : nameEnds e.name "/kernel" = true
  · simp [hk]
  · by_cases hr : nameEnds e.name "/root" = true
    · by_cases hb : e.sz < 4 ∨ bytesAt buf e.data 4 ≠ asciiBytes "hsqs"
      · simp [hk, hr, hb]
      · simp [hk, hr, hb]
    · simp [hk, hr]

theorem foldl_record_fields (es : List TarEntry) (s : ImageState) :
    let s' := es.foldl (TarEntry.record L buf) s
    (s'.type = s.type ∧ s'.metadataValid = s.metadataValid ∧
      s'.deviceCompatible = s.deviceCompatible) ∧
    s'.kernelFound = (s.kernelFound || es.any TarEntry.isKernel) ∧
    s'.rootFound = (s.rootFound || es.any TarEntry.isRoot) ∧
    (s'.fitValid && s'.fitHashesValid) =
      es.foldl (fun ok e => if e.isKernel then e.verifies buf L else ok)
        (s.fitValid && s.fitHashesValid) := by
  induction es generalizing s with
  | nil => simp
  | cons e es ih =>
    obtain ⟨⟨ht, hm, hd⟩, hk, hr, hf⟩ := record_fields L buf s e
    obtain ⟨⟨ht', hm', hd'⟩, hk', hr', hf'⟩ := ih (e.record L buf s)
    refine ⟨⟨ht'.trans ht, hm'.trans hm, hd'.trans hd⟩, ?_, ?_, ?_⟩
    · simp only [List.foldl_cons, List.any_cons]
      rw [hk', hk, Bool.or_assoc]
    · simp only [List.foldl_cons, List.any_cons]
      rw [hr', hr, Bool.or_assoc]
    · simp only [List.foldl_cons]
      rw [hf', hf]

theorem any_isKernel_of_verifies {es : List TarEntry} (h : kernelVerifies L buf es = true) :
    es.any TarEntry.isKernel = true := by
  by_contra hno
  have hnone : ∀ e ∈ es, e.isKernel = false := by simpa using hno
  have hfold : ∀ (fs : List TarEntry), (∀ e ∈ fs, e.isKernel = false) →
      fs.foldl (fun ok e => if e.isKernel then e.verifies buf L else ok) false = false := by
    intro fs
    induction fs with
    | nil => intro _; rfl
    | cons f fs ih =>
      intro hfs
      rw [List.foldl_cons, hfs f (by simp)]
      exact ih fun e he => hfs e (List.mem_cons_of_mem _ he)
  rw [kernelVerifies, hfold es hnone] at h
  exact Bool.false_ne_true h

end Walk

end UrsusBoot
