import Mathlib.Data.List.TakeWhile
import UrsusBoot.Web.Http

/-!
# Well-formed requests

What a client sends, and what the parsers of `Web.Http` make of it.
-/

namespace UrsusBoot

def crlf : List UInt8 := [0x0d, 0x0a]

/-- A byte that may stand anywhere in a line before a colon. -/
def Plain (b : UInt8) : Prop := b ≠ 0 ∧ b ≠ 0x0a ∧ b ≠ 0x3a

/-- A byte of a value: neither a control character nor a blank. -/
def Visible (b : UInt8) : Prop := 0x20 < b

instance (b : UInt8) : Decidable (Plain b) := inferInstanceAs (Decidable (_ ∧ _))
instance (b : UInt8) : Decidable (Visible b) := inferInstanceAs (Decidable (_ < _))

theorem forall_mem_of_all {p : UInt8 → Prop} [DecidablePred p] {bs : List UInt8}
    (h : (bs.all fun b => decide (p b)) = true) : ∀ b ∈ bs, p b := by
  simpa only [List.all_eq_true, decide_eq_true_eq] using h

theorem Visible.ne {b c : UInt8} (h : Visible b) (hc : c ≤ 0x20) : b ≠ c := by
  rintro rfl
  exact absurd h (UInt8.not_lt.2 hc)

theorem Visible.isOws {b : UInt8} (h : Visible b) : isOws b = false := by
  have hsp : b ≠ 0x20 := h.ne (by decide)
  have htab : b ≠ 0x09 := h.ne (by decide)
  simp [UrsusBoot.isOws, hsp, htab]

/-- A field: a name without a colon, and a value without blanks. -/
structure Field where
  name : List UInt8
  value : List UInt8
  name_plain : ∀ b ∈ name, Plain b
  value_visible : ∀ b ∈ value, Visible b

def Field.line (f : Field) : List UInt8 := f.name ++ 0x3a :: 0x20 :: f.value

/-- A request line with the given start, some fields and the blank line. -/
def request (start : List UInt8) (fs : List Field) : List UInt8 :=
  start ++ asciiBytes "HTTP/1.1" ++ crlf ++ (fs.flatMap fun f => f.line ++ crlf) ++ crlf

theorem http_plain : ∀ b ∈ asciiBytes "HTTP/1.1", Plain b := forall_mem_of_all (by decide)

theorem http_ne_nil : asciiBytes "HTTP/1.1" ≠ [] := by decide +kernel

/-- The bytes of a line that is no text of its own. -/
def OneLine (l : List UInt8) : Prop := l ≠ [] ∧ ∀ b ∈ l, b ≠ 0 ∧ b ≠ 0x0a

variable {start : List UInt8}

theorem start_oneLine (h : ∀ b ∈ start, Plain b) :
    OneLine (start ++ asciiBytes "HTTP/1.1") := by
  constructor
  · intro hnil
    exact http_ne_nil (List.append_eq_nil_iff.1 hnil).2
  · intro b hb
    have hplain : Plain b := by
      rcases List.mem_append.1 hb with hb | hb
      · exact h b hb
      · exact http_plain b hb
    exact ⟨hplain.1, hplain.2.1⟩

theorem Field.oneLine (f : Field) : OneLine f.line := by
  constructor
  · intro hnil
    exact absurd (List.append_eq_nil_iff.1 hnil).2 (List.cons_ne_nil _ _)
  · intro b hb
    rcases List.mem_append.1 hb with hb | hb
    · exact ⟨(f.name_plain b hb).1, (f.name_plain b hb).2.1⟩
    · simp only [List.mem_cons] at hb
      rcases hb with rfl | rfl | hb
      · exact ⟨by decide, by decide⟩
      · exact ⟨by decide, by decide⟩
      · exact ⟨(f.value_visible b hb).ne (by decide), (f.value_visible b hb).ne (by decide)⟩

/-! ## Arrival -/

section Feed

variable {hdr l bs : List UInt8}

theorem headerEnd_isSuffixOf_concat {b : UInt8} (h : b ≠ 0x0a) :
    headerEnd.isSuffixOf (hdr ++ [b]) = false := by
  have hne : (0x0a == b) = false := by simpa using h.symm
  simp [headerEnd, List.isSuffixOf, List.isPrefixOf, hne]

theorem feedHeader_text (h : ∀ b ∈ l, b ≠ 0x0a) (hlen : hdr.length + l.length < httpHdrMax) :
    feedHeader hdr (l ++ bs) = feedHeader (hdr ++ l) bs := by
  induction l generalizing hdr with
  | nil => rw [List.nil_append, List.append_nil]
  | cons b l ih =>
    have hb : b ≠ 0x0a := h b List.mem_cons_self
    simp only [List.length_cons] at hlen
    rw [List.cons_append, feedHeader, if_neg (by omega), headerEnd_isSuffixOf_concat hb,
      if_neg Bool.false_ne_true, ih (fun c hc => h c (List.mem_cons_of_mem b hc))]
    · rw [List.append_assoc]
      rfl
    · simp only [List.length_append, List.length_singleton]
      omega

theorem headerEnd_isSuffixOf_line (h : OneLine l) :
    headerEnd.isSuffixOf (hdr ++ l ++ crlf) = false := by
  obtain ⟨l', b, rfl⟩ : ∃ l' b, l = l' ++ [b] :=
    ⟨l.dropLast, l.getLast h.1, (List.dropLast_append_getLast h.1).symm⟩
  have hb : b ≠ 0x0a := (h.2 b (by simp)).2
  have hne : (0x0a == b) = false := by simpa using hb.symm
  simp [headerEnd, crlf, List.isSuffixOf, List.isPrefixOf, hne]

theorem feedHeader_line (h : OneLine l) (hlen : hdr.length + l.length + 2 < httpHdrMax) :
    feedHeader hdr (l ++ crlf ++ bs) = feedHeader (hdr ++ l ++ crlf) bs := by
  have hsplit : l ++ crlf ++ bs = (l ++ [0x0d]) ++ 0x0a :: bs := by simp [crlf]
  have hplain : ∀ b ∈ l ++ [0x0d], b ≠ 0x0a := by
    intro b hb
    rcases List.mem_append.1 hb with hb | hb
    · exact (h.2 b hb).2
    · rw [List.mem_singleton.1 hb]
      decide
  have hend : hdr ++ (l ++ [0x0d]) ++ [0x0a] = hdr ++ l ++ crlf := by simp [crlf]
  have hlt : hdr.length + (l ++ [0x0d]).length < httpHdrMax := by
    simp only [List.length_append, List.length_singleton]
    omega
  rw [hsplit, feedHeader_text hplain hlt, feedHeader, if_neg, hend, headerEnd_isSuffixOf_line h,
    if_neg Bool.false_ne_true]
  simp only [List.length_append, List.length_singleton]
  omega

theorem feedHeader_blank (hlen : hdr.length + 4 < httpHdrMax) :
    feedHeader (hdr ++ crlf) (crlf ++ bs) = .complete (hdr ++ crlf ++ crlf) bs := by
  have hsplit : crlf ++ bs = [0x0d] ++ 0x0a :: bs := rfl
  have hplain : ∀ b ∈ ([0x0d] : List UInt8), b ≠ 0x0a := by simp
  have hlt : (hdr ++ crlf).length + ([0x0d] : List UInt8).length < httpHdrMax := by
    simp only [List.length_append, crlf, List.length_cons, List.length_nil]
    omega
  have hend : hdr ++ crlf ++ [0x0d] ++ [0x0a] = hdr ++ crlf ++ crlf := by simp [crlf]
  rw [hsplit, feedHeader_text hplain hlt, feedHeader, if_neg, hend, if_pos]
  · simp [headerEnd, crlf, List.isSuffixOf, List.isPrefixOf]
  · simp only [List.length_append, crlf, List.length_cons, List.length_nil]
    omega

theorem feedHeader_fields (fs : List Field)
    (hlen : hdr.length + (fs.flatMap fun f => f.line ++ crlf).length + 4 < httpHdrMax) :
    feedHeader (hdr ++ crlf) ((fs.flatMap fun f => f.line ++ crlf) ++ crlf ++ bs) =
      .complete (hdr ++ crlf ++ (fs.flatMap fun f => f.line ++ crlf) ++ crlf) bs := by
  induction fs generalizing hdr with
  | nil =>
    simp only [List.flatMap_nil, List.nil_append, List.append_nil, List.length_nil] at hlen ⊢
    exact feedHeader_blank (by omega)
  | cons f fs ih =>
    simp only [List.flatMap_cons, List.length_append, crlf, List.length_cons, List.length_nil]
      at hlen
    have hline : (hdr ++ crlf).length + f.line.length + 2 < httpHdrMax := by
      simp only [List.length_append, crlf, List.length_cons, List.length_nil]
      omega
    have hrest : (hdr ++ crlf ++ f.line).length +
        (fs.flatMap fun f => f.line ++ crlf).length + 4 < httpHdrMax := by
      simp only [List.length_append, crlf, List.length_cons, List.length_nil]
      omega
    have hsplit : ((f :: fs).flatMap fun f => f.line ++ crlf) ++ crlf ++ bs =
        f.line ++ crlf ++ ((fs.flatMap fun f => f.line ++ crlf) ++ crlf ++ bs) := by
      simp [List.flatMap_cons]
    rw [hsplit, feedHeader_line f.oneLine hline, ih hrest]
    simp [List.flatMap_cons]

/-- **The header of a request is complete with its last byte.** What follows is left over. -/
theorem feedHeader_request {fs : List Field} (h : ∀ b ∈ start, Plain b)
    (hlen : (request start fs).length < httpHdrMax) :
    feedHeader [] (request start fs ++ bs) = .complete (request start fs) bs := by
  have hl := start_oneLine h
  have hlen' : (start ++ asciiBytes "HTTP/1.1").length +
      (fs.flatMap fun f => f.line ++ crlf).length + 4 < httpHdrMax := by
    have := hlen
    simp only [request, List.length_append, crlf, List.length_cons, List.length_nil] at this ⊢
    omega
  have hsplit : request start fs ++ bs = start ++ asciiBytes "HTTP/1.1" ++ crlf ++
      ((fs.flatMap fun f => f.line ++ crlf) ++ crlf ++ bs) := by
    simp [request]
  rw [hsplit, feedHeader_line hl, List.nil_append, feedHeader_fields fs hlen']
  · rfl
  · simp only [List.length_nil, Nat.zero_add]
    omega

theorem cstr_request {fs : List Field} (h : ∀ b ∈ start, Plain b) :
    cstr (request start fs) = request start fs := by
  have hcrlf : ∀ b ∈ crlf, b ≠ 0 := by simp [crlf]
  have hall : ∀ b ∈ request start fs, b ≠ 0 := by
    intro b hb
    simp only [request, List.mem_append, List.mem_flatMap] at hb
    rcases hb with (((hb | hb) | hb) | ⟨f, -, hb | hb⟩) | hb
    · exact (h b hb).1
    · exact (http_plain b hb).1
    · exact hcrlf b hb
    · exact (f.oneLine.2 b hb).1
    · exact hcrlf b hb
    · exact hcrlf b hb
  unfold cstr
  rw [List.takeWhile_eq_self_iff]
  intro b hb
  simpa using hall b hb

end Feed

/-! ## Fields -/

theorem toLower_eq_iff {b c : UInt8} (hc : c = 0x0a ∨ c = 0x3a) : toLower b = c ↔ b = c := by
  unfold toLower
  split_ifs with h
  · have hlo : 0x41 ≤ b.toNat := h.1
    have hhi : b.toNat ≤ 0x5a := h.2
    rcases hc with rfl | rfl <;>
      · rw [← UInt8.toNat_inj, ← UInt8.toNat_inj, UInt8.toNat_add]
        simp only [UInt8.reduceToNat]
        omega
  · rfl

theorem fieldAt_eq_some {name p v : List UInt8} (h : fieldAt name p = some v) :
    ∃ n, p = n ++ 0x3a :: v ∧ n.map toLower = name.map toLower := by
  unfold fieldAt at h
  split at h
  · rename_i hname
    split at h
    · rename_i v' hdrop
      refine ⟨p.take name.length, ?_, hname⟩
      obtain rfl := Option.some.inj h
      rw [← hdrop, List.take_append_drop]
    · exact absurd h (by simp)
  · exact absurd h (by simp)

theorem not_mem_of_map_toLower {n name : List UInt8} {c : UInt8} (hc : c = 0x0a ∨ c = 0x3a)
    (h : n.map toLower = name.map toLower) (hname : c ∉ name) : c ∉ n := by
  have htl : toLower c = c := (toLower_eq_iff hc).2 rfl
  intro hn
  have hmem : c ∈ name.map toLower := by
    rw [← h]
    exact List.mem_map.2 ⟨c, hn, htl⟩
  obtain ⟨b, hb, hbc⟩ := List.mem_map.1 hmem
  rw [(toLower_eq_iff hc).1 hbc] at hb
  exact hname hb

theorem eq_of_append_cons_eq {c : UInt8} {a a' b b' : List UInt8} (ha : c ∉ a) (ha' : c ∉ a')
    (h : a ++ c :: b = a' ++ c :: b') : a = a' ∧ b = b' := by
  have key : ∀ (x y : List UInt8), c ∉ x → (x ++ c :: y).takeWhile (· != c) = x := by
    intro x y hx
    rw [List.takeWhile_append_of_pos, List.takeWhile_cons_of_neg, List.append_nil]
    · simp
    · intro d hd
      simp only [bne_iff_ne, ne_eq]
      rintro rfl
      exact hx hd
  have haa : a = a' := by rw [← key a b ha, ← key a' b' ha', h]
  subst haa
  exact ⟨rfl, (List.cons.inj (List.append_cancel_left h)).2⟩

section Find

variable {name : List UInt8} (hname : ∀ b ∈ name, Plain b)

include hname

theorem name_no_feed : (0x0a : UInt8) ∉ name := fun h => (hname _ h).2.1 rfl

theorem name_no_colon : (0x3a : UInt8) ∉ name := fun h => (hname _ h).2.2 rfl

theorem fieldAt_field (f : Field) (bs : List UInt8) :
    fieldAt name (f.line ++ bs) =
      if f.name.map toLower = name.map toLower then some (0x20 :: (f.value ++ bs)) else none := by
  have hp : f.line ++ bs = f.name ++ 0x3a :: 0x20 :: (f.value ++ bs) := by simp [Field.line]
  have hfc : (0x3a : UInt8) ∉ f.name := fun h => (f.name_plain _ h).2.2 rfl
  split_ifs with hn
  · have hlen : name.length = f.name.length := by
      simpa using (congrArg List.length hn).symm
    rw [hp, fieldAt, hlen, List.take_left, if_pos hn, List.drop_left]
    rfl
  · rw [Option.eq_none_iff_forall_ne_some]
    intro v hv
    obtain ⟨n, hsplit, hmap⟩ := fieldAt_eq_some hv
    rw [hp] at hsplit
    have hnc : (0x3a : UInt8) ∉ n :=
      not_mem_of_map_toLower (.inr rfl) hmap (name_no_colon hname)
    rw [(eq_of_append_cons_eq hfc hnc hsplit).1] at hn
    exact hn hmap

theorem fieldAt_noColon {l : List UInt8} (hl : (0x3a : UInt8) ∉ l) (bs : List UInt8) :
    fieldAt name (l ++ 0x0a :: bs) = none := by
  rw [Option.eq_none_iff_forall_ne_some]
  intro v hv
  obtain ⟨n, hsplit, hmap⟩ := fieldAt_eq_some hv
  have hnf : (0x0a : UInt8) ∉ n := not_mem_of_map_toLower (.inl rfl) hmap (name_no_feed hname)
  -- the colon comes after the line feed, which the name would have to contain
  rcases List.append_eq_append_iff.1 hsplit with ⟨m, hm, hm'⟩ | ⟨m, hm, hm'⟩
  · cases m with
    | nil => exact absurd (List.cons.inj hm').1 (by decide)
    | cons c m =>
      rw [List.cons_append] at hm'
      rw [hm, ← (List.cons.inj hm').1] at hnf
      exact hnf (by simp)
  · cases m with
    | nil => exact absurd (List.cons.inj hm').1 (by decide)
    | cons c m =>
      rw [List.cons_append] at hm'
      rw [hm, ← (List.cons.inj hm').1] at hl
      exact hl (by simp)

omit hname in
theorem findField_text {l : List UInt8} (h : (0x0a : UInt8) ∉ l) (bs : List UInt8) :
    findField name false (l ++ 0x0a :: bs) = findField name true bs := by
  induction l with
  | nil => rfl
  | cons b l ih =>
    have hb : (b == 0x0a) = false := by
      simp only [beq_eq_false_iff_ne, ne_eq]
      rintro rfl
      exact h List.mem_cons_self
    rw [List.cons_append, findField]
    simp only [Bool.false_eq_true, if_false, hb]
    exact ih fun hl => h (List.mem_cons_of_mem b hl)

omit hname in
theorem findField_skip {l bs : List UInt8} (h : (0x0a : UInt8) ∉ l)
    (hno : fieldAt name (l ++ 0x0a :: bs) = none) :
    findField name true (l ++ 0x0a :: bs) = findField name true bs := by
  cases l with
  | nil =>
    rw [List.nil_append] at hno ⊢
    rw [findField, if_pos rfl, hno]
    rfl
  | cons b l =>
    have hb : (b == 0x0a) = false := by
      simp only [beq_eq_false_iff_ne, ne_eq]
      rintro rfl
      exact h List.mem_cons_self
    rw [List.cons_append] at hno ⊢
    rw [findField, if_pos rfl, hno]
    dsimp only
    rw [hb]
    exact findField_text (fun hl => h (List.mem_cons_of_mem b hl)) bs

omit hname in
theorem fieldValue_field (f : Field) (bs : List UInt8) :
    fieldValue (0x20 :: (f.value ++ crlf ++ bs)) = f.value := by
  have hdrop : (0x20 :: (f.value ++ crlf ++ bs)).dropWhile isOws = f.value ++ crlf ++ bs := by
    rw [List.dropWhile_cons_of_pos (by decide)]
    cases hv : f.value with
    | nil => rfl
    | cons b v =>
      have hb : isOws b = false := (f.value_visible b (by simp [hv])).isOws
      rw [List.cons_append, List.cons_append, List.dropWhile_cons_of_neg (by simp [hb])]
  have hline : (f.value ++ crlf ++ bs).takeWhile (fun b => b != 0x0d && b != 0x0a) = f.value := by
    rw [List.append_assoc, List.takeWhile_append_of_pos]
    · rw [crlf, List.cons_append, List.takeWhile_cons_of_neg (by decide), List.append_nil]
    · intro b hb
      have hcr : b ≠ 0x0d := (f.value_visible b hb).ne (by decide)
      have hlf : b ≠ 0x0a := (f.value_visible b hb).ne (by decide)
      simp [hcr, hlf]
  have htail : f.value.reverse.dropWhile isOws = f.value.reverse := by
    cases hv : f.value.reverse with
    | nil => rfl
    | cons b v =>
      have hmem : b ∈ f.value := by
        rw [← List.mem_reverse, hv]
        exact List.mem_cons_self
      have hb : isOws b = false := (f.value_visible b hmem).isOws
      rw [List.dropWhile_cons_of_neg (by simp [hb])]
  unfold fieldValue
  simp only [hdrop, hline, htail, List.reverse_reverse]

def lookupField (name : List UInt8) (fs : List Field) : Option (List UInt8) :=
  (fs.find? fun f => f.name.map toLower = name.map toLower).map Field.value

theorem findField_fields (fs : List Field) :
    findField name true ((fs.flatMap fun f => f.line ++ crlf) ++ crlf) = lookupField name fs := by
  induction fs with
  | nil =>
    have hsplit : ([] : List Field).flatMap (fun f => f.line ++ crlf) ++ crlf =
        [0x0d] ++ 0x0a :: [] := rfl
    rw [hsplit, findField_skip (by decide) (fieldAt_noColon hname (by decide) [])]
    rfl
  | cons f fs ih =>
    set rest := (fs.flatMap fun f => f.line ++ crlf) ++ crlf with hrest
    have hsplit : ((f :: fs).flatMap fun f => f.line ++ crlf) ++ crlf =
        f.line ++ (crlf ++ rest) := by
      simp [List.flatMap_cons, hrest]
    have hat := fieldAt_field hname f (crlf ++ rest)
    by_cases hn : f.name.map toLower = name.map toLower
    · rw [if_pos hn] at hat
      rw [lookupField, List.find?_cons_of_pos (by simpa using hn), hsplit]
      obtain ⟨b, l, hl⟩ : ∃ b l, f.line ++ (crlf ++ rest) = b :: l :=
        List.exists_cons_of_ne_nil fun hnil => f.oneLine.1 (List.append_eq_nil_iff.1 hnil).1
      rw [hl] at hat ⊢
      rw [findField, if_pos rfl, hat, ← List.append_assoc]
      simp only [fieldValue_field, Option.map_some]
    · rw [if_neg hn] at hat
      have hcut : f.line ++ (crlf ++ rest) = (f.line ++ [0x0d]) ++ 0x0a :: rest := by simp [crlf]
      have hfeed : (0x0a : UInt8) ∉ f.line ++ [0x0d] := by
        intro hmem
        rcases List.mem_append.1 hmem with hmem | hmem
        · exact (f.oneLine.2 _ hmem).2 rfl
        · exact absurd (List.mem_singleton.1 hmem) (by decide)
      rw [lookupField, List.find?_cons_of_neg (by simpa using hn), hsplit, hcut,
        findField_skip hfeed (hcut ▸ hat), ih]
      rfl

/-- **A field of a request is found under its name**, if its value fits the buffer. -/
theorem parseHeaderValue_request {text : String} (htext : asciiBytes text = name)
    (h : ∀ b ∈ start, Plain b) (fs : List Field) (outLen : ℕ) :
    parseHeaderValue (request start fs) text outLen =
      (lookupField name fs).filter fun v => decide (v ≠ [] ∧ v.length < outLen) := by
  have hplain : ∀ b ∈ start ++ asciiBytes "HTTP/1.1" ++ [0x0d], b ≠ 0x3a ∧ b ≠ 0x0a := by
    intro b hb
    simp only [List.mem_append, List.mem_singleton] at hb
    rcases hb with (hb | hb) | rfl
    · exact ⟨(h b hb).2.2, (h b hb).2.1⟩
    · exact ⟨(http_plain b hb).2.2, (http_plain b hb).2.1⟩
    · exact ⟨by decide, by decide⟩
  have hsplit : request start fs = (start ++ asciiBytes "HTTP/1.1" ++ [0x0d]) ++ 0x0a ::
      ((fs.flatMap fun f => f.line ++ crlf) ++ crlf) := by
    simp [request, crlf]
  have hfind : findField name true (request start fs) = lookupField name fs := by
    rw [hsplit, findField_skip, findField_fields hname]
    · exact fun hmem => (hplain _ hmem).2 rfl
    · exact fieldAt_noColon hname (fun hmem => (hplain _ hmem).1 rfl) _
  unfold parseHeaderValue
  rw [htext, hfind]
  cases hl : lookupField name fs with
  | none => rfl
  | some v =>
    simp only [Option.filter_some]
    by_cases hv : v = [] ∨ outLen ≤ v.length
    · rw [if_pos hv, if_neg]
      simp only [decide_eq_true_eq]
      rintro ⟨hne, hlt⟩
      rcases hv with hv | hv
      · exact hne hv
      · omega
    · rw [if_neg hv, if_pos]
      rw [not_or, not_le] at hv
      simpa using hv

end Find

/-! ## The fields the endpoints look for -/

inductive FieldName
  | total
  | generation
  | filename
  | length
  | offset
  | confirm
  | keepSettings
deriving DecidableEq

namespace FieldName

def text : FieldName → String
  | .total => "X-Ursus-Total"
  | .generation => "X-Ursus-Generation"
  | .filename => "X-Ursus-Filename"
  | .length => "Content-Length"
  | .offset => "X-Ursus-Offset"
  | .confirm => "X-Ursus-Confirm"
  | .keepSettings => "X-Ursus-Keep-Settings"

/-- The same as bytes, which the kernel reads faster than strings. -/
def bytes : FieldName → List UInt8
  | .total =>
    [0x58, 0x2d, 0x55, 0x72, 0x73, 0x75, 0x73, 0x2d, 0x54, 0x6f, 0x74, 0x61, 0x6c]
  | .generation =>
    [0x58, 0x2d, 0x55, 0x72, 0x73, 0x75, 0x73, 0x2d, 0x47, 0x65, 0x6e, 0x65, 0x72, 0x61,
     0x74, 0x69, 0x6f, 0x6e]
  | .filename =>
    [0x58, 0x2d, 0x55, 0x72, 0x73, 0x75, 0x73, 0x2d, 0x46, 0x69, 0x6c, 0x65, 0x6e, 0x61,
     0x6d, 0x65]
  | .length =>
    [0x43, 0x6f, 0x6e, 0x74, 0x65, 0x6e, 0x74, 0x2d, 0x4c, 0x65, 0x6e, 0x67, 0x74, 0x68]
  | .offset =>
    [0x58, 0x2d, 0x55, 0x72, 0x73, 0x75, 0x73, 0x2d, 0x4f, 0x66, 0x66, 0x73, 0x65, 0x74]
  | .confirm =>
    [0x58, 0x2d, 0x55, 0x72, 0x73, 0x75, 0x73, 0x2d, 0x43, 0x6f, 0x6e, 0x66, 0x69, 0x72,
     0x6d]
  | .keepSettings =>
    [0x58, 0x2d, 0x55, 0x72, 0x73, 0x75, 0x73, 0x2d, 0x4b, 0x65, 0x65, 0x70, 0x2d, 0x53,
     0x65, 0x74, 0x74, 0x69, 0x6e, 0x67, 0x73]

theorem asciiBytes_text (n : FieldName) : asciiBytes n.text = n.bytes := by
  cases n <;> decide +kernel

theorem bytes_plain (n : FieldName) : ∀ b ∈ n.bytes, Plain b := by
  apply forall_mem_of_all
  cases n <;> decide

theorem bytes_toLower_inj {m n : FieldName} (h : m.bytes.map toLower = n.bytes.map toLower) :
    m = n := by
  revert h
  cases m <;> cases n <;> decide

def field (n : FieldName) (value : List UInt8) (h : ∀ b ∈ value, Visible b) : Field :=
  ⟨n.bytes, value, n.bytes_plain, h⟩

variable {m n : FieldName} {v : List UInt8} {fs : List Field} {start : List UInt8}

theorem lookupField_self (h : ∀ b ∈ v, Visible b) :
    lookupField n.bytes (n.field v h :: fs) = some v := by
  rw [lookupField, List.find?_cons_of_pos (by simp [field])]
  rfl

theorem lookupField_ne (h : ∀ b ∈ v, Visible b) (hne : m ≠ n) :
    lookupField n.bytes (m.field v h :: fs) = lookupField n.bytes fs := by
  have hname : ¬ (m.field v h).name.map toLower = n.bytes.map toLower :=
    fun heq => hne (bytes_toLower_inj heq)
  rw [lookupField, List.find?_cons_of_neg (by simpa using hname)]
  rfl

theorem lookupField_nil : lookupField n.bytes [] = none := rfl

theorem parseHeaderValue_some (hstart : ∀ b ∈ start, Plain b) (hl : lookupField n.bytes fs = some v)
    (hne : v ≠ []) {outLen : ℕ} (hlen : v.length < outLen) :
    parseHeaderValue (request start fs) n.text outLen = some v := by
  rw [parseHeaderValue_request n.bytes_plain n.asciiBytes_text hstart, hl, Option.filter_some,
    if_pos (by simpa using ⟨hne, hlen⟩)]

theorem parseHeaderValue_none (hstart : ∀ b ∈ start, Plain b) (hl : lookupField n.bytes fs = none)
    (outLen : ℕ) : parseHeaderValue (request start fs) n.text outLen = none := by
  rw [parseHeaderValue_request n.bytes_plain n.asciiBytes_text hstart, hl]
  rfl

theorem parseHeaderUlong_some (hstart : ∀ b ∈ start, Plain b) (hl : lookupField n.bytes fs = some v)
    (hne : v ≠ []) (hlen : v.length < 32) {k : ℕ} (hk : simpleStrtoul v = (k, [])) :
    parseHeaderUlong (request start fs) n.text = some k := by
  rw [parseHeaderUlong, parseHeaderValue_some hstart hl hne hlen]
  simp only [hk, if_true]

end FieldName

/-! ## Endpoints -/

theorem endpoints_texts :
    ((endpoints.map fun e => asciiBytes e.1).Pairwise fun a b =>
      a.isPrefixOf b = false ∧ b.isPrefixOf a = false) ∧
    (endpoints.all fun e => (asciiBytes e.1).all (fun b => decide (Plain b)) &&
      decide ((asciiBytes e.1).length ≤ 60)) = true := by
  decide +kernel

theorem endpoints_apart : (endpoints.map fun e => asciiBytes e.1).Pairwise fun a b =>
    a.isPrefixOf b = false ∧ b.isPrefixOf a = false := endpoints_texts.1

theorem endpoints_plain : ∀ e ∈ endpoints, ∀ b ∈ asciiBytes e.1, Plain b := fun e he =>
  forall_mem_of_all (Bool.and_eq_true_iff.1 (List.all_eq_true.1 endpoints_texts.2 e he)).1

theorem endpoints_short : ∀ e ∈ endpoints, (asciiBytes e.1).length ≤ 60 := fun e he =>
  of_decide_eq_true (Bool.and_eq_true_iff.1 (List.all_eq_true.1 endpoints_texts.2 e he)).2

/-- **A request goes to the endpoint it names.** -/
theorem ofHeader_append {e : String × Route} (he : e ∈ endpoints) (rest : List UInt8) :
    Route.ofHeader (asciiBytes e.1 ++ rest) = e.2 := by
  have hapart := List.pairwise_map.1 endpoints_apart
  have hfind : endpoints.find? (fun e' => reqMatch (asciiBytes e.1 ++ rest) e'.1) = some e := by
    obtain ⟨before, after, hsplit⟩ := List.append_of_mem he
    rw [hsplit] at hapart ⊢
    rw [List.find?_append, List.find?_cons_of_pos, List.find?_eq_none.2]
    · rfl
    · -- another text that matched would start this one, or be started by it
      intro e' he' hmatch
      have hboth := (List.pairwise_append.1 hapart).2.2 e' he' e List.mem_cons_self
      rw [reqMatch, List.isPrefixOf_iff_prefix] at hmatch
      rcases List.prefix_or_prefix_of_prefix hmatch (List.prefix_append _ rest) with hp | hp
      · rw [List.isPrefixOf_iff_prefix.2 hp] at hboth
        exact absurd hboth.1 (by decide)
      · rw [List.isPrefixOf_iff_prefix.2 hp] at hboth
        exact absurd hboth.2 (by decide)
    · rw [reqMatch, List.isPrefixOf_iff_prefix]
      exact List.prefix_append _ _
  rw [Route.ofHeader, hfind]

theorem ofHeader_request {e : String × Route} (he : e ∈ endpoints) (fs : List Field) :
    Route.ofHeader (request (asciiBytes e.1) fs) = e.2 := by
  have hsplit : request (asciiBytes e.1) fs = asciiBytes e.1 ++ (asciiBytes "HTTP/1.1" ++ crlf ++
      (fs.flatMap fun f => f.line ++ crlf) ++ crlf) := by
    simp [request]
  rw [hsplit, ofHeader_append he]

end UrsusBoot
