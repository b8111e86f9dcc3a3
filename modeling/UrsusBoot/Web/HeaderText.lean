import Mathlib.Data.Nat.Digits.Defs
import UrsusBoot.Web.Request

/-!
# Header texts

What a header says, and what the parsers of `Web.Http` read in it, for texts of any form.
-/

namespace UrsusBoot

/-! ## What a header says -/

/-- A line without the carriage return before its line feed. -/
def stripCr (l : List UInt8) : List UInt8 := if l.getLast? = some 0x0d then l.dropLast else l

def headerLines (h : List UInt8) : List (List UInt8) := (h.splitOn 0x0a).map stripCr

def trimEnd (l : List UInt8) : List UInt8 := (l.reverse.dropWhile isOws).reverse

def trimOws (l : List UInt8) : List UInt8 := trimEnd (l.dropWhile isOws)

/-- The value of the first line with a name, without blanks at either end. -/
def headerField (h : List UInt8) (name : String) : Option (List UInt8) :=
  ((headerLines h).findSome? (fieldAt (asciiBytes name))).map trimOws

/-! ## What is found -/

/-- The part of a value before a carriage return that does not end the line. -/
def beforeCr (s : List UInt8) : List UInt8 := trimEnd (s.takeWhile fun b => b != 0x0d)

section Lines

variable {name : List UInt8}

theorem fieldAt_iff {p v : List UInt8} :
    fieldAt name p = some v ↔ ∃ n, p = n ++ 0x3a :: v ∧ n.map toLower = name.map toLower := by
  refine ⟨fieldAt_eq_some, ?_⟩
  rintro ⟨n, rfl, hn⟩
  have hlen : name.length = n.length := by
    simpa using (congrArg List.length hn).symm
  rw [fieldAt, hlen, List.take_left, if_pos hn, List.drop_left]
  rfl

theorem fieldAt_line (hname : (0x0a : UInt8) ∉ name) (l rest : List UInt8) :
    fieldAt name (l ++ 0x0a :: rest) = (fieldAt name l).map (· ++ 0x0a :: rest) := by
  cases hl : fieldAt name l with
  | some v =>
    obtain ⟨n, rfl, hn⟩ := fieldAt_iff.1 hl
    exact fieldAt_iff.2 ⟨n, by simp, hn⟩
  | none =>
    rw [Option.map_none, Option.eq_none_iff_forall_ne_some]
    intro v hv
    obtain ⟨n, hsplit, hn⟩ := fieldAt_iff.1 hv
    have hfeed : (0x0a : UInt8) ∉ n := not_mem_of_map_toLower (.inl rfl) hn hname
    rcases List.append_eq_append_iff.1 hsplit with ⟨m, hm, hm'⟩ | ⟨m, hm, hm'⟩
    · -- the name reaches over the line feed
      cases m with
      | nil => exact absurd (List.cons.inj hm').1 (by decide)
      | cons c m =>
        rw [List.cons_append] at hm'
        rw [hm, ← (List.cons.inj hm').1] at hfeed
        exact hfeed (by simp)
    · cases m with
      | nil => exact absurd (List.cons.inj hm').1 (by decide)
      | cons c m =>
        rw [List.cons_append] at hm'
        rw [hm, ← (List.cons.inj hm').1, fieldAt_iff.2 ⟨n, rfl, hn⟩] at hl
        cases hl

theorem fieldAt_stripCr (l : List UInt8) :
    fieldAt name (stripCr l) = (fieldAt name l).map stripCr := by
  unfold stripCr
  by_cases hcr : l.getLast? = some 0x0d
  · rw [if_pos hcr]
    obtain ⟨l', rfl⟩ := List.getLast?_eq_some_iff.1 hcr
    rw [List.dropLast_concat]
    cases hl : fieldAt name l' with
    | some v =>
      obtain ⟨n, rfl, hn⟩ := fieldAt_iff.1 hl
      have hlong : fieldAt name (n ++ 0x3a :: v ++ [0x0d]) = some (v ++ [0x0d]) :=
        fieldAt_iff.2 ⟨n, by simp, hn⟩
      rw [hlong, Option.map_some, List.getLast?_concat, if_pos rfl, List.dropLast_concat]
    | none =>
      have hnone : fieldAt name (l' ++ [0x0d]) = none := by
        rw [Option.eq_none_iff_forall_ne_some]
        intro v hv
        obtain ⟨n, hsplit, hn⟩ := fieldAt_iff.1 hv
        rcases List.eq_nil_or_concat v with rfl | ⟨v', c, rfl⟩
        · have hlast := congrArg List.getLast? hsplit
          rw [List.getLast?_concat, List.getLast?_concat] at hlast
          exact absurd (Option.some.inj hlast) (by decide)
        · rw [List.concat_eq_append, ← List.cons_append, ← List.append_assoc] at hsplit
          obtain ⟨hl', -⟩ := List.append_inj' hsplit rfl
          rw [hl', fieldAt_iff.2 ⟨n, rfl, hn⟩] at hl
          cases hl
      rw [hnone]
      rfl
  · rw [if_neg hcr]
    cases hl : fieldAt name l with
    | none => rfl
    | some v =>
      obtain ⟨n, rfl, -⟩ := fieldAt_iff.1 hl
      rw [Option.map_some, if_neg]
      intro hv
      apply hcr
      obtain ⟨v', rfl⟩ := List.getLast?_eq_some_iff.1 hv
      rw [← List.cons_append, ← List.append_assoc, List.getLast?_concat]

end Lines

/-! ### Blanks and carriage returns -/

theorem stripCr_concat (l : List UInt8) : stripCr (l ++ [0x0d]) = l := by
  rw [stripCr, List.getLast?_concat, if_pos rfl, List.dropLast_concat]

theorem stripCr_cases (l : List UInt8) : l = stripCr l ++ [0x0d] ∨ stripCr l = l := by
  by_cases hcr : l.getLast? = some 0x0d
  · obtain ⟨l', rfl⟩ := List.getLast?_eq_some_iff.1 hcr
    rw [stripCr_concat]
    exact .inl rfl
  · exact .inr (if_neg hcr)

theorem dropWhile_stripCr (v : List UInt8) :
    (stripCr v).dropWhile isOws = stripCr (v.dropWhile isOws) := by
  by_cases hcr : v.getLast? = some 0x0d
  · obtain ⟨v', rfl⟩ := List.getLast?_eq_some_iff.1 hcr
    have hdrop : (v' ++ [0x0d]).dropWhile isOws = v'.dropWhile isOws ++ [0x0d] := by
      rw [List.dropWhile_append]
      by_cases hnil : (v'.dropWhile isOws).isEmpty = true
      · rw [if_pos hnil, List.isEmpty_iff.1 hnil]
        rfl
      · rw [if_neg hnil]
    rw [stripCr_concat, hdrop, stripCr_concat]
  · have hsuffix := List.dropWhile_suffix isOws (l := v)
    have hlast : (v.dropWhile isOws).getLast? ≠ some 0x0d := by
      intro hlast
      obtain ⟨w, hw⟩ := List.getLast?_eq_some_iff.1 hlast
      obtain ⟨a, ha⟩ := hsuffix
      apply hcr
      rw [← ha, hw, ← List.append_assoc, List.getLast?_concat]
    rw [stripCr, if_neg hcr, stripCr, if_neg hlast]

theorem takeWhile_stripCr (w : List UInt8) :
    (stripCr w).takeWhile (fun b => b != 0x0d) = w.takeWhile fun b => b != 0x0d := by
  rcases stripCr_cases w with hw | hw
  · rw [hw, stripCr_concat, List.takeWhile_append]
    split_ifs with hall
    · rw [List.takeWhile_cons_of_neg (by decide), List.append_nil]
      exact (List.takeWhile_prefix _).eq_of_length hall
    · rfl
  · rw [hw]

theorem trimEnd_append {bl : List UInt8} (h : ∀ b ∈ bl, isOws b = true) (l : List UInt8) :
    trimEnd (l ++ bl) = trimEnd l := by
  rw [trimEnd, List.reverse_append, List.dropWhile_append_of_pos]
  · rfl
  · intro b hb
    exact h b (List.mem_reverse.1 hb)

theorem exists_blanks (l : List UInt8) : ∃ bl, (∀ b ∈ bl, isOws b = true) ∧ l = trimEnd l ++ bl := by
  refine ⟨(l.reverse.takeWhile isOws).reverse, ?_, ?_⟩
  · intro b hb
    exact List.mem_takeWhile_imp (List.mem_reverse.1 hb)
  · rw [trimEnd, ← List.reverse_append, List.takeWhile_append_dropWhile, List.reverse_reverse]

theorem beforeCr_trimEnd (l : List UInt8) :
    beforeCr (trimEnd l) = trimEnd (l.takeWhile fun b => b != 0x0d) := by
  obtain ⟨bl, hbl, hl⟩ := exists_blanks l
  have hpass : ∀ b ∈ bl, (b != 0x0d) = true := by
    intro b hb
    have hows := hbl b hb
    rw [bne_iff_ne]
    rintro rfl
    exact absurd hows (by decide)
  conv_rhs => rw [hl]
  rw [beforeCr, List.takeWhile_append]
  split_ifs with hall
  · rw [List.takeWhile_eq_self_iff.2 hpass, trimEnd_append hbl,
      (List.takeWhile_prefix _).eq_of_length hall]
  · rfl

theorem takeWhile_no_feed {w : List UInt8} (hw : (0x0a : UInt8) ∉ w) :
    (w.takeWhile fun b => b != 0x0d && b != 0x0a) = w.takeWhile fun b => b != 0x0d := by
  induction w with
  | nil => rfl
  | cons b w ih =>
    have hb : (b != 0x0a) = true := by
      rw [bne_iff_ne]
      rintro rfl
      exact hw List.mem_cons_self
    rw [List.takeWhile_cons, List.takeWhile_cons, hb, Bool.and_true,
      ih fun hmem => hw (List.mem_cons_of_mem b hmem)]

/-- **The value the parser takes is the value of the line up to a bare carriage return.** -/
theorem fieldValue_eq {v : List UInt8} (hv : (0x0a : UInt8) ∉ v) :
    fieldValue v = beforeCr (trimOws (stripCr v)) := by
  have hw : (0x0a : UInt8) ∉ v.dropWhile isOws := fun hmem =>
    hv ((List.dropWhile_suffix isOws).subset hmem)
  show trimEnd ((v.dropWhile isOws).takeWhile fun b => b != 0x0d && b != 0x0a) = _
  rw [takeWhile_no_feed hw, trimOws, beforeCr_trimEnd, dropWhile_stripCr, takeWhile_stripCr]

theorem fieldValue_line (v rest : List UInt8) :
    fieldValue (v ++ 0x0a :: rest) = fieldValue v := by
  have hdrop : (v ++ 0x0a :: rest).dropWhile isOws = v.dropWhile isOws ++ 0x0a :: rest := by
    rw [List.dropWhile_append]
    by_cases hnil : (v.dropWhile isOws).isEmpty = true
    · rw [if_pos hnil, List.isEmpty_iff.1 hnil]
      rfl
    · rw [if_neg hnil]
  have htake : ∀ w : List UInt8, (w ++ 0x0a :: rest).takeWhile (fun b => b != 0x0d && b != 0x0a) =
      w.takeWhile fun b => b != 0x0d && b != 0x0a := by
    intro w
    rw [List.takeWhile_append]
    split_ifs with hall
    · rw [List.takeWhile_cons_of_neg (by decide), List.append_nil]
      exact ((List.takeWhile_prefix _).eq_of_length hall).symm
    · rfl
  show trimEnd (((v ++ 0x0a :: rest).dropWhile isOws).takeWhile fun b => b != 0x0d && b != 0x0a) = _
  rw [hdrop, htake]
  rfl

/-! ### The first line with the name -/

section Found

variable {name : List UInt8} (hname : (0x0a : UInt8) ∉ name)

theorem findField_false {l : List UInt8} (h : (0x0a : UInt8) ∉ l) : findField name false l = none := by
  induction l with
  | nil => rfl
  | cons b l ih =>
    have hb : (b == 0x0a) = false := by
      rw [beq_eq_false_iff_ne]
      rintro rfl
      exact h List.mem_cons_self
    rw [findField, if_neg Bool.false_ne_true, hb]
    exact ih fun hmem => h (List.mem_cons_of_mem b hmem)

theorem findField_of_fieldAt {p v : List UInt8} (h : fieldAt name p = some v) :
    findField name true p = some (fieldValue v) := by
  cases p with
  | nil =>
    obtain ⟨n, hn, -⟩ := fieldAt_iff.1 h
    exact absurd hn.symm (by simp)
  | cons b p => rw [findField, if_pos rfl, h]

theorem findField_last {l : List UInt8} (h : (0x0a : UInt8) ∉ l) :
    findField name true l = (fieldAt name l).map fieldValue := by
  cases hl : fieldAt name l with
  | some v => exact findField_of_fieldAt hl
  | none =>
    cases l with
    | nil => rfl
    | cons b l =>
      have hb : (b == 0x0a) = false := by
        rw [beq_eq_false_iff_ne]
        rintro rfl
        exact h List.mem_cons_self
      rw [findField, if_pos rfl, hl]
      dsimp only
      rw [hb, findField_false fun hmem => h (List.mem_cons_of_mem b hmem)]
      rfl

include hname in
/-- **The first line with the name decides.** -/
theorem findField_eq (h : List UInt8) : findField name true h =
    ((h.splitOn 0x0a).findSome? (fieldAt name)).map fun v => beforeCr (trimOws (stripCr v)) := by
  -- what follows the colon of a line has no line feed either
  have hvalue : ∀ {l v : List UInt8}, (0x0a : UInt8) ∉ l → fieldAt name l = some v →
      fieldValue v = beforeCr (trimOws (stripCr v)) := by
    intro l v hl hv
    obtain ⟨n, rfl, -⟩ := fieldAt_iff.1 hv
    exact fieldValue_eq fun hmem => hl (by simp [hmem])
  induction hn : h.length using Nat.strong_induction_on generalizing h with
  | _ n ih =>
    by_cases hfeed : (0x0a : UInt8) ∈ h
    · obtain ⟨l, rest, rfl, hl⟩ := List.eq_append_cons_of_mem hfeed
      have hline := fieldAt_line hname l rest
      rw [List.splitOn_append_cons_self_of_not_mem hl, List.findSome?_cons]
      cases hat : fieldAt name l with
      | some v =>
        rw [hat, Option.map_some] at hline
        rw [findField_of_fieldAt hline, fieldValue_line, hvalue hl hat]
        rfl
      | none =>
        rw [hat, Option.map_none] at hline
        rw [findField_skip hl hline]
        refine ih rest.length ?_ rest rfl
        rw [← hn, List.length_append, List.length_cons]
        omega
    · rw [List.splitOn_eq_singleton hfeed, findField_last hfeed, List.findSome?_singleton]
      cases hat : fieldAt name h with
      | none => rfl
      | some v => rw [Option.map_some, hvalue hfeed hat, Option.map_some]

end Found

/-- **What `ursus_parse_header_value` finds.** -/
theorem parseHeaderValue_iff {name : String} (hname : (0x0a : UInt8) ∉ asciiBytes name)
    {h c : List UInt8} {outLen : ℕ} : parseHeaderValue h name outLen = some c ↔
      ∃ s, headerField h name = some s ∧ c = beforeCr s ∧ c ≠ [] ∧ c.length < outLen := by
  have hstrip : fieldAt (asciiBytes name) ∘ stripCr =
      Option.map stripCr ∘ fieldAt (asciiBytes name) := by
    funext l
    exact fieldAt_stripCr l
  have hfound : findField (asciiBytes name) true h = (headerField h name).map beforeCr := by
    rw [findField_eq hname, headerField, headerLines, List.findSome?_map, hstrip,
      ← List.map_findSome?, Option.map_map, Option.map_map]
    rfl
  rw [parseHeaderValue, hfound]
  cases hs : headerField h name with
  | none => simp
  | some s =>
    simp only [Option.map_some, Option.some.injEq, exists_eq_left']
    by_cases hbad : beforeCr s = [] ∨ outLen ≤ (beforeCr s).length
    · rw [if_pos hbad]
      refine iff_of_false nofun ?_
      rintro ⟨rfl, hne, hlt⟩
      rcases hbad with hnil | hlong
      · exact hne hnil
      · omega
    · rw [if_neg hbad, Option.some.injEq]
      rw [not_or, not_le] at hbad
      constructor
      · rintro rfl
        exact ⟨rfl, hbad.1, hbad.2⟩
      · rintro ⟨rfl, -, -⟩
        rfl

/-! ## Numbers -/

def IsDigit (b : UInt8) : Prop := 0x30 ≤ b ∧ b ≤ 0x39

instance (b : UInt8) : Decidable (IsDigit b) := inferInstanceAs (Decidable (_ ∧ _))

def decimalValue (s : List UInt8) : ℕ := Nat.ofDigits 10 (s.reverse.map fun b => b.toNat - 0x30)

def Decimal (s : List UInt8) : Prop := s ≠ [] ∧ ∀ b ∈ s, IsDigit b

/-- `0x` and hexadecimal digits. -/
def HexText (c : List UInt8) : Prop :=
  ∃ x ds, c = 0x30 :: x :: ds ∧ toLower x = 0x78 ∧ ∀ b ∈ ds, decodeDigit b < 16

/-- The number that digits denote, from the first one on. -/
def digitsValue (base : ℕ) (s : List UInt8) (v : ℕ) : ℕ :=
  s.foldl (fun v b => v * base + decodeDigit b) v

theorem decodeDigit_of_isDigit {b : UInt8} (h : IsDigit b) : decodeDigit b = b.toNat - 0x30 := if_pos h

theorem decodeDigit_lt_ten {b : UInt8} : decodeDigit b < 10 ↔ IsDigit b := by
  constructor
  · intro hlt
    unfold decodeDigit at hlt
    split_ifs at hlt with hdigit
    · exact hdigit
    · omega
    · omega
  · intro h
    have hhigh : b.toNat ≤ 0x39 := h.2
    rw [decodeDigit_of_isDigit h]
    omega

variable {s : List UInt8}

theorem digitsValue_ten (h : ∀ b ∈ s, IsDigit b) :
    digitsValue 10 s 0 = decimalValue s := by
  have hfold : ∀ (l : List UInt8) (v : ℕ), (∀ b ∈ l, IsDigit b) →
      digitsValue 10 l v = v * 10 ^ l.length + decimalValue l := by
    intro l
    induction l with
    | nil =>
      intro v _
      simp [digitsValue, decimalValue]
    | cons b l ih =>
      intro v hl
      have hb := decodeDigit_of_isDigit (hl b List.mem_cons_self)
      have hvalue : decimalValue (b :: l) = decimalValue l + 10 ^ l.length * (b.toNat - 0x30) := by
        rw [decimalValue, List.reverse_cons, List.map_append, Nat.ofDigits_append, List.length_map,
          List.length_reverse, List.map_singleton, Nat.ofDigits_singleton]
        rfl
      rw [digitsValue, List.foldl_cons, ← digitsValue, ih _ fun c hc => hl c (List.mem_cons_of_mem b hc),
        hb, hvalue, List.length_cons, Nat.pow_succ]
      ring
  rw [hfold s 0 h, Nat.zero_mul, Nat.zero_add]

theorem strtoulLoop_iff {base : ℕ} {a x : ℕ} :
    strtoulLoop base s (a % 2 ^ 64) = (x, []) ↔
      (∀ b ∈ s, decodeDigit b < base) ∧ x = digitsValue base s a % 2 ^ 64 := by
  induction s generalizing a with
  | nil => simp [strtoulLoop, digitsValue, eq_comm]
  | cons b s ih =>
    rw [strtoulLoop]
    by_cases hb : decodeDigit b < base
    · have hstep : (a % 2 ^ 64 * base + decodeDigit b) % 2 ^ 64 =
          (a * base + decodeDigit b) % 2 ^ 64 := by
        rw [Nat.add_mod, Nat.mod_mul_mod, ← Nat.add_mod]
      have hvalue : digitsValue base (b :: s) a = digitsValue base s (a * base + decodeDigit b) := rfl
      rw [if_pos hb, hstep, ih, List.forall_mem_cons, hvalue]
      exact ⟨fun h => ⟨⟨hb, h.1⟩, h.2⟩, fun h => ⟨h.1.2, h.2⟩⟩
    · rw [if_neg hb]
      refine iff_of_false (fun h => ?_) fun h => hb (h.1 b List.mem_cons_self)
      exact absurd (Prod.mk.inj h).2 (List.cons_ne_nil b s)

theorem not_hexText_of_digits {c : List UInt8} (h : ∀ b ∈ c, IsDigit b) : ¬ HexText c := by
  rintro ⟨x, ds, rfl, hx, -⟩
  have hdigit := h x (by simp)
  have hlow : toLower x = x := by
    refine if_neg fun hupper => ?_
    have hhigh : x.toNat ≤ 0x39 := hdigit.2
    have hletter : 0x41 ≤ x.toNat := hupper.1
    omega
  rw [hlow] at hx
  rw [hx] at hdigit
  exact absurd hdigit (by decide)

/-- **What `simple_strtoul` makes of a whole text.** -/
theorem simpleStrtoul_iff {c : List UInt8} {v : ℕ} : simpleStrtoul c = (v, []) ↔
    (HexText c ∧ v = digitsValue 16 (c.drop 2) 0 % 2 ^ 64) ∨
      ((∀ b ∈ c, IsDigit b) ∧ v = decimalValue c % 2 ^ 64) := by
  have hloop : ∀ {base : ℕ} {s : List UInt8}, strtoulLoop base s 0 = (v, []) ↔
      (∀ b ∈ s, decodeDigit b < base) ∧ v = digitsValue base s 0 % 2 ^ 64 :=
    fun {base s} => strtoulLoop_iff (a := 0)
  have hten : strtoulLoop 10 c 0 = (v, []) ↔ (∀ b ∈ c, IsDigit b) ∧ v = decimalValue c % 2 ^ 64 := by
    rw [hloop]
    simp only [decodeDigit_lt_ten]
    exact and_congr_right fun hall => by rw [digitsValue_ten hall]
  by_cases hzero : ∃ x ds, c = 0x30 :: x :: ds ∧ toLower x = 0x78
  · obtain ⟨x, ds, rfl, hx⟩ := hzero
    have hhex : HexText (0x30 :: x :: ds) ↔ ∀ b ∈ ds, decodeDigit b < 16 := by
      constructor
      · rintro ⟨x', ds', heq, -, hall⟩
        obtain ⟨-, htail⟩ := List.cons.inj heq
        rw [(List.cons.inj htail).2]
        exact hall
      · exact fun hall => ⟨x, ds, rfl, hx, hall⟩
    have hnot : ¬ ∀ b ∈ (0x30 :: x :: ds), IsDigit b := by
      intro hall
      have hdigits : HexText [0x30, x] := ⟨x, [], rfl, hx, nofun⟩
      refine not_hexText_of_digits (fun b hb => hall b ?_) hdigits
      simp only [List.mem_cons, List.not_mem_nil, or_false] at hb ⊢
      exact hb.imp_right .inl
    rw [simpleStrtoul, if_pos hx, hloop, hhex]
    simp only [hnot, false_and, or_false]
    rfl
  · have hbase : simpleStrtoul c = strtoulLoop 10 c 0 := by
      unfold simpleStrtoul
      split
      · rename_i x ds
        rw [if_neg fun hx => hzero ⟨x, ds, rfl, hx⟩]
      · rfl
    have hnot : ¬ HexText c := by
      rintro ⟨x, ds, hc, hx, -⟩
      exact hzero ⟨x, ds, hc, hx⟩
    rw [hbase, hten]
    simp only [hnot, false_and, false_or]

/-- **What `ursus_parse_header_ulong` returns.** -/
theorem parseHeaderUlong_iff {name : String} (hname : (0x0a : UInt8) ∉ asciiBytes name)
    {h : List UInt8} {v : ℕ} : parseHeaderUlong h name = some v ↔
      ∃ s, headerField h name = some s ∧ beforeCr s ≠ [] ∧ (beforeCr s).length < 32 ∧
        ((HexText (beforeCr s) ∧ v = digitsValue 16 ((beforeCr s).drop 2) 0 % 2 ^ 64) ∨
          ((∀ b ∈ beforeCr s, IsDigit b) ∧ v = decimalValue (beforeCr s) % 2 ^ 64)) := by
  have hread : parseHeaderUlong h name = some v ↔
      ∃ c, parseHeaderValue h name 32 = some c ∧ simpleStrtoul c = (v, []) := by
    unfold parseHeaderUlong
    cases parseHeaderValue h name 32 with
    | none => simp
    | some c =>
      simp only [Option.some.injEq, exists_eq_left']
      rw [← Prod.mk.eta (p := simpleStrtoul c)]
      by_cases hrest : (simpleStrtoul c).2 = []
      · simp [hrest]
      · simp only [hrest, if_false, reduceCtorEq, false_iff]
        exact fun heq => hrest (congrArg Prod.snd heq)
  rw [hread]
  constructor
  · rintro ⟨c, hc, hv⟩
    obtain ⟨s, hs, rfl, hne, hlt⟩ := (parseHeaderValue_iff hname).1 hc
    exact ⟨s, hs, hne, hlt, simpleStrtoul_iff.1 hv⟩
  · rintro ⟨s, hs, hne, hlt, hv⟩
    exact ⟨beforeCr s, (parseHeaderValue_iff hname).2 ⟨s, hs, rfl, hne, hlt⟩, simpleStrtoul_iff.2 hv⟩

/-! ## Numeric headers -/

structure NumericHeader (h : List UInt8) (name : String) : Prop where
  means : ∀ v, parseHeaderUlong h name = some v →
    ∃ s, headerField h name = some s ∧ Decimal s ∧ decimalValue s = v
  rejects : ∀ s, headerField h name = some s → ¬ (Decimal s ∧ decimalValue s < 2 ^ 64) →
    parseHeaderUlong h name = none

theorem beforeCr_of_visible (h : ∀ b ∈ s, Visible b) : beforeCr s = s := by
  have hcr : s.takeWhile (fun b => b != 0x0d) = s := by
    rw [List.takeWhile_eq_self_iff]
    intro b hb
    rw [bne_iff_ne]
    exact (h b hb).ne (by decide)
  have hend : s.reverse.dropWhile isOws = s.reverse := by
    cases hs : s.reverse with
    | nil => rfl
    | cons b l =>
      have hb : Visible b := h b (List.mem_reverse.1 (by rw [hs]; exact List.mem_cons_self))
      rw [List.dropWhile_cons_of_neg (by simp [hb.isOws])]
  rw [beforeCr, hcr, trimEnd, hend, List.reverse_reverse]

theorem beforeCr_of_digits (h : ∀ b ∈ s, IsDigit b) : beforeCr s = s :=
  beforeCr_of_visible fun b hb => UInt8.lt_of_lt_of_le (by decide) (h b hb).1

/-- **When a numeric header means what it says**: the text the parser takes is not hexadecimal, and if it
is a decimal number then it is the whole value and fits into 64 bits. -/
theorem numericHeader_iff {name : String} (hname : (0x0a : UInt8) ∉ asciiBytes name)
    {h : List UInt8} : NumericHeader h name ↔
      ∀ s, headerField h name = some s → beforeCr s ≠ [] → (beforeCr s).length < 32 →
        ¬ HexText (beforeCr s) ∧
          ((∀ b ∈ beforeCr s, IsDigit b) → beforeCr s = s ∧ decimalValue s < 2 ^ 64) := by
  constructor
  · intro hnum s hs hne hlt
    constructor
    · intro hhex
      obtain ⟨s', hs', hdec, -⟩ := hnum.means _ ((parseHeaderUlong_iff hname).2
        ⟨s, hs, hne, hlt, .inl ⟨hhex, rfl⟩⟩)
      rw [hs] at hs'
      obtain rfl := Option.some.inj hs'
      rw [beforeCr_of_digits hdec.2] at hhex
      exact not_hexText_of_digits hdec.2 hhex
    · intro hdigits
      obtain ⟨s', hs', hdec, hvalue⟩ := hnum.means _ ((parseHeaderUlong_iff hname).2
        ⟨s, hs, hne, hlt, .inr ⟨hdigits, rfl⟩⟩)
      rw [hs] at hs'
      obtain rfl := Option.some.inj hs'
      have hsame := beforeCr_of_digits hdec.2
      rw [hsame] at hvalue
      exact ⟨hsame, by rw [hvalue]; exact Nat.mod_lt _ (by decide)⟩
  · intro hcond
    have hmeans : ∀ v, parseHeaderUlong h name = some v →
        ∃ s, headerField h name = some s ∧ Decimal s ∧ decimalValue s = v ∧ v < 2 ^ 64 := by
      intro v hv
      obtain ⟨s, hs, hne, hlt, hread⟩ := (parseHeaderUlong_iff hname).1 hv
      obtain ⟨hhex, hdec⟩ := hcond s hs hne hlt
      rcases hread with ⟨hbad, -⟩ | ⟨hdigits, rfl⟩
      · exact absurd hbad hhex
      · obtain ⟨hsame, hfits⟩ := hdec hdigits
        rw [hsame] at hdigits hne ⊢
        rw [Nat.mod_eq_of_lt hfits]
        exact ⟨s, hs, ⟨hne, hdigits⟩, rfl, hfits⟩
    refine ⟨fun v hv => ?_, fun s hs hnot => ?_⟩
    · obtain ⟨s, hs, hdec, hvalue, -⟩ := hmeans v hv
      exact ⟨s, hs, hdec, hvalue⟩
    · rw [Option.eq_none_iff_forall_ne_some]
      intro v hv
      obtain ⟨s', hs', hdec, hvalue, hfits⟩ := hmeans v hv
      rw [hs] at hs'
      obtain rfl := Option.some.inj hs'
      exact hnot ⟨hdec, by rw [hvalue]; exact hfits⟩

/-- A length of a million is read as it is written. -/
theorem numericHeader_sample :
    NumericHeader (asciiBytes "POST / HTTP/1.1\r\nContent-Length: 1000000\r\n\r\n") "Content-Length" := by
  have hfield : headerField (asciiBytes "POST / HTTP/1.1\r\nContent-Length: 1000000\r\n\r\n")
      "Content-Length" = some (asciiBytes "1000000") := by decide
  refine (numericHeader_iff (by decide)).2 fun s hs _ _ => ?_
  rw [hfield] at hs
  obtain rfl := Option.some.inj hs
  have hdigits : ∀ b ∈ asciiBytes "1000000", IsDigit b := forall_mem_of_all (by decide)
  rw [beforeCr_of_digits hdigits]
  exact ⟨not_hexText_of_digits hdigits, fun _ => ⟨rfl, by decide⟩⟩

/-- **A hexadecimal length and one that does not fit into 64 bits are accepted**, the second one as
another number. -/
theorem numeric_headers_misread :
    parseHeaderUlong (asciiBytes "POST / HTTP/1.1\r\nContent-Length: 0x10\r\n\r\n") "Content-Length" =
      some 16 ∧
    parseHeaderUlong (asciiBytes "POST / HTTP/1.1\r\nContent-Length: 18446744073709551617\r\n\r\n")
      "Content-Length" = some 1 ∧
    ¬ NumericHeader (asciiBytes "POST / HTTP/1.1\r\nContent-Length: 0x10\r\n\r\n") "Content-Length" ∧
    ¬ NumericHeader (asciiBytes "POST / HTTP/1.1\r\nContent-Length: 18446744073709551617\r\n\r\n")
      "Content-Length" := by
  have hhex : parseHeaderUlong (asciiBytes "POST / HTTP/1.1\r\nContent-Length: 0x10\r\n\r\n")
      "Content-Length" = some 16 := by decide
  have hlong : parseHeaderUlong
      (asciiBytes "POST / HTTP/1.1\r\nContent-Length: 18446744073709551617\r\n\r\n")
      "Content-Length" = some 1 := by decide
  refine ⟨hhex, hlong, fun hnum => ?_, fun hnum => ?_⟩
  · obtain ⟨s, hs, hdec, -⟩ := hnum.means 16 hhex
    have hfield : headerField (asciiBytes "POST / HTTP/1.1\r\nContent-Length: 0x10\r\n\r\n")
        "Content-Length" = some (asciiBytes "0x10") := by decide
    rw [hfield] at hs
    obtain rfl := Option.some.inj hs
    exact absurd (hdec.2 0x78 (by decide)) (by decide)
  · obtain ⟨s, hs, -, hvalue⟩ := hnum.means 1 hlong
    have hfield : headerField
        (asciiBytes "POST / HTTP/1.1\r\nContent-Length: 18446744073709551617\r\n\r\n")
        "Content-Length" = some (asciiBytes "18446744073709551617") := by decide
    rw [hfield] at hs
    obtain rfl := Option.some.inj hs
    exact absurd hvalue (by decide)

end UrsusBoot
