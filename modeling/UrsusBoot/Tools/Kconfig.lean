import UrsusBoot.Lib.Merge
import Mathlib.Data.List.DropRight

/-!
# Kconfig fragments

`scripts/apply_kconfig_fragment.py` puts the assignments of a list of fragments into a `.config`
file, and checks that they are there. A file is the list of its characters.
-/

namespace UrsusBoot.Kconfig

open Merge (get)

abbrev Text := List Char

/-! ## Lines -/

def lf : Char := Char.ofNat 0x0a

/-- Where `str.splitlines` ends a line. -/
def isBoundary (c : Char) : Bool :=
  [0x0a, 0x0b, 0x0c, 0x0d, 0x1c, 0x1d, 0x1e, 0x85, 0x2028, 0x2029].contains c.toNat

/-- `str.isspace` of one character. -/
def isSpace (c : Char) : Bool :=
  (0x09 ≤ c.toNat && c.toNat ≤ 0x0d) || (0x1c ≤ c.toNat && c.toNat ≤ 0x20) ||
    (0x2000 ≤ c.toNat && c.toNat ≤ 0x200a) ||
    [0x85, 0xa0, 0x1680, 0x2028, 0x2029, 0x202f, 0x205f, 0x3000].contains c.toNat

/-- The universal newlines of `read_text`: CR, and CR LF, are read as LF. -/
def universalNewlines (afterCr : Bool) : Text → Text
  | [] => []
  | c :: cs =>
    if c.toNat = 0x0d then lf :: universalNewlines true cs
    else if afterCr && c == lf then universalNewlines false cs
    else c :: universalNewlines false cs

/-- `str.splitlines`, `acc` being what has been read of the line. No CR is left for it. -/
def splitlines (acc : Text) : Text → List Text
  | [] => if acc = [] then [] else [acc]
  | c :: cs => if isBoundary c then acc :: splitlines [] cs else splitlines (acc ++ [c]) cs

/-- `read_text(…).splitlines()`. -/
def readLines (file : Text) : List Text := splitlines [] (universalNewlines false file)

/-- `str.strip`. -/
def strip (line : Text) : Text := (line.dropWhile isSpace).rdropWhile isSpace

/-- `"\n".join(lines) + "\n"`. -/
def joined (lines : List Text) : Text := [lf].intercalate lines ++ [lf]

/-! ## Symbols -/

def isWordChar (c : Char) : Bool := c.isAlphanum || c == '_'

def after (start : String) (line : Text) : Option Text :=
  if start.toList.isPrefixOf line then some (line.drop start.length) else none

/-- `CONFIG_[A-Za-z0-9_]+`, and what follows. -/
def configName (line : Text) : Option (Text × Text) := do
  let rest ← after "CONFIG_" line
  if rest.takeWhile isWordChar = [] then none
  else return ("CONFIG_".toList ++ rest.takeWhile isWordChar, rest.dropWhile isWordChar)

/-- `ASSIGN_RE`. -/
def assigned (line : Text) : Option Text := do
  let (name, rest) ← configName line
  if rest.head? = some '=' then return name else none

/-- `UNSET_RE`. -/
def unset (line : Text) : Option Text := do
  let (name, rest) ← configName (← after "# " line)
  if rest = " is not set".toList then return name else none

def symbol (line : Text) : Option Text := (assigned line).or (unset line)

/-- The symbol a line defines, white space at its ends apart. -/
def key (raw : Text) : Option Text := symbol (strip raw)

/-! ## The commands -/

/-- What ends the script: the texts show the path and the line, or for each symbol what was expected
and what was found. -/
inductive Exit
  | unsupported (path : String) (raw : Text)
  | contract (errors : List (Text × Text × Option Text))

structure Fragment where
  path : String
  text : Text

/-- The loop of `read_fragment`. -/
def readFragmentLoop (path : String) (desired : List (Text × Text)) :
    List Text → Except Exit (List (Text × Text))
  | [] => .ok desired
  | raw :: rest =>
    let line := strip raw
    if line = [] ∨ line.head? = some '#' ∧ unset line = none then readFragmentLoop path desired rest
    else
      match symbol line with
      | none => .error (.unsupported path raw)
      | some name => readFragmentLoop path (Merge.insert name line desired) rest

def readFragment (f : Fragment) : Except Exit (List (Text × Text)) :=
  readFragmentLoop f.path [] (readLines f.text)

/-- `desired.update(read_fragment(fragment))` for each fragment. -/
def readFragments (desired : List (Text × Text)) :
    List Fragment → Except Exit (List (Text × Text))
  | [] => .ok desired
  | f :: fs => do readFragments (Merge.update desired (← readFragment f)) fs

def parseConfig (config : Text) : List (Text × Text) :=
  (readLines config).foldl (fun values raw =>
    match key raw with
    | some name => Merge.insert name (strip raw) values
    | none => values) []

def header : Text := "# UrsusBoot merged configuration fragments".toList

def apply (config : Text) (fragments : List Fragment) : Except Exit Text := do
  let desired ← readFragments [] fragments
  return joined (Merge.merge key [] header desired (readLines config))

def check (config : Text) (fragments : List Fragment) : Except Exit Unit := do
  let desired ← readFragments [] fragments
  let errors := desired.filterMap fun e =>
    let got := get e.1 (parseConfig config)
    -- a symbol that is absent counts as one that is not set
    if (unset e.2).isSome ∧ got = none then none
    else if got ≠ some e.2 then some (e.1, e.2, got) else none
  if errors = [] then return () else .error (.contract errors)

/-! ## Reading back what was written -/

theorem universalNewlines_of_noCr {t : Text} (h : ∀ c ∈ t, c.toNat ≠ 0x0d) :
    universalNewlines false t = t := by
  induction t with
  | nil => rfl
  | cons c t ih =>
    rw [List.forall_mem_cons] at h
    rw [universalNewlines, if_neg h.1, Bool.false_and, if_neg Bool.false_ne_true, ih h.2]

/-- A line: no character of it ends a line. -/
def IsLine (l : Text) : Prop := ∀ c ∈ l, isBoundary c = false

theorem splitlines_line {l : Text} (hl : IsLine l) (acc rest : Text) :
    splitlines acc (l ++ lf :: rest) = (acc ++ l) :: splitlines [] rest := by
  induction l generalizing acc with
  | nil => simp [splitlines, show isBoundary lf = true by decide]
  | cons c l ih =>
    rw [IsLine, List.forall_mem_cons] at hl
    rw [List.cons_append, splitlines, hl.1, if_neg Bool.false_ne_true, ih hl.2]
    simp

theorem isLine_of_mem_splitlines {acc t l : Text} (hacc : IsLine acc) (hl : l ∈ splitlines acc t) :
    IsLine l := by
  induction t generalizing acc with
  | nil =>
    rw [splitlines] at hl
    split_ifs at hl with h
    · simp at hl
    · rw [List.mem_singleton.1 hl]
      exact hacc
  | cons c t ih =>
    rw [splitlines] at hl
    split_ifs at hl with hc
    · rcases List.mem_cons.1 hl with rfl | hl
      · exact hacc
      · exact ih (by simp [IsLine]) hl
    · refine ih (fun x hx => ?_) hl
      rcases List.mem_append.1 hx with hx | hx
      · exact hacc x hx
      · rw [List.mem_singleton.1 hx]
        simpa using hc

theorem joined_eq {ls : List Text} (hne : ls ≠ []) : joined ls = ls.flatMap fun l => l ++ [lf] := by
  induction ls with
  | nil => exact absurd rfl hne
  | cons l ls ih =>
    cases ls with
    | nil => simp [joined, List.intercalate]
    | cons l' ls =>
      have h := ih (by simp)
      simp only [joined, List.intercalate, List.intersperse_cons_cons, List.flatten_cons,
        List.append_assoc] at h ⊢
      rw [h]
      simp

/-- **What is written is read back**; a file without lines is written as an empty line. -/
theorem readLines_joined {ls : List Text} (hls : ∀ l ∈ ls, IsLine l) :
    readLines (joined ls) = if ls = [] then [[]] else ls := by
  by_cases hne : ls = []
  · subst hne
    rfl
  · rw [if_neg hne, readLines, joined_eq hne, universalNewlines_of_noCr]
    · clear hne
      induction ls with
      | nil => rfl
      | cons l ls ih =>
        rw [List.forall_mem_cons] at hls
        rw [List.flatMap_cons, List.append_assoc]
        exact (splitlines_line hls.1 [] _).trans (congrArg (List.cons l) (ih hls.2))
    · intro c hc hcr
      obtain ⟨l, hl, hc⟩ := List.mem_flatMap.1 hc
      rcases List.mem_append.1 hc with hc | hc
      · have hno := hls l hl c hc
        rw [isBoundary, hcr] at hno
        cases hno
      · rw [List.mem_singleton.1 hc] at hcr
        cases hcr

/-! ## Dictionaries of lines -/

theorem strip_strip (l : Text) : strip (strip l) = strip l := by
  cases h : strip l with
  | nil => rfl
  | cons c t =>
    obtain ⟨r, hr⟩ : strip l <+: l.dropWhile isSpace := List.rdropWhile_prefix _ _
    have hhead := List.head?_dropWhile_not isSpace l
    rw [← hr, h] at hhead
    have hc : isSpace c = false := by simpa using hhead
    rw [← h, strip, h, List.dropWhile_cons_of_neg (by simp [hc]), ← h, strip, List.rdropWhile_idempotent]

theorem isLine_strip {l : Text} (h : IsLine l) : IsLine (strip l) := fun c hc =>
  h c ((List.dropWhile_suffix _).subset (( List.rdropWhile_prefix _ _).subset hc))

/-- A line that may stand in a dictionary under its symbol. -/
structure Entry (name line : Text) : Prop where
  key : key line = some name
  stripped : strip line = line
  isLine : IsLine line

abbrev Desired (d : List (Text × Text)) : Prop := Merge.Proper Entry d

variable {d d' : List (Text × Text)}

theorem readFragmentLoop_desired {path : String} {lines : List Text}
    (hlines : ∀ l ∈ lines, IsLine l) (hd : Desired d) (h : readFragmentLoop path d lines = .ok d') :
    Desired d' := by
  induction lines generalizing d with
  | nil =>
    obtain rfl := Except.ok.inj h
    exact hd
  | cons raw lines ih =>
    rw [List.forall_mem_cons] at hlines
    rw [readFragmentLoop] at h
    split_ifs at h
    · exact ih hlines.2 hd h
    · split at h
      · cases h
      · next name hname =>
        refine ih hlines.2 (hd.insert ⟨?_, strip_strip raw, isLine_strip hlines.1⟩) h
        rw [key, strip_strip, hname]

theorem isLine_of_mem_readLines (file : Text) : ∀ l ∈ readLines file, IsLine l := fun _ hl =>
  isLine_of_mem_splitlines (by simp [IsLine]) hl

theorem desired_nil : Desired [] := ⟨List.nodup_nil, by simp⟩

theorem readFragment_desired {f : Fragment} {d : List (Text × Text)} (h : readFragment f = .ok d) :
    Desired d :=
  readFragmentLoop_desired (isLine_of_mem_readLines f.text) desired_nil h

/-- The fragment gives the symbol this line. -/
def Mentions (f : Fragment) (name line : Text) : Prop :=
  ∃ d, readFragment f = .ok d ∧ get name d = some line

theorem readFragments_cons {f : Fragment} {fs : List Fragment}
    (h : readFragments d (f :: fs) = .ok d') :
    ∃ e, readFragment f = .ok e ∧ readFragments (Merge.update d e) fs = .ok d' := by
  rw [readFragments] at h
  cases hf : readFragment f with
  | error x => rw [hf] at h; cases h
  | ok e => rw [hf] at h; exact ⟨e, rfl, h⟩

theorem readFragments_ok {fs : List Fragment} (hacc : ∀ f ∈ fs, (readFragment f).isOk = true)
    {d : List (Text × Text)} (hd : Desired d) : ∃ d', readFragments d fs = .ok d' ∧ Desired d' := by
  induction fs generalizing d with
  | nil => exact ⟨d, rfl, hd⟩
  | cons f fs ih =>
    rw [List.forall_mem_cons] at hacc
    cases hf : readFragment f with
    | error x => rw [hf] at hacc; cases hacc.1
    | ok e =>
      obtain ⟨d', h, hd'⟩ := ih hacc.2 (hd.update (readFragment_desired hf).related)
      refine ⟨d', ?_, hd'⟩
      rw [readFragments, hf]
      exact h

theorem mentions_iff {f : Fragment} {d : List (Text × Text)} {name line : Text}
    (h : readFragment f = .ok d) : Mentions f name line ↔ get name d = some line := by
  constructor
  · rintro ⟨d', h', hline⟩
    obtain rfl := Except.ok.inj (h.symm.trans h')
    exact hline
  · exact fun hline => ⟨d, h, hline⟩

theorem readFragments_get {fs : List Fragment} (name : Text) (h : readFragments d fs = .ok d') :
    ∃ o, (o = none ↔ ∀ f ∈ fs, ∀ line, ¬ Mentions f name line) ∧
      get name d' = o.or (get name d) := by
  induction fs generalizing d with
  | nil =>
    obtain rfl := Except.ok.inj h
    exact ⟨none, by simp, rfl⟩
  | cons f fs ih =>
    obtain ⟨e, he, h⟩ := readFragments_cons h
    obtain ⟨o, ho, hget⟩ := ih h
    refine ⟨o.or (get name e), ?_, ?_⟩
    · rw [Option.or_eq_none_iff, List.forall_mem_cons, ho, and_comm]
      simp only [mentions_iff he, ← Option.eq_none_iff_forall_ne_some]
    · rw [hget, Merge.get_update name d (readFragment_desired he).nodup, Option.or_assoc]

/-- **The last fragment** that mentions a symbol decides. -/
theorem readFragments_last {pre post : List Fragment} {f : Fragment} {name line : Text}
    (h : readFragments d (pre ++ f :: post) = .ok d') (hf : Mentions f name line)
    (hno : ∀ g ∈ post, ∀ line, ¬ Mentions g name line) :
    get name d' = some line := by
  induction pre generalizing d with
  | nil =>
    obtain ⟨e, he, h⟩ := readFragments_cons h
    obtain ⟨o, ho, hget⟩ := readFragments_get name h
    rw [hget, ho.2 hno, Merge.get_update name d (readFragment_desired he).nodup, (mentions_iff he).1 hf]
    rfl
  | cons g pre ih =>
    obtain ⟨e, -, h⟩ := readFragments_cons h
    exact ih h

/-! ## Applying fragments -/

theorem get_parseConfig (name : Text) (config : Text) : get name (parseConfig config) =
    ((readLines config).filter fun x => key x = some name).getLast?.map strip := by
  suffices h : ∀ (lines : List Text) (d : List (Text × Text)),
      get name (lines.foldl (fun values raw =>
        match key raw with
        | some name => Merge.insert name (strip raw) values
        | none => values) d) =
        ((lines.filter fun x => key x = some name).getLast?.map strip).or (get name d) by
    exact (h (readLines config) []).trans Option.or_none
  intro lines
  induction lines with
  | nil => exact fun _ => rfl
  | cons raw lines ih =>
    intro d
    rw [List.foldl_cons, ih]
    cases hk : key raw with
    | none => simp [hk]
    | some name' =>
      by_cases hn : name' = name
      · subst hn
        rw [Merge.get_insert, if_pos rfl, List.filter_cons_of_pos (by simpa using hk),
          List.getLast?_cons]
        cases (lines.filter fun x => key x = some name').getLast? <;> rfl
      · rw [Merge.get_insert, if_neg hn, List.filter_cons_of_neg (by simpa [hk] using hn)]

theorem key_nil : key [] = none := rfl

theorem key_header : key header = none := by decide

theorem isLine_header : IsLine header := by
  have hall : (header.all fun c => !isBoundary c) = true := by decide
  intro c hc
  simpa using List.all_eq_true.1 hall c hc

/-- **Merging fragments.** For every file and all fragments that can be read: the check passes
afterwards; every symbol that is mentioned is defined once, by the line of the last fragment that
mentions it; the lines that define no such symbol stay, in their order; and applying the fragments
again changes nothing. -/
theorem fragments_merged (config : Text) (fragments : List Fragment)
    (hacc : ∀ f ∈ fragments, (readFragment f).isOk = true) :
    ∃ out, apply config fragments = .ok out ∧ check out fragments = .ok () ∧
      (∀ pre f post name line, fragments = pre ++ f :: post → Mentions f name line →
        (∀ g ∈ post, ∀ line, ¬ Mentions g name line) →
        (readLines out).filter (fun x => key x = some name) = [line]) ∧
      (∀ p : Text → Bool,
        (∀ x, p x = true ↔ ∀ name, key x = some name → ∀ f ∈ fragments, ∀ line, ¬ Mentions f name line) →
        (readLines config).filter p <+: (readLines out).filter p) ∧
      apply out fragments = .ok out := by
  obtain ⟨d, hread, hd⟩ := readFragments_ok hacc desired_nil
  have hkey := hd.mono fun _ _ h => h.key
  have happly : ∀ file, apply file fragments =
      .ok (joined (Merge.merge key [] header d (readLines file))) := by
    intro file
    rw [apply, hread]
    rfl
  have honce := fun name line (h : get name d = some line) =>
    Merge.merge_filter hkey key_nil key_header h (readLines config)
  have hothers := Merge.merge_others [] header hkey (readLines config)
  have htwice := Merge.merge_merge hkey key_nil key_header (readLines config)
  have hlines : ∀ l ∈ Merge.merge key [] header d (readLines config), IsLine l :=
    Merge.forall_merge (hd.mono fun _ _ h => ⟨h.key, h.isLine⟩) (by simp [IsLine]) isLine_header
      (isLine_of_mem_readLines config)
  generalize hout : Merge.merge key [] header d (readLines config) = out at honce hothers htwice hlines
  have hback := readLines_joined hlines
  -- the empty line that stands for an empty file defines no symbol
  have hfilter : ∀ name, (readLines (joined out)).filter (fun x => key x = some name) =
      out.filter fun x => key x = some name := by
    intro name
    rw [hback]
    split_ifs with hnil
    · rw [hnil]
      rfl
    · rfl
  refine ⟨joined out, by rw [happly, hout], ?_, ?_, ?_, ?_⟩
  · have hgot : ∀ e ∈ d, get e.1 (parseConfig (joined out)) = some e.2 := by
      intro e he
      rw [get_parseConfig, hfilter, honce e.1 e.2 (Merge.get_eq_some_of_mem hd.nodup he)]
      exact congrArg some (hd.related e he).stripped
    rw [check, hread]
    refine if_pos (List.filterMap_eq_nil_iff.2 fun e he => ?_)
    simp [hgot e he]
  · intro pre f post name line hsplit hf hno
    rw [hfilter, honce name line (readFragments_last (hsplit ▸ hread) hf hno)]
  · intro p hp
    have hother : Merge.other key d = p := by
      funext x
      rw [Bool.eq_iff_iff, hp, Merge.other, Merge.wanted]
      cases hx : key x with
      | none => simp
      | some name =>
        obtain ⟨o, ho, hget⟩ := readFragments_get name hread
        have hnone : get name d = none ↔ ∀ f ∈ fragments, ∀ line, ¬ Mentions f name line := by
          rw [← ho, hget, show get name [] = (none : Option Text) from rfl, Option.or_none]
        rw [Option.eq_none_iff_forall_ne_some] at hnone
        simpa using hnone
    rw [← hother, hback]
    split_ifs with hnil
    · rw [hnil, List.filter_nil, List.prefix_nil] at hothers
      rw [hothers]
      exact List.nil_prefix
    · exact hothers
  · rw [happly, hback]
    split_ifs with hnil
    · obtain rfl : d = [] := by
        refine List.eq_nil_iff_forall_not_mem.2 fun e he => ?_
        have hmem := honce e.1 e.2 (Merge.get_eq_some_of_mem hd.nodup he)
        rw [hnil] at hmem
        cases hmem
      rw [hnil]
      rfl
    · rw [htwice]

/-- Two fragments that disagree about a symbol. -/
def sampleFragments : List Fragment :=
  [⟨"base.config", "CONFIG_A=y\n# first\n".toList⟩,
    ⟨"board.config", "CONFIG_B=1\n# CONFIG_A is not set\n".toList⟩]

theorem fragments_merged_sample :
    ∃ out, apply "CONFIG_A=m\n# kept\nCONFIG_A=y\n".toList sampleFragments = .ok out ∧
      check out sampleFragments = .ok () ∧ apply out sampleFragments = .ok out := by
  obtain ⟨out, hout, hcheck, -, -, hagain⟩ :=
    fragments_merged "CONFIG_A=m\n# kept\nCONFIG_A=y\n".toList sampleFragments (by decide)
  exact ⟨out, hout, hcheck, hagain⟩

end UrsusBoot.Kconfig
