import Mathlib.Algebra.GroupWithZero.Nat
import Mathlib.Data.List.Basic
import Mathlib.Tactic.Common

/-!
# Writes over a buffer

A buffer that is filled by assigning slices, later assignments over earlier ones.
-/

namespace Overlay

variable {β : Type}

/-! ## One assignment -/

/-- `xs[a:b] = ys`. Both ends are clamped to the length, and an end before the start is taken for the
start. -/
def setSlice (xs : List β) (a b : ℕ) (ys : List β) : List β := xs.take a ++ ys ++ xs.drop (max a b)

/-- `xs[a:a + len(ys)] = ys`. -/
def write (xs : List β) (a : ℕ) (ys : List β) : List β := setSlice xs a (a + ys.length) ys

theorem setSlice_of_length {xs ys : List β} {a n : ℕ} (h : ys.length = n) :
    setSlice xs a (a + n) ys = write xs a ys := by
  rw [write, h]

theorem write_nil (xs : List β) (a : ℕ) : write xs a [] = xs := by
  simp [write, setSlice]

theorem write_eq (xs : List β) (a : ℕ) (ys : List β) :
    write xs a ys = xs.take a ++ ys ++ xs.drop (a + ys.length) := by
  rw [write, setSlice, Nat.max_eq_right (Nat.le_add_right a ys.length)]

theorem length_le_write (xs : List β) (a : ℕ) (ys : List β) : xs.length ≤ (write xs a ys).length := by
  simp only [write_eq, List.length_append, List.length_take, List.length_drop]
  omega

/-- A write of `ys` at `a` stays inside a buffer of length `n`. -/
def Fits (n a : ℕ) (ys : List β) : Prop := ys = [] ∨ a + ys.length ≤ n

theorem length_write {xs ys : List β} {a : ℕ} (h : Fits xs.length a ys) :
    (write xs a ys).length = xs.length := by
  rcases h with rfl | h
  · rw [write_nil]
  · simp only [write_eq, List.length_append, List.length_take, List.length_drop]
    omega

theorem take_write {xs : List β} {a n : ℕ} (ys : List β) (hn : n ≤ a) (hlen : n ≤ xs.length) :
    (write xs a ys).take n = xs.take n := by
  have hhead : n ≤ (xs.take a).length := by
    rw [List.length_take]
    omega
  rw [write_eq, List.append_assoc, List.take_append_of_le_length hhead, List.take_take,
    Nat.min_eq_left hn]

theorem getElem?_write {xs ys : List β} {a : ℕ} (h : Fits xs.length a ys) (p : ℕ) :
    (write xs a ys)[p]? = if a ≤ p ∧ p < a + ys.length then ys[p - a]? else xs[p]? := by
  rcases h with rfl | h
  · rw [write_nil, if_neg (by simp only [List.length_nil]; omega)]
  have hhead : (xs.take a).length = a := by
    rw [List.length_take]
    omega
  rw [write_eq, List.append_assoc]
  by_cases hbefore : p < a
  · rw [if_neg (by omega), List.getElem?_append_left (by omega), List.getElem?_take_of_lt hbefore]
  rw [List.getElem?_append_right (by omega), hhead]
  by_cases hin : p < a + ys.length
  · rw [if_pos (by omega), List.getElem?_append_left (by omega)]
  · rw [if_neg (by omega), List.getElem?_append_right (by omega), List.getElem?_drop]
    congr 1
    omega

/-! ## Lists of writes -/

def writeAll (ws : List (ℕ × List β)) (xs : List β) : List β :=
  ws.foldl (fun xs w => write xs w.1 w.2) xs

theorem writeAll_cons (w : ℕ × List β) (ws : List (ℕ × List β)) (xs : List β) :
    writeAll (w :: ws) xs = writeAll ws (write xs w.1 w.2) := rfl

theorem writeAll_append (ws ws' : List (ℕ × List β)) (xs : List β) :
    writeAll (ws ++ ws') xs = writeAll ws' (writeAll ws xs) := List.foldl_append

/-- The element that the last write over a position puts there. -/
def overlay : List (ℕ × List β) → ℕ → Option β
  | [], _ => none
  | w :: ws, p => (overlay ws p).or (if w.1 ≤ p then w.2[p - w.1]? else none)

theorem length_le_writeAll (ws : List (ℕ × List β)) (xs : List β) :
    xs.length ≤ (writeAll ws xs).length := by
  induction ws generalizing xs with
  | nil => exact Nat.le_refl _
  | cons w ws ih => exact Nat.le_trans (length_le_write xs w.1 w.2) (ih _)

variable {ws : List (ℕ × List β)}

theorem length_writeAll {xs : List β} (h : ∀ w ∈ ws, Fits xs.length w.1 w.2) :
    (writeAll ws xs).length = xs.length := by
  induction ws generalizing xs with
  | nil => rfl
  | cons w ws ih =>
    have hw := length_write (h w List.mem_cons_self)
    rw [writeAll_cons, ih, hw]
    rw [hw]
    exact fun w' hw' => h w' (List.mem_cons_of_mem w hw')

theorem take_writeAll {xs : List β} {n : ℕ} (hn : ∀ w ∈ ws, n ≤ w.1) (hlen : n ≤ xs.length) :
    (writeAll ws xs).take n = xs.take n := by
  induction ws generalizing xs with
  | nil => rfl
  | cons w ws ih =>
    rw [writeAll_cons, ih (fun w' hw' => hn w' (List.mem_cons_of_mem w hw'))
      (Nat.le_trans hlen (length_le_write xs w.1 w.2)), take_write w.2 (hn w List.mem_cons_self) hlen]

/-- **After the writes a position holds what the last write over it put there**, and what it held
before if there is none. -/
theorem getElem?_writeAll {xs : List β} (h : ∀ w ∈ ws, Fits xs.length w.1 w.2) (p : ℕ) :
    (writeAll ws xs)[p]? = (overlay ws p).or xs[p]? := by
  induction ws generalizing xs with
  | nil => rfl
  | cons w ws ih =>
    have hw := h w List.mem_cons_self
    have hrest : ∀ w' ∈ ws, Fits (write xs w.1 w.2).length w'.1 w'.2 := by
      rw [length_write hw]
      exact fun w' hw' => h w' (List.mem_cons_of_mem w hw')
    rw [writeAll_cons, ih hrest, overlay, Option.or_assoc, getElem?_write hw]
    congr 1
    by_cases hcover : w.1 ≤ p ∧ p < w.1 + w.2.length
    · have hsome : w.2[p - w.1]? = some w.2[p - w.1] := List.getElem?_eq_getElem (by omega)
      rw [if_pos hcover, if_pos hcover.1, hsome]
      rfl
    · rw [if_neg hcover]
      by_cases hle : w.1 ≤ p
      · have hnone : w.2[p - w.1]? = none := List.getElem?_eq_none (by omega)
        rw [if_pos hle, hnone]
        rfl
      · rw [if_neg hle]
        rfl

/-! ## Slices after the writes -/

theorem getElem?_slice (xs : List β) (a n k : ℕ) :
    ((xs.drop a).take n)[k]? = if k < n then xs[a + k]? else none := by
  rw [List.getElem?_take]
  by_cases hk : k < n
  · rw [if_pos hk, if_pos hk, List.getElem?_drop]
  · rw [if_neg hk, if_neg hk]

def Apart (w w' : ℕ × List β) : Prop :=
  w.1 + w.2.length ≤ w'.1 ∨ w'.1 + w'.2.length ≤ w.1

theorem overlay_eq_none {p : ℕ} (h : ∀ w ∈ ws, p < w.1 ∨ w.1 + w.2.length ≤ p) :
    overlay ws p = none := by
  induction ws with
  | nil => rfl
  | cons w ws ih =>
    have hhead : (if w.1 ≤ p then w.2[p - w.1]? else none) = none := by
      rcases h w List.mem_cons_self with hlt | hge
      · rw [if_neg (by omega)]
      · rw [if_pos (by omega), List.getElem?_eq_none (by omega)]
    rw [overlay, ih fun w' hw' => h w' (List.mem_cons_of_mem w hw'), hhead]
    rfl

theorem overlay_eq_none_iff {p : ℕ} :
    overlay ws p = none ↔ ∀ w ∈ ws, p < w.1 ∨ w.1 + w.2.length ≤ p := by
  refine ⟨fun h => ?_, overlay_eq_none⟩
  induction ws with
  | nil => nofun
  | cons w ws ih =>
    rw [overlay, Option.or_eq_none_iff] at h
    rw [List.forall_mem_cons]
    refine ⟨?_, ih h.1⟩
    by_cases hle : w.1 ≤ p
    · have hnone := h.2
      rw [if_pos hle, List.getElem?_eq_none_iff] at hnone
      omega
    · omega

theorem mem_of_overlay {p : ℕ} {b : β} (h : overlay ws p = some b) :
    ∃ w ∈ ws, w.1 ≤ p ∧ w.2[p - w.1]? = some b := by
  induction ws with
  | nil => cases h
  | cons w ws ih =>
    rw [overlay, Option.or_eq_some_iff] at h
    rcases h with h | ⟨-, h⟩
    · obtain ⟨w', hw', hb⟩ := ih h
      exact ⟨w', List.mem_cons_of_mem w hw', hb⟩
    · by_cases hle : w.1 ≤ p
      · rw [if_pos hle] at h
        exact ⟨w, List.mem_cons_self, hle, h⟩
      · rw [if_neg hle] at h
        cases h

theorem overlay_of_apart (hws : ws.Pairwise Apart) {w : ℕ × List β} (hw : w ∈ ws) {k : ℕ}
    (hk : k < w.2.length) : overlay ws (w.1 + k) = w.2[k]? := by
  induction ws with
  | nil => cases hw
  | cons x ws ih =>
    obtain ⟨hx, hrest⟩ := List.pairwise_cons.1 hws
    obtain rfl | hw := List.mem_cons.1 hw
    · have hnone : overlay ws (w.1 + k) = none := by
        apply overlay_eq_none
        intro w' hw'
        have hap := hx w' hw'
        unfold Apart at hap
        omega
      rw [overlay, hnone, if_pos (by omega), Nat.add_sub_cancel_left]
      rfl
    · have hsome : overlay ws (w.1 + k) = some w.2[k] := by
        rw [ih hrest hw, List.getElem?_eq_getElem hk]
      rw [overlay, hsome, List.getElem?_eq_getElem hk]
      rfl

section Slices

variable {ws : List (ℕ × List β)} {xs : List β}

/-- **Writes that are apart are all read back.** -/
theorem slice_writeAll (hfits : ∀ w ∈ ws, Fits xs.length w.1 w.2) (hws : ws.Pairwise Apart)
    {w : ℕ × List β} (hw : w ∈ ws) : ((writeAll ws xs).drop w.1).take w.2.length = w.2 := by
  apply List.ext_getElem?
  intro k
  rw [getElem?_slice]
  by_cases hk : k < w.2.length
  · rw [if_pos hk, getElem?_writeAll hfits, overlay_of_apart hws hw hk, List.getElem?_eq_getElem hk]
    rfl
  · rw [if_neg hk, List.getElem?_eq_none (by omega)]

theorem slice_writeAll_of_apart {a n : ℕ} (hfits : ∀ w ∈ ws, Fits xs.length w.1 w.2)
    (hws : ∀ w ∈ ws, a + n ≤ w.1 ∨ w.1 + w.2.length ≤ a) :
    ((writeAll ws xs).drop a).take n = (xs.drop a).take n := by
  apply List.ext_getElem?
  intro k
  rw [getElem?_slice, getElem?_slice]
  by_cases hk : k < n
  · have hnone : overlay ws (a + k) = none := by
      apply overlay_eq_none
      intro w hw
      have hap := hws w hw
      omega
    rw [if_pos hk, if_pos hk, getElem?_writeAll hfits, hnone]
    rfl
  · rw [if_neg hk, if_neg hk]

theorem slice_write {a : ℕ} {ys : List β} (h : Fits xs.length a ys) :
    ((write xs a ys).drop a).take ys.length = ys := by
  have hfits : ∀ w ∈ [(a, ys)], Fits xs.length w.1 w.2 := by simpa using h
  exact slice_writeAll hfits (List.pairwise_singleton _ _) (List.mem_singleton_self _)

theorem slice_write_of_apart {a b n : ℕ} {ys : List β} (h : Fits xs.length a ys)
    (hap : b + n ≤ a ∨ a + ys.length ≤ b) :
    ((write xs a ys).drop b).take n = (xs.drop b).take n := by
  have hfits : ∀ w ∈ [(a, ys)], Fits xs.length w.1 w.2 := by simpa using h
  exact slice_writeAll_of_apart hfits (by simpa using hap)

/-- **A write that no later write touches is read back.** -/
theorem slice_writeAll_last {ws₁ ws₂ : List (ℕ × List β)} {w : ℕ × List β}
    (hfits : ∀ w' ∈ ws₁ ++ w :: ws₂, Fits xs.length w'.1 w'.2) (hws : ∀ w' ∈ ws₂, Apart w w') :
    ((writeAll (ws₁ ++ w :: ws₂) xs).drop w.1).take w.2.length = w.2 := by
  have hlen₁ : (writeAll ws₁ xs).length = xs.length :=
    length_writeAll fun w' hw' => hfits w' (List.mem_append_left _ hw')
  have hw : Fits (writeAll ws₁ xs).length w.1 w.2 := by
    rw [hlen₁]
    exact hfits w (by simp)
  rw [writeAll_append, writeAll_cons, slice_writeAll_of_apart, slice_write hw]
  · intro w' hw'
    rw [length_write hw, hlen₁]
    exact hfits w' (by simp [hw'])
  · exact fun w' hw' => hws w' hw'

/-- **Writing a buffer's own bytes over the same places again** changes nothing: where the first
writes have left what the buffer has, so do the second ones. -/
theorem writeAll_again {ws' : List (ℕ × List β)} {ys : List β}
    (hfits : ∀ w ∈ ws, Fits xs.length w.1 w.2)
    (hspans : (ws'.map fun w => (w.1, w.2.length)) = ws.map fun w => (w.1, w.2.length))
    (hown : ∀ w ∈ ws', (ys.drop w.1).take w.2.length = w.2) {p : ℕ}
    (hp : (writeAll ws xs)[p]? = ys[p]?) : (writeAll ws' xs)[p]? = ys[p]? := by
  have hmem : ∀ w ∈ ws', ∃ w₀ ∈ ws, (w₀.1, w₀.2.length) = (w.1, w.2.length) := by
    intro w hw
    rw [← List.mem_map, ← hspans]
    exact List.mem_map_of_mem hw
  have hfits' : ∀ w ∈ ws', Fits xs.length w.1 w.2 := by
    intro w hw
    obtain ⟨w₀, hw₀, heq⟩ := hmem w hw
    obtain ⟨hpos, hlen⟩ := Prod.mk.inj heq
    rcases hfits w₀ hw₀ with hnil | hle
    · rw [hnil] at hlen
      exact .inl (List.eq_nil_of_length_eq_zero hlen.symm)
    · exact .inr (by omega)
  rw [getElem?_writeAll hfits] at hp
  rw [getElem?_writeAll hfits']
  cases hsee : overlay ws' p with
  | none =>
    -- the first writes have left the position alone as well
    have hnone : overlay ws p = none := by
      rw [overlay_eq_none_iff] at hsee ⊢
      intro w hw
      obtain ⟨w', hw', heq⟩ : ∃ w' ∈ ws', (w'.1, w'.2.length) = (w.1, w.2.length) := by
        rw [← List.mem_map, hspans]
        exact List.mem_map_of_mem hw
      obtain ⟨hpos, hlen⟩ := Prod.mk.inj heq
      have hap := hsee w' hw'
      omega
    rw [← hp, hnone]
  | some b =>
    obtain ⟨w, hw, hle, hb⟩ := mem_of_overlay hsee
    obtain ⟨hlt, -⟩ := List.getElem?_eq_some_iff.1 hb
    have hread := congrArg (fun l => l[p - w.1]?) (hown w hw)
    simp only [getElem?_slice, if_pos hlt, hb, Nat.add_sub_cancel' hle] at hread
    rw [hread]
    rfl

end Slices

/-! ## Filling a buffer from its start -/

/-- Writes that follow one another from `pos` on. -/
def consecutive : ℕ → List (List β) → List (ℕ × List β)
  | _, [] => []
  | pos, ys :: yss => (pos, ys) :: consecutive (pos + ys.length) yss

theorem writeAll_consecutive (yss : List (List β)) (xs : List β) (n : ℕ) (c : β) :
    writeAll (consecutive xs.length yss) (xs ++ List.replicate n c) =
      xs ++ yss.flatten ++ List.replicate (n - yss.flatten.length) c := by
  induction yss generalizing xs n with
  | nil => simp [consecutive, writeAll]
  | cons ys yss ih =>
    have hwrite : write (xs ++ List.replicate n c) xs.length ys =
        xs ++ ys ++ List.replicate (n - ys.length) c := by
      rw [write_eq, List.take_left, ← List.drop_drop, List.drop_left, List.drop_replicate]
    rw [consecutive, writeAll_cons, hwrite, ← List.length_append, ih, List.flatten_cons,
      List.length_append, List.append_assoc xs, Nat.sub_sub]

/-- **Parts that fill a buffer make it up.** -/
theorem writeAll_fill (yss : List (List β)) (c : β) :
    writeAll (consecutive 0 yss) (List.replicate yss.flatten.length c) = yss.flatten := by
  have h := writeAll_consecutive yss [] yss.flatten.length c
  rwa [Nat.sub_self, List.replicate_zero, List.append_nil, List.nil_append] at h

end Overlay
