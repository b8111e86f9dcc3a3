import Mathlib.Algebra.GroupWithZero.Nat
import Mathlib.Data.List.Basic
import Mathlib.Tactic.Common

/-!
# Byte-addressed memory

A memory is a total function from addresses to cells. `Mem.slice` reads a range as a list,
`Mem.blit` overwrites a range by a list and `Mem.fill` by a constant.
-/

/-- A memory with cells in `β`. -/
abbrev Mem (β : Type) := ℕ → β

namespace Mem

variable {β : Type}

/-- The `n` cells from address `a`. -/
def slice (m : Mem β) (a n : ℕ) : List β := (List.range n).map fun i => m (a + i)

/-- The memory with the list `bs` stored from address `a`. -/
def blit (m : Mem β) (a : ℕ) (bs : List β) : Mem β :=
  fun x => if a ≤ x then (bs[x - a]?).getD (m x) else m x

/-- The memory with `n` cells from address `a` set to `b`. -/
def fill (m : Mem β) (a n : ℕ) (b : β) : Mem β := fun x => if a ≤ x ∧ x < a + n then b else m x

@[simp] theorem length_slice (m : Mem β) (a n : ℕ) : (m.slice a n).length = n := by
  simp [slice]

@[simp] theorem slice_zero (m : Mem β) (a : ℕ) : m.slice a 0 = [] := rfl

theorem getElem?_slice (m : Mem β) (a n i : ℕ) :
    (m.slice a n)[i]? = if i < n then some (m (a + i)) else none := by
  simp only [slice, List.getElem?_map]
  split_ifs with h
  · rw [List.getElem?_range h, Option.map_some]
  · rw [List.getElem?_eq_none (by simpa using h), Option.map_none]

theorem slice_congr {m m' : Mem β} {a n : ℕ} (h : ∀ x, a ≤ x → x < a + n → m x = m' x) :
    m.slice a n = m'.slice a n := by
  refine List.map_congr_left fun i hi => h _ (Nat.le_add_right _ _) ?_
  have := List.mem_range.1 hi
  omega

theorem take_slice (m : Mem β) (a : ℕ) {k n : ℕ} (h : k ≤ n) :
    (m.slice a n).take k = m.slice a k := by
  rw [slice, ← List.map_take, List.take_range, Nat.min_eq_left h, slice]

theorem slice_add (m : Mem β) (a k n : ℕ) :
    m.slice a (k + n) = m.slice a k ++ m.slice (a + k) n := by
  simp [slice, List.range_add, Nat.add_assoc, Function.comp_def]

theorem blit_apply_of_lt (m : Mem β) {a x : ℕ} (bs : List β) (h : x < a) :
    m.blit a bs x = m x := by
  simp [blit, Nat.not_le.2 h]

variable {bs : List β}

theorem blit_apply_of_ge (m : Mem β) {a x : ℕ} (h : a + bs.length ≤ x) :
    m.blit a bs x = m x := by
  have : bs[x - a]? = none := List.getElem?_eq_none (by omega)
  simp [blit, this]

@[simp] theorem blit_nil (m : Mem β) (a : ℕ) : m.blit a [] = m := by
  funext x
  simp [blit]

theorem slice_blit (m : Mem β) (a : ℕ) (bs : List β) : (m.blit a bs).slice a bs.length = bs := by
  refine List.ext_getElem? fun i => ?_
  rw [getElem?_slice]
  split_ifs with h
  · simp [blit, List.getElem?_eq_getElem h]
  · rw [List.getElem?_eq_none (by omega)]

theorem slice_blit_of_length (m : Mem β) (a : ℕ) {n : ℕ} (h : bs.length = n) :
    (m.blit a bs).slice a n = bs := by
  subst h
  exact slice_blit m a bs

theorem slice_blit_of_le (m : Mem β) (a : ℕ) {n : ℕ} (h : bs.length ≤ n) :
    (m.blit a bs).slice a n = bs ++ (m.slice a n).drop bs.length := by
  obtain ⟨k, rfl⟩ := Nat.exists_eq_add_of_le h
  have hrest : (m.blit a bs).slice (a + bs.length) k = m.slice (a + bs.length) k := by
    apply slice_congr
    intro x hx _
    exact blit_apply_of_ge m hx
  have hhead : (m.slice a bs.length).length = bs.length := length_slice m a bs.length
  rw [slice_add, slice_blit, hrest, slice_add, List.drop_left' hhead]

theorem blit_append (m : Mem β) (a : ℕ) (bs cs : List β) :
    m.blit a (bs ++ cs) = (m.blit a bs).blit (a + bs.length) cs := by
  funext x
  simp only [blit, List.getElem?_append]
  split_ifs with hx hin hfar hfar
  · omega
  · rfl
  · rw [Nat.sub_add_eq, List.getElem?_eq_none (Nat.le_of_not_lt hin)]
    rfl
  · omega
  · omega
  · rfl

/-- A second write from the same address leaves what it does not reach of the first. -/
theorem blit_blit (m : Mem β) (a : ℕ) (bs cs : List β) :
    (m.blit a bs).blit a cs = m.blit a (cs ++ bs.drop cs.length) := by
  funext x
  by_cases hx : a ≤ x
  · simp only [blit, if_pos hx]
    by_cases hc : x - a < cs.length
    · rw [List.getElem?_append_left hc, List.getElem?_eq_getElem hc]
      rfl
    · have hback : cs.length + (x - a - cs.length) = x - a := by omega
      rw [List.getElem?_append_right (by omega), List.getElem?_eq_none (by omega),
        List.getElem?_drop, hback]
      rfl
  · simp only [blit, if_neg hx]

theorem slice_blit_take (m : Mem β) (a k : ℕ) (bs : List β) :
    (m.blit a bs).slice a k = (bs ++ m.slice (a + bs.length) k).take k := by
  rcases Nat.le_total bs.length k with h | h
  · obtain ⟨j, rfl⟩ := Nat.exists_eq_add_of_le h
    have hlen : (m.slice a bs.length).length = bs.length := length_slice m a bs.length
    rw [slice_blit_of_le m a h, slice_add, List.drop_left' hlen, List.take_length_add_append,
      take_slice m _ (by omega)]
  · have htake : ((m.blit a bs).slice a bs.length).take k = bs.take k := by rw [slice_blit]
    rw [take_slice _ _ h] at htake
    rw [htake, List.take_append_of_le_length h]

theorem slice_blit_disjoint (m : Mem β) {a n x : ℕ} (h : a + n ≤ x ∨ x + bs.length ≤ a) :
    (m.blit x bs).slice a n = m.slice a n := by
  refine slice_congr fun y hy hyn => ?_
  rcases h with h | h
  · exact blit_apply_of_lt m bs (by omega)
  · exact blit_apply_of_ge m (by omega)

theorem fill_apply_of_lt (m : Mem β) {a x : ℕ} (n : ℕ) (b : β) (h : x < a) :
    m.fill a n b x = m x := by
  simp [fill, Nat.not_le.2 h]

theorem fill_apply_of_ge (m : Mem β) {a n x : ℕ} (b : β) (h : a + n ≤ x) :
    m.fill a n b x = m x := by
  simp [fill, Nat.not_lt.2 h]

/-! ## Checks of a range that was not all written -/

/-- A check of `k` cells comes out the same whatever follows `bs` in them. -/
def Settled (check : List β → Bool) (k : ℕ) (bs : List β) : Prop :=
  ∀ rest rest' : List β, k ≤ bs.length + rest.length → k ≤ bs.length + rest'.length →
    check ((bs ++ rest).take k) = check ((bs ++ rest').take k)

/-- **A check is settled exactly when its outcome does not depend on the memory written to.** -/
theorem settled_iff [Inhabited β] {check : List β → Bool} {k : ℕ} (a : ℕ) :
    Settled check k bs ↔
      ∀ m m' : Mem β, check ((m.blit a bs).slice a k) = check ((m'.blit a bs).slice a k) := by
  constructor
  · intro h m m'
    rw [slice_blit_take, slice_blit_take]
    exact h _ _ (by rw [length_slice]; omega) (by rw [length_slice]; omega)
  · intro h rest rest' hk hk'
    -- a memory that holds `bs` and the rest already
    have hmem : ∀ rest : List β, k ≤ bs.length + rest.length →
        ((Mem.blit (fun _ => default) a (bs ++ rest)).blit a bs).slice a k = (bs ++ rest).take k := by
      intro rest hrest
      have hlen : k ≤ (bs ++ rest).length := by rw [List.length_append]; exact hrest
      rw [blit_blit, List.drop_left, slice_blit_take, List.take_append_of_le_length hlen]
    have heq := h (Mem.blit (fun _ => default) a (bs ++ rest)) (Mem.blit (fun _ => default) a (bs ++ rest'))
    rwa [hmem rest hk, hmem rest' hk'] at heq

end Mem
