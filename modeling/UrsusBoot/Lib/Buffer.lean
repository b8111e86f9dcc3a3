import Mathlib.Algebra.GroupWithZero.Nat
import Mathlib.Data.List.Basic
import Mathlib.Data.List.TakeWhile
import Mathlib.Tactic.Common

/-!
# Reads of a buffer

A function that follows pointers into a buffer, with every read made explicit: it answers `none` if
it reads outside the buffer, or if a loop does not end within its bound. So `some` says both that it
ends and that it stays inside.
-/

namespace Buffer

variable {β : Type}

/-- The `n` elements at `a`, when they all lie in the buffer. -/
def readAt (buf : List β) (a n : ℕ) : Option (List β) :=
  if a + n ≤ buf.length then some ((buf.drop a).take n) else none

variable {buf : List β}

theorem readAt_of_le {a n : ℕ} (h : a + n ≤ buf.length) :
    readAt buf a n = some ((buf.drop a).take n) := if_pos h

/-- What lies between the pointers `p` and `e`. -/
def window (buf : List β) (p e : ℕ) : List β := (buf.drop p).take (e - p)

theorem window_of_le {p e : ℕ} (h : e ≤ p) : window buf p e = [] := by
  simp [window, Nat.sub_eq_zero_of_le h]

theorem window_cons {p e : ℕ} (hp : p < e) (h : p < buf.length) :
    window buf p e = buf[p] :: window buf (p + 1) e := by
  have hsub : e - p = e - (p + 1) + 1 := by omega
  unfold window
  rw [List.drop_eq_getElem_cons h, hsub, List.take_succ_cons]

theorem length_window {p e : ℕ} (he : e ≤ buf.length) :
    (window buf p e).length = e - p := by
  simp only [window, List.length_take, List.length_drop]
  omega

theorem drop_window (buf : List β) (p e n : ℕ) :
    (window buf p e).drop n = window buf (p + n) e := by
  rw [window, window, List.drop_take, List.drop_drop, Nat.sub_sub]

theorem take_window {p e n : ℕ} (h : p + n ≤ e) :
    (window buf p e).take n = (buf.drop p).take n := by
  rw [window, List.take_take, Nat.min_eq_left (by omega)]

/-- While `p < e` and the element at `p` meets `f`, the pointer moves on; `k` bounds the number of
steps. -/
def skipLoop (buf : List β) (e : ℕ) (f : β → Bool) : ℕ → ℕ → Option ℕ
  | 0, p => if p < e then none else some p
  | k + 1, p =>
    if p < e then do
      let b ← buf[p]?
      if f b then skipLoop buf e f k (p + 1) else return p
    else return p

def skipWhile (buf : List β) (e : ℕ) (f : β → Bool) (p : ℕ) : Option ℕ :=
  skipLoop buf e f (e - p) p

theorem skipLoop_spec {e : ℕ} (f : β → Bool) (he : e ≤ buf.length) {k p : ℕ} (hp : p ≤ e)
    (hk : e ≤ p + k) :
    ∃ q, skipLoop buf e f k p = some q ∧ p ≤ q ∧ q ≤ e ∧
      (window buf p e).takeWhile f = window buf p q ∧
      (window buf p e).dropWhile f = window buf q e := by
  -- on the bound, which is at least what is left before the end
  induction k generalizing p with
  | zero =>
    have hend : p = e := by omega
    subst hend
    refine ⟨p, by simp [skipLoop], Nat.le_refl _, hp, ?_, ?_⟩ <;> simp [window_of_le]
  | succ k ih =>
    by_cases hlt : p < e
    · have hin : p < buf.length := by omega
      have hcons := window_cons hlt hin
      by_cases hf : f buf[p] = true
      · obtain ⟨q, hq, hle, hqe, htake, hdrop⟩ := ih (by omega : p + 1 ≤ e) (by omega)
        refine ⟨q, ?_, by omega, hqe, ?_, ?_⟩
        · simp [skipLoop, hlt, hin, hf, hq]
        · rw [hcons, List.takeWhile_cons_of_pos hf, htake, window_cons (by omega) hin]
        · rw [hcons, List.dropWhile_cons_of_pos hf, hdrop]
      · refine ⟨p, by simp [skipLoop, hlt, hin, hf], Nat.le_refl _, hp, ?_, ?_⟩
        · rw [hcons, List.takeWhile_cons_of_neg hf, window_of_le (Nat.le_refl p)]
        · rw [hcons, List.dropWhile_cons_of_neg hf]
    · have hend : p = e := by omega
      subst hend
      refine ⟨p, by simp [skipLoop], Nat.le_refl _, hp, ?_, ?_⟩ <;> simp [window_of_le]

theorem skipWhile_spec {e : ℕ} (f : β → Bool) (he : e ≤ buf.length) {p : ℕ} (hp : p ≤ e) :
    ∃ q, skipWhile buf e f p = some q ∧ p ≤ q ∧ q ≤ e ∧
      (window buf p e).takeWhile f = window buf p q ∧
      (window buf p e).dropWhile f = window buf q e :=
  skipLoop_spec f he hp (by omega)

section Strings

variable [DecidableEq β] {z : β}

variable (z) in
/-- The elements from `p` up to the next terminator `z`. -/
def stringAt (buf : List β) (p : ℕ) : Option (List β) := do
  let q ← skipWhile buf buf.length (· ≠ z) p
  if buf.length ≤ q then none else return window buf p q

theorem skip_to {p : ℕ} (hp : p ≤ buf.length) :
    ∃ q, skipWhile buf buf.length (· ≠ z) p = some q ∧ p ≤ q ∧ z ∉ window buf p q ∧
      (q = buf.length ∧ buf.drop p = window buf p q ∨
        q < buf.length ∧ buf.drop p = window buf p q ++ z :: buf.drop (q + 1)) := by
  obtain ⟨q, hq, hpq, hqe, htake, hdrop⟩ := skipWhile_spec (fun b => decide (b ≠ z)) le_rfl hp
  have hwin : ∀ a, window buf a buf.length = buf.drop a := fun a => by
    rw [window, List.take_of_length_le (by simp)]
  rw [hwin] at htake hdrop
  have hsplit := List.takeWhile_append_dropWhile (p := fun b => decide (b ≠ z)) (l := buf.drop p)
  rw [htake, hdrop, hwin] at hsplit
  refine ⟨q, hq, hpq, ?_, ?_⟩
  · rw [← htake]
    intro hz
    simpa using List.mem_takeWhile_imp hz
  rcases hqe.eq_or_lt with rfl | hlt
  · exact .inl ⟨rfl, by simpa using hsplit.symm⟩
  · have hhead := List.head?_dropWhile_not (fun b => decide (b ≠ z)) (buf.drop p)
    rw [hdrop, hwin, List.drop_eq_getElem_cons hlt] at hhead
    have hz : buf[q] = z := by simpa [List.getElem?_eq_getElem hlt] using hhead
    rw [List.drop_eq_getElem_cons hlt, hz] at hsplit
    exact .inr ⟨hlt, hsplit.symm⟩

theorem takeWhile_terminated {v rest : List β} (hv : z ∉ v) :
    (v ++ z :: rest).takeWhile (fun b => decide (b ≠ z)) = v := by
  have hall : ∀ b ∈ v, decide (b ≠ z) = true := fun b hb => decide_eq_true fun h => hv (h ▸ hb)
  rw [List.takeWhile_append_of_pos hall, List.takeWhile_cons_of_neg (by simp), List.append_nil]

theorem stringAt_of_drop {buf v rest : List β} {p : ℕ} (h : buf.drop p = v ++ z :: rest)
    (hv : z ∉ v) : stringAt z buf p = some v := by
  have hp : p ≤ buf.length := by
    by_contra hlt
    rw [List.drop_eq_nil_of_le (by omega)] at h
    simp at h
  obtain ⟨q, hq, -, hno, ⟨-, hcut⟩ | ⟨hlt, hsplit⟩⟩ := skip_to (z := z) hp
  · rw [hcut] at h
    exact absurd (h ▸ List.mem_append_right v List.mem_cons_self) hno
  · have heq : window buf p q = v := by
      rw [← takeWhile_terminated hv, ← h, hsplit, takeWhile_terminated hno]
    rw [stringAt, hq]
    show (if buf.length ≤ q then none else some (window buf p q)) = some v
    rw [if_neg (Nat.not_le.2 hlt), heq]

end Strings

end Buffer
