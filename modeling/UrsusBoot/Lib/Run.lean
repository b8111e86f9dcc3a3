import Mathlib.Algebra.GroupWithZero.Nat
import Mathlib.Data.List.Induction
import Mathlib.Tactic.Common

/-!
# Runs of a transition function

A component that reacts to one input at a time is a function `step : S → I → S`; a run is the
fold of its inputs.
-/

section Runs

variable {S I : Type} (step : S → I → S)

/-- The state after the inputs `is`. -/
def runFrom (s : S) (is : List I) : S := is.foldl step s

/-- Every input of the run meets `ok` in the state it arrives in. -/
def Along (ok : S → I → Prop) : S → List I → Prop
  | _, [] => True
  | s, i :: is => ok s i ∧ Along ok (step s i) is

@[simp] theorem runFrom_nil (s : S) : runFrom step s [] = s := rfl

@[simp] theorem runFrom_cons (s : S) (i : I) (is : List I) :
    runFrom step s (i :: is) = runFrom step (step s i) is := rfl

theorem runFrom_append (s : S) (is js : List I) :
    runFrom step s (is ++ js) = runFrom step (runFrom step s is) js := List.foldl_append

@[simp] theorem along_nil (ok : S → I → Prop) (s : S) : Along step ok s [] := trivial

@[simp] theorem along_cons (ok : S → I → Prop) (s : S) (i : I) (is : List I) :
    Along step ok s (i :: is) ↔ ok s i ∧ Along step ok (step s i) is := Iff.rfl

theorem along_append (ok : S → I → Prop) (s : S) (is js : List I) :
    Along step ok s (is ++ js) ↔ Along step ok s is ∧ Along step ok (runFrom step s is) js := by
  induction is generalizing s with
  | nil => simp
  | cons i is ih => simp [ih, and_assoc]

variable {step}

variable {s : S}

theorem Along.mono {ok ok' : S → I → Prop} {is : List I} (h : Along step ok s is)
    (hok : ∀ s i, ok s i → ok' s i) : Along step ok' s is := by
  induction is generalizing s with
  | nil => trivial
  | cons i is ih => exact ⟨hok _ _ h.1, ih h.2⟩

theorem Along.and {ok ok' : S → I → Prop} {is : List I} (h : Along step ok s is)
    (h' : Along step ok' s is) : Along step (fun s i => ok s i ∧ ok' s i) s is := by
  induction is generalizing s with
  | nil => trivial
  | cons i is ih => exact ⟨⟨h.1, h'.1⟩, ih h.2 h'.2⟩

/-- **Invariant rule.** A property kept by every step that meets `ok` is kept by every run whose
inputs meet `ok`. -/
theorem invariant_run {ok : S → I → Prop} {J : S → Prop}
    (hstep : ∀ s i, J s → ok s i → J (step s i)) {is : List I} (hs : J s) (hok : Along step ok s is) :
    J (runFrom step s is) := by
  induction is generalizing s with
  | nil => exact hs
  | cons i is ih => exact ih (hstep s i hs hok.1) hok.2

/-- **Invariant rule** for a property that also speaks about the inputs so far. -/
theorem history_run {J : List I → S → Prop} (h₀ : J [] s)
    (hstep : ∀ is i, J is (runFrom step s is) → J (is ++ [i]) (step (runFrom step s is) i))
    (is : List I) : J is (runFrom step s is) := by
  induction is using List.reverseRecOn with
  | nil => exact h₀
  | append_singleton is i ih =>
    rw [runFrom_append]
    exact hstep is i ih

theorem Along.strengthen {ok ok' : S → I → Prop} {J : S → Prop}
    (hstep : ∀ s i, J s → ok s i → J (step s i)) (hok' : ∀ s i, J s → ok s i → ok' s i)
    {is : List I} (hs : J s) (hok : Along step ok s is) : Along step ok' s is := by
  induction is generalizing s with
  | nil => trivial
  | cons i is ih => exact ⟨hok' _ _ hs hok.1, ih (hstep s i hs hok.1) hok.2⟩

variable (step) in
/-- Some run from `s` ends in `Q`. -/
def Reaches (s : S) (Q : S → Prop) : Prop := ∃ is, Q (runFrom step s is)

theorem reaches_refl {Q : S → Prop} (h : Q s) : Reaches step s Q := ⟨[], h⟩

theorem Reaches.cons {Q : S → Prop} (i : I) (h : Reaches step (step s i) Q) :
    Reaches step s Q := by
  obtain ⟨is, his⟩ := h
  exact ⟨i :: is, his⟩

theorem Reaches.trans {M Q : S → Prop} (h : Reaches step s M) (h' : ∀ m, M m → Reaches step m Q) :
    Reaches step s Q := by
  obtain ⟨is, his⟩ := h
  obtain ⟨js, hjs⟩ := h' _ his
  refine ⟨is ++ js, ?_⟩
  rw [runFrom_append]
  exact hjs

end Runs
