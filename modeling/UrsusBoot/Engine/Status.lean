import UrsusBoot.Engine.FipUpdate
import UrsusBoot.Engine.Migration
import UrsusBoot.Engine.UbiUpdate

/-!
# Two conventions for errors

A failing call of the UBI or MTD layer answers with a negative code, a failing shell command with 1.
-/

namespace UrsusBoot

open Prog

def ErrNeg {α : Type} (r : Except ℤ α) : Prop := ∀ e, r = .error e → e < 0

@[simp] theorem errNeg_ok {α : Type} (a : α) : ErrNeg (.ok a : Except ℤ α) := by
  intro e h; cases h

@[simp] theorem errNeg_error {α : Type} {e : ℤ} : ErrNeg (.error e : Except ℤ α) ↔ e < 0 :=
  ⟨fun h => h e rfl, fun h e' he => by cases he; exact h⟩

variable {A : FlashEvent → Prop}

/-! ## Calls -/

theorem yields_updateRegisterUbiPart : Yields exec A ErrNeg updateRegisterUbiPart := by
  refine yields_perform fun o w _ => ?_
  simp only [exec, World.updateRegisterUbiPart]
  split
  · simp
  · simpa using Errno.neg _
  · simp
  · split_ifs <;> simp

/-! ## Raw NAND -/

theorem yields_readExact (off len : ℕ) : Yields exec A (fun r => r.1 ≤ 0) (readExact off len) := by
  refine yields_then fun r => yields_ret ?_
  dsimp only
  split_ifs <;> decide

/-! ## Validation -/

theorem yields_unpackNt (P : Platform) (nt : List UInt8) :
    Yields exec A ErrNeg (unpackNt P nt) := by
  refine yields_exit (by simp) fun _ => ?_
  refine yields_then fun ok => yields_exit (by simp) fun _ => ?_
  split
  · exact yields_ret (by simp)
  · refine yields_ret ?_
    split_ifs <;> simp

theorem yields_fipBl33Unpack (P : Platform) (buf : List UInt8) :
    Yields exec A ErrNeg (fipBl33Unpack P buf) := by
  refine yields_exit (by simp) fun _ => ?_
  cases h : fipParse buf with
  | error e => exact yields_ret (by simpa using fipParse_error h)
  | ok toc =>
    refine yields_exit (by simp) fun _ => ?_
    exact yields_exit (by simp) fun _ => yields_unpackNt P _

theorem yields_detectUbiLayout : Yields exec A ErrNeg FipUpdate.detectUbiLayout := by
  refine yields_then fun g => ?_
  cases g with
  | none => exact yields_ret (by simp)
  | some g =>
    refine yields_exit (by simp) fun _ => ?_
    refine yields_bind (yields_readExact _ _) fun r hr => yields_ret ?_
    split_ifs with h
    · simpa using lt_of_le_of_ne hr h
    · simp

end UrsusBoot
