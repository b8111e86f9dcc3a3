import UrsusBoot.Engine.Basic

/-!
# Commands when nothing goes wrong

What a command answers and does under the outcome `Outcome.ok`, provided it can do what it is for.
-/

namespace UrsusBoot

open Prog

def Fine (e : FlashEvent) : Prop := e.out = .ok

theorem fine_of_ok {α : Type} {p : FlashProg α} {w : World} :
    ∀ e ∈ (run exec p (fun _ => .ok) w).trace, Fine e := by
  intro e he
  obtain ⟨n, hn⟩ := Prog.exists_out_eq he
  exact hn

theorem spec_fine {α : Type} {Q : α → World → Prop} {c : Cmd} {f : c.Resp → FlashProg α} {w w' : World}
    {r : c.Resp} (h : exec c .ok w = (r, w'))
    (hf : Spec exec Fine (fun _ => True) Q (f r) w') :
    Spec exec Fine (fun _ => True) Q ((perform c).bind f) w := by
  intro o ho
  obtain rfl : o = .ok := ho
  refine ⟨trivial, ?_⟩
  show Spec exec Fine _ Q (f (exec c .ok w).1) (exec c .ok w).2
  rw [h]
  exact hf

section Commands

variable {w : World} {p : UbiPart} {n : String}

theorem ubiPart_fine (p : UbiPart) (hat : w.attached = none)
    (hd : (w.ubi p.area).vols.Distinct) :
    exec (.ubiPart p) .ok w = (0, { w with attached := some p }) := by
  have hok : Outcome.ok.err.isNone = true ∧ (w.ubi p.area).vols.Distinct := ⟨rfl, hd⟩
  simp only [exec, World.ubiPart, hat, if_pos hok]
  rfl

theorem shellUbi_fine {f : UbiImage → Option UbiImage} {u : UbiImage}
    (hp : w.attached = some p) (hf : f (w.ubi p.area) = some u) :
    w.shellUbi .ok f = (0, w.setUbi p.area u) := by
  simp only [World.shellUbi, hp, hf]
  rfl

theorem ubiCreate_fine {size : ℕ} {st : Bool} {id : Option (Fin vtblSlots)} {u : UbiImage}
    (hp : w.attached = some p) (hu : (w.ubi p.area).create w.lebSize n size st id = some u) :
    exec (.ubiCreate n size st id) .ok w = (0, w.setUbi p.area u) :=
  shellUbi_fine (f := fun u => u.create w.lebSize n size st id) hp hu

theorem ubiWrite_fine {i : Fin vtblSlots} {v : Volume} {bs : List UInt8}
    (hp : w.attached = some p) (hv : (w.ubi p.area).vols.lookup n = some (i, v))
    (hfits : bs.length ≤ v.reservedPebs * w.lebSize) :
    w.ubiWrite .ok n bs =
      (0, w.setUbi p.area ((w.ubi p.area).setVolume i (v.written w.lebSize bs))) := by
  simp only [World.ubiWrite, hp, hv, Nat.not_lt.2 hfits, if_false]
  rfl

theorem le_ceil_mul {leb : ℕ} (hleb : 0 < leb) (size : ℕ) : size ≤ (size + leb - 1) / leb * leb := by
  have hceil := Nat.div_add_mod (size + leb - 1) leb
  have hmod := Nat.mod_lt (size + leb - 1) hleb
  rw [Nat.mul_comm]
  omega

theorem take_written (v : Volume) (leb : ℕ) (bs : List UInt8) :
    (v.written leb bs).data.take bs.length = bs := by
  unfold Volume.written
  split_ifs <;> simp

theorem le_length_written (v : Volume) (leb : ℕ) (bs : List UInt8) :
    bs.length ≤ (v.written leb bs).data.length := by
  unfold Volume.written
  split_ifs <;> simp

theorem ubiRead_fine (addr : ℕ) {size : ℕ} {i : Fin vtblSlots} {v : Volume} (hp : w.attached = some p)
    (hv : (w.ubi p.area).vols.lookup n = some (i, v)) (hm : v.updMarker = false) (hsize : size ≠ 0)
    (hlen : size ≤ v.data.length) :
    exec (.ubiRead addr n size) .ok w = (0, { w with ram := w.ram.blit addr (v.data.take size) }) := by
  have hdev : (w.device.bind fun u => u.vols.lookup n) = some (i, v) := by
    simp [World.device, hp, hv]
  have hne : v.data ≠ [] := by
    rintro hnil
    rw [hnil, List.length_nil] at hlen
    omega
  simp only [exec, World.ubiRead, hdev, hm, hne, hsize, Bool.false_eq_true, if_false,
    Nat.min_eq_left hlen]
  rfl

theorem memEqual_same {A : FlashEvent → Prop} {a b len : ℕ}
    (h : w.ram.slice a len = w.ram.slice b len) :
    Spec exec A (fun _ => True) (fun ret w' => ret = 0 ∧ w' = w) (memEqual a b len) w :=
  fun _ _ => ⟨trivial, fun _ _ => ⟨trivial, if_pos h, rfl⟩⟩

end Commands

end UrsusBoot
