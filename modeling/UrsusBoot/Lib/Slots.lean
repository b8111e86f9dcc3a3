import Mathlib.Algebra.GroupWithZero.Nat
import Mathlib.Data.Fintype.Basic
import Mathlib.Data.Fin.Basic
import Mathlib.Logic.Function.Basic
import Mathlib.Tactic.Common

/-!
# Tables of named slots

A table of `n` slots, each empty or holding a name and a body. Names are looked up by a linear
scan, so a name borne by several slots denotes the lowest of them.
-/

/-- `n` slots, each empty or holding a name and a body. -/
abbrev Slots (n : ℕ) (ν ρ : Type) := Fin n → Option (ν × ρ)

namespace Slots

variable {n : ℕ} {ν ρ : Type}

/-- Slot `i` bears the name `a`. -/
def Named (t : Slots n ν ρ) (i : Fin n) (a : ν) : Prop := ∃ r, t i = some (a, r)

def Distinct (t : Slots n ν ρ) : Prop := ∀ i j a, t.Named i a → t.Named j a → i = j

/-- The name `a` is borne by at most one slot. -/
def UniqueName (t : Slots n ν ρ) (a : ν) : Prop := ∀ i j, t.Named i a → t.Named j a → i = j

variable {t : Slots n ν ρ}

theorem Distinct.uniqueName (h : t.Distinct) (a : ν) : t.UniqueName a :=
  fun i j => h i j a

variable {i : Fin n}

theorem Named.eq {a b : ν} (ha : t.Named i a) (hb : t.Named i b) :
    a = b := by
  obtain ⟨r, hr⟩ := ha
  obtain ⟨s, hs⟩ := hb
  rw [hr] at hs
  exact congrArg Prod.fst (Option.some.inj hs)

variable {a : ν}

theorem named_of_eq {r : ρ} (h : t i = some (a, r)) :
    t.Named i a := ⟨r, h⟩

def names (t : Slots n ν ρ) : List ν := (List.finRange n).filterMap fun i => (t i).map Prod.fst

theorem map_fst_eq_some :
    (t i).map Prod.fst = some a ↔ t.Named i a := by
  unfold Named
  rcases t i with _ | ⟨b, r⟩ <;> simp

theorem nodup_names : t.names.Nodup ↔ t.Distinct := by
  unfold names List.Nodup
  rw [List.pairwise_filterMap]
  simp only [map_fst_eq_some]
  constructor
  · intro h i j a hi hj
    have hlt : ∀ i j : Fin n, i < j → t.Named i a → ¬ t.Named j a := fun i j hij hi hj =>
      List.pairwise_iff_getElem.1 h i j (by simp) (by simp) hij a (by simpa using hi) a
        (by simpa using hj) rfl
    rcases lt_trichotomy i j with hij | hij | hij
    · exact absurd hj (hlt i j hij hi)
    · exact hij
    · exact absurd hi (hlt j i hij hj)
  · intro h
    refine (List.pairwise_lt_finRange n).imp fun {i j} hij a ha b hb hab => ?_
    exact absurd (h i j a ha (hab ▸ hb)) (ne_of_lt hij)

section Find

variable [DecidableEq ν]

instance (t : Slots n ν ρ) : Decidable t.Distinct := decidable_of_iff _ nodup_names

/-- The lowest slot bearing the name `a`. -/
def find? (t : Slots n ν ρ) (a : ν) : Option (Fin n) :=
  (List.finRange n).find? fun i => (t i).any fun v => v.1 == a

/-- The lowest slot bearing the name `a`, with its body. -/
def lookup (t : Slots n ν ρ) (a : ν) : Option (Fin n × ρ) :=
  (t.find? a).bind fun i => (t i).map fun v => (i, v.2)

theorem any_name_iff (t : Slots n ν ρ) (i : Fin n) (a : ν) :
    ((t i).any fun v => v.1 == a) = true ↔ t.Named i a := by
  unfold Named
  rcases t i with _ | ⟨b, r⟩
  · simp
  · simp

instance (t : Slots n ν ρ) (i : Fin n) (a : ν) : Decidable (t.Named i a) :=
  decidable_of_iff _ (any_name_iff t i a)

theorem find?_eq_none : t.find? a = none ↔ ∀ i, ¬ t.Named i a := by
  simp [find?, ← any_name_iff]

theorem named_of_find? (h : t.find? a = some i) :
    t.Named i a := by
  unfold find? at h
  have hp := List.find?_some h
  exact (any_name_iff t i a).1 hp

theorem not_named_of_lt_find? {i j : Fin n} (h : t.find? a = some i) (hj : j < i) :
    ¬ t.Named j a := by
  unfold find? at h
  obtain ⟨_, as, bs, hl, has⟩ := List.find?_eq_some_iff_append.1 h
  have hsorted : (as ++ i :: bs).Pairwise (· < ·) := hl ▸ List.pairwise_lt_finRange n
  have hmem : j ∈ as ++ i :: bs := hl ▸ List.mem_finRange j
  -- the scan is in increasing order, so a slot below the match was visited before it
  have hbefore : j ∈ as := by
    rcases List.mem_append.1 hmem with h' | h'
    · exact h'
    · rcases List.mem_cons.1 h' with rfl | h'
      · exact absurd hj (lt_irrefl _)
      · exact absurd hj (not_lt_of_gt
          (List.rel_of_pairwise_cons (List.pairwise_append.1 hsorted).2.1 h'))
  intro hn
  simpa [(any_name_iff t j a).2 hn] using has j hbefore

theorem find?_eq_some :
    t.find? a = some i ↔ t.Named i a ∧ ∀ j < i, ¬ t.Named j a := by
  refine ⟨fun h => ⟨named_of_find? h, fun j hj => not_named_of_lt_find? h hj⟩, ?_⟩
  rintro ⟨hn, hmin⟩
  cases hf : t.find? a with
  | none => exact absurd hn (find?_eq_none.1 hf i)
  | some j =>
    rcases lt_trichotomy i j with h | rfl | h
    · exact absurd hn (not_named_of_lt_find? hf h)
    · rfl
    · exact absurd (named_of_find? hf) (hmin j h)

theorem UniqueName.find?_eq (h : t.UniqueName a) (hi : t.Named i a) : t.find? a = some i := by
  cases hf : t.find? a with
  | none => exact absurd hi (find?_eq_none.1 hf i)
  | some j => rw [h i j hi (named_of_find? hf)]

theorem lookup_eq_some {r : ρ} :
    t.lookup a = some (i, r) ↔ t.find? a = some i ∧ t i = some (a, r) := by
  unfold lookup
  constructor
  · intro h
    obtain ⟨j, hj, hv⟩ := Option.bind_eq_some_iff.1 h
    obtain ⟨⟨b, s⟩, hb, heq⟩ := Option.map_eq_some_iff.1 hv
    obtain ⟨rfl, rfl⟩ := Prod.mk.inj heq
    exact ⟨hj, by rw [hb, (named_of_eq hb).eq (named_of_find? hj)]⟩
  · rintro ⟨hf, hi⟩
    simp [hf, hi]

theorem lookup_eq_none : t.lookup a = none ↔ ∀ i, ¬ t.Named i a := by
  rw [← find?_eq_none]
  cases hf : t.find? a with
  | none => simp [lookup, hf]
  | some i =>
    obtain ⟨r, hr⟩ := named_of_find? hf
    simp [lookup, hf, hr]

end Find

/-! ## Updates of one slot -/

/-- Fill slot `i`. -/
def put (t : Slots n ν ρ) (i : Fin n) (a : ν) (r : ρ) : Slots n ν ρ :=
  Function.update t i (some (a, r))

/-- Empty slot `i`. -/
def free (t : Slots n ν ρ) (i : Fin n) : Slots n ν ρ := Function.update t i none

/-- Give slot `i` the name `a`, whoever else bears it. -/
def rename (t : Slots n ν ρ) (i : Fin n) (a : ν) : Slots n ν ρ :=
  Function.update t i ((t i).map fun v => (a, v.2))

/-- Replace the body of slot `i`. -/
def setBody (t : Slots n ν ρ) (i : Fin n) (r : ρ) : Slots n ν ρ :=
  Function.update t i ((t i).map fun v => (v.1, r))

/-- Give slot `i` the name `b` and slot `j` the name `a`, whoever else bears them. -/
def switch (t : Slots n ν ρ) (i : Fin n) (b : ν) (j : Fin n) (a : ν) : Slots n ν ρ :=
  (t.rename i b).rename j a

section Updates

variable {t : Slots n ν ρ} {i j k : Fin n} {a b c : ν} {r : ρ}

theorem put_of_ne (h : j ≠ i) : t.put i a r j = t j := Function.update_of_ne h _ _

theorem free_of_ne (h : j ≠ i) : t.free i j = t j := Function.update_of_ne h _ _

theorem rename_of_ne (h : j ≠ i) : t.rename i a j = t j := Function.update_of_ne h _ _

theorem setBody_of_ne (h : j ≠ i) : t.setBody i r j = t j := Function.update_of_ne h _ _

@[simp] theorem put_self : t.put i a r i = some (a, r) := Function.update_self _ _ _

@[simp] theorem free_self : t.free i i = none := Function.update_self _ _ _

@[simp] theorem rename_self : t.rename i a i = (t i).map fun v => (a, v.2) :=
  Function.update_self _ _ _

@[simp] theorem setBody_self : t.setBody i r i = (t i).map fun v => (v.1, r) :=
  Function.update_self _ _ _

theorem named_put : (t.put i a r).Named j b ↔ if j = i then a = b else t.Named j b := by
  split_ifs with h
  · subst h; simp [Named]
  · simp [Named, put_of_ne h]

theorem named_free : (t.free i).Named j b ↔ j ≠ i ∧ t.Named j b := by
  by_cases h : j = i
  · subst h; simp [Named]
  · simp [Named, free_of_ne h, h]

theorem named_rename :
    (t.rename i a).Named j b ↔ if j = i then a = b ∧ (t i).isSome else t.Named j b := by
  split_ifs with h
  · subst h
    cases hj : t j <;> simp [Named, hj]
  · simp [Named, rename_of_ne h]

theorem named_setBody : (t.setBody i r).Named j b ↔ t.Named j b := by
  by_cases h : j = i
  · subst h
    rcases hj : t j with _ | ⟨c, s⟩ <;> simp [Named, hj]
  · simp [Named, setBody_of_ne h]

theorem find?_put_fresh [DecidableEq ν] (h : t.find? a = none) : (t.put i a r).find? a = some i := by
  refine UniqueName.find?_eq (fun j k hj hk => ?_) ⟨r, put_self⟩
  have heq : ∀ k, (t.put i a r).Named k a → k = i := by
    intro k hk
    by_contra hne
    rw [named_put, if_neg hne] at hk
    exact find?_eq_none.1 h k hk
  rw [heq j hj, heq k hk]

theorem find?_setBody [DecidableEq ν] : (t.setBody i r).find? a = t.find? a := by
  cases hf : t.find? a with
  | none => exact find?_eq_none.2 fun j hj => find?_eq_none.1 hf j (named_setBody.1 hj)
  | some k =>
    obtain ⟨hk, hmin⟩ := find?_eq_some.1 hf
    exact find?_eq_some.2 ⟨named_setBody.2 hk, fun j hj hn => hmin j hj (named_setBody.1 hn)⟩

theorem lookup_setBody_self [DecidableEq ν] {s : ρ} (h : t.lookup a = some (i, s)) :
    (t.setBody i r).lookup a = some (i, r) := by
  obtain ⟨hf, hi⟩ := lookup_eq_some.1 h
  apply lookup_eq_some.2
  constructor
  · rw [find?_setBody, hf]
  · rw [setBody_self, hi]
    rfl

theorem switch_left (h : i ≠ j) : t.switch i b j a i = (t i).map fun v => (b, v.2) := by
  rw [switch, rename_of_ne h, rename_self]

theorem switch_right (h : i ≠ j) : t.switch i b j a j = (t j).map fun v => (a, v.2) := by
  rw [switch, rename_self, rename_of_ne h.symm]

theorem switch_of_ne (hi : k ≠ i) (hj : k ≠ j) : t.switch i b j a k = t k := by
  rw [switch, rename_of_ne hj, rename_of_ne hi]

theorem UniqueName.switch_right (h : t.UniqueName a) (hi : t.Named i a) (hab : a ≠ b)
    (hn : (t.switch i b j a).Named k a) : k = j := by
  by_contra hj
  rw [switch, named_rename, if_neg hj, named_rename] at hn
  split_ifs at hn with hki
  · exact hab hn.1.symm
  · exact hki (h k i hn hi)

/-- After a switch, `i` is the one bearer of its new name if no one but `j` bore it. -/
theorem eq_left_of_named_switch (hfresh : ∀ k, k ≠ j → ¬ t.Named k b) (hab : a ≠ b)
    (hn : (t.switch i b j a).Named k b) : k = i := by
  by_contra hi
  rw [switch, named_rename] at hn
  split_ifs at hn with hkj
  · exact hab hn.1
  · rw [named_rename, if_neg hi] at hn
    exact hfresh k hkj hn

/-! ## Distinct names -/

theorem Distinct.put (h : t.Distinct) (hfresh : ∀ k, ¬ t.Named k a) : (t.put i a r).Distinct := by
  intro j k b hj hk
  rw [named_put] at hj hk
  split_ifs at hj hk with h1 h2 h2
  · rw [h1, h2]
  · exact absurd (hj ▸ hk) (hfresh k)
  · exact absurd (hk ▸ hj) (hfresh j)
  · exact h j k b hj hk

theorem Distinct.free (h : t.Distinct) : (t.free i).Distinct :=
  fun j k b hj hk => h j k b (named_free.1 hj).2 (named_free.1 hk).2

theorem Distinct.setBody (h : t.Distinct) : (t.setBody i r).Distinct :=
  fun j k b hj hk => h j k b (named_setBody.1 hj) (named_setBody.1 hk)

theorem Distinct.rename (h : t.Distinct) (hfresh : ∀ k, k ≠ i → ¬ t.Named k a) :
    (t.rename i a).Distinct := by
  intro j k b hj hk
  rw [named_rename] at hj hk
  split_ifs at hj hk with h1 h2 h2
  · rw [h1, h2]
  · exact absurd (hj.1 ▸ hk) (hfresh k h2)
  · exact absurd (hk.1 ▸ hj) (hfresh j h1)
  · exact h j k b hj hk

/-- Moving the name of `i` over to `j` keeps names distinct when the name that `i` receives
instead is free. -/
theorem Distinct.switch (h : t.Distinct) (hi : t.Named i a) (hfresh : ∀ k, ¬ t.Named k b)
    (hab : a ≠ b) : (t.switch i b j a).Distinct := by
  refine (h.rename fun k _ => hfresh k).rename fun k hk hn => ?_
  rw [named_rename] at hn
  split_ifs at hn with hki
  · exact hab hn.1.symm
  · exact hki (h k i a hn hi)

/-- If someone else bears the name that `i` receives, two slots bear it afterwards. -/
theorem switch_clash (hi : t.Named i a) (hj : t.Named j c) (hk : t.Named k b) (hab : a ≠ b)
    (hcb : c ≠ b) (hac : a ≠ c) : ¬ (t.switch i b j a).Distinct := by
  intro h
  have hki : k ≠ i := by
    rintro rfl
    exact hab (hi.eq hk)
  have hkj : k ≠ j := by
    rintro rfl
    exact hcb (hj.eq hk)
  have hij : i ≠ j := by
    rintro rfl
    exact hac (hi.eq hj)
  obtain ⟨r, hr⟩ := hi
  obtain ⟨r', hr'⟩ := hk
  refine hki (h k i b ⟨r', ?_⟩ ⟨r, ?_⟩)
  · rw [switch_of_ne hki hkj, hr']
  · rw [switch_left hij, hr, Option.map_some]

end Updates

/-! ## Tables that agree on a name -/

/-- The bearers of the name `a`, and their bodies, are the same in both tables. -/
def Agree (a : ν) (t t' : Slots n ν ρ) : Prop := ∀ i r, t i = some (a, r) ↔ t' i = some (a, r)

section Agree

variable {t t' t'' : Slots n ν ρ} {i : Fin n} {a b c : ν}

theorem Agree.refl (a : ν) (t : Slots n ν ρ) : Agree a t t := fun _ _ => Iff.rfl

theorem Agree.symm (h : Agree a t t') : Agree a t' t := fun i r => (h i r).symm

theorem Agree.trans (h : Agree a t t') (h' : Agree a t' t'') : Agree a t t'' :=
  fun i r => (h i r).trans (h' i r)

theorem Agree.named (h : Agree a t t') : t.Named i a ↔ t'.Named i a :=
  exists_congr fun r => h i r

theorem Agree.uniqueName (h : Agree a t t') (hu : t.UniqueName a) : t'.UniqueName a :=
  fun i j hi hj => hu i j (h.named.2 hi) (h.named.2 hj)

theorem Agree.find?_eq [DecidableEq ν] (h : Agree a t t') : t.find? a = t'.find? a := by
  cases hf : t'.find? a with
  | none => exact find?_eq_none.2 fun i hi => find?_eq_none.1 hf i (h.named.1 hi)
  | some i =>
    obtain ⟨hi, hmin⟩ := find?_eq_some.1 hf
    exact find?_eq_some.2 ⟨h.named.2 hi, fun j hj hn => hmin j hj (h.named.1 hn)⟩

theorem Agree.lookup_eq_some [DecidableEq ν] {r : ρ} (h : Agree a t t')
    (hl : t.lookup a = some (i, r)) : t'.lookup a = some (i, r) := by
  obtain ⟨hf, hi⟩ := Slots.lookup_eq_some.1 hl
  exact Slots.lookup_eq_some.2 ⟨h.find?_eq ▸ hf, (h i r).1 hi⟩

theorem Agree.lookup_eq [DecidableEq ν] (h : Agree a t t') : t.lookup a = t'.lookup a := by
  cases hl : t.lookup a with
  | none =>
    exact (Slots.lookup_eq_none.2 fun i hi => Slots.lookup_eq_none.1 hl i (h.named.2 hi)).symm
  | some x => exact (h.lookup_eq_some hl).symm

/-- Changing a slot that bears another name, into one that bears another name or none. -/
theorem agree_update {o : Option (ν × ρ)} (hi : ¬ t.Named i a) (ho : ∀ r, o ≠ some (a, r)) :
    Agree a t (Function.update t i o) := by
  intro j r
  by_cases h : j = i
  · subst h
    rw [Function.update_self]
    exact ⟨fun hj => absurd ⟨r, hj⟩ hi, fun hj => absurd hj (ho r)⟩
  · rw [Function.update_of_ne h]

theorem agree_put {r : ρ} (hi : t i = none) (h : b ≠ a) : Agree a t (t.put i b r) :=
  agree_update (by simp [Named, hi]) fun _ heq => h (congrArg Prod.fst (Option.some.inj heq))

theorem agree_free (hi : ¬ t.Named i a) : Agree a t (t.free i) :=
  agree_update hi fun _ h => by cases h

theorem agree_rename (hi : ¬ t.Named i a) (h : b ≠ a) : Agree a t (t.rename i b) := by
  refine agree_update hi fun r heq => ?_
  obtain ⟨v, -, hv⟩ := Option.map_eq_some_iff.1 heq
  exact h (congrArg Prod.fst hv)

theorem agree_switch {j : Fin n} {d : ν} (hi : ¬ t.Named i a) (hj : ¬ t.Named j a) (hb : b ≠ a)
    (hd : d ≠ a) : Agree a t (t.switch i b j d) := by
  have h := agree_rename (b := b) hi hb
  exact h.trans (agree_rename (fun hn => hj (h.named.2 hn)) hd)

theorem agree_setBody {r : ρ} (hi : ¬ t.Named i a) : Agree a t (t.setBody i r) := by
  refine agree_update hi fun s heq => ?_
  obtain ⟨v, hv, heq⟩ := Option.map_eq_some_iff.1 heq
  have hva : v.1 = a := congrArg Prod.fst heq
  exact hi ⟨v.2, by rw [hv, ← hva]⟩

end Agree

end Slots
