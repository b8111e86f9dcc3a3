import Mathlib.Algebra.GroupWithZero.Nat
import Mathlib.Data.List.Basic
import Mathlib.Tactic.Common

/-!
# Merging keyed lines

A text some of whose lines define a key, and a dictionary of the lines that certain keys shall have.
Merging puts the wanted line where the key is first defined, drops later definitions of it, and
appends what has not found a place.
-/

namespace Merge

variable {κ β : Type} [DecidableEq κ]

/-! ## Dictionaries -/

/-- `d[k] = v`: in its place, or behind the others. -/
def insert (k : κ) (v : β) : List (κ × β) → List (κ × β)
  | [] => [(k, v)]
  | e :: d => if e.1 = k then (k, v) :: d else e :: insert k v d

def update (d e : List (κ × β)) : List (κ × β) := e.foldl (fun d x => insert x.1 x.2 d) d

def get (k : κ) : List (κ × β) → Option β
  | [] => none
  | e :: d => if e.1 = k then some e.2 else get k d

theorem get_insert (k k' : κ) (v : β) (d : List (κ × β)) :
    get k' (insert k v d) = if k = k' then some v else get k' d := by
  induction d with
  | nil => rfl
  | cons e d ih =>
    by_cases he : e.1 = k
    · by_cases hk : k = k' <;> simp [insert, get, he, hk]
    · by_cases hk : e.1 = k'
      · have hne : k ≠ k' := fun h => he (hk.trans h.symm)
        rw [insert, if_neg he, get, get, if_pos hk, if_pos hk, if_neg hne]
      · simp [insert, get, he, hk, ih]

theorem get_eq_none_iff {k : κ} {d : List (κ × β)} : get k d = none ↔ k ∉ d.map Prod.fst := by
  induction d with
  | nil => simp [get]
  | cons e d ih =>
    by_cases he : e.1 = k
    · simp [get, he]
    · simp [get, he, ih, Ne.symm he]

theorem get_eq_some_of_mem {e : κ × β} {d : List (κ × β)} (hd : (d.map Prod.fst).Nodup)
    (he : e ∈ d) : get e.1 d = some e.2 := by
  induction d with
  | nil => simp at he
  | cons x d ih =>
    rw [List.map_cons, List.nodup_cons] at hd
    rcases List.mem_cons.1 he with rfl | he
    · simp [get]
    · have hne : x.1 ≠ e.1 := fun h => hd.1 (h ▸ List.mem_map_of_mem he)
      rw [get, if_neg hne, ih hd.2 he]

/-- Every key stands once, and in the relation `R` to its value. -/
structure Proper (R : κ → β → Prop) (d : List (κ × β)) : Prop where
  nodup : (d.map Prod.fst).Nodup
  related : ∀ e ∈ d, R e.1 e.2

section Proper

variable {R : κ → β → Prop} {d : List (κ × β)}

omit [DecidableEq κ] in
theorem Proper.mono {R' : κ → β → Prop} (h : Proper R d) (hR : ∀ k v, R k v → R' k v) :
    Proper R' d :=
  ⟨h.nodup, fun e he => hR _ _ (h.related e he)⟩

theorem Proper.get (h : Proper R d) {k : κ} {v : β} (hv : get k d = some v) : R k v := by
  obtain ⟨-, hd⟩ := h
  induction d with
  | nil => simp [Merge.get] at hv
  | cons e d ih =>
    rw [List.forall_mem_cons] at hd
    rw [Merge.get] at hv
    split_ifs at hv with he
    · rw [← Option.some.inj hv, ← he]
      exact hd.1
    · exact ih hv hd.2

theorem Proper.insert (h : Proper R d) {k : κ} {v : β} (hv : R k v) : Proper R (insert k v d) := by
  obtain ⟨hn, hd⟩ := h
  induction d with
  | nil => exact ⟨by simp [Merge.insert], by simp [Merge.insert, hv]⟩
  | cons e d ih =>
    rw [List.forall_mem_cons] at hd
    rw [List.map_cons, List.nodup_cons] at hn
    by_cases he : e.1 = k
    · rw [Merge.insert, if_pos he]
      exact ⟨by simpa [← he] using hn, List.forall_mem_cons.2 ⟨hv, hd.2⟩⟩
    · obtain ⟨hn', hd'⟩ := ih hn.2 hd.2
      rw [Merge.insert, if_neg he]
      refine ⟨List.nodup_cons.2 ⟨?_, hn'⟩, List.forall_mem_cons.2 ⟨hd.1, hd'⟩⟩
      rw [← get_eq_none_iff, get_insert, if_neg (Ne.symm he), get_eq_none_iff]
      exact hn.1

theorem Proper.update {e : List (κ × β)} (h : Proper R d) (he : ∀ x ∈ e, R x.1 x.2) :
    Proper R (update d e) := by
  induction e generalizing d with
  | nil => exact h
  | cons x e ih =>
    rw [List.forall_mem_cons] at he
    exact ih (h.insert he.1) he.2

end Proper

theorem get_update (k : κ) (d : List (κ × β)) {e : List (κ × β)} (he : (e.map Prod.fst).Nodup) :
    get k (update d e) = (get k e).or (get k d) := by
  induction e generalizing d with
  | nil => rfl
  | cons x e ih =>
    rw [List.map_cons, List.nodup_cons] at he
    show get k (update (insert x.1 x.2 d) e) = _
    rw [ih _ he.2, get_insert, get]
    by_cases hx : x.1 = k
    · rw [if_pos hx, if_pos hx, get_eq_none_iff.2 (hx ▸ he.1)]
      rfl
    · rw [if_neg hx, if_neg hx]

/-! ## Merging -/

section Keyed

variable (key : β → Option κ)

/-- The key a line defines and the line it shall have. -/
def wanted (d : List (κ × β)) (x : β) : Option (κ × β) := do
  let k ← key x
  let v ← get k d
  return (k, v)

/-- The lines that are kept or replaced, and the keys that have found their place. -/
def place (d : List (κ × β)) (placed : List κ) : List β → List β × List κ
  | [] => ([], placed)
  | x :: xs =>
    match wanted key d x with
    | some (k, v) =>
      if k ∈ placed then place d placed xs
      else (v :: (place d (k :: placed) xs).1, (place d (k :: placed) xs).2)
    | none => (x :: (place d placed xs).1, (place d placed xs).2)

/-- The whole text; what has found no place follows under a `header`, after a `blank` line. -/
def merge [DecidableEq β] (blank header : β) (d : List (κ × β)) (xs : List β) : List β :=
  let out := (place key d [] xs).1
  let rest := d.filter fun e => e.1 ∉ (place key d [] xs).2
  if rest = [] then out
  else out ++ (if out ≠ [] ∧ out.getLast? ≠ some blank then [blank] else []) ++
    header :: rest.map Prod.snd

variable {key} {d : List (κ × β)}

theorem wanted_eq_some {x : β} {k : κ} {v : β} :
    wanted key d x = some (k, v) ↔ key x = some k ∧ get k d = some v := by
  simp only [wanted, Option.bind_eq_bind, Option.bind_eq_some_iff, Option.pure_def,
    Option.some.injEq, Prod.mk.injEq]
  constructor
  · rintro ⟨k', hk, v', hv, rfl, rfl⟩
    exact ⟨hk, hv⟩
  · rintro ⟨hk, hv⟩
    exact ⟨k, hk, v, hv, rfl, rfl⟩

section Place

variable {placed : List κ} {xs : List β} {x : β} {k : κ} {v : β}

theorem place_other (hw : wanted key d x = none) :
    place key d placed (x :: xs) = (x :: (place key d placed xs).1, (place key d placed xs).2) := by
  rw [place, hw]

theorem place_again (hw : wanted key d x = some (k, v)) (hk : k ∈ placed) :
    place key d placed (x :: xs) = place key d placed xs := by
  simp only [place, hw, if_pos hk]

theorem place_first (hw : wanted key d x = some (k, v)) (hk : k ∉ placed) :
    place key d placed (x :: xs) =
      (v :: (place key d (k :: placed) xs).1, (place key d (k :: placed) xs).2) := by
  simp only [place, hw, if_neg hk]

theorem subset_placed (xs : List β) (hk : k ∈ placed) : k ∈ (place key d placed xs).2 := by
  induction xs generalizing placed with
  | nil => exact hk
  | cons x xs ih =>
    cases hw : wanted key d x with
    | none => rw [place_other hw]; exact ih hk
    | some e =>
      by_cases he : e.1 ∈ placed
      · rw [place_again hw he]; exact ih hk
      · rw [place_first hw he]; exact ih (List.mem_cons_of_mem _ hk)

theorem mem_placed (hx : x ∈ xs) (hw : wanted key d x = some (k, v)) :
    k ∈ (place key d placed xs).2 := by
  induction xs generalizing placed with
  | nil => simp at hx
  | cons y xs ih =>
    rcases List.mem_cons.1 hx with rfl | hx
    · by_cases hk : k ∈ placed
      · exact subset_placed _ hk
      · rw [place_first hw hk]; exact subset_placed xs List.mem_cons_self
    · cases hy : wanted key d y with
      | none => rw [place_other hy]; exact ih hx
      | some e =>
        by_cases he : e.1 ∈ placed
        · rw [place_again hy he]; exact ih hx
        · rw [place_first hy he]; exact ih hx

/-- **A wanted key** is placed once, or not at all. -/
theorem place_filter (hd : Proper (fun k v => key v = some k) d) (hv : get k d = some v) (placed : List κ) (xs : List β) :
    (place key d placed xs).1.filter (fun x => key x = some k) =
      if k ∈ placed then [] else if k ∈ (place key d placed xs).2 then [v] else [] := by
  induction xs generalizing placed with
  | nil => by_cases hk : k ∈ placed <;> simp [place, hk]
  | cons x xs ih =>
    cases hw : wanted key d x with
    | none =>
      have hne : key x ≠ some k := fun hk => by
        rw [wanted_eq_some.2 ⟨hk, hv⟩] at hw
        cases hw
      rw [place_other hw, List.filter_cons_of_neg (by simpa using hne), ih]
    | some e =>
      obtain ⟨k', v'⟩ := e
      have hv' := (wanted_eq_some.1 hw).2
      have hkey := hd.get hv'
      by_cases hk' : k' ∈ placed
      · rw [place_again hw hk', ih]
      · rw [place_first hw hk']
        by_cases hkk : k' = k
        · subst hkk
          obtain rfl : v' = v := Option.some.inj (hv'.symm.trans hv)
          rw [List.filter_cons_of_pos (by simpa using hkey), ih, if_pos List.mem_cons_self, if_neg hk',
            if_pos (subset_placed xs List.mem_cons_self)]
        · rw [List.filter_cons_of_neg (by simpa [hkey] using hkk), ih]
          simp [Ne.symm hkk]

variable (key d) in
/-- The line defines no wanted key. -/
def other (x : β) : Bool := (wanted key d x).isNone

theorem place_others (hd : Proper (fun k v => key v = some k) d) (placed : List κ) (xs : List β) :
    (place key d placed xs).1.filter (other key d) = xs.filter (other key d) := by
  induction xs generalizing placed with
  | nil => rfl
  | cons x xs ih =>
    cases hw : wanted key d x with
    | none =>
      have hx : other key d x = true := by simp [other, hw]
      rw [place_other hw, List.filter_cons_of_pos hx, List.filter_cons_of_pos hx, ih]
    | some e =>
      have hv := (wanted_eq_some.1 hw).2
      have hw' := wanted_eq_some.2 ⟨hd.get hv, hv⟩
      rw [List.filter_cons_of_neg (by simp [other, hw])]
      by_cases he : e.1 ∈ placed
      · rw [place_again hw he, ih]
      · rw [place_first hw he, List.filter_cons_of_neg (by simp [other, hw']), ih]

/-- A text that has each wanted key at most once, and with its line, is left as it is. -/
theorem place_eq_self (h : ∀ k v, get k d = some v → xs.filter (fun x => key x = some k) = [] ∨
      k ∉ placed ∧ xs.filter (fun x => key x = some k) = [v]) :
    (place key d placed xs).1 = xs := by
  induction xs generalizing placed with
  | nil => rfl
  | cons x xs ih =>
    cases hw : wanted key d x with
    | none =>
      rw [place_other hw]
      refine congrArg (List.cons x) (ih fun k v hv => ?_)
      have hne : key x ≠ some k := fun hk => by
        rw [wanted_eq_some.2 ⟨hk, hv⟩] at hw
        cases hw
      have hk := h k v hv
      rwa [List.filter_cons_of_neg (by simpa using hne)] at hk
    | some e =>
      obtain ⟨k, v⟩ := e
      obtain ⟨hk, hv⟩ := wanted_eq_some.1 hw
      have hx := h k v hv
      rw [List.filter_cons_of_pos (by simpa using hk)] at hx
      obtain ⟨hnew, hx⟩ := hx.resolve_left (by simp)
      obtain ⟨rfl, hnil⟩ := List.cons.inj hx
      rw [place_first hw hnew]
      refine congrArg (List.cons x) (ih fun k' v' hv' => ?_)
      by_cases hkk : k' = k
      · exact .inl (hkk ▸ hnil)
      · have h' := h k' v' hv'
        rw [List.filter_cons_of_neg (by simpa [hk] using Ne.symm hkk)] at h'
        exact h'.imp_right fun h' => ⟨by simpa [hkk] using h'.1, h'.2⟩

end Place

section Whole

theorem values_filter (hd : Proper (fun k v => key v = some k) d) {k : κ} {v : β}
    (hv : get k d = some v) (p : κ → Bool) :
    ((d.filter fun e => p e.1).map Prod.snd).filter (fun x => key x = some k) =
      if p k then [v] else [] := by
  have hdef := hd.related
  have hn := hd.nodup
  clear hd
  induction d with
  | nil => simp [get] at hv
  | cons e d ih =>
    rw [List.forall_mem_cons] at hdef
    rw [List.map_cons, List.nodup_cons] at hn
    rw [get] at hv
    by_cases he : e.1 = k
    · rw [if_pos he] at hv
      have hrest : ((d.filter fun e => p e.1).map Prod.snd).filter (fun x => key x = some k) = [] := by
        rw [List.filter_eq_nil_iff]
        intro x hx
        obtain ⟨y, hy, rfl⟩ := List.mem_map.1 hx
        have hy := List.mem_of_mem_filter hy
        have hne : y.1 ≠ k := fun h => hn.1 (he ▸ h ▸ List.mem_map_of_mem hy)
        simpa [hdef.2 y hy] using hne
      have hkey : key v = some k := by rw [← Option.some.inj hv, hdef.1, he]
      cases hp : p k with
      | true => simp [he, hp, hkey, hrest, Option.some.inj hv]
      | false => simp [he, hp, hrest]
    · rw [if_neg he] at hv
      have hih := ih hv hdef.2 hn.2
      cases hp : p e.1 with
      | true => simp [hp, hdef.1, he, hih]
      | false => simp [hp, hih]

variable [DecidableEq β] {blank header : β}

theorem merge_filter (hd : Proper (fun k v => key v = some k) d) (hblank : key blank = none) (hheader : key header = none)
    {k : κ} {v : β} (hv : get k d = some v) (xs : List β) :
    (merge key blank header d xs).filter (fun x => key x = some k) = [v] := by
  have hplace := place_filter hd hv [] xs
  have hrest := values_filter hd hv fun k => decide (k ∉ (place key d [] xs).2)
  rw [if_neg List.not_mem_nil] at hplace
  have hsplit : (merge key blank header d xs).filter (fun x => key x = some k) =
      (place key d [] xs).1.filter (fun x => key x = some k) ++
        ((d.filter fun e => e.1 ∉ (place key d [] xs).2).map Prod.snd).filter
          fun x => key x = some k := by
    unfold merge
    dsimp only
    split_ifs with hnil
    · rw [hnil, List.map_nil, List.filter_nil, List.append_nil]
    · simp [hblank, hheader]
    · simp [hheader]
  rw [hsplit, hplace, hrest]
  by_cases hin : k ∈ (place key d [] xs).2 <;> simp [hin]

theorem forall_merge {P : β → Prop} (hd : Proper (fun k v => key v = some k ∧ P v) d)
    (hblank : P blank) (hheader : P header) {xs : List β} (hxs : ∀ x ∈ xs, P x) :
    ∀ x ∈ merge key blank header d xs, P x := by
  intro x hx
  have hcases : x ∈ (place key d [] xs).1 ∨ x = blank ∨ x = header ∨ ∃ e ∈ d, e.2 = x := by
    unfold merge at hx
    dsimp only at hx
    split_ifs at hx
    · exact .inl hx
    all_goals
      simp only [List.mem_append, List.mem_cons, List.mem_map, List.mem_filter, List.not_mem_nil,
        or_false] at hx
      grind
  have hkey := hd.mono fun _ _ h => h.1
  rcases hcases with hx | rfl | rfl | ⟨e, he, rfl⟩
  · cases hw : wanted key d x with
    | none =>
      have hmem : x ∈ (place key d [] xs).1.filter (other key d) :=
        List.mem_filter.2 ⟨hx, by simp [other, hw]⟩
      rw [place_others hkey] at hmem
      exact hxs x (List.mem_of_mem_filter hmem)
    | some e =>
      obtain ⟨hk, hv⟩ := wanted_eq_some.1 hw
      have hmem : x ∈ (place key d [] xs).1.filter (fun x => key x = some e.1) :=
        List.mem_filter.2 ⟨hx, by simpa using hk⟩
      rw [place_filter hkey hv, if_neg List.not_mem_nil] at hmem
      split_ifs at hmem
      · rw [List.mem_singleton.1 hmem]
        exact (hd.get hv).2
      · simp at hmem
  · exact hblank
  · exact hheader
  · exact (hd.related e he).2

variable (blank header) in
theorem merge_others (hd : Proper (fun k v => key v = some k) d) (xs : List β) :
    xs.filter (other key d) <+: (merge key blank header d xs).filter (other key d) := by
  rw [← place_others hd []]
  unfold merge
  dsimp only
  split_ifs
  · exact List.prefix_rfl
  all_goals
    rw [List.append_assoc, List.filter_append]
    exact List.prefix_append _ _

theorem merge_merge (hd : Proper (fun k v => key v = some k) d) (hblank : key blank = none) (hheader : key header = none)
    (xs : List β) :
    merge key blank header d (merge key blank header d xs) = merge key blank header d xs := by
  have honce := fun k v (hv : get k d = some v) => merge_filter hd hblank hheader hv xs
  have hself : (place key d [] (merge key blank header d xs)).1 = merge key blank header d xs :=
    place_eq_self fun k v hv => .inr ⟨List.not_mem_nil, honce k v hv⟩
  have hall : d.filter (fun e => e.1 ∉ (place key d [] (merge key blank header d xs)).2) = [] := by
    rw [List.filter_eq_nil_iff]
    intro e he
    have hv := get_eq_some_of_mem hd.nodup he
    have hmem : e.2 ∈ merge key blank header d xs :=
      List.mem_of_mem_filter ((honce e.1 e.2 hv).symm ▸ List.mem_singleton_self e.2)
    simpa using mem_placed hmem (wanted_eq_some.2 ⟨hd.get hv, hv⟩)
  rw [merge.eq_1 key blank header d (merge key blank header d xs), hself]
  simp only [hall, if_true]

end Whole

end Keyed

end Merge
