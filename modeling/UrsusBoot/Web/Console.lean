import UrsusBoot.Web.HeaderText

/-!
# The Web console

`POST /api/console` carries a command line in a header field. The page percent-encodes it; the route
takes it out of the header and decodes it with the decoder of file names, which replaces quotes and
backslashes.
-/

namespace UrsusBoot

/-! ## The route -/

inductive ConsoleAnswer
  | rejected
  | busy
  | deferred (cmd : List UInt8)
deriving DecidableEq

/-- The branch of `ursus_route_ready` for the console; `pending` says that another command is still
running. -/
def routeConsole (pending : Bool) (h : List UInt8) : ConsoleAnswer :=
  match (parseHeaderValue h "X-Ursus-Command" 512).bind fun encoded => decodeFilename encoded 256 with
  | none => .rejected
  | some cmd =>
    if cmd = [] then .rejected
    else if pending then .busy
    else .deferred cmd

/-! ## The page -/

/-- The characters that `encodeURIComponent` leaves as they are: letters, digits and `-_.!~*'()`. -/
def isUnreserved (b : UInt8) : Bool :=
  (decide (0x61 ≤ b) && decide (b ≤ 0x7a)) || (decide (0x41 ≤ b) && decide (b ≤ 0x5a)) ||
    (decide (0x30 ≤ b) && decide (b ≤ 0x39)) ||
    ([0x2d, 0x5f, 0x2e, 0x21, 0x7e, 0x2a, 0x27, 0x28, 0x29] : List UInt8).contains b

def hexChar (n : ℕ) : UInt8 := if n < 10 then UInt8.ofNat (0x30 + n) else UInt8.ofNat (0x41 + (n - 10))

def encodeByte (b : UInt8) : List UInt8 :=
  if isUnreserved b then [b] else [0x25, hexChar (b.toNat / 16), hexChar (b.toNat % 16)]

/-- `encodeURIComponent` of an ASCII text. -/
def encodeURIComponent (s : List UInt8) : List UInt8 := s.flatMap encodeByte

/-! ## There and back -/

theorem hexDigit_hexChar : ∀ n < 16, hexDigit (hexChar n) = some n := by decide

theorem decodeLoop_percent {room : ℕ} {a b : UInt8} {hi lo : ℕ} (ha : hexDigit a = some hi)
    (hb : hexDigit b = some lo) (bs : List UInt8) :
    decodeLoop (room + 1) (0x25 :: a :: b :: bs) =
      (decodeLoop room bs).map fun r => sanitize (UInt8.ofNat (hi * 16 + lo)) :: r := by
  rw [decodeLoop, ha, hb]

theorem decodeLoop_other {room : ℕ} {ch : UInt8} (h : ch ≠ 0x25) (bs : List UInt8) :
    decodeLoop (room + 1) (ch :: bs) = (decodeLoop room bs).map fun r => sanitize ch :: r := by
  rw [decodeLoop]
  rintro a b bs' rfl
  exact absurd rfl h

/-- **The decoder gives back the text with its quotes and backslashes replaced.** -/
theorem decodeLoop_encode {s : List UInt8} {room : ℕ} (h : s.length ≤ room) :
    decodeLoop room (encodeURIComponent s) = some (s.map sanitize) := by
  induction s generalizing room with
  | nil =>
    cases room with
    | zero => rfl
    | succ room => rfl
  | cons b s ih =>
    cases room with
    | zero => exact absurd h (by simp)
    | succ room =>
      have hrest := ih (Nat.le_of_succ_le_succ h)
      rw [encodeURIComponent, List.flatMap_cons, ← encodeURIComponent, encodeByte]
      by_cases hb : isUnreserved b = true
      · have hne : b ≠ 0x25 := by
          rintro rfl
          exact absurd hb (by decide)
        rw [if_pos hb, List.cons_append, List.nil_append, decodeLoop_other hne, hrest]
        rfl
      · have hlt := b.toNat_lt
        have hjoin : b.toNat / 16 * 16 + b.toNat % 16 = b.toNat := by omega
        rw [if_neg hb, List.cons_append, List.cons_append, List.cons_append, List.nil_append,
          decodeLoop_percent (hexDigit_hexChar _ (by omega)) (hexDigit_hexChar _ (by omega)), hrest,
          hjoin, UInt8.ofNat_toNat]
        rfl

theorem encodeURIComponent_eq_nil {s : List UInt8} : encodeURIComponent s = [] ↔ s = [] := by
  cases s with
  | nil => simp [encodeURIComponent]
  | cons b s =>
    rw [encodeURIComponent, List.flatMap_cons, encodeByte]
    split_ifs <;> simp

theorem visible_encode {s : List UInt8} : ∀ b ∈ encodeURIComponent s, Visible b := by
  have hhex : ∀ n < 16, Visible (hexChar n) := by decide
  intro b hb
  obtain ⟨c, -, hc⟩ := List.mem_flatMap.1 hb
  have hlt := c.toNat_lt
  unfold encodeByte at hc
  split_ifs at hc with hfree
  · rw [List.mem_singleton.1 hc]
    by_contra hlow
    have hle : c.toNat ≤ 0x20 := by
      have hnot : ¬ 0x20 < c.toNat := hlow
      omega
    have hnone : ∀ n ≤ 0x20, isUnreserved (UInt8.ofNat n) = false := by decide
    have hno := hnone c.toNat hle
    rw [UInt8.ofNat_toNat, hfree] at hno
    cases hno
  · simp only [List.mem_cons, List.not_mem_nil, or_false] at hc
    rcases hc with rfl | rfl | rfl
    · decide
    · exact hhex _ (by omega)
    · exact hhex _ (by omega)

/-! ## The stored command -/

def Printable (b : UInt8) : Prop := 0x20 ≤ b ∧ b ≤ 0x7e

instance (b : UInt8) : Decidable (Printable b) := inferInstanceAs (Decidable (_ ∧ _))

theorem sanitize_eq_self {b : UInt8} (h : Printable b) : sanitize b = b ↔ b ≠ 0x22 ∧ b ≠ 0x5c := by
  have hlow : ¬ b < 0x20 := UInt8.not_lt.2 h.1
  have hdel : b ≠ 0x7f := by
    rintro rfl
    exact absurd h.2 (by decide)
  unfold sanitize
  by_cases hquote : b = 0x22 ∨ b = 0x5c
  · rw [if_pos (.inr (.inr hquote))]
    rcases hquote with rfl | rfl
    · decide
    · decide
  · rw [not_or] at hquote
    rw [if_neg (by simp [hlow, hdel, hquote])]
    exact iff_of_true rfl hquote

/-- **The command that was sent is stored iff it has neither quotes nor backslashes.** -/
theorem console_command_iff {h cmd : List UInt8} (hne : cmd ≠ []) (hprint : ∀ b ∈ cmd, Printable b)
    (hlen : cmd.length ≤ 255) (hshort : (encodeURIComponent cmd).length < 512)
    (hsent : headerField h "X-Ursus-Command" = some (encodeURIComponent cmd)) :
    routeConsole false h = .deferred cmd ↔ (0x22 : UInt8) ∉ cmd ∧ (0x5c : UInt8) ∉ cmd := by
  have hencoded : encodeURIComponent cmd ≠ [] := fun hnil => hne (encodeURIComponent_eq_nil.1 hnil)
  have hvalue : parseHeaderValue h "X-Ursus-Command" 512 = some (encodeURIComponent cmd) :=
    (parseHeaderValue_iff (by decide)).2
      ⟨_, hsent, (beforeCr_of_visible visible_encode).symm, hencoded, hshort⟩
  have hdecoded : decodeFilename (encodeURIComponent cmd) 256 = some (cmd.map sanitize) := by
    rw [decodeFilename, if_neg hencoded]
    exact decodeLoop_encode hlen
  have hroute : routeConsole false h = .deferred (cmd.map sanitize) := by
    have hnil : cmd.map sanitize ≠ [] := fun hnil => hne (List.map_eq_nil_iff.1 hnil)
    rw [routeConsole, hvalue, Option.bind_some, hdecoded]
    exact (if_neg hnil).trans (if_neg Bool.false_ne_true)
  have hsame : cmd.map sanitize = cmd ↔ ∀ b ∈ cmd, b ≠ 0x22 ∧ b ≠ 0x5c := by
    have hmap : cmd.map sanitize = cmd.map id ↔ ∀ b ∈ cmd, sanitize b = id b := List.map_inj_left
    rw [List.map_id] at hmap
    rw [hmap]
    exact forall₂_congr fun b hb => sanitize_eq_self (hprint b hb)
  rw [hroute, ConsoleAnswer.deferred.injEq, hsame]
  constructor
  · intro hall
    exact ⟨fun hmem => (hall _ hmem).1 rfl, fun hmem => (hall _ hmem).2 rfl⟩
  · rintro ⟨hquote, hslash⟩ b hb
    exact ⟨fun heq => hquote (heq ▸ hb), fun heq => hslash (heq ▸ hb)⟩

/-- `printenv -a` is stored as it was sent. -/
theorem console_command_sample : routeConsole false
    (asciiBytes "POST /api/console HTTP/1.1\r\nX-Ursus-Command: printenv%20-a\r\n\r\n") =
      .deferred (asciiBytes "printenv -a") := by
  refine (console_command_iff ?_ (forall_mem_of_all ?_) ?_ ?_ ?_).2 ⟨?_, ?_⟩ <;>
    decide

/-- **A quoted argument loses its quotes.** The page sends `setenv a "b"`. -/
theorem console_quotes_replaced :
    (∀ b ∈ asciiBytes "setenv a \"b\"", Printable b) ∧
    headerField (asciiBytes "POST /api/console HTTP/1.1\r\nX-Ursus-Command: setenv%20a%20%22b%22\r\n\r\n")
      "X-Ursus-Command" = some (encodeURIComponent (asciiBytes "setenv a \"b\"")) ∧
    routeConsole false
      (asciiBytes "POST /api/console HTTP/1.1\r\nX-Ursus-Command: setenv%20a%20%22b%22\r\n\r\n") =
      .deferred (asciiBytes "setenv a _b_") ∧
    asciiBytes "setenv a _b_" ≠ asciiBytes "setenv a \"b\"" :=
  ⟨forall_mem_of_all (by decide), by decide⟩

end UrsusBoot
