import UrsusBoot.Lib.Run
import UrsusBoot.Web.Loop

/-!
# The response pump

`ursus_http_pump` hands a response to lwIP as far as there is room, and the callbacks for an
acknowledgement and for lwIP's timer go on where it stopped. `Pump` says what one call comes to for
the loop; here is the call itself.
-/

namespace UrsusBoot

/-- `ERR_MEM` of lwIP. -/
abbrev errMem : ℤ := -1

/-- What lwIP answers in one round: `tcp_sndbuf`, and the status of `tcp_write`. -/
structure Answer where
  snd : ℕ
  write : ℤ

structure Net where
  round : ℕ → Answer
  /-- `tcp_output`. -/
  output : ℤ
  /-- `tcp_close`. -/
  close : ℤ

/-- The response of `struct ursus_conn`, and the data `tcp_write` has accepted. -/
structure Response where
  hdr : List UInt8
  body : List UInt8
  hdrOff : ℕ := 0
  bodyOff : ℕ := 0
  acked : ℕ := 0
  allQueued : Bool := false
  wire : List UInt8 := []

namespace Response

def whole (c : Response) : List UInt8 := c.hdr ++ c.body

def totalLen (c : Response) : ℕ := c.hdr.length + c.body.length

def left (c : Response) : ℕ := (c.hdr.length - c.hdrOff) + (c.body.length - c.bodyOff)

def src (c : Response) : List UInt8 :=
  if c.hdrOff < c.hdr.length then c.hdr.drop c.hdrOff else c.body.drop c.bodyOff

/-- `tcp_write` has accepted `chunk` bytes. -/
def advance (c : Response) (chunk : ℕ) : Response :=
  if c.hdrOff < c.hdr.length then
    { c with hdrOff := c.hdrOff + chunk, wire := c.wire ++ c.src.take chunk }
  else { c with bodyOff := c.bodyOff + chunk, wire := c.wire ++ c.src.take chunk }

end Response

/-! ## The code -/

/-- The loop of `ursus_http_pump`, from round `i` on, for as many rounds as there are bytes left: the
status, the connection, and whether something was written. -/
def pumpLoop (n : Net) : ℕ → ℕ → Response → Bool → ℤ × Response × Bool
  | 0, _, c, wrote => (0, c, wrote)
  | fuel + 1, i, c, wrote =>
    if c.hdrOff < c.hdr.length ∨ c.bodyOff < c.body.length then
      if (n.round i).snd = 0 then (0, c, wrote)
      else if (n.round i).write = errMem then (0, c, wrote)
      else if (n.round i).write ≠ 0 then ((n.round i).write, c, wrote)
      else
        pumpLoop n fuel (i + 1) (c.advance (min (min c.src.length (n.round i).snd) 1024)) true
    else (0, c, wrote)

def pump (n : Net) (c : Response) : ℤ × Response :=
  let r := pumpLoop n c.left 0 c false
  if r.1 ≠ 0 then (r.1, r.2.1)
  else if r.2.2 = true ∧ n.output ≠ 0 then (n.output, r.2.1)
  else (0, { r.2.1 with allQueued := r.2.1.allQueued ||
    (r.2.1.hdrOff == r.2.1.hdr.length && r.2.1.bodyOff == r.2.1.body.length) })

inductive Fate
  | live
  | closed
  | aborted
deriving DecidableEq

structure Line where
  resp : Response
  fate : Fate

/-- `ursus_conn_release` without `abort_conn`. -/
def Net.release (n : Net) : Fate := if n.close = 0 then .closed else .aborted

/-- The end of `ursus_http_sent` and `ursus_http_poll`. -/
def Line.pumped (n : Net) (r : ℤ × Response) : Line :=
  if r.1 ≠ 0 then ⟨r.2, .aborted⟩
  else if r.2.allQueued = true ∧ r.2.totalLen ≤ r.2.acked then ⟨r.2, n.release⟩
  else ⟨r.2, .live⟩

/-- The callbacks on a connection with a response. -/
inductive Callback
  /-- `ursus_http_sent`. -/
  | sent (len : ℕ) (n : Net)
  /-- `ursus_http_poll`. -/
  | poll (n : Net)

/-- A callback; a connection that is gone has none. -/
def Line.step (l : Line) : Callback → Line
  | .sent len n =>
    if l.fate = .live then
      .pumped n (pump n { l.resp with acked := (l.resp.acked + len) % 2 ^ 64 })
    else l
  | .poll n => if l.fate = .live then .pumped n (pump n l.resp) else l

/-- `ursus_http_start_response` with this header and body; its callers abort on an error. -/
def Line.start (n : Net) (hdr body : List UInt8) : Line :=
  let r := pump n { hdr, body }
  ⟨r.2, if r.1 = 0 then .live else .aborted⟩

/-! ## One call -/

/-- What lwIP has taken is what the two offsets say. -/
structure Response.Sound (c : Response) : Prop where
  hdr_le : c.hdrOff ≤ c.hdr.length
  body_le : c.bodyOff ≤ c.body.length
  inOrder : c.hdrOff < c.hdr.length → c.bodyOff = 0
  wire_eq : c.wire = c.hdr.take c.hdrOff ++ c.body.take c.bodyOff
  queued : c.allQueued = true → c.left = 0

/-- Everything but the offsets and what has been written is left alone. -/
structure Response.Follows (c c' : Response) : Prop where
  hdr : c'.hdr = c.hdr
  body : c'.body = c.body
  acked : c'.acked = c.acked
  queued : c.allQueued = true → c'.allQueued = true

namespace Response

variable {c c' : Response}

theorem follows_advance {chunk : ℕ} : c.Follows (c.advance chunk) := by
  unfold advance
  split_ifs <;> exact ⟨rfl, rfl, rfl, id⟩

theorem Follows.trans {c'' : Response} (h : c.Follows c') (h' : c'.Follows c'') : c.Follows c'' :=
  ⟨h'.hdr.trans h.hdr, h'.body.trans h.body, h'.acked.trans h.acked, h'.queued ∘ h.queued⟩

theorem src_length_pos (hmore : c.hdrOff < c.hdr.length ∨ c.bodyOff < c.body.length) :
    0 < c.src.length := by
  unfold src
  split_ifs with hin <;> rw [List.length_drop] <;> omega

theorem Sound.advance (h : c.Sound) (chunk : ℕ) (hle : chunk ≤ c.src.length) (hpos : 0 < chunk) :
    (c.advance chunk).Sound ∧ (c.advance chunk).left < c.left := by
  unfold src at hle
  unfold Response.advance src
  split_ifs at hle ⊢ with hin
  · have hle' : c.hdrOff + chunk ≤ c.hdr.length := by
      rw [List.length_drop] at hle
      omega
    have hzero := h.inOrder hin
    refine ⟨⟨hle', h.body_le, fun _ => hzero, ?_, fun hq => ?_⟩, ?_⟩
    · simp [h.wire_eq, hzero, List.take_add]
    · have := h.queued hq
      simp only [left] at this ⊢
      omega
    · simp only [left]
      omega
  · have hle' : c.bodyOff + chunk ≤ c.body.length := by
      rw [List.length_drop] at hle
      omega
    refine ⟨⟨h.hdr_le, hle', fun hlt => absurd hlt hin, ?_, fun hq => ?_⟩, ?_⟩
    · simp [h.wire_eq, List.take_add]
    · have := h.queued hq
      simp only [left] at this ⊢
      omega
    · simp only [left]
      omega

theorem Sound.ack (h : c.Sound) (k : ℕ) : Response.Sound { c with acked := k } :=
  ⟨h.hdr_le, h.body_le, h.inOrder, h.wire_eq, h.queued⟩

theorem Sound.left_eq_zero_iff (h : c.Sound) :
    c.left = 0 ↔ c.hdrOff = c.hdr.length ∧ c.bodyOff = c.body.length := by
  have := h.hdr_le
  have := h.body_le
  unfold left
  omega

theorem Sound.wire_prefix (h : c.Sound) : c.wire <+: c.whole := by
  rw [h.wire_eq, whole]
  rcases h.hdr_le.lt_or_eq with hlt | heq
  · rw [h.inOrder hlt, List.take_zero, List.append_nil]
    exact (List.take_prefix _ _).trans (List.prefix_append _ _)
  · rw [heq, List.take_length]
    exact (List.prefix_append_right_inj _).2 (List.take_prefix _ _)

theorem Sound.length_wire (h : c.Sound) : c.wire.length + c.left = c.totalLen := by
  have := h.hdr_le
  have := h.body_le
  rw [h.wire_eq, left, totalLen, List.length_append, List.length_take, List.length_take]
  omega

theorem Sound.wire_eq_whole_iff (h : c.Sound) : c.wire = c.whole ↔ c.left = 0 := by
  have hlen := h.length_wire
  constructor
  · intro heq
    rw [heq, whole, List.length_append, ← totalLen] at hlen
    omega
  · intro hzero
    exact h.wire_prefix.eq_of_length (by rw [whole, List.length_append, ← totalLen]; omega)

end Response

open Prog Response

variable {n : Net} {c : Response}

theorem pumpLoop_sound (fuel i : ℕ) (wrote : Bool) (h : c.Sound) :
    (pumpLoop n fuel i c wrote).2.1.Sound ∧ c.Follows (pumpLoop n fuel i c wrote).2.1 ∧
      (pumpLoop n fuel i c wrote).2.1.left ≤ c.left := by
  induction fuel generalizing i c wrote with
  | zero => exact ⟨h, ⟨rfl, rfl, rfl, id⟩, le_rfl⟩
  | succ fuel ih =>
    have hstay : c.Sound ∧ c.Follows c ∧ c.left ≤ c.left := ⟨h, ⟨rfl, rfl, rfl, id⟩, le_rfl⟩
    unfold pumpLoop
    split_ifs with hmore hroom hmem hfail
    · exact hstay
    · exact hstay
    · exact hstay
    · have hpos := src_length_pos hmore
      obtain ⟨hsound, hlt⟩ := h.advance (min (min c.src.length (n.round i).snd) 1024) (by omega)
        (by omega)
      obtain ⟨hs, hf, hle⟩ := ih (i + 1) true hsound
      exact ⟨hs, follows_advance.trans hf, hle.trans hlt.le⟩
    · exact hstay

/-- The environment lets the pump write: only memory may be short. -/
def Net.Regular (n : Net) : Prop := (∀ i, (n.round i).write = 0 ∨ (n.round i).write = errMem) ∧
  n.output = 0

/-- There is room when the pump starts, and every write succeeds. -/
def Net.Ready (n : Net) : Prop := (n.round 0).snd ≠ 0 ∧ (∀ i, (n.round i).write = 0) ∧ n.output = 0

theorem pumpLoop_regular (hn : n.Regular) (fuel i : ℕ) (c : Response) (wrote : Bool) :
    (pumpLoop n fuel i c wrote).1 = 0 := by
  induction fuel generalizing i c wrote with
  | zero => rfl
  | succ fuel ih =>
    unfold pumpLoop
    split_ifs with hmore hroom hmem hfail
    · rfl
    · rfl
    · exact absurd (hn.1 i) (by tauto)
    · exact ih _ _ _
    · rfl

theorem pumpLoop_progress (hn : n.Ready) (h : c.Sound) (hleft : c.left ≠ 0) :
    (pumpLoop n c.left 0 c false).2.1.left < c.left := by
  obtain ⟨fuel, hfuel⟩ := Nat.exists_eq_succ_of_ne_zero hleft
  have hmore : c.hdrOff < c.hdr.length ∨ c.bodyOff < c.body.length := by
    have := hleft
    unfold left at this
    omega
  have hmem : ¬ (n.round 0).write = errMem := by
    rw [hn.2.1 0]
    decide
  have hround := hn.1
  have hpos := src_length_pos hmore
  obtain ⟨hsound, hlt⟩ := h.advance (min (min c.src.length (n.round 0).snd) 1024) (by omega)
    (by omega)
  rw [hfuel, pumpLoop, if_pos hmore, if_neg hround, if_neg hmem, if_neg (not_not.2 (hn.2.1 0)),
    ← hfuel]
  exact (pumpLoop_sound fuel 1 true hsound).2.2.trans_lt hlt

/-- **One call of the pump.** When it reports no error, `all_queued` says that nothing is left. -/
theorem pump_sound (h : c.Sound) :
    (pump n c).2.Sound ∧ c.Follows (pump n c).2 ∧ (pump n c).2.left ≤ c.left ∧
      ((pump n c).1 = 0 → ((pump n c).2.allQueued = true ↔ (pump n c).2.left = 0)) := by
  obtain ⟨hs, hf, hle⟩ := pumpLoop_sound (n := n) c.left 0 false h
  unfold pump
  dsimp only
  generalize pumpLoop n c.left 0 c false = r at hs hf hle ⊢
  split_ifs with herr hout
  · exact ⟨hs, hf, hle, fun h0 => absurd h0 herr⟩
  · exact ⟨hs, hf, hle, fun h0 => absurd h0 hout.2⟩
  · have hqueued : (r.2.1.allQueued ||
        (r.2.1.hdrOff == r.2.1.hdr.length && r.2.1.bodyOff == r.2.1.body.length)) = true ↔
          r.2.1.left = 0 := by
      rw [Bool.or_eq_true, Bool.and_eq_true, beq_iff_eq, beq_iff_eq, ← hs.left_eq_zero_iff]
      exact or_iff_right_of_imp hs.queued
    refine ⟨⟨hs.hdr_le, hs.body_le, hs.inOrder, hs.wire_eq, hqueued.1⟩,
      ⟨hf.hdr, hf.body, hf.acked, fun hq => ?_⟩, hle, fun _ => hqueued⟩
    rw [hf.queued hq, Bool.true_or]

theorem pump_regular (hn : n.Regular) (c : Response) : (pump n c).1 = 0 := by
  unfold pump
  dsimp only
  rw [if_neg (not_not.2 (pumpLoop_regular hn c.left 0 c false)), if_neg fun h => h.2 hn.2]

theorem pump_progress (hn : n.Ready) (h : c.Sound) (hleft : c.left ≠ 0) :
    (pump n c).2.left < c.left := by
  have hlt := pumpLoop_progress hn h hleft
  unfold pump
  dsimp only
  split_ifs <;> exact hlt

def Pump.ofCall (r : ℤ × Response) : Pump :=
  if r.1 ≠ 0 then .failed else if r.2.allQueued = true then .queued else .more

namespace Callback

def net : Callback → Net
  | sent _ n => n
  | poll n => n

def acks : Callback → ℕ
  | sent len _ => len
  | poll _ => 0

def isPoll : Callback → Bool
  | sent _ _ => false
  | poll _ => true

end Callback

/-- What holds of a connection after callbacks that acknowledged `acks` bytes. -/
structure Line.Sound (hdr body : List UInt8) (acks : ℕ) (l : Line) : Prop where
  hdr : l.resp.hdr = hdr
  body : l.resp.body = body
  resp : l.resp.Sound
  acked : l.resp.acked ≤ acks
  live : l.fate = .live → (l.resp.allQueued = true ↔ l.resp.left = 0)
  closed : l.fate = .closed → l.resp.allQueued = true ∧ l.resp.totalLen ≤ l.resp.acked

/-- In a regular environment only a response that is queued ends its connection. -/
def Line.Steady (l : Line) : Prop := l.fate = .live ∨ l.resp.allQueued = true

namespace Line

variable {hdr body : List UInt8} {acks : ℕ} {l : Line} {cb : Callback}

theorem step_cases (l : Line) (cb : Callback) :
    l.fate ≠ .live ∧ l.step cb = l ∨
      ∃ k ≤ l.resp.acked + cb.acks,
        l.step cb = .pumped cb.net (pump cb.net { l.resp with acked := k }) := by
  by_cases hlive : l.fate = .live
  · right
    cases cb with
    | sent len n => exact ⟨_, Nat.mod_le _ _, if_pos hlive⟩
    | poll n => exact ⟨l.resp.acked, le_rfl, if_pos hlive⟩
  · left
    cases cb <;> exact ⟨hlive, if_neg hlive⟩

theorem sound_pumped (hhdr : c.hdr = hdr) (hbody : c.body = body) (hc : c.Sound)
    (hacked : c.acked ≤ acks) : (pumped n (pump n c)).Sound hdr body acks := by
  obtain ⟨hs, hf, -, hq⟩ := pump_sound (n := n) hc
  have hhdr' := hf.hdr.trans hhdr
  have hbody' := hf.body.trans hbody
  have hacked' := hf.acked.trans_le hacked
  unfold pumped
  split_ifs with herr hdone
  · exact ⟨hhdr', hbody', hs, hacked', nofun, nofun⟩
  · exact ⟨hhdr', hbody', hs, hacked', fun _ => hq (not_not.1 herr), fun _ => hdone⟩
  · exact ⟨hhdr', hbody', hs, hacked', fun _ => hq (not_not.1 herr), nofun⟩

theorem steady_pumped (hn : n.Regular) : (pumped n (pump n c)).Steady := by
  unfold pumped
  rw [if_neg (not_not.2 (pump_regular hn c))]
  split_ifs with hdone
  · exact .inr hdone.1
  · exact .inl rfl

theorem sound_start (n : Net) (hdr body : List UInt8) : (start n hdr body).Sound hdr body 0 := by
  have hfresh : Response.Sound { hdr, body } :=
    ⟨Nat.zero_le _, Nat.zero_le _, fun _ => rfl, by simp, nofun⟩
  obtain ⟨hs, hf, -, hq⟩ := pump_sound (n := n) hfresh
  have hclosed : (start n hdr body).fate ≠ .closed := by
    unfold start
    dsimp only
    split_ifs <;> decide
  refine ⟨hf.hdr, hf.body, hs, hf.acked.le, fun hlive => hq ?_, fun h => absurd h hclosed⟩
  by_contra herr
  exact absurd ((if_neg herr).symm.trans hlive) (by decide)

/-- **A callback.** -/
theorem Sound.step (h : l.Sound hdr body acks) (cb : Callback) :
    (l.step cb).Sound hdr body (acks + cb.acks) := by
  obtain ⟨-, heq⟩ | ⟨k, hk, heq⟩ := l.step_cases cb
  · rw [heq]
    exact ⟨h.hdr, h.body, h.resp, h.acked.trans (Nat.le_add_right _ _), h.live, h.closed⟩
  · rw [heq]
    exact sound_pumped h.hdr h.body (h.resp.ack k) (hk.trans (Nat.add_le_add_right h.acked _))

theorem sound_run (n : Net) (hdr body : List UInt8) (cbs : List Callback) :
    (runFrom step (start n hdr body) cbs).Sound hdr body (cbs.map Callback.acks).sum := by
  refine history_run (J := fun cbs l => Line.Sound hdr body (cbs.map Callback.acks).sum l)
    (sound_start n hdr body) (fun cbs cb h => ?_) cbs
  simpa using h.step cb

theorem Steady.step (h : l.Steady) (hn : cb.net.Regular) : (l.step cb).Steady := by
  obtain ⟨-, heq⟩ | ⟨k, -, heq⟩ := l.step_cases cb
  · rwa [heq]
  · rw [heq]
    exact steady_pumped hn

theorem steady_run (hdr body : List UInt8) (hn : n.Regular) {cbs : List Callback} (hcbs : ∀ cb ∈ cbs, cb.net.Regular) :
    (runFrom step (start n hdr body) cbs).Steady := by
  have hstart : (start n hdr body).Steady := .inl (if_pos (pump_regular hn _))
  induction cbs using List.reverseRecOn with
  | nil => exact hstart
  | append_singleton cbs cb ih =>
    rw [runFrom_append]
    exact (ih fun cb hcb => hcbs cb (by simp [hcb])).step (hcbs cb (by simp))

theorem Sound.left_step (h : l.Sound hdr body acks) (hl : l.Steady)
    (hpoll : cb.isPoll = true → cb.net.Ready) :
    (l.step cb).resp.left ≤ l.resp.left - if cb.isPoll then 1 else 0 := by
  have hpumped : ∀ (n : Net) (r : ℤ × Response), (pumped n r).resp = r.2 := by
    intro n r
    unfold pumped
    split_ifs <;> rfl
  obtain ⟨hdead, heq⟩ | ⟨k, -, heq⟩ := l.step_cases cb
  · rw [heq, h.resp.queued (hl.resolve_left hdead)]
    exact Nat.zero_le _
  · have hs := h.resp.ack k
    rw [heq, hpumped]
    have hle := (pump_sound (n := cb.net) hs).2.2.1
    split_ifs with hp
    · by_cases hzero : l.resp.left = 0
      · exact hle.trans_eq (hzero.trans (by rw [hzero]))
      · have hlt := pump_progress (hpoll hp) hs hzero
        exact Nat.le_sub_one_of_lt hlt
    · exact hle

theorem Sound.left_run (h : l.Sound hdr body acks) (hl : l.Steady) {cbs : List Callback}
    (hcbs : ∀ cb ∈ cbs, cb.net.Regular ∧ (cb.isPoll = true → cb.net.Ready)) :
    (runFrom Line.step l cbs).resp.left ≤ l.resp.left - cbs.countP Callback.isPoll := by
  induction cbs generalizing l acks with
  | nil => exact le_rfl
  | cons cb cbs ih =>
    obtain ⟨hn, hpoll⟩ := hcbs cb List.mem_cons_self
    have hstep := h.left_step hl hpoll
    have hrest := ih (h.step cb) (hl.step hn) fun cb hcb => hcbs cb (List.mem_cons_of_mem _ hcb)
    rw [runFrom_cons, List.countP_cons]
    omega

end Line

/-- **The response pump loses and repeats nothing.** Whatever lwIP answers and whichever callbacks
come, it has been given the front of the response; `all_queued` says that it has been given all of
it, and a connection is closed after that and once all of it has been acknowledged. When memory is
all that can be short, everything is queued as soon as the timer has found room as often as the
response has bytes. -/
theorem response_delivered (hdr body : List UInt8) (n : Net) (cbs : List Callback) :
    let l := runFrom Line.step (.start n hdr body) cbs
    l.resp.wire <+: hdr ++ body ∧
    (l.resp.allQueued = true → l.resp.wire = hdr ++ body) ∧
    (l.fate ≠ .aborted → l.resp.wire = hdr ++ body → l.resp.allQueued = true) ∧
    (l.fate = .closed →
      l.resp.allQueued = true ∧ (hdr ++ body).length ≤ (cbs.map Callback.acks).sum) ∧
    (n.Regular → (∀ cb ∈ cbs, cb.net.Regular) → ∀ more : List Callback,
      (∀ cb ∈ more, cb.net.Regular ∧ (cb.isPoll = true → cb.net.Ready)) →
      (hdr ++ body).length ≤ more.countP Callback.isPoll →
        (runFrom Line.step l more).resp.allQueued = true) := by
  intro l
  have h : l.Sound hdr body (cbs.map Callback.acks).sum := Line.sound_run n hdr body cbs
  have hwhole : l.resp.whole = hdr ++ body := by rw [whole, h.hdr, h.body]
  have htotal : l.resp.totalLen = (hdr ++ body).length := by
    rw [totalLen, h.hdr, h.body, List.length_append]
  refine ⟨hwhole ▸ h.resp.wire_prefix, fun hq => ?_, fun hfate heq => ?_, fun hclosed => ?_, ?_⟩
  · exact hwhole ▸ h.resp.wire_eq_whole_iff.2 (h.resp.queued hq)
  · have hleft := h.resp.wire_eq_whole_iff.1 (heq.trans hwhole.symm)
    cases hf : l.fate with
    | live => exact (h.live hf).2 hleft
    | closed => exact (h.closed hf).1
    | aborted => exact absurd hf hfate
  · obtain ⟨hq, hlen⟩ := h.closed hclosed
    exact ⟨hq, (htotal ▸ hlen).trans h.acked⟩
  · intro hn hcbs more hmore hpolls
    have hleft := h.left_run (Line.steady_run hdr body hn hcbs) hmore
    have hfirst := h.resp.length_wire
    have h' := Line.sound_run n hdr body (cbs ++ more)
    have hsteady := Line.steady_run hdr body hn (show ∀ cb ∈ cbs ++ more, cb.net.Regular from
      fun cb hcb => (List.mem_append.1 hcb).elim (hcbs cb) fun hcb => (hmore cb hcb).1)
    rw [runFrom_append] at h' hsteady
    refine hsteady.elim (fun hlive => (h'.live hlive).2 ?_) id
    change (runFrom Line.step l more).resp.left = 0
    omega

def roomyNet (snd : ℕ) : Net := ⟨fun _ => ⟨snd, 0⟩, 0, 0⟩

/-- Two bytes that find no room at first are queued by two calls of the timer. -/
theorem response_delivered_short :
    (runFrom Line.step (runFrom Line.step (.start (roomyNet 0) [0x48] [0x31]) [])
      [.poll (roomyNet 1), .poll (roomyNet 1)]).resp.allQueued = true := by
  have hregular : ∀ snd, (roomyNet snd).Regular := fun _ => ⟨fun _ => .inl rfl, rfl⟩
  have hready : (roomyNet 1).Ready := ⟨Nat.one_ne_zero, fun _ => rfl, rfl⟩
  refine (response_delivered [0x48] [0x31] (roomyNet 0) []).2.2.2.2 (hregular 0) nofun _ ?_ le_rfl
  intro cb hcb
  obtain rfl : cb = .poll (roomyNet 1) := by simpa using hcb
  exact ⟨hregular 1, fun _ => hready⟩

end UrsusBoot
