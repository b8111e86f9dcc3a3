import UrsusBoot.Safety.Uploads
import UrsusBoot.Web.Console

/-!
# Segments

TCP may split a request anywhere. `ursus_http_recv` hands every piece to `ursus_feed_bytes`, which
takes header bytes until the blank line, routes the request in the middle of a piece and goes on with
the body.
-/

namespace UrsusBoot

/-! ## The code -/

/-- The command that waits for the console, seen from one connection. -/
inductive Console
  | idle
  | other
  | mine (cmd : List UInt8)

namespace Console

def busy : Console → Bool
  | idle => false
  | _ => true

/-- `ursus_console_pending_clear`, when the connection is released. -/
def after (k : Console) (c : Option Conn) : Console :=
  match c, k with
  | none, mine _ => idle
  | _, _ => k

end Console

/-- The console, WebFailsafe and the connection, unless it is gone. -/
abbrev Fed3 := Console × Web × Option Conn

/-- The connection is looked at after a part of `ursus_feed_bytes`. -/
def Console.keep (k : Console) (p : FlashProg (Web × Option Conn)) : FlashProg Fed3 :=
  p.bind fun r => .ret (k.after r.2, r)

/-- `POST /api/console`, and the rest of the piece it came in. -/
def consoleRequest (P : Platform) (L : FitLib) (p : Pump) (k : Console) (s : Web) (c : Conn)
    (rest : List UInt8) : FlashProg Fed3 :=
  match routeConsole k.busy c.header with
  | .rejected => k.keep (startResponse p ⟨.result 400 [("result", "REJECTED"),
      ("reason", "empty or invalid command")], s, false, false⟩ c)
  | .busy => k.keep (startResponse p ⟨⟨409, .text "another Web console command is still running\n"⟩,
      s, false, false⟩ c)
  | .deferred cmd => (Console.mine cmd).keep (feedBody P L p s c rest)

/-- `ursus_feed_bytes`. -/
def feedStream (P : Platform) (L : FitLib) (p : Pump) (k : Console) (s : Web) (c : Conn)
    (bs : List UInt8) : FlashProg Fed3 :=
  if c.reply.isSome || c.headersDone then k.keep (feedBytes P L p s c bs)
  else
    match feedHeader c.reqhdr bs with
    | .complete hdr rest =>
      if reqMatch (cstr hdr) "POST /api/console " then
        consoleRequest P L p k s (c.routed hdr) rest
      else k.keep (feedBytes P L p s c bs)
    | _ => k.keep (feedBytes P L p s c bs)

def andThen (f : Console → Web → Conn → FlashProg Fed3) : Fed3 → FlashProg Fed3
  | (k, s, some c) => f k s c
  | (k, s, none) => .ret (k, s, none)

/-- The loop of `ursus_http_recv`, over any number of pieces: it stops at the first error. -/
def feedSegments (P : Platform) (L : FitLib) (p : Pump) (k : Console) (s : Web) (c : Conn) :
    List (List UInt8) → FlashProg Fed3
  | [] => .ret (k, s, some c)
  | bs :: segs =>
    (feedStream P L p k s c bs).bind (andThen fun k s c => feedSegments P L p k s c segs)

/-! ## Playing a program -/

def Cmd.isStore : Cmd → Bool
  | .writeMem _ _ => true
  | _ => false

/-- Execute a program against the outcomes of its commands, stores apart. -/
def play {α : Type} : FlashProg α → (ℕ → Outcome) × World → α × (ℕ → Outcome) × World
  | .ret a, e => (a, e)
  | .cmd c k, e =>
    play (k (exec c (e.1 0) e.2).1)
      (if c.isStore then e.1 else fun n => e.1 (n + 1), (exec c (e.1 0) e.2).2)

open Prog

section Play

variable {α β : Type}

theorem play_bind (p : FlashProg α) (f : α → FlashProg β) (e : (ℕ → Outcome) × World) :
    play (p.bind f) e = play (f (play p e).1) (play p e).2 := by
  induction p generalizing e with
  | ret a => rfl
  | cmd c k ih => exact ih _ _

theorem play_spec {Q : α → Prop} {p : FlashProg α} (e : (ℕ → Outcome) × World)
    (h : Ensures (fun a _ => Q a) p e.2) : Q (play p e).1 := by
  induction p generalizing e with
  | ret a => exact h
  | cmd c k ih => exact ih _ _ (h (e.1 0) trivial).2

theorem play_bind_congr {Q : α → Prop} {p : FlashProg α} {f g : α → FlashProg β}
    (h : Gives Q p) (hfg : ∀ a, Q a → play (f a) = play (g a)) :
    play (p.bind f) = play (p.bind g) := by
  funext e
  rw [play_bind, play_bind, hfg _ (play_spec e (h e.2))]

theorem play_bind_left {p q : FlashProg α} {f : α → FlashProg β} (h : play p = play q) :
    play (p.bind f) = play (q.bind f) := by
  funext e
  rw [play_bind, play_bind, h]

end Play

/-! ## The header -/

theorem feedHeader_append (hdr bs cs : List UInt8) : feedHeader hdr (bs ++ cs) =
    match feedHeader hdr bs with
    | .more h => feedHeader h cs
    | .overflow h => .overflow h
    | .complete h rest => .complete h (rest ++ cs) := by
  induction bs generalizing hdr with
  | nil => rfl
  | cons b bs ih =>
    rw [List.cons_append, feedHeader, feedHeader]
    split_ifs
    · rfl
    · rfl
    · exact ih _

/-! ## The body -/

section Body

variable (P : Platform) (L : FitLib) {s : Web} {ch : Chunk} {c : Conn} {bs cs : List UInt8}

theorem Chunk.advance_advance {n m : ℕ} (h : n < ch.contentLen - ch.received) :
    (ch.advance n).advance m = ch.advance (n + m) := by
  have hsum : ch.received + min (ch.contentLen - ch.received) n +
      min (ch.contentLen - (ch.received + min (ch.contentLen - ch.received) n)) m =
        ch.received + min (ch.contentLen - ch.received) (n + m) := by omega
  unfold Chunk.advance Chunk.take
  simp only [hsum]

theorem Chunk.advance_of_le {n m : ℕ} (h : ch.contentLen - ch.received ≤ n) :
    ch.advance (n + m) = ch.advance n := by
  have hmin : min (ch.contentLen - ch.received) (n + m) = min (ch.contentLen - ch.received) n := by
    omega
  unfold Chunk.advance Chunk.take
  simp only [hmin]

theorem play_storeBody (e : (ℕ → Outcome) × World) : play (storeBody ch bs) e =
    ((), e.1, { e.2 with ram := e.2.ram.blit ch.dest (bs.take (ch.take bs.length)) }) := by
  unfold storeBody
  split_ifs with hn
  · rfl
  · rw [not_not.1 hn, List.take_zero, Mem.blit_nil]
    rfl

theorem Chunk.take_append (h : ch.contentLen - ch.received ≤ bs.length) :
    (bs ++ cs).take (ch.take (bs ++ cs).length) = bs.take (ch.take bs.length) := by
  have hlen : ch.take (bs ++ cs).length = ch.take bs.length := by
    simp only [Chunk.take, List.length_append]
    omega
  have hle : ch.take bs.length ≤ bs.length := Nat.min_le_right _ _
  rw [hlen, List.take_append_of_le_length hle]

theorem receiveBody_append_of_le (hbs : bs ≠ []) (hfull : ch.contentLen - ch.received ≤ bs.length) :
    play (receiveBody P L s ch (bs ++ cs)) = play (receiveBody P L s ch bs) := by
  rw [receiveBody_eq, receiveBody_eq, if_neg hbs, if_neg (by simp [hbs])]
  split_ifs with hact
  · rfl
  · have hsettle : settleBody P L s ch (bs ++ cs).length = settleBody P L s ch bs.length := by
      unfold settleBody
      rw [List.length_append, Chunk.advance_of_le hfull]
    funext e
    rw [play_bind, play_bind, play_storeBody, play_storeBody, Chunk.take_append hfull, hsettle]

theorem settleBody_served {n : ℕ} (hfull : ch.contentLen - ch.received ≤ n) :
    Gives (fun x => ∃ r, x = .served r) (settleBody P L s ch n) := by
  have hdone : ¬ (ch.advance n).received ≠ ch.contentLen := by
    have := ch.fits.2.2
    simp only [Chunk.advance, Chunk.take]
    omega
  unfold settleBody
  rw [if_neg hdone]
  apply yields_ite
  · intro _
    exact yields_then fun r => yields_ret ⟨r, rfl⟩
  intro _
  apply yields_ite
  · intro _
    exact yields_then fun _ => yields_then fun r => yields_ret ⟨r, rfl⟩
  · intro _
    exact yields_ret ⟨_, rfl⟩

theorem receiveBody_of_lt (hbs : bs ≠ []) (hact : (s.session ch.kind).active = true)
    (hmore : bs.length < ch.contentLen - ch.received) :
    receiveBody P L s ch bs =
      (storeBody ch bs).bind fun _ => .ret (.more s (ch.advance bs.length)) := by
  have hne : (ch.advance bs.length).received ≠ ch.contentLen := by
    simp only [Chunk.advance, Chunk.take]
    omega
  rw [receiveBody_eq, if_neg hbs, if_neg (by simp [hact])]
  unfold settleBody
  rw [if_pos hne]
  rfl

theorem receiveBody_append_of_lt (hbs : bs ≠ []) (hcs : cs ≠ [])
    (hact : (s.session ch.kind).active = true) (hmore : bs.length < ch.contentLen - ch.received) :
    play (receiveBody P L s ch (bs ++ cs)) =
      play ((storeBody ch bs).bind fun _ => receiveBody P L s (ch.advance bs.length) cs) := by
  have hsettle : settleBody P L s (ch.advance bs.length) cs.length =
      settleBody P L s ch (bs ++ cs).length := by
    unfold settleBody
    rw [List.length_append, Chunk.advance_advance hmore]
    rfl
  have hact' : ¬ (!(s.session (ch.advance bs.length).kind).active) = true := by
    simpa [Chunk.advance] using hact
  have hfirst : ch.take bs.length = bs.length := by
    simp only [Chunk.take]
    omega
  have hdest : (ch.advance bs.length).dest = ch.dest + bs.length := by
    simp only [Chunk.dest, Chunk.advance, hfirst]
    omega
  have hboth : (bs ++ cs).take (ch.take (bs ++ cs).length) =
      bs ++ cs.take ((ch.advance bs.length).take cs.length) := by
    have hlen : ch.take (bs ++ cs).length =
        bs.length + (ch.advance bs.length).take cs.length := by
      simp only [Chunk.take, Chunk.advance, List.length_append]
      omega
    rw [hlen, List.take_length_add_append]
  rw [receiveBody_eq, if_neg (by simp [hbs]), if_neg (by simp [hact]), receiveBody_eq, if_neg hcs,
    if_neg hact', hsettle]
  funext e
  rw [play_bind, play_storeBody, hboth, play_bind, play_storeBody, play_bind, play_storeBody, hdest,
    hfirst, List.take_length, Mem.blit_append]

end Body

/-! ## Two pieces -/

section Pieces

variable (P : Platform) (L : FitLib) (p : Pump) {s : Web} {c : Conn} {bs cs : List UInt8}

theorem feedBody_some {ch : Chunk} (hch : c.chunk = some ch) :
    feedBody P L p s c bs =
      (receiveBody P L s ch bs).bind fun x => (x.heard (c.took ch bs.length)).finish p := by
  rw [feedBody_eq, hearsBody, hch]
  exact bind_bind _ _ _

theorem feedBody_none (hch : c.chunk = none) : feedBody P L p s c bs = .ret (s, some c) := by
  rw [feedBody, hch]
  rfl

theorem feedBytes_done (hreply : c.reply = none) (hdone : c.headersDone = true) :
    feedBytes P L p s c bs = feedBody P L p s c bs := by
  have hno : ¬ c.reply.isSome = true := by simp [hreply]
  rw [feedBytes, if_neg hno, if_pos hdone]

theorem feedBody_nil (s : Web) (c : Conn) : feedBody P L p s c [] = .ret (s, some c) := by
  cases hch : c.chunk with
  | none => exact feedBody_none P L p hch
  | some ch =>
    have hsame : ({ c with chunk := some ch } : Conn) = c := by rw [← hch]
    rw [feedBody_some P L p hch, receiveBody_eq, if_pos rfl]
    exact congrArg (fun c => Prog.ret (s, some c)) hsame

theorem feedBytes_nil (s : Web) (c : Conn) : feedBytes P L p s c [] = .ret (s, some c) := by
  unfold feedBytes
  split_ifs
  · rfl
  · exact feedBody_nil P L p s c
  · rfl

/-- A connection that is still there hears the second piece. -/
def goOn (cs : List UInt8) : Web × Option Conn → FlashProg (Web × Option Conn)
  | (s, some c) => feedBytes P L p s c cs
  | (s, none) => .ret (s, none)

theorem goOn_settled {r : Web × Option Conn} (h : Settled r.2) : goOn P L p cs r = .ret r := by
  obtain ⟨s, _ | c⟩ := r
  · rfl
  · exact if_pos (h c rfl)

theorem startResponse_settles (r : Served) (c : Conn) :
    Gives (fun x => Settled x.2) (startResponse p r c) := by
  apply (pumpConn_settles p r.web _ rfl).mono
  exact fun _ hx => hx.2

theorem startResponse_goOn (r : Served) (c : Conn) :
    play ((startResponse p r c).bind (goOn P L p cs)) = play (startResponse p r c) := by
  funext e
  have hsettled := play_spec e (startResponse_settles p r c e.2)
  rw [play_bind, goOn_settled P L p hsettled]
  rfl

theorem goOn_nil (r : Web × Option Conn) : goOn P L p [] r = .ret r := by
  obtain ⟨s, _ | c⟩ := r
  · rfl
  · exact feedBytes_nil P L p s c

/-- **Two pieces of a body.** -/
theorem feedBody_append (hreply : c.reply = none) (hdone : c.headersDone = true) :
    play (feedBody P L p s c (bs ++ cs)) = play ((feedBody P L p s c bs).bind (goOn P L p cs)) := by
  have hstay : goOn P L p cs (s, some c) = feedBody P L p s c cs := feedBytes_done P L p hreply hdone
  by_cases hbs : bs = []
  · rw [hbs, List.nil_append, feedBody_nil, ret_bind, hstay]
  by_cases hcs : cs = []
  · funext e
    rw [hcs, List.append_nil, play_bind, goOn_nil]
    rfl
  cases hch : c.chunk with
  | none => rw [feedBody_none P L p hch, feedBody_none P L p hch, ret_bind, hstay,
      feedBody_none P L p hch]
  | some ch =>
    rw [feedBody_some P L p hch, feedBody_some P L p hch, bind_bind]
    by_cases hact : (s.session ch.kind).active = true
    · rcases Nat.lt_or_ge bs.length (ch.contentLen - ch.received) with hmore | hfull
      · rw [play_bind_left (receiveBody_append_of_lt P L hbs hcs hact hmore),
          receiveBody_of_lt P L hbs hact hmore, bind_bind, bind_bind]
        refine play_bind_congr (yields_true _) fun _ _ => ?_
        have hgo : goOn P L p cs (s, some (c.took ch bs.length)) =
            feedBody P L p s (c.took ch bs.length) cs := feedBytes_done P L p hreply hdone
        have htook : (c.took ch bs.length).took (ch.advance bs.length) cs.length =
            c.took ch (bs ++ cs).length := by
          unfold Conn.took
          rw [Chunk.advance_advance hmore, List.length_append]
        show _ = play (goOn P L p cs (s, some (c.took ch bs.length)))
        rw [hgo, feedBody_some P L p rfl, htook]
      · rw [play_bind_left (receiveBody_append_of_le P L hbs hfull)]
        have hlen : ch.advance (bs ++ cs).length = ch.advance bs.length := by
          rw [List.length_append, Chunk.advance_of_le hfull]
        have hserved : Gives (fun x => ∃ r, x = .served r)
            (receiveBody P L s ch bs) := by
          rw [receiveBody_eq, if_neg hbs, if_neg (by simp [hact])]
          exact yields_then fun _ => settleBody_served P L hfull
        refine play_bind_congr hserved ?_
        rintro _ ⟨r, rfl⟩
        unfold Conn.took
        rw [hlen]
        exact (startResponse_goOn P L p r _).symm
    · have hno : (!(s.session ch.kind).active) = true := by simpa using hact
      rw [receiveBody_eq, if_neg (by simp [hbs]), if_pos hno, receiveBody_eq, if_neg hbs, if_pos hno]
      rfl

def Past (r : Web × Option Conn) : Prop :=
  ∀ c', r.2 = some c' → (c'.reply.isSome || c'.headersDone) = true

theorem startResponse_past (r : Served) (c : Conn) :
    Gives Past (startResponse p r c) :=
  (startResponse_settles p r c).mono fun _ hx c' hc' => by rw [hx c' hc', Bool.true_or]

theorem feedBody_past (hdone : c.headersDone = true) (bs : List UInt8) :
    Gives Past (feedBody P L p s c bs) := by
  have hpast : ∀ c' : Conn, c'.headersDone = true → Past (s, some c') := by
    rintro c' h _ ⟨⟩
    rw [h, Bool.or_true]
  cases hch : c.chunk with
  | none =>
    rw [feedBody_none P L p hch]
    exact yields_ret (hpast c hdone)
  | some ch =>
    rw [feedBody_some P L p hch]
    apply yields_then
    rintro (⟨s', ch'⟩ | s' | r)
    · apply yields_ret
      rintro _ ⟨⟩
      exact (congrArg (_ || ·) hdone).trans (Bool.or_true _)
    · exact yields_ret nofun
    · exact startResponse_past p r _

theorem keep_append (k : Console) {q q' : FlashProg (Web × Option Conn)}
    (h : play q = play (q'.bind (goOn P L p cs))) (hq : Gives Past q') :
    play (k.keep q) = play ((k.keep q').bind (andThen fun k s c => feedStream P L p k s c cs)) := by
  unfold Console.keep
  rw [play_bind_left h, bind_bind, bind_bind]
  refine play_bind_congr hq ?_
  rintro ⟨s, _ | c⟩ hpast
  · cases k <;> rfl
  · have hstream : feedStream P L p k s c cs = k.keep (feedBytes P L p s c cs) := if_pos (hpast c rfl)
    show _ = play (feedStream P L p (k.after (some c)) s c cs)
    rw [show k.after (some c) = k by cases k <;> rfl, hstream]
    rfl

/-- A request whose header is complete, and the rest of the piece. -/
def feedRouted (s : Web) (c : Conn) (rest : List UInt8) : FlashProg (Web × Option Conn) :=
  (routeReady P c.header s).bind fun
    | .served r => startResponse p r c
    | .upload ch => feedBody P L p s { c with chunk := some ch } rest

theorem feedStream_header (k : Console) (hpast : ¬ (c.reply.isSome || c.headersDone) = true) :
    feedStream P L p k s c bs =
      match feedHeader c.reqhdr bs with
      | .more h => .ret (k, s, some { c with reqhdr := h })
      | .overflow h => .ret (k.after none, s.release { c with reqhdr := h }, none)
      | .complete h rest =>
        if reqMatch (c.routed h).header "POST /api/console " then
          consoleRequest P L p k s (c.routed h) rest
        else k.keep (feedRouted P L p s (c.routed h) rest) := by
  have hor := Bool.or_eq_false_iff.1 (Bool.eq_false_iff.2 hpast)
  have hreply : ¬ c.reply.isSome = true := Bool.eq_false_iff.1 hor.1
  have hfresh : ¬ c.headersDone = true := Bool.eq_false_iff.1 hor.2
  rw [feedStream, if_neg hpast, feedBytes, if_neg hreply, if_neg hfresh]
  cases feedHeader c.reqhdr bs with
  | more h => cases k <;> rfl
  | overflow h => rfl
  | complete h rest => rfl

theorem feedRouted_append (hreply : c.reply = none) (hdone : c.headersDone = true)
    (rest : List UInt8) :
    play (feedRouted P L p s c (rest ++ cs)) =
        play ((feedRouted P L p s c rest).bind (goOn P L p cs)) ∧
      Gives Past (feedRouted P L p s c rest) := by
  constructor
  · unfold feedRouted
    rw [bind_bind]
    refine play_bind_congr (yields_true _) ?_
    rintro (r | ch) -
    · exact (startResponse_goOn P L p r c).symm
    · exact feedBody_append P L p hreply hdone
  · apply yields_then
    rintro (r | ch)
    · exact startResponse_past p r c
    · exact feedBody_past P L p (c := { c with chunk := some ch }) hdone rest

theorem consoleRequest_append (k : Console) (hreply : c.reply = none) (hdone : c.headersDone = true)
    (rest : List UInt8) :
    play (consoleRequest P L p k s c (rest ++ cs)) =
      play ((consoleRequest P L p k s c rest).bind
        (andThen fun k s c => feedStream P L p k s c cs)) := by
  unfold consoleRequest
  cases routeConsole k.busy c.header with
  | rejected => exact keep_append P L p k (startResponse_goOn P L p _ c).symm (startResponse_past p _ c)
  | busy => exact keep_append P L p k (startResponse_goOn P L p _ c).symm (startResponse_past p _ c)
  | deferred line =>
    exact keep_append P L p _ (feedBody_append P L p hreply hdone) (feedBody_past P L p hdone rest)

/-- **Two pieces of a stream.** -/
theorem feed_append (k : Console) (s : Web) (c : Conn) (bs cs : List UInt8) :
    play (feedStream P L p k s c (bs ++ cs)) =
      play ((feedStream P L p k s c bs).bind (andThen fun k s c => feedStream P L p k s c cs)) := by
  by_cases hpast : (c.reply.isSome || c.headersDone) = true
  · have hstream : ∀ bs, feedStream P L p k s c bs = k.keep (feedBytes P L p s c bs) :=
      fun _ => if_pos hpast
    rw [hstream, hstream]
    cases hreply : c.reply with
    | some r =>
      have hret : ∀ bs, feedBytes P L p s c bs = .ret (s, some c) :=
        fun _ => if_pos (by rw [hreply]; rfl)
      refine keep_append P L p k ?_ ?_
      · rw [hret, hret, ret_bind]
        exact congrArg play (hret cs).symm
      · rw [hret]
        apply yields_ret
        rintro _ ⟨⟩
        exact hpast
    | none =>
      have hdone : c.headersDone = true := by simpa [hreply] using hpast
      refine keep_append P L p k ?_ ?_
      · rw [feedBytes_done P L p hreply hdone, feedBytes_done P L p hreply hdone]
        exact feedBody_append P L p hreply hdone
      · rw [feedBytes_done P L p hreply hdone]
        exact feedBody_past P L p hdone bs
  · have hreply : c.reply = none := by
      cases h : c.reply with
      | none => rfl
      | some r => simp [h] at hpast
    rw [feedStream_header P L p k hpast, feedStream_header P L p k hpast, feedHeader_append]
    cases feedHeader c.reqhdr bs with
    | more h => exact congrArg play (feedStream_header P L p k (c := { c with reqhdr := h }) hpast).symm
    | overflow h => rfl
    | complete h rest =>
      dsimp only
      split_ifs
      · exact consoleRequest_append P L p k (c := c.routed h) hreply rfl rest
      · obtain ⟨heq, hq⟩ := feedRouted_append P L p (c := c.routed h) hreply rfl rest
        exact keep_append P L p k heq hq

/-- **Segmentation makes no difference.** -/
theorem feed_segments (k : Console) (s : Web) (c : Conn) (segs : List (List UInt8))
    (os : ℕ → Outcome) (w : World) :
    play (feedSegments P L p k s c segs) (os, w) =
      play (feedStream P L p k s c segs.flatten) (os, w) := by
  suffices h : ∀ k s c, play (feedSegments P L p k s c segs) =
      play (feedStream P L p k s c segs.flatten) from congrFun (h k s c) (os, w)
  induction segs with
  | nil =>
    intro k s c
    have hnil : feedStream P L p k s c [] = .ret (k, s, some c) := by
      by_cases hpast : (c.reply.isSome || c.headersDone) = true
      · rw [feedStream, if_pos hpast, feedBytes_nil]
        cases k <;> rfl
      · rw [feedStream_header P L p k hpast]
        rfl
    exact congrArg play hnil.symm
  | cons bs segs ih =>
    intro k s c
    rw [List.flatten_cons, feed_append]
    refine play_bind_congr (yields_true _) ?_
    rintro ⟨k, s, _ | c⟩ -
    · rfl
    · exact ih k s c

end Pieces

end UrsusBoot
